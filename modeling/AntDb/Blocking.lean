/-
  What `update_row` asks for while it holds the lock of the row's page.

  Its validation is a list of checks; each reads some pages and passes or fails, and the
  first that fails ends it.  The call waits for its own page exactly when a page that is read
  is that page, or when making the pages resident one after another evicts it.
-/
import AntDb.View
import AntDb.Ddl

namespace AntDb

/-- A check of the validation: the pages it reads, in this order, and whether it passes. -/
structure Check where
  pages : List PageID
  passes : Bool
deriving DecidableEq

namespace Check

/-- The pages read until a check fails. -/
def pagesRead : List Check → List PageID
  | [] => []
  | c :: checks => c.pages ++ if c.passes then pagesRead checks else []

/-- A check that reads nothing and fails. -/
def refusal : Check := ⟨[], false⟩

variable {checks checks' : List Check} {c : Check}

@[simp] theorem pagesRead_nil : pagesRead [] = [] := rfl

@[simp] theorem pagesRead_singleton : pagesRead [c] = c.pages := by
  rw [pagesRead, pagesRead_nil, ite_self, List.append_nil]

theorem pagesRead_append : pagesRead (checks ++ checks') =
    pagesRead checks ++ if ∀ c ∈ checks, c.passes = true then pagesRead checks' else [] := by
  induction checks with
  | nil => simp
  | cons c checks ih =>
    rw [List.cons_append, pagesRead, pagesRead, ih, List.append_assoc]
    cases hc : c.passes <;> simp [hc]

end Check

namespace Table

open Call TableM Check

/-! ## The checks of a validation -/

variable (t : Table) (txn : Transaction) (others : ForeignTables) (excludeRowId : Option RowID)

/-- What the transaction sees of a row. -/
def versionAt (rowId : RowID) : Option InternalRow := (t.rowAt rowId).bind (·.getVersionedRow txn)

/-- Reading a row, which must be mapped. -/
def rowCheck (rowId : RowID) (passes : Bool) : Check :=
  match t.rowLocations[rowId]? with
  | none => refusal
  | some p => ⟨[p], passes⟩

def holdsValue (columnId : ColumnID) (value : DataBaseDataEntry) (version : InternalRow) : Bool :=
  (version.data[columnId]?.map (·.eq value)).getD false

/-- The rows of a page whose visible version has the value. -/
def rowsWithValue (columnId : ColumnID) (value : DataBaseDataEntry) (p : PageID) : List RowID :=
  (((t.content p).map (·.rows.toList)).getD []).filterMap fun x =>
    if (x.2.getVersionedRow txn).any (holdsValue columnId value) then some x.1 else none

/-- `lookup_rows_by_column_value` must find a row. -/
def referenceChecks (columnId : ColumnID) (value : DataBaseDataEntry) : List Check :=
  match t.columns[columnId]? with
  | none => [refusal]
  | some column =>
    match column.indexLookup value txn with
    | some rowIds => rowIds.map (t.rowCheck · true) ++
        [⟨[], rowIds.any fun rowId => (t.versionAt txn rowId).isSome⟩]
    | none => [⟨t.referencedPages.toList,
        t.referencedPages.toList.any fun p => !(t.rowsWithValue txn columnId value p).isEmpty⟩]

def foreignKeyChecks (tableId : TableID) (columnId : ColumnID) (value : DataBaseDataEntry) :
    List Check :=
  if value.isNull then []
  else match others tableId with
    | some answer => [⟨[], decide (answer columnId value = .ok true)⟩]
    | none => if tableId = t.tableId then t.referenceChecks txn columnId value else [refusal]

/-- The value of a unique column must not be that of another row. -/
def uniqueChecks (column : InternalColumn) (columnId : ColumnID) (value : DataBaseDataEntry) :
    List Check :=
  match column.index with
  | none => [refusal]
  | some index =>
    ((index.filed (value.key column.columnId)).toList.filter (some · ≠ excludeRowId)).map fun rowId =>
      t.rowCheck rowId
        !(((t.versionAt txn rowId).bind (·.data[columnId]?)).any (·.eq value))

def constraintChecks (column : InternalColumn) (columnId : ColumnID) (value : DataBaseDataEntry) :
    Constraint → List Check
  | .notNull => [⟨[], !value.isNull⟩]
  | .unique | .primaryKey => t.uniqueChecks txn excludeRowId column columnId value
  | .foreignKey table column => t.foreignKeyChecks txn others table column value
  | .check => [⟨[], value.isNull⟩]
  | .autoIncrement => []

def columnChecks (data : RowData) (x : ColumnID × Column) : List Check :=
  match x.2.getVersionedColumn txn with
  | none => []
  | some version =>
    if !validateDataType (data[x.1]?.getD .null) version.dataType version.isNullable then [refusal]
    else version.constraints.toList.flatMap
      (t.constraintChecks txn others excludeRowId version x.1 (data[x.1]?.getD .null))

/-- The checks of `validate_row_data`. -/
def checks (data : RowData) : List Check :=
  t.columns.toList.flatMap (t.columnChecks txn others excludeRowId data)

/-! ## Reading pages in turn -/

variable {t txn others excludeRowId} {t₀ t' : Table} {held : Option PageID} {L : PageID → Prop}
  {α β : Type} {p : PageID} {ps qs : List PageID} {r : Except Fault α} {r' : Except Fault β}

/-- Evictions and loads do not change the rows of any page. -/
def Settled (t : Table) : Prop :=
  ∀ p page page', t.Stored p page → t.Stored p page' → page.rows = page'.rows

/-- `t` is `t₀` after pages have moved. -/
structure Shifted (t₀ t : Table) : Prop where
  rowLocations : t.rowLocations = t₀.rowLocations
  columns : t.columns = t₀.columns
  tableId : t.tableId = t₀.tableId
  stored : ∀ p page, t.Stored p page → ∃ page₀, t₀.content p = some page₀ ∧ page.rows = page₀.rows

theorem Settled.shifted (h : t.Settled) : t.Shifted t where
  rowLocations := rfl
  columns := rfl
  tableId := rfl
  stored p page hs := by
    cases hp : t.content p with
    | some page₀ => exact ⟨page₀, rfl, h p page page₀ hs (stored_content hp)⟩
    | none =>
      rw [content, Option.or_eq_none_iff] at hp
      rcases hs with hs | ⟨hs, -⟩
      · rw [hp.1] at hs; cases hs
      · rw [hp.2] at hs; cases hs

/-- Without a memory limit no page is ever evicted. -/
theorem settled_unlimited (h : t.memoryLimit = 0) : t.Settled := by
  have hcontent : ∀ p page, t.Stored p page → t.content p = some page := by
    rintro p page (hs | ⟨hs, hrev⟩)
    · exact content_of_resident hs
    · cases hp : t.rowSpace.get? p with
      | some page' => exact absurd h (hrev page' hp).1
      | none => rw [content, hp, hs]; rfl
  intro p page page' hs hs'
  rw [Option.some.inj ((hcontent p page hs).symm.trans (hcontent p page' hs'))]

theorem not_resident_iff : ¬ t.Resident p ↔ t.rowSpace.get? p = none := by
  rw [Resident, ← Option.isSome_iff_exists, Bool.not_eq_true, Option.isSome_eq_false_iff,
    Option.isNone_iff_eq_none]

theorem settled_good (h : t.Good) : t.Settled := by
  intro p page page' hs hs'
  by_cases hp : t.Resident p
  · exact h.settled p (Or.inl hp) id page page' hs hs'
  · have hnone := not_resident_iff.1 hp
    rw [Option.some.inj (((stored_absent hnone).1 hs).symm.trans ((stored_absent hnone).1 hs'))]

theorem Shifted.moved (h : t₀.Shifted t) (hm : Moved L t t') : t₀.Shifted t' where
  rowLocations := hm.rowLocations.trans h.rowLocations
  columns := hm.columns.trans h.columns
  tableId := hm.tableId.trans h.tableId
  stored p page hs := h.stored p page (hm.stored p page hs)

/-- Make a page resident and ask for its lock. -/
def readPage (p : PageID) : TableM Unit := do
  let page ← ensurePageResident p
  lockPage page.pageId

def readPages (ps : List PageID) : TableM Unit := ps.forM readPage

theorem readPages_append : readPages (ps ++ qs) held t = (readPages ps >>= fun _ => readPages qs) held t := by
  unfold readPages
  induction ps generalizing t with
  | nil => rfl
  | cons p ps ih =>
    show (readPage p >>= fun _ => (ps ++ qs).forM readPage) held t =
      ((readPage p >>= fun _ => ps.forM readPage) >>= fun _ => qs.forM readPage) held t
    rw [bind_run, bind_run, bind_run]
    rcases readPage p held t with ⟨_ | _, t'⟩
    · rfl
    · exact ih

theorem Shifted.readPage (h : t₀.Shifted t) (hok : readPage p held t = (.ok (), t')) : t₀.Shifted t' := by
  unfold Table.readPage at hok
  rw [bind_run] at hok
  have hspec := ensurePageResident_spec p held t
  generalize ensurePageResident p held t = outcome at hok hspec
  obtain ⟨e | page, t''⟩ := outcome
  · cases hok
  · have hm := (hspec.resolve_left fun h => by cases h.1).2.2.1
    dsimp only [lockPage] at hok
    split_ifs at hok
    · cases (Prod.mk.inj hok).1
    · obtain rfl := (Prod.mk.inj hok).2
      exact h.moved hm

theorem Shifted.readPages (h : t₀.Shifted t) (hok : readPages ps held t = (.ok (), t')) :
    t₀.Shifted t' := by
  induction ps generalizing t with
  | nil =>
    obtain rfl := (Prod.mk.inj hok).2
    exact h
  | cons p ps ih =>
    have hok : (Table.readPage p >>= fun _ => Table.readPages ps) held t = (.ok (), t') := hok
    rw [bind_run] at hok
    cases hp : Table.readPage p held t with
    | mk r t'' =>
      rw [hp] at hok
      cases r with
      | error e => cases hok
      | ok _ => exact ih (h.readPage hp) hok

/-- The call reads the pages `ps`; unless that fails, `r` is its result. -/
def Reads (t₀ : Table) (held : Option PageID) (x : TableM α) (ps : List PageID) (r : Except Fault α) :
    Prop :=
  ∀ t, t₀.Shifted t → x held t = (readPages ps >>= fun _ => ofExcept r) held t

namespace Reads

variable {x : TableM α} {f : α → TableM β}

theorem pure {a : α} : Reads t₀ held (pure a) [] (.ok a) := fun _ _ => rfl

theorem fail {e : Fault} : Reads t₀ held (fail e : TableM α) [] (.error e) := fun _ _ => rfl

theorem bind (hx : Reads t₀ held x ps r) (hf : ∀ a, r = .ok a → Reads t₀ held (f a) qs r')
    (he : ∀ e, r = .error e → qs = [] ∧ r' = .error e) : Reads t₀ held (x >>= f) (ps ++ qs) r' := by
  intro t ht
  rw [bind_run, hx t ht, bind_run, bind_run, readPages_append, bind_run]
  cases hps : readPages ps held t with
  | mk outcome t' =>
    cases outcome with
    | error e => rfl
    | ok _ =>
      cases r with
      | error e =>
        obtain ⟨rfl, rfl⟩ := he e rfl
        rfl
      | ok a => exact hf a rfl t' (ht.readPages hps)

theorem failed {e : Fault} (hx : Reads t₀ held x ps (.error e)) :
    Reads t₀ held (x >>= f) ps (.error e) := by
  have h : Reads t₀ held (x >>= f) (ps ++ []) (.error e) :=
    hx.bind (fun a h => by cases h) fun e' h => ⟨rfl, by rw [Except.error.inj h]⟩
  rwa [List.append_nil] at h

/-- After a call that cannot fail. -/
theorem followed {a : α} (hx : Reads t₀ held x ps (.ok a)) (hf : Reads t₀ held (f a) qs r') :
    Reads t₀ held (x >>= f) (ps ++ qs) r' :=
  hx.bind (fun a' h => by rw [← Except.ok.inj h]; exact hf) fun e h => by cases h

theorem get {f : Table → TableM α} (h : ∀ t, t₀.Shifted t → Reads t₀ held (f t) ps r) :
    Reads t₀ held (Call.get >>= f) ps r := fun t ht => h t ht t ht

theorem page {f : Page → TableM α}
    (hf : ∀ page page₀, t₀.content p = some page₀ → page.rows = page₀.rows →
      Reads t₀ held (f page) qs r) :
    Reads t₀ held (do let page ← ensurePageResident p; lockPage page.pageId; f page) (p :: qs) r := by
  intro t ht
  have hspec := ensurePageResident_spec p held t
  show _ = ((Table.readPage p >>= fun _ => readPages qs) >>= fun _ => ofExcept r) held t
  unfold Table.readPage
  rw [bind_run, bind_run, bind_run, bind_run]
  generalize ensurePageResident p held t = outcome at hspec
  obtain ⟨e | page, t'⟩ := outcome
  · rfl
  · obtain ⟨hstored, -, hm, -⟩ := hspec.resolve_left fun h => by cases h.1
    obtain ⟨page₀, hcontent, hrows⟩ := ht.stored p page (hstored page rfl)
    dsimp only
    rw [bind_run]
    unfold lockPage
    split_ifs
    · rfl
    · exact hf page page₀ hcontent hrows t' (ht.moved hm)

end Reads

/-! ## What validation reads -/

/-- The call runs the checks and succeeds if they all pass. -/
def Performs (t₀ : Table) (held : Option PageID) (x : TableM Unit) (checks : List Check) : Prop :=
  ∃ r, Reads t₀ held x (pagesRead checks) r ∧ r ≠ .error .blocked ∧
    (r = .ok () ↔ ∀ c ∈ checks, c.passes = true)

namespace Performs

variable {x y : TableM Unit} {checks checks' : List Check} {γ : Type} {l : List γ}

theorem pure : Performs t₀ held (pure ()) [] := ⟨_, Reads.pure, nofun, by simp⟩

theorem throw {e : DataBaseErrors} : Performs t₀ held (throw e) [refusal] :=
  ⟨_, Reads.fail, nofun, by simp [refusal]⟩

/-- A call that reads the pages of one check. -/
theorem single {r : Except Fault Unit} (hx : Reads t₀ held x ps r) (hblocked : r ≠ .error .blocked) {passes : Bool}
    (hr : r = .ok () ↔ passes = true) : Performs t₀ held x [⟨ps, passes⟩] :=
  ⟨r, by rwa [pagesRead_singleton], hblocked, by simpa using hr⟩

theorem append (hx : Performs t₀ held x checks) (hy : Performs t₀ held y checks') :
    Performs t₀ held (x >>= fun _ => y) (checks ++ checks') := by
  obtain ⟨r, hreads, hblocked, hr⟩ := hx
  obtain ⟨r', hreads', hblocked', hr'⟩ := hy
  have hall : (∀ c ∈ checks ++ checks', c.passes = true) ↔
      (∀ c ∈ checks, c.passes = true) ∧ ∀ c ∈ checks', c.passes = true := by
    simp only [List.mem_append, or_imp, forall_and]
  rw [Performs, pagesRead_append, hall]
  cases r with
  | ok _ =>
    rw [if_pos (hr.1 rfl)]
    exact ⟨r', hreads.followed hreads', hblocked', hr'.trans (and_iff_right (hr.1 rfl)).symm⟩
  | error e =>
    have hfails : ¬ ∀ c ∈ checks, c.passes = true := fun h => nomatch hr.2 h
    rw [if_neg hfails]
    refine ⟨.error e, hreads.bind (fun _ h => by cases h) fun e' h => ⟨rfl, ?_⟩, ?_, ?_⟩
    · rw [Except.error.inj h]
    · rintro h
      exact hblocked (congrArg _ (Except.error.inj h))
    · exact iff_of_false nofun fun h => hfails h.1

/-- A call that depends on the columns and the row map only. -/
theorem get {f : Table → TableM Unit} (hf : ∀ t, t₀.Shifted t → f t = f t₀)
    (h : Performs t₀ held (f t₀) checks) : Performs t₀ held (Call.get >>= f) checks := by
  obtain ⟨r, hreads, hr⟩ := h
  exact ⟨r, Reads.get fun t ht => by rw [hf t ht]; exact hreads, hr⟩

theorem forM {f : γ → TableM Unit} {g : γ → List Check} (h : ∀ a ∈ l, Performs t₀ held (f a) (g a)) :
    Performs t₀ held (l.forM f) (l.flatMap g) := by
  induction l with
  | nil => exact pure
  | cons a l ih =>
    rw [List.flatMap_cons]
    exact (h a (by simp)).append (ih fun a ha => h a (List.mem_cons_of_mem _ ha))

end Performs

variable {rowId : RowID} {columnId : ColumnID} {value : DataBaseDataEntry}

theorem reads_withRow_unmapped (h : t₀.rowLocations[rowId]? = none) :
    Reads t₀ held (withRow rowId) [] (.error (.err (.rowNotFound rowId))) := by
  unfold withRow pageForRow
  refine Reads.failed (Reads.get fun t ht => ?_)
  rw [ht.rowLocations, h]
  exact Reads.fail

theorem reads_withRow (h : t₀.rowLocations[rowId]? = some p) :
    Reads t₀ held (withRow rowId) [p] (.ok (t₀.rowAt rowId)) := by
  intro t ht
  have hpage : Reads t₀ held (do
      let page ← ensurePageResident p
      lockPage page.pageId
      Pure.pure page.rows[rowId]?) [p] (.ok (t₀.rowAt rowId)) := by
    refine Reads.page fun page page₀ hcontent hrows => ?_
    rw [rowAt, rowIn, h, Option.bind_some, hcontent, Option.bind_some, hrows]
    exact Reads.pure
  rw [← hpage t ht]
  unfold withRow pageForRow
  rw [bind_run, get_bind, ht.rowLocations, h]
  rfl

theorem performs_lookup {e : DataBaseErrors} :
    Performs t₀ held (do
      match ← withVersionedColumnEntry rowId columnId txn with
      | some lookupValue => if lookupValue.eq value then throw e else pure ()
      | none => pure ())
      [t₀.rowCheck rowId !(((t₀.versionAt txn rowId).bind (·.data[columnId]?)).any (·.eq value))] := by
  unfold withVersionedColumnEntry rowCheck
  cases hr : t₀.rowLocations[rowId]? with
  | none =>
    exact Performs.single (reads_withRow_unmapped hr).failed.failed nofun (by simp)
  | some p =>
    have hentry : Reads t₀ held
        (withRow rowId >>= fun row => pure ((row.bind (·.getVersionedRow txn)).bind (·.data[columnId]?)))
        ([p] ++ []) (.ok (((t₀.rowAt rowId).bind (·.getVersionedRow txn)).bind (·.data[columnId]?))) :=
      (reads_withRow hr).followed Reads.pure
    rw [versionAt]
    cases hfound : ((t₀.rowAt rowId).bind (·.getVersionedRow txn)).bind (·.data[columnId]?) with
    | none =>
      rw [hfound] at hentry
      exact Performs.single (r := .ok ()) (hentry.followed Reads.pure) nofun (by simp)
    | some lookupValue =>
      rw [hfound] at hentry
      cases heq : lookupValue.eq value with
      | false =>
        refine Performs.single (r := .ok ()) (hentry.followed ?_) nofun (by simp [heq])
        dsimp only
        rw [heq, if_neg Bool.false_ne_true]
        exact Reads.pure
      | true =>
        refine Performs.single (r := .error (.err e)) (hentry.followed ?_) nofun (by simp [heq])
        dsimp only
        rw [heq, if_pos rfl]
        exact Reads.fail

/-- The rows of an index entry are read one after another, up to one that is not mapped. -/
theorem reads_filterVisibleIndexCandidates (rowIds found : List RowID) :
    ∃ r, Reads t₀ held (rowIds.foldlM (fun visible rowId => do
        let row ← withRow rowId
        return if ((row.bind (·.getVersionedRow txn)).isSome) then visible ++ [rowId] else visible) found)
        (pagesRead (rowIds.map (t₀.rowCheck · true))) r ∧ r ≠ .error .blocked ∧
      ((∃ visible, r = .ok visible) ↔ ∀ c ∈ rowIds.map (t₀.rowCheck · true), c.passes = true) ∧
      ∀ visible, r = .ok visible → (visible.isEmpty = false ↔
        found.isEmpty = false ∨ rowIds.any (fun rowId => (t₀.versionAt txn rowId).isSome) = true) := by
  induction rowIds generalizing found with
  | nil =>
    refine ⟨.ok found, Reads.pure, nofun, by simp, fun visible h => ?_⟩
    rw [← Except.ok.inj h]; simp
  | cons rowId rowIds ih =>
    rw [List.map_cons, pagesRead, rowCheck]
    cases hr : t₀.rowLocations[rowId]? with
    | none =>
      refine ⟨.error (.err (.rowNotFound rowId)), (reads_withRow_unmapped hr).failed.failed, nofun,
        iff_of_false nofun fun h => ?_, nofun⟩
      cases h refusal (by simp)
    | some p =>
      rw [if_pos rfl]
      have hrow : Reads t₀ held
          (withRow rowId >>= fun row =>
            pure (if ((row.bind (·.getVersionedRow txn)).isSome) then found ++ [rowId] else found))
          ([p] ++ []) (.ok (if (((t₀.rowAt rowId).bind (·.getVersionedRow txn)).isSome)
            then found ++ [rowId] else found)) :=
        (reads_withRow hr).followed Reads.pure
      obtain ⟨r, hreads, hblocked, hok, hvisible⟩ := ih
        (if (t₀.versionAt txn rowId).isSome then found ++ [rowId] else found)
      refine ⟨r, hrow.followed hreads, hblocked, hok.trans ?_, fun visible h => (hvisible visible h).trans ?_⟩
      · simp
      · rw [List.any_cons]
        cases (t₀.versionAt txn rowId).isSome <;> simp

theorem reads_scan (pages : List PageID) (found : List RowID) :
    Reads t₀ held (pages.foldlM (fun acc pageId => do
        let page ← ensurePageResident pageId
        lockPage page.pageId
        page.rows.toList.foldlM (fun acc x =>
          match x.2.getVersionedRow txn with
          | some version => TableM.ofResult (.ok (if (version.data[columnId]?.map (·.eq value)).getD false
              then acc ++ [x.1] else acc))
          | none => Pure.pure acc) acc) found) pages
      (.ok (found ++ pages.flatMap (t₀.rowsWithValue txn columnId value))) := by
  have hrows : ∀ (rows : List (RowID × Row)) (found : List RowID),
      Reads t₀ held (rows.foldlM (fun acc x =>
          match x.2.getVersionedRow txn with
          | some version => TableM.ofResult (.ok (if (version.data[columnId]?.map (·.eq value)).getD false
              then acc ++ [x.1] else acc))
          | none => Pure.pure acc) found) []
        (.ok (found ++ rows.filterMap fun x =>
          if (x.2.getVersionedRow txn).any (holdsValue columnId value) then some x.1 else none)) := by
    intro rows
    induction rows with
    | nil => intro found; rw [List.filterMap_nil, List.append_nil]; exact Reads.pure
    | cons x rows ih =>
      intro found
      rw [List.foldlM_cons, List.filterMap_cons]
      cases hx : x.2.getVersionedRow txn with
      | none => exact ih found
      | some version =>
        rw [Option.any_some, holdsValue]
        dsimp only
        cases (version.data[columnId]?.map (·.eq value)).getD false with
        | true =>
          have := ih (found ++ [x.1])
          rw [List.append_assoc] at this
          exact this
        | false => exact ih found
  induction pages generalizing found with
  | nil => rw [List.flatMap_nil, List.append_nil]; exact Reads.pure
  | cons p pages ih =>
    rw [List.foldlM_cons, List.flatMap_cons, ← List.append_assoc]
    refine @Reads.followed _ _ _ _ [p] _ _ _ _ _ (Reads.page fun page page₀ hcontent hpage => ?_) (ih _)
    rw [rowsWithValue, hcontent, hpage]
    exact hrows _ found

/-- A reference is refused unless the lookup finds a row. -/
theorem reads_reference {e : DataBaseErrors} {found : Except Fault (List RowID)} (passes : Bool)
    (hreads : Reads t₀ held (lookupRowsByColumnValue columnId value txn) ps found)
    (hblocked : found ≠ .error .blocked)
    (hfound : (∃ rowIds, found = .ok rowIds ∧ rowIds.isEmpty = false) ↔ passes = true) :
    ∃ r, Reads t₀ held (do
      if ← referencedValueExists columnId value txn then pure () else throw e) ps r ∧
        r ≠ .error .blocked ∧ (r = .ok () ↔ passes = true) := by
  rw [← hfound]
  cases found with
  | error fault =>
    refine ⟨.error fault, hreads.failed.failed, fun h => hblocked ?_, by simp⟩
    rw [Except.error.inj h]
  | ok rowIds =>
    have hexists := hreads.followed
      (f := fun rowIds => (pure (!rowIds.isEmpty) : TableM Bool)) Reads.pure
    have hthen : ∃ r : Except Fault Unit,
        Reads t₀ held (if !rowIds.isEmpty then pure () else throw e) [] r ∧ r ≠ .error .blocked ∧
          (r = .ok () ↔ rowIds.isEmpty = false) := by
      cases rowIds.isEmpty with
      | true => exact ⟨.error (.err e), Reads.fail, nofun, by simp⟩
      | false => exact ⟨.ok (), Reads.pure, nofun, by simp⟩
    obtain ⟨r, hr, hne, hok⟩ := hthen
    have hall := hexists.followed (f := fun found => if found then pure () else throw e) hr
    rw [List.append_nil, List.append_nil] at hall
    refine ⟨r, hall, hne, hok.trans ⟨fun h => ⟨rowIds, rfl, h⟩, ?_⟩⟩
    rintro ⟨rowIds', h, hempty⟩
    rwa [Except.ok.inj h]

theorem performs_reference {e : DataBaseErrors} :
    Performs t₀ held (do
      if ← referencedValueExists columnId value txn then pure () else throw e)
      (t₀.referenceChecks txn columnId value) := by
  rw [referenceChecks]
  cases hc : t₀.columns[columnId]? with
  | none =>
    have hlookup : Reads t₀ held (lookupRowsByColumnValue columnId value txn) []
        (.error (.err (.queryError "Column not found while resolving join lookup"))) :=
      Reads.get fun t ht => by rw [ht.columns, hc]; exact Reads.fail
    obtain ⟨r, hreads, hblocked, hr⟩ := reads_reference (e := e) false hlookup (by simp) (by simp)
    exact Performs.single hreads hblocked hr
  | some column =>
    dsimp only
    cases hi : column.indexLookup value txn with
    | some rowIds =>
      obtain ⟨found, hfound, hblocked, hok, hvisible⟩ :=
        @reads_filterVisibleIndexCandidates txn t₀ held rowIds []
      have hlookup : Reads t₀ held (lookupRowsByColumnValue columnId value txn)
          (pagesRead (rowIds.map (t₀.rowCheck · true))) found :=
        Reads.get fun t ht => by rw [ht.columns, hc]; dsimp only; rw [hi]; exact hfound
      obtain ⟨r, hreads, hne, hr⟩ := reads_reference (e := e) (decide (
          (∀ c ∈ rowIds.map (t₀.rowCheck · true), c.passes = true) ∧
            rowIds.any (fun rowId => (t₀.versionAt txn rowId).isSome) = true)) hlookup hblocked (by
        rw [decide_eq_true_iff, ← hok]
        constructor
        · rintro ⟨visible, rfl, hany⟩
          exact ⟨⟨visible, rfl⟩, ((hvisible visible rfl).1 hany).resolve_left (by simp)⟩
        · rintro ⟨⟨visible, rfl⟩, hany⟩
          exact ⟨visible, rfl, (hvisible visible rfl).2 (Or.inr hany)⟩)
      refine ⟨r, ?_, hne, hr.trans ?_⟩
      · rw [pagesRead_append, pagesRead_singleton, ite_self, List.append_nil]
        exact hreads
      · simp only [decide_eq_true_eq, List.mem_append, or_imp, forall_and, List.mem_singleton, forall_eq]
    | none =>
      have hlookup : Reads t₀ held (lookupRowsByColumnValue columnId value txn)
          t₀.referencedPages.toList
          (.ok ([] ++ t₀.referencedPages.toList.flatMap (t₀.rowsWithValue txn columnId value))) := by
        refine Reads.get fun t ht => ?_
        rw [ht.columns, hc]
        dsimp only
        rw [hi]
        refine Reads.get fun t' ht' => ?_
        have hpages : t'.referencedPages = t₀.referencedPages := by
          rw [referencedPages, ht'.rowLocations, referencedPages]
        rw [hpages]
        exact reads_scan t₀.referencedPages.toList []
      obtain ⟨r, hreads, hblocked, hr⟩ := reads_reference (e := e)
        (t₀.referencedPages.toList.any fun p => !(t₀.rowsWithValue txn columnId value p).isEmpty)
        hlookup (by simp) (by simp [List.isEmpty_eq_false_iff])
      exact Performs.single hreads hblocked hr

theorem performs_foreignKey {tableId : TableID} {e : DataBaseErrors} :
    Performs t₀ held (do
      if ← foreignKeyValueExists others txn tableId columnId value then pure () else throw e)
      (t₀.foreignKeyChecks txn others tableId columnId value) := by
  unfold foreignKeyValueExists foreignKeyChecks
  by_cases hnull : value.isNull = true
  · rw [if_pos hnull, if_pos hnull]
    exact Performs.pure
  · rw [if_neg hnull, if_neg hnull]
    cases others tableId with
    | some answer =>
      dsimp only
      cases hanswer : answer columnId value with
      | error fault =>
        exact Performs.single (Reads.fail (e := .err fault)).failed nofun (by simp)
      | ok found =>
        cases found with
        | true => exact Performs.single (Reads.pure (a := ())) nofun (by simp)
        | false => exact Performs.single (Reads.fail (e := .err e)) nofun (by simp)
    | none =>
      dsimp only
      by_cases hid : tableId = t₀.tableId
      · rw [if_pos hid]
        obtain ⟨r, hreads, hr⟩ := @performs_reference txn t₀ held columnId value e
        refine ⟨r, fun t ht => ?_, hr⟩
        rw [← hreads t ht]
        show Call.bind (if tableId = t.tableId then _ else _ : TableM Bool) _ held t = _
        rw [if_pos (hid.trans ht.tableId.symm)]
        rfl
      · rw [if_neg hid]
        refine @Performs.single t₀ held [] _ (.error (.err e)) (fun t ht => ?_) nofun
          false (by simp)
        show Call.bind (if tableId = t.tableId then _ else _ : TableM Bool) _ held t = _
        rw [if_neg fun h => hid (h.trans ht.tableId)]
        rfl

theorem performs_unique {column : InternalColumn} :
    Performs t₀ held (match column.index with
      | none => throw (.indexNotFound column.name)
      | some index => (index.filed (value.key column.columnId)).toList.forM fun rowId =>
          if some rowId = excludeRowId then pure ()
          else do
            match ← withVersionedColumnEntry rowId columnId txn with
            | some lookupValue =>
              if lookupValue.eq value then throw (.uniqueConstraint column.name) else pure ()
            | none => pure ())
      (t₀.uniqueChecks txn excludeRowId column columnId value) := by
  unfold uniqueChecks
  cases column.index with
  | none => exact Performs.throw
  | some index =>
    dsimp only
    generalize (index.filed (value.key column.columnId)).toList = rowIds
    induction rowIds with
    | nil => exact Performs.pure
    | cons rowId rowIds ih =>
      by_cases hexcluded : some rowId = excludeRowId
      · rw [List.filter_cons_of_neg (by simpa using hexcluded)]
        refine @Performs.append t₀ held _ _ [] _ ?_ ih
        beta_reduce
        rw [if_pos hexcluded]
        exact Performs.pure
      · rw [List.filter_cons_of_pos (by simpa using hexcluded), List.map_cons]
        refine @Performs.append t₀ held _ _ [_] _ ?_ ih
        beta_reduce
        rw [if_neg hexcluded]
        exact performs_lookup

theorem performs_schemaValidation {version : InternalColumn} :
    Performs t₀ held (version.schemaValidation value
      (fun rowId => withVersionedColumnEntry rowId columnId txn) (foreignKeyValueExists others txn)
      excludeRowId)
      (version.constraints.toList.flatMap
        (t₀.constraintChecks txn others excludeRowId version columnId value)) := by
  unfold InternalColumn.schemaValidation
  refine Performs.forM fun c _ => ?_
  cases c
  case notNull =>
    dsimp only [constraintChecks]
    cases value.isNull with
    | true => exact Performs.throw
    | false => exact Performs.single (Reads.pure (a := ())) nofun (by simp)
  case unique | primaryKey => exact performs_unique
  case foreignKey table columnId =>
    dsimp only [constraintChecks]
    cases hnull : value.isNull with
    | true =>
      rw [foreignKeyChecks, if_pos hnull]
      exact Performs.pure
    | false => exact performs_foreignKey
  case check =>
    dsimp only [constraintChecks]
    cases value.isNull with
    | true => exact Performs.single (Reads.pure (a := ())) nofun (by simp)
    | false => exact Performs.throw
  case autoIncrement => exact Performs.pure

/-- **Validation runs its checks.** -/
theorem performs_validateRowData {data : RowData} :
    Performs t₀ held (validateRowData data txn excludeRowId (foreignKeyValueExists others txn))
      (t₀.checks txn others excludeRowId data) := by
  unfold validateRowData
  refine Performs.get (fun t ht => by rw [ht.columns]) (Performs.forM fun x _ => ?_)
  unfold columnChecks Column.schemaValidation
  cases x.2.getVersionedColumn txn with
  | none => exact Performs.pure
  | some version =>
    dsimp only
    split_ifs
    · exact Performs.throw
    · exact performs_schemaValidation

/-! ## Evicting the page whose lock is held -/

variable {home : PageID} {pinned : Option PageID}

/-- The call holding `home` does what it does without a lock and `home` stays resident, or it
    waits where the call without a lock evicts `home`. -/
def Agrees (home : PageID) (x : TableM α) (t : Table) : Prop :=
  (x (some home) t = x none t ∧ (x none t).2.Resident home) ∨
    ((x (some home) t).1 = .error .blocked ∧ ¬ (x none t).2.Resident home)

theorem agrees_evictPage (h : t.Resident home) : Agrees home (evictPage p) t := by
  obtain ⟨own, hown⟩ := h
  unfold Agrees
  by_cases hp : p = home
  · subst hp
    right
    have hid := PageMap.pageId_of_get hown
    constructor
    · rw [evictPage_run, hown]
      dsimp only
      rw [flushAndEvictPage_run, if_pos (congrArg some hid.symm)]
    · rw [not_resident_iff, evictPage_run, hown]
      have hdropped : (t.dropped p).rowSpace.get? p = none := by rw [get_dropped, if_pos rfl]
      dsimp only
      rw [flushAndEvictPage_run, if_neg (by simp)]
      split_ifs
      · cases (t.dropped p).pageStore.writeFault <;> exact hdropped
      · exact hdropped
  · left
    refine ⟨?_, own, by rw [get_evictPage hp, hown]⟩
    rw [evictPage_run, evictPage_run]
    cases hpage : t.rowSpace.get? p with
    | none => rfl
    | some page =>
      have hfree : some home ≠ some page.pageId := by
        rw [PageMap.pageId_of_get hpage]
        exact fun h => hp (Option.some.inj h).symm
      dsimp only
      rw [flushAndEvictPage_run, flushAndEvictPage_run, if_neg hfree,
        if_neg (Option.some_ne_none page.pageId).symm]

theorem evictPage_unlocked : (evictPage p none t).1 ≠ .error .blocked := by
  rw [evictPage_run]
  cases t.rowSpace.get? p with
  | none => exact nofun
  | some page =>
    dsimp only
    rw [flushAndEvictPage_run, if_neg (Option.some_ne_none page.pageId).symm]
    split_ifs
    · cases (t.dropped p).pageStore.writeFault <;> exact nofun
    · exact nofun

theorem evictDownTo_unlocked {limit rounds : ℕ} :
    (evictDownTo limit pinned rounds none t).1 ≠ .error .blocked := by
  induction rounds generalizing t with
  | zero => exact fun h => by cases h
  | succ rounds ih =>
    unfold evictDownTo
    rw [get_bind]
    split_ifs
    · exact fun h => by cases h
    · cases t.pickLruVictim pinned with
      | none => exact fun h => by cases h
      | some victim =>
        dsimp only
        rw [bind_run]
        have hevict := evictPage_unlocked (t := t) (p := victim)
        generalize evictPage victim none t = outcome at hevict
        obtain ⟨e | _, t'⟩ := outcome
        · exact fun h => hevict (congrArg _ (Except.error.inj h))
        · exact ih

/-- Without a lock nothing waits. -/
theorem ensurePageResident_unlocked : (ensurePageResident p none t).1 ≠ .error .blocked := by
  rw [ensurePageResident_run]
  cases t.rowSpace.get? p with
  | some page => exact nofun
  | none =>
    dsimp only
    rcases t.pageStore.readPage p with e | _ | page
    · exact nofun
    · exact nofun
    · dsimp only
      unfold maybeEvictPages
      rw [bind_run, get_bind]
      split_ifs
      · exact nofun
      · have hevict := @evictDownTo_unlocked ((t.entered page).arrived p) (some p)
          ((t.entered page).arrived p).memoryLimit ((t.entered page).arrived p).rowSpace.keys.length
        generalize evictDownTo _ _ _ none ((t.entered page).arrived p) = outcome at hevict
        obtain ⟨e | _, t'⟩ := outcome
        · exact fun h => hevict (congrArg _ (Except.error.inj h))
        · exact nofun

/-- What has left memory does not come back while pages are evicted. -/
theorem evictDownTo_gone {limit rounds : ℕ} (h : ¬ t.Resident home) :
    ¬ (evictDownTo limit pinned rounds none t).2.Resident home := by
  induction rounds generalizing t with
  | zero => exact h
  | succ rounds ih =>
    have hevict : ∀ q, ¬ (evictPage q none t).2.Resident home := by
      intro q
      rw [not_resident_iff] at h ⊢
      by_cases hq : q = home
      · subst hq
        rw [evictPage_run, h]
        exact h
      · rw [get_evictPage hq, h]
    unfold evictDownTo
    rw [get_bind]
    split_ifs
    · exact h
    · cases t.pickLruVictim pinned with
      | none => exact h
      | some victim =>
        dsimp only
        rw [bind_run]
        have hgone := hevict victim
        generalize evictPage victim none t = outcome at hgone
        obtain ⟨e | _, t'⟩ := outcome
        · exact hgone
        · exact ih hgone

theorem agrees_evictDownTo {limit rounds : ℕ} (h : t.Resident home) :
    Agrees home (evictDownTo limit pinned rounds) t := by
  induction rounds generalizing t with
  | zero => exact Or.inl ⟨rfl, h⟩
  | succ rounds ih =>
    unfold Agrees evictDownTo
    rw [get_bind, get_bind]
    split_ifs
    · exact Or.inl ⟨rfl, h⟩
    · cases t.pickLruVictim pinned with
      | none => exact Or.inl ⟨rfl, h⟩
      | some victim =>
        dsimp only
        rw [bind_run, bind_run]
        rcases agrees_evictPage (p := victim) h with ⟨heq, hres⟩ | ⟨hblocked, hgone⟩
        · rw [heq]
          generalize evictPage victim none t = outcome at hres
          obtain ⟨e | _, t'⟩ := outcome
          · exact Or.inl ⟨rfl, hres⟩
          · exact ih hres
        · right
          generalize evictPage victim (some home) t = outcome at hblocked
          obtain ⟨r, t'⟩ := outcome
          obtain rfl := hblocked
          refine ⟨rfl, ?_⟩
          generalize evictPage victim none t = outcome at hgone
          obtain ⟨e | _, t'⟩ := outcome
          · exact hgone
          · exact evictDownTo_gone hgone

theorem agrees_ensurePageResident (h : t.Resident home) :
    Agrees home (ensurePageResident p) t := by
  obtain ⟨own, hown⟩ := h
  unfold Agrees
  rw [ensurePageResident_run, ensurePageResident_run]
  cases hp : t.rowSpace.get? p with
  | some page => exact Or.inl ⟨rfl, own, hown⟩
  | none =>
    dsimp only
    cases hr : t.pageStore.readPage p with
    | error e => exact Or.inl ⟨rfl, own, hown⟩
    | ok found =>
      cases found with
      | none => exact Or.inl ⟨rfl, own, hown⟩
      | some page =>
        dsimp only
        have hin : ((t.entered page).arrived p).Resident home := by
          rw [Resident]
          show ∃ page', (t.entered page).rowSpace.get? home = some page'
          rw [get_entered]
          split_ifs
          · exact ⟨page, rfl⟩
          · exact ⟨own, hown⟩
        have hevict : Agrees home (maybeEvictPages (some p)) ((t.entered page).arrived p) := by
          unfold Agrees maybeEvictPages
          rw [get_bind, get_bind]
          split_ifs
          · exact Or.inl ⟨rfl, hin⟩
          · exact agrees_evictDownTo hin
        rw [bind_run, bind_run]
        rcases hevict with ⟨heq, hres⟩ | ⟨hblocked, hgone⟩
        · left
          rw [heq]
          generalize maybeEvictPages (some p) none ((t.entered page).arrived p) = outcome at hres
          obtain ⟨e | _, t'⟩ := outcome <;> exact ⟨rfl, hres⟩
        · right
          generalize maybeEvictPages (some p) (some home) ((t.entered page).arrived p) = outcome at hblocked
          obtain ⟨r, t'⟩ := outcome
          obtain rfl := hblocked
          refine ⟨rfl, ?_⟩
          generalize maybeEvictPages (some p) none ((t.entered page).arrived p) = outcome at hgone
          obtain ⟨e | _, t'⟩ := outcome <;> exact hgone

/-- A page of the list is `home`, or making the pages resident in turn evicts `home`. -/
def Disturbs (home : PageID) : List PageID → Table → Prop
  | [], _ => False
  | p :: ps, t =>
    p = home ∨ (ensurePageResident p none t).2.rowSpace.get? home = none ∨
      ((ensurePageResident p none t).1.isOk = true ∧ Disturbs home ps (ensurePageResident p none t).2)

instance Disturbs.decidable (home : PageID) : ∀ ps t, Decidable (Disturbs home ps t)
  | [], _ => isFalse id
  | p :: ps, t =>
    have := Disturbs.decidable home ps (ensurePageResident p none t).2
    inferInstanceAs (Decidable (_ ∨ _ ∨ _ ∧ _))

/-- Reading pages waits exactly when they disturb the page whose lock is held. -/
theorem readPages_blocked_iff (h : t.Resident home) :
    (readPages ps (some home) t).1 = .error .blocked ↔ Disturbs home ps t := by
  induction ps generalizing t with
  | nil => exact iff_of_false nofun id
  | cons p ps ih =>
    show ((readPage p >>= fun _ => readPages ps) (some home) t).1 = _ ↔ _
    have hpage : ∀ page, (ensurePageResident p none t).1 = .ok page → page.pageId = p :=
      fun page hok => PageMap.pageId_of_get (ensurePageResident_get hok)
    unfold readPage
    rw [bind_run, bind_run, Disturbs]
    rcases agrees_ensurePageResident (p := p) h with ⟨heq, hres⟩ | ⟨hblocked, hgone⟩
    · rw [heq]
      have hnot := fun h => not_resident_iff.2 h hres
      rw [or_iff_right hnot]
      by_cases hp : p = home
      · subst hp
        obtain ⟨page, hget⟩ := h
        rw [ensurePageResident_run, hget]
        dsimp only [lockPage]
        rw [if_pos (congrArg some (PageMap.pageId_of_get hget).symm)]
        exact iff_of_true rfl (Or.inl rfl)
      · rw [or_iff_right hp]
        have hunlocked := ensurePageResident_unlocked (t := t) (p := p)
        generalize ensurePageResident p none t = outcome at hpage hres hunlocked ⊢
        obtain ⟨e | page, t'⟩ := outcome
        · refine iff_of_false (fun h => hunlocked ?_) fun h => by cases h.1
          exact congrArg Except.error (Except.error.inj h)
        · dsimp only [lockPage]
          rw [if_neg (by rw [hpage page rfl]; exact fun h => hp (Option.some.inj h).symm)]
          exact (ih hres).trans (and_iff_right rfl).symm
    · generalize ensurePageResident p (some home) t = outcome at hblocked
      obtain ⟨r, t'⟩ := outcome
      obtain rfl := hblocked
      exact iff_of_true rfl (Or.inr (Or.inl (not_resident_iff.1 hgone)))

/-! ## Updates -/

variable {rowId : RowID} {data : RowData}

/-- The row is on its page, and validating its new data disturbs that page. -/
def DisturbsOwnPage (t : Table) (rowId : RowID) (data : RowData) (txn : Transaction)
    (others : ForeignTables) : Prop :=
  ∃ p ∈ t.rowLocations[rowId]?, ∃ row ∈ t.rowAt rowId, (ensurePageResident p none t).1.isOk = true ∧
    Disturbs p (pagesRead (t.checks txn others (some rowId) (effectiveData row data txn)))
      (ensurePageResident p none t).2

theorem updateRow_blocked_iff (h : t.Settled) (rowId : RowID) (data : RowData) (txn : Transaction)
    (others : ForeignTables) :
    (updateRow rowId data txn others none t).1 = .error .blocked ↔
      t.DisturbsOwnPage rowId data txn others := by
  unfold updateRow pageForRow DisturbsOwnPage
  rw [bind_run, get_bind]
  cases hr : t.rowLocations[rowId]? with
  | none =>
    refine iff_of_false (fun h => by cases h) ?_
    rintro ⟨p, hp, -⟩
    cases hp
  | some p =>
    simp only [Option.mem_some_iff, exists_eq_left']
    have hspec := ensurePageResident_spec p none t
    have hunlocked := ensurePageResident_unlocked (t := t) (p := p)
    have hget := fun page => @ensurePageResident_get t p page none
    generalize ensurePageResident p none t = outcome at hspec hunlocked hget ⊢
    obtain ⟨e | page, t'⟩ := outcome
    · refine iff_of_false (fun h => hunlocked ?_) ?_
      · exact congrArg Except.error (Except.error.inj h)
      · rintro ⟨row, -, hok, -⟩
        cases hok
    · obtain ⟨hstored, -, hm, -⟩ := hspec.resolve_left fun h => by cases h.1
      have hp : t'.rowSpace.get? p = some page := hget page rfl
      have hid : page.pageId = p := PageMap.pageId_of_get hp
      obtain ⟨page₀, hcontent, hrows⟩ := h.shifted.stored p page (hstored page rfl)
      have hrow : t.rowAt rowId = page.rows[rowId]? := by
        rw [rowAt, rowIn, hr, Option.bind_some, hcontent, Option.bind_some, hrows]
      rw [hrow]
      dsimp only
      rw [bind_run]
      unfold lockPage
      rw [if_neg (Option.some_ne_none page.pageId).symm]
      dsimp only
      cases page.rows[rowId]? with
      | none =>
        refine iff_of_false (fun h => by cases h) ?_
        rintro ⟨row, hrow, -⟩
        cases hrow
      | some row =>
        simp only [Option.mem_some_iff, exists_eq_left']
        have hperforms : Performs t (some p) _
            (t.checks txn others (some rowId) (effectiveData row data txn)) := performs_validateRowData
        obtain ⟨r, hreads, hne, -⟩ := hperforms
        have hvalidate := hreads t' (h.shifted.moved hm)
        have hpages : (readPages (pagesRead
            (t.checks txn others (some rowId) (effectiveData row data txn))) (some p) t').1 =
              .error .blocked ↔ _ := readPages_blocked_iff ⟨page, hp⟩
        rw [bind_run]
        unfold holding within
        rw [hid, hvalidate, bind_run]
        refine Iff.trans ?_ (hpages.trans (and_iff_right rfl).symm)
        generalize readPages _ (some p) t' = outcome
        obtain ⟨e | _, t''⟩ := outcome
        · exact Iff.of_eq rfl
        · refine iff_of_false ?_ (by simp)
          cases r with
          | error e => exact fun h => hne (congrArg Except.error (Except.error.inj h))
          | ok _ => exact fun h => by cases h

end Table

namespace Database

/-- `CREATE TABLE` waits for the lock of the table it creates exactly when an item refers to that
    table and all items before it are accepted. -/
theorem executeCreateTable_blocked_iff (db : Database) (tableName : String) (stmt : CreateTable)
    (id : TransactionID) :
    (executeCreateTable tableName stmt id () db).1 = .error .blocked ↔ db.Registers tableName stmt ∧
      Verdict.first ((db.registered tableName).verdicts tableName id stmt) = .waits := by
  by_cases h : db.Registers tableName stmt
  · have hyields := yields_executeCreateTable id h
    unfold Yields at hyields
    rw [and_iff_right h]
    cases hfirst : Verdict.first ((db.registered tableName).verdicts tableName id stmt) with
    | accepted =>
      rw [hfirst] at hyields
      obtain ⟨a, db', hrun, -⟩ := hyields
      exact iff_of_false (by rw [hrun]; nofun) nofun
    | refused =>
      rw [hfirst] at hyields
      obtain ⟨e, db', hrun⟩ := hyields
      exact iff_of_false (by rw [hrun]; nofun) nofun
    | waits =>
      rw [hfirst] at hyields
      obtain ⟨db', hrun⟩ := hyields
      exact iff_of_true (by rw [hrun]) rfl
  · exact iff_of_false (executeCreateTable_early id h).2 fun hw => h hw.1

end Database

/-- **No call asks for a lock it holds**: an update that does not disturb its own page never waits
    for it, and a `CREATE TABLE` never waits for the new table unless an item that follows accepted
    items refers to it. -/
theorem no_lock_asked_twice_iff (t : Table) (h : t.Settled) (rowId : RowID) (data : RowData)
    (txn : Transaction) (others : ForeignTables) (db : Database) (tableName : String)
    (stmt : CreateTable) (id : TransactionID) :
    ((Table.updateRow rowId data txn others none t).1 ≠ .error .blocked ↔
        ¬ t.DisturbsOwnPage rowId data txn others) ∧
      ((Database.executeCreateTable tableName stmt id () db).1 ≠ .error .blocked ↔
        ¬ (db.Registers tableName stmt ∧
          Verdict.first ((db.registered tableName).verdicts tableName id stmt) = .waits)) :=
  ⟨not_congr (Table.updateRow_blocked_iff h rowId data txn others),
    not_congr (db.executeCreateTable_blocked_iff tableName stmt id)⟩

/-- A unique column and two rows with different values, on one page. -/
def twoFlags : Table := ((do
    let _ ← Table.createColumn "a" .boolean {.unique} ⟨1, .default⟩
    let _ ← Table.insertRow (.ofList [(0, .boolean false)] compare) ⟨1, .default⟩ fun _ => none
    Table.insertRow (.ofList [(0, .boolean true)] compare) ⟨1, .default⟩ fun _ => none :
      TableM RowID) none (.new 0 4096 0 .empty)).2

/-- Table `t` whose column refers to itself. -/
def selfReference : CreateTable where
  name := [ "t"]
  columns := [⟨"a", .ok .boolean, [.foreignKey ["t"] ["a"]]⟩]
  constraints := []
  ifNotExists := false
  asQuery := false

theorem no_lock_asked_twice_iff_unlimited :
    ((Table.updateRow 2 ∅ ⟨1, .default⟩ (fun _ => none) none twoFlags).1 ≠ .error .blocked ↔
      ¬ twoFlags.DisturbsOwnPage 2 ∅ ⟨1, .default⟩ fun _ => none) ∧
    ((Database.executeCreateTable "t" selfReference 1 () (.new ⟨100, 0⟩)).1 ≠ .error .blocked ↔
      ¬ ((Database.new ⟨100, 0⟩).Registers "t" selfReference ∧
        Verdict.first (((Database.new ⟨100, 0⟩).registered "t").verdicts "t" 1 selfReference) =
          .waits)) :=
  no_lock_asked_twice_iff twoFlags (Table.settled_unlimited (by decide +kernel)) 2 ∅ ⟨1, .default⟩
    (fun _ => none) (.new ⟨100, 0⟩) "t" selfReference 1

/-- Giving one row the value of the other looks the other row up, on the page that is locked; and
    a reference of the new table to itself waits for the table's own lock. -/
theorem own_lock_asked_again :
    (Table.updateRow 2 (.ofList [(0, .boolean false)] compare) ⟨1, .default⟩ (fun _ => none) none
        twoFlags).1 = .error .blocked ∧
      (Database.executeCreateTable "t" selfReference 1 () (.new ⟨100, 0⟩)).1 = .error .blocked := by
  constructor
  · decide +kernel
  · decide +kernel

end AntDb
