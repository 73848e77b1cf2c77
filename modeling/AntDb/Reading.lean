/-
  What reading calls compute from the view of a good table.

  Each call of the table that only reads is matched with a pure computation on the view;
  the calls agree with it whatever the pages do meanwhile.
-/
import AntDb.View
import AntDb.Search

namespace AntDb

/-! ## Reading a view -/

namespace View

def withRow (v : View) (rowId : RowID) : Except DataBaseErrors (Option Row) :=
  if rowId ∈ v.rowIds then .ok v.rows[rowId]? else .error (.rowNotFound rowId)

def withVersionedColumnEntry (v : View) (rowId : RowID) (columnId : ColumnID) (txn : Transaction) :
    Except DataBaseErrors (Option DataBaseDataEntry) := do
  let row ← v.withRow rowId
  return (row.bind (·.getVersionedRow txn)).bind (·.data[columnId]?)

def getRow (v : View) (rowId : RowID) : Except DataBaseErrors Row := do
  match ← v.withRow rowId with
  | some row => return row
  | none => throw (.rowNotFound rowId)

def filterVisibleIndexCandidates (v : View) (rowIds : List RowID) (txn : Transaction) :
    Except DataBaseErrors (List RowID) :=
  rowIds.foldlM (fun visible rowId => do
    let row ← v.withRow rowId
    return if ((row.bind (·.getVersionedRow txn)).isSome) then visible ++ [rowId] else visible) []

/-- Does the transaction see a row with this value in the column? -/
def HoldsValue (v : View) (columnId : ColumnID) (value : DataBaseDataEntry) (txn : Transaction) :
    Prop :=
  ∃ x ∈ v.rows.toList, ∃ version ∈ x.2.getVersionedRow txn,
    ∃ entry ∈ version.data[columnId]?, entry.eq value = true

instance (v : View) (columnId : ColumnID) (value : DataBaseDataEntry) (txn : Transaction) :
    Decidable (v.HoldsValue columnId value txn) := by
  unfold HoldsValue; infer_instance

def referencedValueExists (v : View) (columnId : ColumnID) (value : DataBaseDataEntry)
    (txn : Transaction) : Except DataBaseErrors Bool :=
  match v.columns[columnId]? with
  | none => .error (.queryError "Column not found while resolving join lookup")
  | some column =>
    match column.indexLookup value txn with
    | some rowIds => do return !(← v.filterVisibleIndexCandidates rowIds txn).isEmpty
    | none => .ok (v.HoldsValue columnId value txn)

def foreignKeyValueExists (v : View) (others : ForeignTables) (txn : Transaction)
    (tableId : TableID) (columnId : ColumnID) (value : DataBaseDataEntry) :
    Except DataBaseErrors Bool :=
  if value.isNull then .ok true
  else match others tableId with
    | some answer => answer columnId value
    | none => if tableId = v.tableId then v.referencedValueExists columnId value txn else .ok false

def validateRowData (v : View) (data : RowData) (txn : Transaction) (excludeRowId : Option RowID)
    (others : ForeignTables) : Except DataBaseErrors Unit :=
  v.columns.toList.forM fun x =>
    let value := data[x.1]?.getD .null
    match x.2.getVersionedColumn txn with
    | none => .ok ()
    | some version =>
      if !Table.validateDataType value version.dataType version.isNullable then
        .error (.dataTypeMismatch x.1 version.dataType.name value.dataType.name)
      else
        x.2.schemaValidation value (fun rowId => v.withVersionedColumnEntry rowId x.1 txn)
          (v.foreignKeyValueExists others txn) txn excludeRowId

end View

namespace Table

open Call TableM

/-! ## Reading a good table -/

/-- The good tables with the row map `ρ` and the view `v`. -/
def Shows (ρ : RowMap) (v : View) (t : Table) : Prop := t.Good ∧ t.rowLocations = ρ ∧ t.view = v

theorem Shows.moved {ρ : RowMap} {v : View} {t t' : Table} (h : Shows ρ v t)
    (hm : Moved ρ.Maps t t') : Shows ρ v t' := by
  obtain ⟨hg, rfl, rfl⟩ := h
  rw [Shows, Good, view, hm.rowLocations]
  exact ⟨hg.moved hm, rfl, hg.view_moved hm⟩

/-- Calls that read a good table with the row map `ρ` and the view `v`. -/
def reading (held : Option PageID) (ρ : RowMap) (v : View) : Frame (Option PageID) Table Fault :=
  paging held ρ.Maps (Shows ρ v) Shows.moved

/-- Within `reading held ρ v`, the call has the result of the pure computation. -/
abbrev Yields (held : Option PageID) (ρ : RowMap) (v : View) {α : Type} (x : TableM α)
    (r : Except DataBaseErrors α) : Prop :=
  Computes (reading held ρ v) Fault.err x r

variable {held : Option PageID} {ρ : RowMap} {v : View} {t : Table} {p : PageID} {α β : Type}
  {rowId : RowID} {columnId : ColumnID} {txn : Transaction} {others : ForeignTables}
  {value : DataBaseDataEntry}

theorem framed_ensure (hp : ρ.Maps p) :
    Framed (reading held ρ v) (ensurePageResident p) fun r =>
      ∃ page, r = .ok page ∧ page.pageId = p ∧ page.rows = pageRows ρ v p := by
  refine framed_of_spec fun t ht => ?_
  obtain ⟨hg, rfl, rfl⟩ := ht
  refine (ensurePageResident_spec p held t).imp_right fun ⟨hs, hok, hm, hh⟩ => ?_
  obtain ⟨content, hcontent⟩ := hg.located p hp
  obtain ⟨page, hpage⟩ := hok hg.readable hg.writable (by rw [hcontent]; rfl)
  refine ⟨⟨page, hpage, ?_, ?_⟩, hm.mono fun q hq => hq ▸ hp, hh⟩
  · rcases hs page hpage with h | h
    · exact PageMap.pageId_of_get h
    · exact PageMap.pageId_of_get h.1
  · exact hg.rows_of_stored (Or.inr hp) not_false (hs page hpage)

theorem yields_lockPage : Yields held ρ v (lockPage p) (.ok ()) := by
  refine framed_of_spec fun t _ => ?_
  unfold lockPage
  split_ifs with h
  · exact Or.inl ⟨rfl, by rw [h]; nofun⟩
  · exact Or.inr ⟨rfl, Moved.refl _ t, Holds.refl t⟩

theorem yields_ofResult (r : Except DataBaseErrors α) : Yields held ρ v (TableM.ofResult r) r :=
  Framed.ofExcept rfl

theorem yields_throw (e : DataBaseErrors) : Yields held ρ v (throw e : TableM α) (.error e) :=
  Framed.fail rfl

/-- The page of a known row, with the rows the view has there. -/
theorem framed_pageForRow : Framed (reading held ρ v) (pageForRow rowId) fun r =>
    match ρ[rowId]? with
    | some p => rowId ∈ v.rowIds ∧
      ∃ page, r = .ok page ∧ page.pageId = p ∧ page.rows[rowId]? = v.rows[rowId]?
    | none => rowId ∉ v.rowIds ∧ r = .error (.err (.rowNotFound rowId)) := by
  refine Framed.get fun t ht => ?_
  obtain ⟨hg, rfl, rfl⟩ := ht
  rw [mem_rowIds]
  cases hr : t.rowLocations[rowId]? with
  | none => exact Framed.fail ⟨by rw [BTreeMap.mem_iff_get]; simp [hr], rfl⟩
  | some p =>
    refine (framed_ensure ⟨rowId, hr⟩).mono ?_
    rintro _ ⟨page, rfl, hid, hrows⟩
    refine ⟨BTreeMap.mem_of_get hr, page, rfl, hid, ?_⟩
    rw [hrows, pageRows, Std.ExtTreeMap.getElem?_filter']
    cases t.view.rows[rowId]? <;> simp [Option.filter, hr]

theorem yields_withRow : Yields held ρ v (withRow rowId) (v.withRow rowId) := by
  unfold withRow View.withRow
  refine framed_pageForRow.bind (fun page hp => ?_) fun e he => ?_
  · cases hr : ρ[rowId]? with
    | none => rw [hr] at hp; cases hp.2
    | some p =>
      rw [hr] at hp
      obtain ⟨hmem, page', h, -, hget⟩ := hp
      obtain rfl := Except.ok.inj h
      refine Framed.bind yields_lockPage (fun _ _ => ?_) fun e he => by cases he
      rw [hget, if_pos hmem]; exact Framed.pure rfl
  · cases hr : ρ[rowId]? with
    | none => rw [hr] at he; rw [if_neg he.1, Except.error.inj he.2]; rfl
    | some p => rw [hr] at he; obtain ⟨-, page', h, -⟩ := he; cases h

theorem yields_withVersionedColumnEntry : Yields held ρ v (withVersionedColumnEntry rowId columnId txn)
    (v.withVersionedColumnEntry rowId columnId txn) :=
  yields_withRow.bind fun _ _ => Computes.pure

theorem yields_getRow : Yields held ρ v (getRow rowId) (v.getRow rowId) := by
  refine yields_withRow.bind fun row _ => ?_
  cases row with
  | some row => exact Computes.pure
  | none => exact yields_throw _

theorem yields_filterVisibleIndexCandidates {rowIds : List RowID} :
    Yields held ρ v (filterVisibleIndexCandidates rowIds txn) (v.filterVisibleIndexCandidates rowIds txn) :=
  Computes.foldlM fun _ _ _ => yields_withRow.bind fun _ _ => Computes.pure

/-! ## Scans -/

/-- The rows of the view in the order a scan visits them: page after page. -/
def scanOrder (ρ : RowMap) (v : View) : List (RowID × Row) :=
  (Std.ExtTreeSet.ofList (ρ.toList.map Prod.snd) compare).toList.flatMap fun p =>
    (pageRows ρ v p).toList

/-- One step of a scan. -/
def visit {σ : Type} (txn : Transaction) (f : σ → RowID → InternalRow → Except DataBaseErrors σ)
    (acc : σ) (x : RowID × Row) : Except DataBaseErrors σ :=
  match x.2.getVersionedRow txn with
  | some version => f acc x.1 version
  | none => .ok acc

theorem mem_referencedPages : p ∈ t.referencedPages ↔ t.Referenced p := by
  rw [referencedPages, Std.ExtTreeSet.mem_ofList, List.contains_iff_mem, BTreeMap.mem_values]
  rfl

theorem yields_scanVisible {σ : Type} {f : σ → RowID → InternalRow → Except DataBaseErrors σ}
    {init : σ} :
    Yields held ρ v (scanVisible txn f init) ((scanOrder ρ v).foldlM (visit txn f) init) := by
  refine Computes.get fun t ht => ?_
  obtain ⟨hg, rfl, rfl⟩ := ht
  rw [scanOrder, List.foldlM_flatMap]
  refine Computes.foldlM fun acc p hp => ?_
  have hp : t.Referenced p := mem_referencedPages.1 (Std.ExtTreeSet.mem_toList.1 hp)
  refine (framed_ensure hp).bind ?_ fun e he => ?_
  · rintro page ⟨page', h, hid, hrows⟩
    obtain rfl := Except.ok.inj h
    refine Framed.bind yields_lockPage (fun _ _ => ?_) fun e he => by cases he
    rw [hrows]
    refine Computes.foldlM fun acc x _ => ?_
    unfold visit
    cases x.2.getVersionedRow txn with
    | some version => exact yields_ofResult _
    | none => exact Computes.pure
  · obtain ⟨_, h, -⟩ := he; cases h

/-- A scan visits every row of the view once. -/
theorem scan_perm : (scanOrder t.rowLocations t.view).Perm t.view.rows.toList := by
  have hget : ∀ (p : PageID) (x : RowID × Row), x ∈ (pageRows t.rowLocations t.view p).toList ↔
      t.view.rows[x.1]? = some x.2 ∧ t.rowLocations[x.1]? = some p := by
    intro p x
    rw [BTreeMap.mem_toList (m := pageRows _ _ p), pageRows, Std.ExtTreeMap.getElem?_filter',
      Option.filter_eq_some_iff]
    simp
  refine (List.perm_ext_iff_of_nodup ?_ (BTreeMap.nodup_toList _)).2 fun x => ?_
  · refine List.nodup_flatMap.2 ⟨fun p _ => BTreeMap.nodup_toList _, ?_⟩
    refine (BTreeSet.nodup_toList _).imp fun {p q} hpq => ?_
    rw [Function.onFun, List.disjoint_left]
    intro x hx hx'
    have h1 := ((hget p x).1 hx).2
    rw [((hget q x).1 hx').2] at h1
    exact hpq (Option.some.inj h1).symm
  · rw [scanOrder, List.mem_flatMap, BTreeMap.mem_toList (m := t.view.rows)]
    constructor
    · rintro ⟨p, -, hx⟩; exact ((hget p x).1 hx).1
    · intro hx
      obtain ⟨p, hp⟩ := mapped_of_row hx
      exact ⟨p, Std.ExtTreeSet.mem_toList.2 (mem_referencedPages.2 ⟨x.1, hp⟩), (hget p x).2 ⟨hx, hp⟩⟩

/-! ## Validation -/

/-- The rows whose visible version passes a test that cannot fail. -/
theorem foldlM_visit_filter (P : InternalRow → Bool) (l : List (RowID × Row)) (found : List RowID) :
    l.foldlM (visit txn fun found r version =>
        (.ok (if P version then found ++ [r] else found) : Except DataBaseErrors _)) found =
      .ok (found ++ (l.filter fun x => (x.2.getVersionedRow txn).any P).map Prod.fst) := by
  induction l generalizing found with
  | nil => simp; rfl
  | cons x l ih =>
    rw [List.foldlM_cons]
    cases hx : x.2.getVersionedRow txn with
    | none =>
      simp only [visit, hx]
      show List.foldlM _ found l = _
      rw [ih]; simp [hx]
    | some version =>
      simp only [visit, hx]
      show List.foldlM _ _ l = _
      rw [ih]
      cases hP : P version <;> simp [hx, hP]

/-- A value lookup answers with the rows of the index or, without one, with those a scan finds. -/
theorem framed_lookupRowsByColumnValue :
    Framed (reading held ρ v) (lookupRowsByColumnValue columnId value txn) fun r =>
      match v.columns[columnId]?, (v.columns[columnId]?).bind (·.indexLookup value txn) with
      | none, _ => r = .error (.err (.queryError "Column not found while resolving join lookup"))
      | some _, some rowIds => r = (v.filterVisibleIndexCandidates rowIds txn).mapError .err
      | some _, none => ∃ found, r = .ok found ∧ (found.isEmpty = false ↔ v.HoldsValue columnId value txn) := by
  refine Framed.get fun t ht => ?_
  obtain ⟨hg, rfl, rfl⟩ := ht
  have hview : t.view.columns[columnId]? = t.columns[columnId]? := rfl
  rw [hview]
  cases t.columns[columnId]? with
  | none => exact Framed.fail rfl
  | some column =>
    rw [Option.bind_some]
    dsimp only
    cases column.indexLookup value txn with
    | some rowIds => exact yields_filterVisibleIndexCandidates
    | none =>
      refine Framed.mono yields_scanVisible ?_
      rintro _ rfl
      rw [foldlM_visit_filter (fun version => (version.data[columnId]?.map (·.eq value)).getD false)]
      refine ⟨_, rfl, ?_⟩
      rw [List.nil_append, List.isEmpty_eq_false_iff, ne_eq, List.map_eq_nil_iff,
        List.filter_eq_nil_iff]
      simp only [not_forall, not_not, View.HoldsValue, scan_perm.mem_iff]
      refine exists_congr fun x => exists_prop.trans (and_congr_right fun _ => ?_)
      cases x.2.getVersionedRow txn with
      | none => simp
      | some version =>
        simp only [Option.any_some, Option.mem_def, Option.some.injEq, exists_eq_left']
        generalize version.data[columnId]? = entry
        cases entry <;> simp

theorem yields_referencedValueExists : Yields held ρ v (referencedValueExists columnId value txn)
    (v.referencedValueExists columnId value txn) := by
  unfold referencedValueExists View.referencedValueExists
  refine framed_lookupRowsByColumnValue.bind (fun found h => ?_) fun e h => ?_
  · cases hc : v.columns[columnId]? with
    | none => rw [hc] at h; cases h
    | some column =>
      rw [hc, Option.bind_some] at h
      dsimp only
      cases hi : column.indexLookup value txn with
      | some rowIds =>
        rw [hi] at h
        dsimp only at h ⊢
        cases hf : v.filterVisibleIndexCandidates rowIds txn with
        | error e => rw [hf] at h; cases h
        | ok found' => rw [hf] at h; cases h; exact Framed.pure rfl
      | none =>
        rw [hi] at h
        obtain ⟨found', h, hiff⟩ := h
        cases h
        refine Framed.pure (congrArg Except.ok ?_)
        rw [Bool.eq_iff_iff, decide_eq_true_iff, ← hiff, Bool.not_eq_true', Bool.eq_false_iff]
  · cases hc : v.columns[columnId]? with
    | none => rw [hc] at h; cases h; rfl
    | some column =>
      rw [hc, Option.bind_some] at h
      dsimp only
      cases hi : column.indexLookup value txn with
      | some rowIds =>
        rw [hi] at h
        dsimp only at h ⊢
        cases hf : v.filterVisibleIndexCandidates rowIds txn with
        | error e => rw [hf] at h; cases h; rfl
        | ok found' => rw [hf] at h; cases h
      | none => rw [hi] at h; obtain ⟨_, h, -⟩ := h; cases h

theorem yields_foreignKeyValueExists {tableId : TableID} :
    Yields held ρ v (foreignKeyValueExists others txn tableId columnId value)
      (v.foreignKeyValueExists others txn tableId columnId value) := by
  unfold foreignKeyValueExists View.foreignKeyValueExists
  by_cases hnull : value.isNull = true
  · rw [if_pos hnull, if_pos hnull]; exact Computes.pure
  · rw [if_neg hnull, if_neg hnull]
    cases others tableId with
    | some answer => exact yields_ofResult _
    | none =>
      refine Computes.get fun t ht => ?_
      obtain ⟨hg, rfl, rfl⟩ := ht
      have hid : t.view.tableId = t.tableId := rfl
      dsimp only
      rw [hid]
      split_ifs
      · exact yields_referencedValueExists
      · exact Computes.pure

/-- Validation agrees if the lookups do. -/
theorem yields_schemaValidation {column : InternalColumn} {excludeRowId : Option RowID}
    {lookup : RowID → TableM (Option DataBaseDataEntry)}
    {lookup' : RowID → Except DataBaseErrors (Option DataBaseDataEntry)}
    {fk : TableID → ColumnID → DataBaseDataEntry → TableM Bool}
    {fk' : TableID → ColumnID → DataBaseDataEntry → Except DataBaseErrors Bool}
    (hl : ∀ r, Yields held ρ v (lookup r) (lookup' r)) (hf : ∀ i c e, Yields held ρ v (fk i c e) (fk' i c e)) :
    Yields held ρ v (column.schemaValidation value lookup fk excludeRowId)
      (column.schemaValidation value lookup' fk' excludeRowId) := by
  unfold InternalColumn.schemaValidation
  refine Computes.forM fun c _ => ?_
  cases c
  case notNull => dsimp only; split_ifs; exacts [yields_throw _, Computes.pure]
  case unique | primaryKey =>
    dsimp only
    cases column.index with
    | none => exact yields_throw _
    | some index =>
      refine Computes.forM fun r _ => ?_
      split_ifs
      · exact Computes.pure
      · refine (hl r).bind fun found _ => ?_
        cases found with
        | none => exact Computes.pure
        | some found =>
          dsimp only
          split_ifs
          · exact yields_throw _
          · exact Computes.pure
  case foreignKey table columnId =>
    dsimp only
    split_ifs
    · exact Computes.pure
    · refine (hf _ _ _).bind fun found _ => ?_
      cases found
      · exact yields_throw _
      · exact Computes.pure
  case check => dsimp only; split_ifs; exacts [Computes.pure, yields_throw _]
  case autoIncrement => exact Computes.pure

theorem yields_validateRowData {data : RowData} {excludeRowId : Option RowID} :
    Yields held ρ v (validateRowData data txn excludeRowId (foreignKeyValueExists others txn))
      (v.validateRowData data txn excludeRowId others) := by
  unfold validateRowData View.validateRowData
  refine Computes.get fun t ht => ?_
  obtain ⟨hg, rfl, rfl⟩ := ht
  refine Computes.forM fun x _ => ?_
  cases x.2.getVersionedColumn txn with
  | none => exact Computes.pure
  | some version =>
    dsimp only
    split_ifs with hty
    · exact yields_throw _
    · unfold Column.schemaValidation
      cases x.2.getVersionedColumn txn with
      | none => exact Computes.pure
      | some version =>
        exact yields_schemaValidation (fun _ => yields_withVersionedColumnEntry)
          fun _ _ _ => yields_foreignKeyValueExists

end Table

end AntDb
