/-
  What vacuum does to the view of a good table.

  `materialize_all_pages` evicts pages itself when the memory limit is exceeded, and
  compaction then rebuilds the table from the resident pages; `Fits` says that loading the
  missing pages stays within the limit.
-/
import AntDb.Compacting

namespace AntDb

/-! ## Vacuuming a view -/

/-- The index entries of the row ids that are not alive. -/
def HashIndex.dead (index : HashIndex) (isAlive : RowID → Bool) : List IndexEntry :=
  index.toList.foldl (fun dead x => x.2.toList.foldl (fun dead rowId =>
    if isAlive rowId then dead else ⟨x.1, rowId⟩ :: dead) dead) []

/-- `InternalColumn::prune` when it is known which rows are alive. -/
def InternalColumn.pruned (v : InternalColumn) (isAlive : RowID → Bool) : InternalColumn :=
  match v.index with
  | none => v
  | some index =>
    { v with
      index := some ((index.dead isAlive).foldl (fun index e => index.remove e.key e.rowId) index)
      indexAddedBy := (index.dead isAlive).foldl (fun addedBy e => addedBy.erase e) v.indexAddedBy }

def Column.pruned (column : Column) (oldestActiveTxn : TransactionID) (isAlive : RowID → Bool) :
    Column :=
  ⟨(column.versions.filter (·.transactionHeader.survives oldestActiveTxn)).map (·.pruned isAlive)⟩

/-- Only rows that keep a version stay. -/
def View.prune (v : View) (oldestActiveTxn : TransactionID) : View :=
  let rows := Table.pruneRows oldestActiveTxn v.rows
  { v with
    rowIds := .ofList rows.keys compare
    rows := rows
    columns := v.columns.map fun _ column => column.pruned oldestActiveTxn (· ∈ rows) }

namespace Table

open Call TableM

variable {t t' : Table} {ρ : RowMap} {p q : PageID} {page : Page} {r : RowID} {row : Row}
  {held : Option PageID} {oldest : TransactionID}

/-! ## Loading what is missing -/

theorem maybeEvictPages_idle {pinned : Option PageID}
    (h : t.memoryLimit = 0 ∨ t.memoryUsed ≤ t.memoryLimit) :
    maybeEvictPages pinned held t = (.ok (), t) := by
  unfold maybeEvictPages
  rw [get_bind]
  split_ifs with hlimit
  · rfl
  · cases t.rowSpace.keys.length with
    | zero => rfl
    | succ rounds =>
      unfold evictDownTo
      rw [get_bind, if_pos (h.resolve_left hlimit)]
      rfl

/-- The bytes the record of a page takes in memory. -/
def recordBytes (t : Table) (p : PageID) : ℕ :=
  ((t.pageStore.pages.get? p).map (·.memoryBytes)).getD 0

/-- The bytes to be loaded to make the pages `l` resident. -/
def missingBytes (t : Table) (l : List PageID) : ℕ :=
  ((l.filter fun p => p ∉ t.rowSpace.pages).map t.recordBytes).sum

/-- The pages `l` can be made resident without an eviction. -/
def CanLoad (t : Table) (l : List PageID) : Prop :=
  t.memoryLimit = 0 ∨ (∀ p ∈ l, p ∈ t.rowSpace.pages) ∨
    t.memoryUsed + t.missingBytes l ≤ t.memoryLimit

/-- All the pages with rows fit in memory at once. -/
def Fits (t : Table) : Prop := t.CanLoad t.referencedPages.toList

instance (t : Table) : Decidable t.Fits := by unfold Fits CanLoad; infer_instance

/-- Making one page resident without an eviction. -/
theorem ensurePageResident_idle (hr : t.pageStore.readFault = none)
    (hp : ∃ page, t.content p = some page) {l : List PageID} (hfit : t.CanLoad (p :: l))
    (hnot : p ∉ l) :
    ∃ page t', ensurePageResident p none t = (.ok page, t') ∧ t'.Resident p ∧
      (∀ q page, t.rowSpace.get? q = some page → t'.rowSpace.get? q = some page) ∧
      t'.CanLoad l ∧ Moved (· = p) t t' := by
  rw [ensurePageResident_run]
  cases hget : t.rowSpace.get? p with
  | some page =>
    have hmem : p ∈ t.rowSpace.pages := resident_iff_mem.1 ⟨page, hget⟩
    refine ⟨page, t.touchPage p, rfl, ⟨page, hget⟩, fun q page' h => h, ?_,
      Moved.of_bookkeeping rfl rfl rfl rfl⟩
    rcases hfit with h | h | h
    · exact Or.inl h
    · exact Or.inr (Or.inl fun q hq => h q (List.mem_cons_of_mem _ hq))
    · rw [missingBytes, List.filter_cons_of_neg (by simpa using hmem)] at h
      exact Or.inr (Or.inr h)
  | none =>
    obtain ⟨page, hpage⟩ := hp
    rw [content, hget, Option.none_or] at hpage
    have hnotmem : p ∉ t.rowSpace.pages := fun h => by
      obtain ⟨_, h⟩ := resident_iff_mem.2 h
      rw [hget] at h; cases h
    have hread : t.pageStore.readPage p = .ok (some page) := by
      rw [← hpage]; exact reading_ok hr _
    have hid := PageMap.pageId_of_get hpage
    have hspace : ∀ q, ((t.entered page).arrived p).rowSpace.get? q =
        if page.pageId = q then some page else t.rowSpace.get? q := fun q => get_entered
    have hused : ((t.entered page).arrived p).memoryUsed ≤ t.memoryUsed + page.memoryBytes :=
      Nat.mod_le _ _
    have hbytes : t.memoryLimit = 0 ∨
        t.memoryUsed + (page.memoryBytes + t.missingBytes l) ≤ t.memoryLimit := by
      rcases hfit with h | h | h
      · exact Or.inl h
      · exact absurd (h p (by simp)) hnotmem
      · rw [missingBytes, List.filter_cons_of_pos (by simpa using hnotmem), List.map_cons,
          List.sum_cons, recordBytes, hpage] at h
        exact Or.inr h
    have hmissing : ((t.entered page).arrived p).missingBytes l = t.missingBytes l := by
      have hfilter : (l.filter fun q => q ∉ ((t.entered page).arrived p).rowSpace.pages) =
          l.filter fun q => q ∉ t.rowSpace.pages := by
        refine List.filter_congr fun q hq => decide_eq_decide.2 (not_congr ?_)
        rw [← resident_iff_mem, ← resident_iff_mem, Resident, Resident, hspace,
          if_neg fun h => hnot ((hid.symm.trans h) ▸ hq)]
      rw [missingBytes, hfilter]; rfl
    rw [hread]
    dsimp only
    rw [bind_ok (maybeEvictPages_idle (hbytes.imp id fun h => hused.trans (by
      show t.memoryUsed + page.memoryBytes ≤ t.memoryLimit
      omega)))]
    refine ⟨page, _, rfl, ⟨page, by rw [hspace, if_pos hid]⟩, fun q page' h => ?_, ?_,
      (moved_entered hget hpage).trans (Moved.of_bookkeeping rfl rfl rfl rfl)⟩
    · rw [hspace, if_neg fun he => ?_, h]
      rw [← he, hid, hget] at h; cases h
    · refine hbytes.imp id fun h => Or.inr ?_
      rw [hmissing]
      show _ ≤ t.memoryLimit
      omega

/-- The pages are made resident one after the other. -/
theorem ensureAll_idle {l : List PageID} (hg : t.Housed ρ fun _ => False) (hl : ∀ p ∈ l, ρ.Maps p)
    (hnodup : l.Nodup) (hfit : t.CanLoad l) :
    ∃ t', (l.forM fun p => (do let _ ← ensurePageResident p : TableM Unit)) none t = (.ok (), t') ∧
      (∀ p ∈ l, t'.Resident p) ∧
      (∀ q page, t.rowSpace.get? q = some page → t'.rowSpace.get? q = some page) ∧
      Moved ρ.Maps t t' := by
  induction l generalizing t with
  | nil => exact ⟨t, rfl, by simp, fun _ _ h => h, Moved.refl _ t⟩
  | cons p l ih =>
    rw [List.nodup_cons] at hnodup
    have hp := hl p (by simp)
    obtain ⟨page, t₁, hrun, hres, hkeep, hfit₁, hm⟩ := ensurePageResident_idle hg.readable
      (hg.located p hp) hfit hnodup.1
    have hm₁ : Moved ρ.Maps t t₁ := hm.mono fun q hq => hq ▸ hp
    obtain ⟨t₂, hrun₂, hres₂, hkeep₂, hm₂⟩ := ih (hg.moved hm₁)
      (fun q hq => hl q (List.mem_cons_of_mem _ hq)) hnodup.2 hfit₁
    refine ⟨t₂, ?_, fun q hq => ?_, fun q page h => hkeep₂ q page (hkeep q page h), hm₁.trans hm₂⟩
    · have hone : (do let _ ← ensurePageResident p : TableM Unit) none t = (.ok (), t₁) := by
        rw [bind_ok hrun]; rfl
      exact (bind_ok hone).trans hrun₂
    · rcases List.mem_cons.1 hq with rfl | hq
      · obtain ⟨page, hpage⟩ := hres
        exact ⟨page, hkeep₂ q page hpage⟩
      · exact hres₂ q hq

/-- **Materializing** makes every page with rows resident if they fit. -/
theorem materializeAllPages_run (hg : t.Good) (hfit : t.Fits) :
    ∃ t', materializeAllPages none t = (.ok (), t') ∧ Moved t.Referenced t t' ∧
      ∀ p, t.Referenced p → t'.Resident p := by
  obtain ⟨t', hrun, hres, -, hm⟩ := ensureAll_idle hg
    (fun p hp => mem_referencedPages.1 (Std.ExtTreeSet.mem_toList.1 hp))
    (BTreeSet.nodup_toList t.referencedPages) hfit
  refine ⟨t', ?_, hm, fun p hp => hres p (Std.ExtTreeSet.mem_toList.2 (mem_referencedPages.2 hp))⟩
  unfold materializeAllPages
  rw [get_bind]
  exact hrun

/-! ## Dropping versions -/

/-- The resident pages with the dead versions dropped. -/
theorem pageId_pruneRows (oldest : TransactionID) (page : Page) :
    ({ page with rows := pruneRows oldest page.rows } : Page).pageId = page.pageId := rfl

def prunedSpace (t : Table) (oldest : TransactionID) : PageMap :=
  t.rowSpace.map (fun page => { page with rows := pruneRows oldest page.rows })
    (pageId_pruneRows oldest)

def rowsPruned (t : Table) (oldest : TransactionID) : Table :=
  { t with rowSpace := t.prunedSpace oldest }

theorem get_prunedSpace : (t.prunedSpace oldest).get? p =
    (t.rowSpace.get? p).map fun page => { page with rows := pruneRows oldest page.rows } :=
  PageMap.get?_map

/-- Is the row on a resident page? -/
def aliveIn (t : Table) (rowId : RowID) : Bool :=
  ((t.rowLocations[rowId]?.bind t.rowSpace.get?).bind (·.rows[rowId]?)).isSome

/-- Calls that touch resident pages only. -/
def looking (t₀ : Table) : Frame (Option PageID) Table Fault where
  env := none
  inv t := t.rowSpace = t₀.rowSpace ∧ t.rowLocations = t₀.rowLocations
  rel t t' := t' = { t with lru := t'.lru, lruCounter := t'.lruCounter }
  exempt _ := False
  refl _ := rfl
  trans h h' := by rw [h', h]
  keep ht h := by rw [h]; exact ht

theorem get_pruneRows {rows : BTreeMap RowID Row} : (pruneRows oldest rows)[r]? =
    rows[r]?.bind fun row =>
      if (row.prune oldest).versions = [] then none else some (row.prune oldest) := by
  rw [pruneRows, Std.ExtTreeMap.getElem?_filterMap']

theorem mem_of_mem_pruneRows {rows : BTreeMap RowID Row} (h : r ∈ pruneRows oldest rows) : r ∈ rows := by
  obtain ⟨row, hrow⟩ := BTreeMap.mem_iff_get.1 h
  rw [get_pruneRows] at hrow
  obtain ⟨row', hrow', -⟩ := Option.bind_eq_some_iff.1 hrow
  exact BTreeMap.mem_of_get hrow'

/-- What is left of a row has a version that survives. -/
theorem alive_of_pruned (h : (pruneRows oldest page.rows)[r]? = some row) :
    row.versions.any (·.transactionHeader.survives oldest) = true := by
  rw [get_pruneRows] at h
  obtain ⟨row', -, h⟩ := Option.bind_eq_some_iff.1 h
  split_ifs at h with hnil
  obtain rfl := Option.some.inj h
  obtain ⟨v, hv⟩ := List.exists_mem_of_ne_nil _ hnil
  exact List.any_eq_true.2 ⟨v, hv, (List.mem_filter.1 hv).2⟩

theorem withRow_resident (hr : t.rowLocations[r]? = some p) (hp : t.rowSpace.get? p = some page) :
    withRow r none t = (.ok page.rows[r]?, t.touchPage p) := by
  have hpage : pageForRow r none t = (.ok page, t.touchPage p) := by
    unfold pageForRow
    rw [get_bind, hr]
    show ensurePageResident p none t = _
    rw [ensurePageResident_run, hp]
  unfold withRow
  rw [bind_ok hpage]; rfl

theorem withRow_unknown (hr : t.rowLocations[r]? = none) :
    withRow r none t = (.error (.err (.rowNotFound r)), t) := by
  have hpage : pageForRow r none t = (.error (.err (.rowNotFound r)), t) := by
    unfold pageForRow
    rw [get_bind, hr]; rfl
  unfold withRow
  rw [bind_error hpage]

/-- The vacuum asks the pages in memory whether a row is alive. -/
theorem looking_alive {t₀ : Table} (hres : ∀ p, t₀.Referenced p → t₀.Resident p)
    (hany : ∀ p page, t₀.rowSpace.get? p = some page → ∀ (r : RowID) (row : Row),
      page.rows[r]? = some row → row.versions.any (·.transactionHeader.survives oldest) = true) :
    Framed (looking t₀) (rowIsAliveForPrune r oldest) (· = .ok (t₀.aliveIn r)) := by
  intro t ht
  obtain ⟨hspace, hloc⟩ := ht
  right
  show (rowIsAliveForPrune r oldest none t).1 = _ ∧ (looking t₀).rel t (rowIsAliveForPrune r oldest none t).2
  have hrun : ∀ row t', withRow r none t = (.ok row, t') → rowIsAliveForPrune r oldest none t =
      (.ok ((row.map fun row => row.versions.any (·.transactionHeader.survives oldest)).getD false),
        t') := by
    intro row t' hrow
    unfold rowIsAliveForPrune
    show Call.handling _ _ none t = _
    unfold Call.handling
    rw [bind_run, hrow]
    rfl
  rw [aliveIn, ← hloc]
  cases hr : t.rowLocations[r]? with
  | none =>
    have hunknown : rowIsAliveForPrune r oldest none t = (.ok false, t) := by
      unfold rowIsAliveForPrune
      show Call.handling _ _ none t = _
      unfold Call.handling
      rw [bind_run, withRow_unknown hr]
      rfl
    rw [hunknown]
    exact ⟨rfl, rfl⟩
  | some p =>
    obtain ⟨page, hpage⟩ := hres p ⟨r, hloc ▸ hr⟩
    rw [hrun _ _ (withRow_resident hr (hspace ▸ hpage)), Option.bind_some, hpage, Option.bind_some]
    refine ⟨?_, rfl⟩
    cases hrow : page.rows[r]? with
    | none => rfl
    | some row => exact congrArg Except.ok (hany p page hpage r row hrow)

/-! ## Dropping index entries -/

section Pruned

variable {F : Frame (Option PageID) Table Fault} {isAlive : RowID → TableM Bool} {alive : RowID → Bool}

theorem framed_dead (h : ∀ r, Framed F (isAlive r) (· = .ok (alive r))) (index : HashIndex) :
    Framed F (index.toList.foldlM (fun dead x => x.2.toList.foldlM (fun dead rowId => do
      if ← isAlive rowId then pure dead else pure (⟨x.1, rowId⟩ :: dead)) dead) [])
      (· = .ok (index.dead alive)) := by
  have hstep : ∀ (key : HashType) dead r, Computes F Fault.err
      (do if ← isAlive r then pure dead else pure (IndexEntry.mk key r :: dead))
      (pure (if alive r then dead else IndexEntry.mk key r :: dead)) := by
    intro key dead r
    refine Framed.bind (h r) ?_ fun e he => by cases he
    rintro b hb
    obtain rfl := Except.ok.inj hb
    cases alive r <;> exact Framed.pure rfl
  have hall := Computes.foldlM (b := []) (l := index.toList) fun dead x _ =>
    Computes.foldlM (b := dead) (l := x.2.toList) fun dead r _ => hstep x.1 dead r
  simp only [List.foldlM_pure] at hall
  exact hall

/-- Pruning a column version whose rows are known to be alive or not. -/
theorem framed_versionPrune (h : ∀ r, Framed F (isAlive r) (· = .ok (alive r))) (v : InternalColumn) :
    Framed F (v.prune isAlive) (· = .ok (v.pruned alive)) := by
  unfold InternalColumn.prune InternalColumn.pruned
  cases v.index with
  | none => exact Framed.pure rfl
  | some index =>
    refine (framed_dead h index).bind ?_ fun e he => by cases he
    rintro dead hdead
    obtain rfl := Except.ok.inj hdead
    exact Framed.pure rfl

theorem framed_columnPrune (h : ∀ r, Framed F (isAlive r) (· = .ok (alive r))) (column : Column) :
    Framed F (column.prune oldest isAlive) (· = .ok (column.pruned oldest alive)) := by
  unfold Column.prune Column.pruned
  generalize column.versions.filter (·.transactionHeader.survives oldest) = versions
  have hfold : ∀ (l acc : List InternalColumn), Framed F
      (l.foldlM (fun versions v => do return versions ++ [← v.prune isAlive]) acc)
      (· = .ok (acc ++ l.map (·.pruned alive))) := by
    intro l
    induction l with
    | nil => intro acc; exact Framed.pure (by simp)
    | cons v l ih =>
      intro acc
      rw [List.foldlM_cons]
      refine ((framed_versionPrune h v).bind (f := fun v => (pure (acc ++ [v]) : TableM _))
        (Q := (· = .ok (acc ++ [v.pruned alive]))) ?_ ?_).bind ?_ ?_
      · rintro v' hv'
        obtain rfl := Except.ok.inj hv'
        exact Framed.pure rfl
      · rintro e he; cases he
      · rintro acc' hacc'
        obtain rfl := Except.ok.inj hacc'
        have := ih (acc ++ [v.pruned alive])
        rwa [List.append_assoc] at this
      · rintro e he; cases he
  refine (hfold versions []).bind ?_ fun e he => by cases he
  rintro versions' hversions'
  obtain rfl := Except.ok.inj hversions'
  exact Framed.pure rfl

end Pruned

/-- The table with its columns pruned. -/
theorem pruneColumns_run {t₀ : Table} {alive : RowID → Bool}
    (h : ∀ r, Framed (looking t₀) (rowIsAliveForPrune r oldest) (· = .ok (alive r)))
    (l : List (ColumnID × Column)) (ht : (looking t₀).inv t) :
    ∃ t', (l.forM fun x => (do
        let column ← x.2.prune oldest (rowIsAliveForPrune · oldest)
        modify fun t => { t with columns := t.columns.insert x.1 column } : TableM Unit)) none t =
        (.ok (), t') ∧
      t' = { t with
        lru := t'.lru
        lruCounter := t'.lruCounter
        columns := l.foldl (fun columns x => columns.insert x.1 (x.2.pruned oldest alive))
          t.columns } := by
  induction l generalizing t with
  | nil => exact ⟨t, rfl, rfl⟩
  | cons x l ih =>
    rcases framed_columnPrune h x.2 t ht with ⟨e, he, hfalse⟩ | ⟨hok, hrel⟩
    · exact False.elim hfalse
    · change ((x.2.prune oldest (rowIsAliveForPrune · oldest)) none t).1 = _ at hok
      change ((x.2.prune oldest (rowIsAliveForPrune · oldest)) none t).2 = _ at hrel
      generalize hout : (x.2.prune oldest (rowIsAliveForPrune · oldest)) none t = outcome at hok hrel
      obtain ⟨result, t₁⟩ := outcome
      obtain rfl : result = _ := hok
      obtain ⟨t', hrun', heq⟩ := ih (t := { t₁ with
        columns := t₁.columns.insert x.1 (x.2.pruned oldest alive) }) (by
          rw [show t₁ = _ from hrel]; exact ht)
      refine ⟨t', ?_, ?_⟩
      · have hone : (do
            let column ← x.2.prune oldest (rowIsAliveForPrune · oldest)
            modify fun t => { t with columns := t.columns.insert x.1 column } : TableM Unit) none t =
            (.ok (), { t₁ with columns := t₁.columns.insert x.1 (x.2.pruned oldest alive) }) := by
          rw [bind_ok hout]; rfl
        exact (bind_ok hone).trans hrun'
      · rw [heq, show t₁ = _ from hrel]; rfl

/-! ## Repacking -/

/-- The pages in memory hold the rows of the view, once each. -/
structure Gathered (t : Table) (rows : BTreeMap RowID Row) : Prop where
  held : ∀ p page, t.rowSpace.get? p = some page → ∀ (r : RowID) (row : Row),
    page.rows[r]? = some row → rows[r]? = some row ∧ t.rowLocations[r]? = some p
  found : ∀ (r : RowID) (row : Row), rows[r]? = some row →
    ∃ p page, t.rowSpace.get? p = some page ∧ page.rows[r]? = some row
  nonempty : ∀ (r : RowID) (row : Row), rows[r]? = some row → row.versions ≠ []

theorem Gathered.oneHome {rows : BTreeMap RowID Row} (h : t.Gathered rows) : t.OneHome := by
  intro p p' page page' hp hp' r hr hr'
  obtain ⟨row, hrow⟩ := BTreeMap.mem_iff_get.1 hr
  obtain ⟨row', hrow'⟩ := BTreeMap.mem_iff_get.1 hr'
  exact Option.some.inj ((h.held p page hp r row hrow).2.symm.trans (h.held p' page' hp' r row' hrow').2)

theorem Gathered.live_iff {rows : BTreeMap RowID Row} (h : t.Gathered rows) :
    t.Live r row ↔ rows[r]? = some row := by
  constructor
  · rintro ⟨-, p, page, hp, hr⟩
    exact (h.held p page hp r row hr).1
  · intro hrow
    exact ⟨h.nonempty r row hrow, h.found r row hrow⟩

/-- **Compaction** keeps the rows in memory and forgets everything else. -/
theorem good_compact {rows : BTreeMap RowID Row} (h : t.Gathered rows)
    (hr : t.pageStore.readFault = none) (hw : t.pageStore.writeFault = none)
    (hle : ∀ r ∈ rows, r ≤ t.nextRowId) : t.compact.Good ∧ t.compact.view =
      ⟨t.tableId, .ofList rows.keys compare, rows, t.columns, t.nextRowId⟩ := by
  obtain ⟨c, m, hspace, hloc, hnext, hc, -, hmem⟩ := h.oneHome.compacted
    (I := fun _ _ => True) trivial fun _ _ _ _ _ _ _ => trivial
  obtain rfl : m = rows := Std.ExtTreeMap.ext_getElem? fun r => Option.ext fun row => by
    rw [hmem, h.live_iff]
  have hdisk : t.compact.onDiskPages = ∅ := rfl
  have hfault : t.compact.pageStore = t.pageStore := rfl
  have hres : ∀ p, t.compact.Resident p ∨ t.compact.Referenced p →
      ∃ page, t.compact.rowSpace.get? p = some page := by
    rintro p (hp | ⟨r, hp⟩)
    · exact hp
    · rw [hloc] at hp
      obtain ⟨row, hrow⟩ := BTreeMap.mem_iff_get.1 (hc.located r p hp)
      obtain ⟨q, page, hq, hpage, -⟩ := hc.placed r row hrow
      rw [hp] at hq
      exact ⟨page, by rw [hspace, Option.some.inj hq, hpage]⟩
  have hstored : ∀ p, t.compact.Resident p ∨ t.compact.Referenced p → ∀ page,
      t.compact.Stored p page → c.space.get? p = some page := by
    rintro p hp page (hs | ⟨-, hrev⟩)
    · rw [← hspace]; exact hs
    · obtain ⟨page', hpage'⟩ := hres p hp
      rcases (hrev page' hpage').2 with ⟨-, hon⟩ | hf
      · rw [hdisk] at hon; simp at hon
      · exact absurd hw hf
  have hrowAt : ∀ r, t.compact.rowAt r = m[r]? := by
    intro r
    rw [rowAt, rowIn, hloc]
    cases hrow : m[r]? with
    | some row =>
      obtain ⟨p, page, hp, hpage, hrow'⟩ := hc.placed r row hrow
      rw [hp, Option.bind_some, content_of_resident (by rw [hspace, hpage]), Option.bind_some, hrow']
    | none =>
      cases hp : c.locations[r]? with
      | none => rfl
      | some p =>
        obtain ⟨row, hrow'⟩ := BTreeMap.mem_iff_get.1 (hc.located r p hp)
        rw [hrow] at hrow'; cases hrow'
  have hids : ∀ r, r ∈ t.compact.rowLocations ↔ r ∈ m := by
    intro r
    rw [hloc]
    constructor
    · intro hr
      obtain ⟨p, hp⟩ := BTreeMap.mem_iff_get.1 hr
      exact hc.located r p hp
    · intro hr
      obtain ⟨row, hrow⟩ := BTreeMap.mem_iff_get.1 hr
      obtain ⟨p, -, hp, -⟩ := hc.placed r row hrow
      exact BTreeMap.mem_of_get hp
  constructor
  · constructor
    · exact hr
    · exact hw
    · intro p hp
      rw [hdisk] at hp; simp at hp
    · intro p hp _ page page' h₁ h₂
      have := (hstored p hp page h₁).symm.trans (hstored p hp page' h₂)
      rw [Option.some.inj this]
    · intro p hp _ page h₁ r hr
      obtain ⟨row, hrow⟩ := BTreeMap.mem_iff_get.1 hr
      rw [hloc]
      exact (hc.homed p page (hstored p hp page h₁) r row hrow).1
    · intro p hp
      obtain ⟨page, hpage⟩ := hres p (Or.inr hp)
      exact ⟨page, content_of_resident hpage⟩
    · exact fun _ hp => hp.elim
    · rintro p ⟨page, hp⟩
      rw [hspace] at hp
      rw [hnext]
      exact hc.lt p page hp
    · intro p hp
      obtain ⟨page, hpage⟩ := hres p (Or.inr hp)
      rw [hspace] at hpage
      rw [hnext]
      exact hc.lt p page hpage
    · intro r hr
      exact hle r ((hids r).1 hr)
  · refine view_ext rfl (fun r => ?_) (fun r => ?_) rfl rfl
    · rw [mem_rowIds, hids, Std.ExtTreeSet.mem_ofList, List.contains_iff_mem, Std.ExtTreeMap.mem_keys]
    · rw [viewIn_get]; exact hrowAt r

/-! ## The vacuum -/

/-- With every page with rows in memory, dropping versions drops them from the view. -/
theorem gathered_rowsPruned (hg : t.Good) (hres : ∀ p, t.Referenced p → t.Resident p) :
    (t.rowsPruned oldest).Gathered (pruneRows oldest t.view.rows) := by
  have hget : ∀ p page', (t.rowsPruned oldest).rowSpace.get? p = some page' →
      ∃ page, t.rowSpace.get? p = some page ∧ page'.rows = pruneRows oldest page.rows := by
    intro p page' hp
    obtain ⟨page, hpage, rfl⟩ := Option.map_eq_some_iff.1 (get_prunedSpace.symm.trans hp)
    exact ⟨page, hpage, rfl⟩
  have hview : ∀ p page (r : RowID), t.rowSpace.get? p = some page → t.rowLocations[r]? = some p →
      t.view.rows[r]? = page.rows[r]? := by
    intro p page r hp hr
    rw [viewIn_get, rowIn, hr, Option.bind_some, content_of_resident hp, Option.bind_some]
  constructor
  · intro p page' hp r row hr
    obtain ⟨page, hpage, e⟩ := hget p page' hp
    rw [e] at hr
    have hr' := hr
    rw [get_pruneRows] at hr'
    obtain ⟨row', hrow', -⟩ := Option.bind_eq_some_iff.1 hr'
    have hloc := hg.homed p (Or.inl ⟨page, hpage⟩) not_false page (Or.inl hpage) r
      (BTreeMap.mem_of_get hrow')
    refine ⟨?_, hloc⟩
    rw [get_pruneRows, hview p page r hpage hloc, ← get_pruneRows, hr]
  · intro r row hrow
    have hrow' := hrow
    rw [get_pruneRows] at hrow'
    obtain ⟨row', hr, -⟩ := Option.bind_eq_some_iff.1 hrow'
    obtain ⟨p, hp⟩ := mapped_of_row hr
    obtain ⟨page, hpage⟩ := hres p ⟨r, hp⟩
    refine ⟨p, _, get_prunedSpace.trans (by rw [hpage]; rfl), ?_⟩
    rw [get_pruneRows, hview p page r hpage hp, ← get_pruneRows] at hrow
    exact hrow
  · intro r row hrow
    rw [get_pruneRows] at hrow
    obtain ⟨row', -, h⟩ := Option.bind_eq_some_iff.1 hrow
    split_ifs at h with hnil
    exact Option.some.inj h ▸ hnil

theorem Gathered.aliveIn {rows : BTreeMap RowID Row} (h : t.Gathered rows) (r : RowID) :
    t.aliveIn r = decide (r ∈ rows) := by
  rw [Table.aliveIn, Bool.eq_iff_iff, decide_eq_true_iff, Option.isSome_iff_exists, BTreeMap.mem_iff_get]
  refine exists_congr fun row => ?_
  constructor
  · intro hrow
    obtain ⟨page, hpage, hr⟩ := Option.bind_eq_some_iff.1 hrow
    obtain ⟨p, -, hp⟩ := Option.bind_eq_some_iff.1 hpage
    exact (h.held p page hp r row hr).1
  · intro hrow
    obtain ⟨p, page, hp, hr⟩ := h.found r row hrow
    rw [(h.held p page hp r row hr).2, Option.bind_some, hp, Option.bind_some, hr]

/-- With every page with rows in memory, dropping versions succeeds. -/
theorem pruneVersions_resident (hres : ∀ p, t.Referenced p → t.Resident p) :
    ∃ t', pruneVersions oldest none t = (.ok (), t') ∧ t' = { t.rowsPruned oldest with
      lru := t'.lru
      lruCounter := t'.lruCounter
      columns := t.columns.map fun _ column => column.pruned oldest (t.rowsPruned oldest).aliveIn } := by
  have halive : ∀ r, Framed (looking (t.rowsPruned oldest)) (rowIsAliveForPrune r oldest)
      (· = .ok ((t.rowsPruned oldest).aliveIn r)) := by
    intro r
    refine looking_alive (fun p hp => ?_) fun p page hp r row hr => ?_
    · obtain ⟨page, hpage⟩ := hres p hp
      exact ⟨_, get_prunedSpace.trans (by rw [hpage]; rfl)⟩
    · obtain ⟨page', hpage', rfl⟩ := Option.map_eq_some_iff.1 (get_prunedSpace.symm.trans hp)
      exact alive_of_pruned hr
  obtain ⟨t', hrun, heq⟩ := pruneColumns_run halive t.columns.toList
    (t := t.rowsPruned oldest) ⟨rfl, rfl⟩
  refine ⟨t', ?_, ?_⟩
  · unfold pruneVersions
    rw [modify_bind, get_bind]
    exact hrun
  · rw [heq, ← BTreeMap.foldl_insert_toList t.columns]
    rfl

theorem pruneVersions_run (hg : t.Good) (hres : ∀ p, t.Referenced p → t.Resident p) :
    ∃ t', pruneVersions oldest none t = (.ok (), t') ∧ t' = { t.rowsPruned oldest with
      lru := t'.lru
      lruCounter := t'.lruCounter
      columns := (t.view.prune oldest).columns } := by
  have hgather := @gathered_rowsPruned t oldest hg hres
  obtain ⟨t', hrun, heq⟩ := @pruneVersions_resident t oldest hres
  refine ⟨t', hrun, heq.trans ?_⟩
  rw [show (t.rowsPruned oldest).aliveIn = _ from funext hgather.aliveIn]
  rfl

theorem logged_run {x : TableM Unit} (h : x held t = (.ok (), t')) :
    logged x held t = (.ok true, t') := by
  show Call.handling _ _ held t = _
  unfold Call.handling
  rw [bind_ok h]
  rfl

/-- **The vacuum** does what its view says if all the pages with rows fit in memory. -/
theorem prune_refines (hg : t.Good) (hfit : t.Fits) {kept : Prop} :
    Refines t kept (prune oldest none t) (.ok (), t.view.prune oldest) := by
  obtain ⟨t₁, hrun₁, hm₁, hres⟩ := materializeAllPages_run hg hfit
  obtain ⟨hg₁, -, hv₁⟩ := (Shows.of_good hg).moved hm₁
  have hres₁ : ∀ p, t₁.Referenced p → t₁.Resident p := fun p hp => hres p (hm₁.referenced ▸ hp)
  obtain ⟨t₂, hrun₂, heq₂⟩ := pruneVersions_run hg₁ hres₁
  have hgather : t₂.Gathered (pruneRows oldest t₁.view.rows) := by
    have h := @gathered_rowsPruned t₁ oldest hg₁ hres₁
    rw [heq₂]
    exact ⟨h.held, h.found, h.nonempty⟩
  have hle : ∀ r ∈ pruneRows oldest t₁.view.rows, r ≤ t₂.nextRowId := by
    intro r hr
    obtain ⟨row, hrow⟩ := BTreeMap.mem_iff_get.1 (mem_of_mem_pruneRows hr)
    obtain ⟨p, hp⟩ := mapped_of_row hrow
    rw [heq₂]
    exact hg₁.rowId_le r (BTreeMap.mem_of_get hp)
  obtain ⟨hg₃, hv₃⟩ := good_compact hgather (by rw [heq₂]; exact hg₁.readable)
    (by rw [heq₂]; exact hg₁.writable) hle
  obtain ⟨hg₄, hv₄⟩ := good_flushed hg₃
  have hrun : prune oldest none t = (.ok (), t₂.compact.flushed) := by
    unfold prune
    rw [bind_ok (logged_run hrun₁)]
    show ((pruneVersions oldest >>= fun _ => _ : TableM Unit) none t₁) = _
    rw [bind_ok hrun₂, modify_bind, bind_ok (logged_run (flushAllPages_run hg₃.readable hg₃.writable))]
    rfl
  rw [hrun]
  refine ⟨hg₄, rfl, fun _ => (hv₄.trans hv₃).trans ?_, ?_⟩
  · rw [heq₂, ← hv₁]; rfl
  · show t₂.memoryLimit = t.memoryLimit
    rw [heq₂]; exact hm₁.memoryLimit

end Table

end AntDb
