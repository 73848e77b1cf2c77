/-
  Tables without a memory limit and without constraints never turn to their page file, except to
  flush.

  Such a table does what it would do over an empty page file without faults (`diskless`), and
  there its calls do what its view says, whatever the file system reports.
-/
import AntDb.Joining
import AntDb.Lib.Commuting
import AntDb.Placement

namespace AntDb

/-- No version of a column has a constraint. -/
def Unconstrained (columns : BTreeMap ColumnID Column) : Prop :=
  ∀ (c : ColumnID) column, columns[c]? = some column → ∀ v ∈ column.versions, v.constraints = ∅

theorem InternalColumn.constraints_updateIndex {v : InternalColumn} {c : ColumnID} {value : DataBaseDataEntry}
    {r : RowID} {T : TransactionID} : (v.updateIndex c value r T).constraints = v.constraints := by
  unfold updateIndex
  cases v.index <;> rfl

theorem InternalColumn.constraints_pruned {v : InternalColumn} {isAlive : RowID → Bool} :
    (v.pruned isAlive).constraints = v.constraints := by
  unfold pruned
  cases v.index <;> rfl

namespace Unconstrained

variable {columns : BTreeMap ColumnID Column} {rowId : RowID} {data : RowData} {txn : Transaction}

/-- Changes of the columns one by one. -/
theorem map {f : ColumnID → Column → Column} (h : Unconstrained columns) (hf : ∀ c column, ∀ v ∈ (f c column).versions,
    ∃ w ∈ column.versions, v.constraints = w.constraints) : Unconstrained (columns.map f) := by
  intro c column hc v hv
  rw [Std.ExtTreeMap.getElem?_map] at hc
  obtain ⟨old, hold, rfl⟩ := Option.map_eq_some_iff.1 hc
  obtain ⟨w, hw, heq⟩ := hf c old v hv
  rw [heq]
  exact h c old hold w hw

theorem indexed (h : Unconstrained columns) : Unconstrained (Table.updateIndexesForRow rowId data txn columns) := by
  refine h.map fun c column v hv => ?_
  split_ifs at hv
  · cases hd : data[c]? with
    | none => rw [hd] at hv; exact ⟨v, hv, rfl⟩
    | some value =>
      rw [hd] at hv
      rcases LastMatch.mem_updateLast hv with hv | ⟨w, hw, -, rfl⟩
      · exact ⟨v, hv, rfl⟩
      · exact ⟨w, hw, InternalColumn.constraints_updateIndex⟩
  · exact ⟨v, hv, rfl⟩

theorem rolledBack (h : Unconstrained columns) :
    Unconstrained (columns.map fun _ column => column.rollbackTransaction txn) := by
  refine h.map fun _ column v hv => ?_
  obtain ⟨w, hw, rfl⟩ := List.mem_map.1 hv
  exact ⟨w, hw, rfl⟩

theorem pruned (h : Unconstrained columns) {oldest : TransactionID} {isAlive : RowID → Bool} :
    Unconstrained (columns.map fun _ column => column.pruned oldest isAlive) := by
  refine h.map fun _ column v hv => ?_
  obtain ⟨w, hw, rfl⟩ := List.mem_map.1 hv
  exact ⟨w, (List.mem_filter.1 hw).1, InternalColumn.constraints_pruned⟩

end Unconstrained

namespace Table

open Call TableM

variable {t t' : Table} {I : Table → Prop} {ρ : RowMap} {p q : PageID} {page : Page} {r rowId : RowID}
  {row : Row} {data : RowData} {txn : Transaction} {others : ForeignTables} {sizes : RowID → ℕ} {oldest : TransactionID}

/-- The table over an empty page file. -/
def diskless (t : Table) : Table := { t with pageStore := .empty, onDiskPages := ∅ }

/-- Pages are never evicted, and rows are never checked against others. -/
structure Unchecked (t : Table) : Prop where
  unlimited : t.memoryLimit = 0
  unconstrained : Unconstrained t.columns

/-- The pages that `ρ` maps rows to are in memory. -/
structure InMemory (ρ : RowMap) (t : Table) : Prop extends t.Unchecked where
  locations : t.rowLocations = ρ
  resident : ∀ p, ρ.Maps p → t.Resident p

/-! ## Calls that do not turn to the page file -/

theorem commutes_lockPage : Commutes diskless I (lockPage p) := by
  intro held t ht
  unfold lockPage
  split_ifs
  · exact ⟨rfl, ht⟩
  · exact ⟨rfl, ht⟩

theorem commutes_throw {α : Type} {e : DataBaseErrors} : Commutes diskless I (throw e : TableM α) :=
  Commutes.fail

/-- The outcome of a check by type. -/
def TypeChecked (r : Except DataBaseErrors Unit) : Prop :=
  r = .ok () ∨ ∃ c expected found, r = .error (.dataTypeMismatch c expected found)

/-- A loop of checks that do not look at the table. -/
theorem forM_typeChecked {γ : Type} {g : γ → TableM Unit} {l : List γ}
    (h : ∀ c ∈ l, ∃ r, TypeChecked r ∧ g c = TableM.ofResult r) : ∃ r, TypeChecked r ∧ l.forM g = TableM.ofResult r := by
  induction l with
  | nil => exact ⟨.ok (), Or.inl rfl, rfl⟩
  | cons c l ih =>
    obtain ⟨r, hr, hrun⟩ := ih fun c hc => h c (List.mem_cons_of_mem _ hc)
    obtain ⟨r₀, hr₀, hrun₀⟩ := h c (List.mem_cons_self ..)
    have hforM : (c :: l).forM g = (g c >>= fun _ => l.forM g) := rfl
    rw [hforM, hrun, hrun₀]
    rcases hr₀ with rfl | ⟨c', expected, found, rfl⟩
    · exact ⟨r, hr, rfl⟩
    · exact ⟨_, Or.inr ⟨c', expected, found, rfl⟩, rfl⟩

/-- Columns without constraints are checked by type alone. -/
theorem Unchecked.validate (h : t.Unchecked) {excludeRowId : Option RowID}
    {fkLookup : TableID → ColumnID → DataBaseDataEntry → TableM Bool} :
    ∃ r, TypeChecked r ∧ ∀ held t', t'.columns = t.columns →
      validateRowData data txn excludeRowId fkLookup held t' = (r.mapError .err, t') := by
  obtain ⟨check, hloop, hchecks⟩ : ∃ check : ColumnID × Column → TableM Unit,
      (∀ held t', validateRowData data txn excludeRowId fkLookup held t' = t'.columns.toList.forM check held t') ∧
        ∀ x ∈ t.columns.toList, ∃ r, TypeChecked r ∧ check x = TableM.ofResult r := by
    refine ⟨_, fun held t' => get_bind, fun x hx => ?_⟩
    cases hv : x.2.getVersionedColumn txn with
    | none => exact ⟨.ok (), Or.inl rfl, rfl⟩
    | some version =>
      obtain ⟨pre, post, hlast⟩ := LastMatch.findLast_some.1 hv
      have hnone : version.constraints = ∅ :=
        h.unconstrained x.1 x.2 (BTreeMap.mem_toList.1 hx) version hlast.mem
      have hpure : x.2.schemaValidation (data[x.1]?.getD .null)
          (fun rowId => withVersionedColumnEntry rowId x.1 txn) fkLookup txn excludeRowId =
            TableM.ofResult (.ok ()) := by
        rw [Column.schemaValidation, hv]
        dsimp only
        rw [InternalColumn.schemaValidation, hnone]
        rfl
      dsimp only
      rw [hpure]
      split_ifs
      · exact ⟨_, Or.inr ⟨_, _, _, rfl⟩, rfl⟩
      · exact ⟨.ok (), Or.inl rfl, rfl⟩
  obtain ⟨r, hr, hrun⟩ := forM_typeChecked hchecks
  refine ⟨r, hr, fun held t' ht' => ?_⟩
  rw [hloop, ht', hrun]
  rfl

theorem commutes_validateRowData {excludeRowId : Option RowID}
    {fkLookup : TableID → ColumnID → DataBaseDataEntry → TableM Bool} (hI : ∀ t, I t → t.Unchecked) :
    Commutes diskless I (validateRowData data txn excludeRowId fkLookup) := by
  intro held t ht
  obtain ⟨r, -, hrun⟩ := @Unchecked.validate t data txn (hI t ht) excludeRowId fkLookup
  rw [hrun held t rfl, hrun held t.diskless rfl]
  exact ⟨rfl, ht⟩

theorem commutes_ensurePageResident (hres : ∀ t, I t → t.Resident p)
    (hI : ∀ t p, I t → I (t.touchPage p)) : Commutes diskless I (ensurePageResident p) := by
  refine Commutes.get (fun _ _ => rfl) fun t ht => ?_
  obtain ⟨page, hpage⟩ := hres t ht
  rw [hpage]
  refine Commutes.bind (Commutes.modify ?_ ?_) fun _ => Commutes.pure
  · exact fun _ _ => rfl
  · exact fun t ht => hI t p ht

/-! ## Reads, deletes and updates -/

theorem InMemory.touched (h : t.InMemory ρ) : (t.touchPage p).InMemory ρ :=
  ⟨⟨h.unlimited, h.unconstrained⟩, h.locations, h.resident⟩

theorem commutes_ensure (hp : ρ.Maps p) : Commutes diskless (InMemory ρ) (ensurePageResident p) :=
  commutes_ensurePageResident (fun _ ht => ht.resident p hp) fun _ _ ht => ht.touched

theorem commutes_pageForRow : Commutes diskless (InMemory ρ) (pageForRow rowId) := by
  refine Commutes.get (fun _ _ => rfl) fun t ht => ?_
  rw [ht.locations]
  cases hr : ρ[rowId]? with
  | none => exact commutes_throw
  | some p => exact commutes_ensure ⟨rowId, hr⟩

theorem commutes_writeRow {f : Row → Row} : Commutes diskless (InMemory ρ) (writeRow p rowId f) := by
  refine Commutes.modify (fun _ _ => rfl) fun t ht => ⟨⟨ht.unlimited, ht.unconstrained⟩, ht.locations, fun q hq => ?_⟩
  obtain ⟨page, hpage⟩ := ht.resident q hq
  rw [Resident, PageMap.get?_update]
  split_ifs
  · exact ⟨_, by rw [hpage]; rfl⟩
  · exact ⟨page, hpage⟩

theorem commutes_deleteRow : Commutes diskless (InMemory ρ) (deleteRow rowId txn) := by
  refine commutes_pageForRow.bind fun page => commutes_lockPage.bind fun _ => ?_
  split_ifs
  · exact commutes_writeRow
  · exact commutes_throw

theorem commutes_updateRow : Commutes diskless (InMemory ρ) (updateRow rowId data txn others) := by
  refine commutes_pageForRow.bind fun page => commutes_lockPage.bind fun _ => ?_
  cases page.rows[rowId]? with
  | none => exact commutes_throw
  | some row =>
    refine (commutes_validateRowData fun _ ht => ht.toUnchecked).within.bind fun _ => commutes_writeRow.bind fun _ => ?_
    exact Commutes.modify (fun _ _ => rfl) fun t ht => ⟨⟨ht.unlimited, ht.unconstrained.indexed⟩, ht.locations, ht.resident⟩

theorem commutes_scanVisible {σ : Type} {f : σ → RowID → InternalRow → Except DataBaseErrors σ} {init : σ} :
    Commutes diskless (InMemory ρ) (scanVisible txn f init) := by
  refine Commutes.get (fun _ _ => rfl) fun t ht => Commutes.foldlM fun acc p hp => ?_
  have hmaps : ρ.Maps p := by
    rw [← ht.locations]
    exact mem_referencedPages.1 (Std.ExtTreeSet.mem_toList.1 hp)
  refine (commutes_ensure hmaps).bind fun page => commutes_lockPage.bind fun _ =>
    Commutes.foldlM fun acc x _ => ?_
  cases x.2.getVersionedRow txn with
  | none => exact Commutes.pure
  | some version => exact Commutes.ofExcept

theorem commutes_forEachVisibleRow {σ : Type} {f : σ → RowID → RowData → Except DataBaseErrors σ} {init : σ} :
    Commutes diskless (InMemory ρ) (forEachVisibleRow txn f init) := commutes_scanVisible

/-! ## Inserts -/

/-- A change of the pages and the counters. -/
theorem commutes_modify {g : Table → Table} (hπ : ∀ t, g t.diskless = (g t).diskless)
    (hlimit : ∀ t, (g t).memoryLimit = t.memoryLimit) (hcolumns : ∀ t, (g t).columns = t.columns) :
    Commutes diskless Unchecked (modify g : TableM Unit) :=
  Commutes.modify (fun t _ => hπ t) fun t ht =>
    ⟨(hlimit t).trans ht.unlimited, by rw [hcolumns]; exact ht.unconstrained⟩

theorem commutes_maybeEvictPages {pinned : Option PageID} :
    Commutes diskless Unchecked (maybeEvictPages pinned) := by
  refine Commutes.get (fun _ _ => rfl) fun t ht => ?_
  rw [if_pos ht.unlimited]
  exact Commutes.pure

theorem commutes_registerPage : Commutes diskless Unchecked registerPage := by
  refine Commutes.get (fun _ _ => rfl) fun t _ => ?_
  refine Commutes.bind (commutes_modify (fun _ => rfl) (fun _ => rfl) fun _ => rfl) fun _ => ?_
  refine Commutes.bind (commutes_modify (fun _ => rfl) (fun _ => rfl) fun _ => rfl) fun _ => ?_
  exact commutes_maybeEvictPages.bind fun _ => Commutes.pure

theorem commutes_forceAppendToPage {size : ℕ} :
    Commutes diskless Unchecked (forceAppendToPage p rowId row size) :=
  commutes_modify (fun _ => rfl) (fun _ => rfl) fun _ => rfl

theorem commutes_tryAppendToTailPage {size : ℕ} :
    Commutes diskless Unchecked (tryAppendToTailPage rowId row size) := by
  refine Commutes.get (fun _ _ => rfl) fun t ht => ?_
  cases t.rowSpace.keys.getLast?.bind t.rowSpace.get? with
  | none => exact Commutes.pure
  | some tail =>
    dsimp only
    split_ifs
    · refine commutes_forceAppendToPage.bind fun _ => ?_
      exact Commutes.bind (commutes_modify (fun _ => rfl) (fun _ => rfl) fun _ => rfl) fun _ => Commutes.pure
    · exact Commutes.pure

theorem commutes_insertRowIntoPage {size : ℕ} :
    Commutes diskless Unchecked (insertRowIntoPage rowId row size) := by
  refine commutes_tryAppendToTailPage.bind fun tailId => ?_
  cases tailId with
  | some p => exact Commutes.pure
  | none =>
    refine commutes_tryAppendToTailPage.bind fun tailId => ?_
    cases tailId with
    | some p => exact Commutes.pure
    | none =>
      exact commutes_registerPage.bind fun p => commutes_forceAppendToPage.bind fun _ => Commutes.pure

theorem commutes_extendOverflowChain (n : ℕ) (p : PageID) :
    Commutes diskless Unchecked (extendOverflowChain n p) := by
  induction n generalizing p with
  | zero => exact Commutes.pure
  | succ n ih =>
    refine commutes_registerPage.bind fun q => ?_
    refine Commutes.bind (commutes_modify (fun _ => rfl) (fun _ => rfl) fun _ => rfl) fun _ => ?_
    exact Commutes.bind (commutes_modify (fun _ => rfl) (fun _ => rfl) fun _ => rfl) fun _ => ih q

theorem commutes_insertOverflowRow {size : ℕ} :
    Commutes diskless Unchecked (insertOverflowRow rowId row size) := by
  refine commutes_registerPage.bind fun head => commutes_forceAppendToPage.bind fun _ =>
    Commutes.get (fun _ _ => rfl) fun t _ => ?_
  exact (commutes_extendOverflowChain _ _).bind fun _ => Commutes.pure

theorem commutes_placeNewRow {size : ℕ} : Commutes diskless Unchecked (placeNewRow rowId row size) := by
  refine Commutes.get (fun _ _ => rfl) fun t _ => ?_
  split_ifs
  · exact commutes_insertOverflowRow
  · exact commutes_insertRowIntoPage

theorem commutes_insertRow : Commutes diskless Unchecked (insertRow data txn others) := by
  refine (commutes_validateRowData fun _ ht => ht).bind fun _ => Commutes.get (fun _ _ => rfl) fun t _ => ?_
  refine Commutes.bind (commutes_modify (fun _ => rfl) (fun _ => rfl) fun _ => rfl) fun _ => commutes_placeNewRow.bind fun p => ?_
  refine Commutes.bind (commutes_modify (fun _ => rfl) (fun _ => rfl) fun _ => rfl) fun _ => Commutes.bind ?_ fun _ => Commutes.pure
  exact Commutes.modify (fun _ _ => rfl) fun t ht => ⟨ht.unlimited, ht.unconstrained.indexed⟩

/-! ## The view of a table in memory -/

/-- Tables with the same rows on the same pages have the same view. -/
theorem view_of_rows (hid : t'.tableId = t.tableId) (hcolumns : t'.columns = t.columns)
    (hnext : t'.nextRowId = t.nextRowId) (hloc : t'.rowLocations = t.rowLocations)
    (hrows : ∀ p, (t'.rowSpace.get? p).map (·.rows) = (t.rowSpace.get? p).map (·.rows))
    (hres : ∀ p, t.Referenced p → t.Resident p) : t'.view = t.view := by
  refine view_ext hid (fun r => ?_) (fun r => ?_) hcolumns hnext
  · rw [mem_rowIds, mem_rowIds, hloc]
  · rw [viewIn_get, viewIn_get, rowIn, rowIn, hloc]
    cases hr : t.rowLocations[r]? with
    | none => rfl
    | some p =>
      obtain ⟨page, hpage⟩ := hres p ⟨r, hr⟩
      have hsame := hrows p
      rw [hpage, Option.map_some] at hsame
      obtain ⟨page', hpage', heq⟩ := Option.map_eq_some_iff.1 hsame
      rw [Option.bind_some, Option.bind_some, content_of_resident hpage, content_of_resident hpage',
        Option.bind_some, Option.bind_some, heq]

theorem view_diskless (hres : ∀ p, t.Referenced p → t.Resident p) : t.diskless.view = t.view :=
  view_of_rows rfl rfl rfl rfl (fun _ => rfl) hres

/-- Over an empty page file a page is what memory has of it. -/
theorem stored_diskless : t.diskless.Stored p page ↔ t.rowSpace.get? p = some page := by
  refine ⟨fun hs => ?_, Or.inl⟩
  rcases hs with hs | ⟨hs, -⟩
  · exact hs
  · exact absurd hs (by simp [diskless, PageStore.empty])

namespace Arranged

theorem resident (h : t.Arranged sizes) : ∀ p, t.Referenced p → t.Resident p := by
  rintro p ⟨r, hr⟩
  obtain ⟨page, hpage, -⟩ := resident_of_sound h.laid.sound hr
  exact ⟨page, hpage⟩

theorem inMemory (h : t.Arranged sizes) (hu : t.Unchecked) : t.InMemory t.rowLocations :=
  ⟨hu, rfl, h.resident⟩

theorem good (h : t.Arranged sizes) : t.diskless.Good where
  readable := rfl
  writable := rfl
  filed p hp := absurd hp Std.ExtTreeSet.not_mem_empty
  settled p _ _ page page' hs hs' := by
    have heq := (stored_diskless.1 hs).symm.trans (stored_diskless.1 hs')
    rw [Option.some.inj heq]
  homed p _ _ page hs r hr :=
    h.laid.sound.homed p _ (page_layout_of_get (stored_diskless.1 hs)) r (Page.mem_outline.2 hr)
  located p hp := by
    obtain ⟨page, hpage⟩ := h.resident p hp
    exact ⟨page, content_of_resident hpage⟩
  unmapped _ hX := hX.elim
  resident_lt p hp := by
    obtain ⟨page, hpage⟩ := hp
    exact h.laid.sound.lt p _ (page_layout_of_get hpage)
  mapped_lt p hp := by
    obtain ⟨page, hpage⟩ := h.resident p hp
    exact h.laid.sound.lt p _ (page_layout_of_get hpage)
  rowId_le := h.rowId_le

/-- A call that does what its view says over an empty page file does so over any other. -/
theorem outcome {α : Type} {x : TableM α} {spec : Except DataBaseErrors α × View} {kept : Prop} {sizes' : RowID → ℕ}
    (hx : Commutes diskless I x) (ht : I t) (hspec : Refines t.diskless kept (x none t.diskless) spec) (hkept : kept)
    (h' : (x none t).2.Arranged sizes') :
    (x none t).1 = spec.1.mapError .err ∧ (x none t).2.view = spec.2 := by
  rw [hx.run ht] at hspec
  exact ⟨hspec.result, (view_diskless h'.resident).symm.trans (hspec.view hkept)⟩

/-- The checks of a write are by type. -/
theorem validate_view (h : t.Arranged sizes) (hu : t.Unchecked) {excludeRowId : Option RowID} :
    TypeChecked (t.view.validateRowData data txn excludeRowId others) := by
  obtain ⟨r, hr, hvalid⟩ := @Unchecked.validate t data txn hu excludeRowId (foreignKeyValueExists others txn)
  have hyields : Yields none t.rowLocations t.diskless.view
      (validateRowData data txn excludeRowId (foreignKeyValueExists others txn))
      (t.diskless.view.validateRowData data txn excludeRowId others) := yields_validateRowData
  obtain ⟨t', hrun, -⟩ := run_yields h.good hyields
  rw [hvalid none t.diskless rfl, view_diskless h.resident] at hrun
  have heq : r.mapError Fault.err = (t.view.validateRowData data txn excludeRowId others).mapError .err :=
    congrArg Prod.fst hrun
  generalize t.view.validateRowData data txn excludeRowId others = r' at heq ⊢
  have hsame : r' = r := by
    cases r <;> cases r' <;> cases heq <;> rfl
  rw [hsame]
  exact hr

theorem insertRow_view (h : t.Arranged sizes) (hu : t.Unchecked) :
    (Table.insertRow data txn others none t).1 = (t.view.insertRow data txn others).1.mapError .err ∧
      (Table.insertRow data txn others none t).2.view = (t.view.insertRow data txn others).2 := by
  have hkeeps : t.diskless.KeepsRow data txn others := keepsRow_unlimited h.good h.unlimited
  have hspec := insertRow_refines h.good hkeeps.opensClean
  rw [view_diskless h.resident] at hspec
  exact outcome commutes_insertRow hu hspec hkeeps h.insertRow

theorem deleteRow_view (h : t.Arranged sizes) (hu : t.Unchecked) :
    (Table.deleteRow rowId txn none t).1 = (t.view.deleteRow rowId txn).1.mapError .err ∧
      (Table.deleteRow rowId txn none t).2.view = (t.view.deleteRow rowId txn).2 := by
  have hspec : Refines t.diskless True (Table.deleteRow rowId txn none t.diskless)
      (t.diskless.view.deleteRow rowId txn) := deleteRow_refines h.good
  rw [view_diskless h.resident] at hspec
  exact outcome commutes_deleteRow (h.inMemory hu) hspec trivial
    (h.of_follows (follows_deleteRow_resting h.laid.sound))

end Arranged

/-- An update that is checked against no other row does not wait for its own lock. -/
theorem updateRow_returns (hg : t.Good) (hu : t.Unchecked) :
    (updateRow rowId data txn others none t).1 ≠ .error .blocked := by
  unfold updateRow
  rcases run_pageForRow hg with ⟨hr, hrun⟩ | ⟨p, page, t', hr, hrun, hm, hp, hrow⟩
  · rw [bind_error hrun]
    simp
  · have hlock : lockPage page.pageId none t' = (.ok (), t') := rfl
    rw [bind_ok hrun, bind_ok hlock]
    cases page.rows[rowId]? with
    | none => simp [throw, throwThe, MonadExceptOf.throw, Call.fail]
    | some row =>
      have hu' : t'.Unchecked := ⟨hm.memoryLimit.trans hu.unlimited, by rw [hm.columns]; exact hu.unconstrained⟩
      obtain ⟨r, -, hvalid⟩ := @Unchecked.validate t' (effectiveData row data txn) txn hu' (some rowId)
        (foreignKeyValueExists others txn)
      have hrun' : holding page.pageId (validateRowData (effectiveData row data txn) txn (some rowId)
          (foreignKeyValueExists others txn)) none t' = (r.mapError .err, t') := hvalid _ t' rfl
      dsimp only
      rw [bind_run, hrun']
      cases r with
      | error e => simp [Except.mapError]
      | ok _ =>
        intro hblocked
        cases hblocked

namespace Arranged

theorem updateRow_view (h : t.Arranged sizes) (hu : t.Unchecked) :
    (Table.updateRow rowId data txn others none t).1 = (t.view.updateRow rowId data txn others).1.mapError .err ∧
      (Table.updateRow rowId data txn others none t).2.view = (t.view.updateRow rowId data txn others).2 := by
  have hspec : Refines t.diskless True (Table.updateRow rowId data txn others none t.diskless)
      (t.diskless.view.updateRow rowId data txn others) :=
    updateRow_refines h.good (updateRow_returns h.good ⟨hu.unlimited, hu.unconstrained⟩)
  rw [view_diskless h.resident] at hspec
  exact outcome commutes_updateRow (h.inMemory hu) hspec trivial
    (h.of_follows (follows_updateRow_resting h.laid.sound))

theorem foldlM_collect (l found : List (RowID × RowData)) :
    l.foldlM (fun found x => .ok (found ++ [(x.1, x.2)])) found =
      (.ok (found ++ l) : Except DataBaseErrors (List (RowID × RowData))) := by
  induction l generalizing found with
  | nil => rw [List.append_nil]; rfl
  | cons x l ih =>
    rw [List.foldlM_cons]
    show List.foldlM _ _ l = _
    rw [ih, List.append_assoc]
    rfl

/-- A scan visits the rows that the transaction sees, once each. -/
theorem forEachVisibleRow_run (h : t.Arranged sizes) (hu : t.Unchecked) :
    ∃ found, (forEachVisibleRow txn (fun found r data => .ok (found ++ [(r, data)])) [] none t).1 = .ok found ∧
      found.Perm (t.view.visibleRows txn) := by
  have hyields := @yields_forEachVisibleRow none t.rowLocations t.diskless.view txn _
    (fun found r data => .ok (found ++ [(r, data)])) []
  rw [foldlM_collect, List.nil_append] at hyields
  obtain ⟨t', hrun, -⟩ := run_yields h.good hyields
  rw [commutes_forEachVisibleRow.run (h.inMemory hu)] at hrun
  refine ⟨_, congrArg Prod.fst hrun, ?_⟩
  have hperm := @View.scannedRows_perm txn t.diskless
  rw [view_diskless h.resident] at hperm ⊢
  exact hperm

theorem rollback_view (h : t.Arranged sizes) :
    (t.rollbackTransaction txn).view = t.view.rollbackTransaction txn := by
  have hreaches : t.diskless.RollbackReaches txn := fun p page hs =>
    Or.inl ⟨stored_diskless.1 hs, fun hm => (hm page (stored_diskless.1 hs)).1 h.unlimited⟩
  have hview := view_rollback h.good hreaches
  rw [view_diskless h.resident] at hview
  rw [← hview]
  refine (view_diskless fun p hp => ?_).symm
  exact resident_rollback.2 (h.resident p hp)

end Arranged

/-! ## The vacuum -/

/-- Calls that leave the columns and the table's name alone. -/
def naming : Frame (Option PageID) Table Fault where
  env := none
  inv _ := True
  rel t t' := t'.tableId = t.tableId ∧ t'.columns = t.columns
  exempt _ := False
  refl _ := ⟨rfl, rfl⟩
  trans h h' := ⟨h'.1.trans h.1, h'.2.trans h.2⟩
  keep _ _ := trivial

/-- A flush, whether it fails or not, keeps the view of a table in memory. -/
theorem flushAllPages_view (hres : ∀ p, t.Referenced p → t.Resident p) : (flushAllPages none t).2.view = t.view := by
  have hnaming : Follows naming flushAllPages := follows_flushAllPages (fun _ _ _ _ => ⟨rfl, rfl⟩) fun _ _ => ⟨rfl, rfl⟩
  rcases hnaming none t trivial with ⟨-, -, ⟨⟩⟩ | ⟨-, hid, hcolumns⟩
  rcases cleaning_flushAllPages none t trivial with ⟨-, -, ⟨⟩⟩ | ⟨-, hsame, hrows⟩
  exact view_of_rows hid hcolumns hsame.nextRowId (rowLocations_of_layout hsame.layout) hrows hres

namespace Arranged

/-- **A vacuum**, whether its flush fails or not, does what the view says. -/
theorem prune_view (h : t.Arranged sizes) : (Table.prune oldest none t).2.view = t.view.prune oldest := by
  obtain ⟨t₁, hrun₁, heq₁⟩ := materializeAllPages_resident h.resident
  have h₁ : t₁.Arranged sizes := by
    rw [heq₁]
    exact ⟨h.unlimited, h.pageSize, h.rowId_le, h.laid⟩
  have hview₁ : t₁.view = t.view := by rw [heq₁]; rfl
  obtain ⟨t₂, hrun₂, heq₂⟩ := @pruneVersions_resident t₁ oldest h₁.resident
  have hgather : (t₁.diskless.rowsPruned oldest).Gathered (pruneRows oldest t.view.rows) := by
    have hgather := @gathered_rowsPruned t₁.diskless oldest h₁.good h₁.resident
    rw [view_diskless h₁.resident, hview₁] at hgather
    exact hgather
  have hgather₂ : t₂.diskless.Gathered (pruneRows oldest t.view.rows) := by
    rw [heq₂]
    exact ⟨hgather.held, hgather.found, hgather.nonempty⟩
  have hle : ∀ r ∈ pruneRows oldest t.view.rows, r ≤ t₂.nextRowId := by
    intro r hr
    obtain ⟨row, hrow⟩ := BTreeMap.mem_iff_get.1 (mem_of_mem_pruneRows hr)
    obtain ⟨p, hp⟩ := mapped_of_row hrow
    rw [heq₂, heq₁]
    exact h.rowId_le r (BTreeMap.mem_of_get hp)
  obtain ⟨hg₃, hv₃⟩ := good_compact hgather₂ rfl rfl hle
  have hres₃ : ∀ p, t₂.compact.Referenced p → t₂.compact.Resident p := fun p hp => by
    obtain ⟨page, hpage⟩ := hg₃.located p hp
    exact ⟨page, stored_diskless.1 (stored_content hpage)⟩
  have halive : (t₁.rowsPruned oldest).aliveIn = fun r => decide (r ∈ pruneRows oldest t.view.rows) :=
    funext hgather.aliveIn
  rw [prune_state hrun₁ hrun₂, flushAllPages_view hres₃, ← view_diskless hres₃]
  refine hv₃.trans ?_
  show (⟨t₂.tableId, _, _, t₂.columns, t₂.nextRowId⟩ : View) = _
  rw [heq₂, halive, heq₁]
  rfl

end Arranged

end Table

end AntDb
