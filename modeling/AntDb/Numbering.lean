/-
  Which rows the indexes of a table file.

  An index keeps ids that rolled-back and updated rows once had there, but never the id of a
  row that has not been inserted yet.
-/
import AntDb.Histories

namespace AntDb

open Call TableM

variable {P Q : RowID → Prop} {txn : Transaction} {rowId r : RowID} {row : Row}

namespace HashIndex

variable {index : HashIndex} {key key' : HashType}

theorem filed_insert : (index.insert key rowId).filed key' =
    if key = key' then (index.filed key).insert rowId else index.filed key' := by
  unfold filed insert
  rw [Std.ExtTreeMap.getElem?_alter]
  simp only [Std.LawfulEqOrd.compare_eq_iff_eq]
  split_ifs <;> rfl

theorem mem_filed_insert : r ∈ (index.insert key rowId).filed key' ↔
    key = key' ∧ r = rowId ∨ r ∈ index.filed key' := by
  rw [filed_insert]
  split_ifs with hk
  · subst hk
    rw [BTreeSet.mem_insert, and_iff_right rfl]
  · rw [iff_false_intro hk, false_and, false_or]

theorem mem_filed_remove (h : r ∈ (index.remove key rowId).filed key') : r ∈ index.filed key' := by
  unfold filed remove at h
  rw [Std.ExtTreeMap.getElem?_alter] at h
  split_ifs at h with hk
  · rw [Std.LawfulEqOrd.compare_eq_iff_eq] at hk
    subst hk
    unfold filed
    cases hrows : index[key]? with
    | none => rw [hrows] at h; exact h
    | some rowIds =>
      rw [hrows, Option.bind_some] at h
      split_ifs at h
      · simp at h
      · exact (BTreeSet.mem_erase.1 h).2
  · exact h

theorem mem_filed_removeAll {entries : List IndexEntry}
    (h : r ∈ (entries.foldl (fun index e => index.remove e.key e.rowId) index).filed key) :
    r ∈ index.filed key := by
  induction entries generalizing index with
  | nil => exact h
  | cons e entries ih => exact mem_filed_remove (ih h)

end HashIndex

/-! ## Columns -/

/-- Every row id in the index satisfies `P`. -/
def InternalColumn.FilesOnly (P : RowID → Prop) (v : InternalColumn) : Prop :=
  ∀ index, v.index = some index → ∀ key, ∀ r ∈ index.filed key, P r

/-- So it is for every version of the column. -/
def Column.FilesOnly (P : RowID → Prop) (column : Column) : Prop :=
  ∀ v ∈ column.versions, v.FilesOnly P

namespace InternalColumn

variable {v v' : InternalColumn}

theorem FilesOnly.of_index (h : v.FilesOnly P) (hi : v'.index = v.index) : v'.FilesOnly P :=
  fun index hindex => h index (hi ▸ hindex)

theorem filesOnly_empty (h : v.index = none ∨ v.index = some ∅) : v.FilesOnly P := by
  intro index hindex key r hr
  rcases h with h | h <;> rw [h] at hindex
  · cases hindex
  · obtain rfl := Option.some.inj hindex
    simp [HashIndex.filed] at hr

theorem FilesOnly.insert {index : HashIndex} {key : HashType} (h : v.FilesOnly P)
    (hv : v.index = some index) (hr : P rowId) (hi : v'.index = some (index.insert key rowId)) :
    v'.FilesOnly P := by
  intro index' hindex' key' r hmem
  rw [hi] at hindex'
  obtain rfl := Option.some.inj hindex'
  rcases HashIndex.mem_filed_insert.1 hmem with ⟨-, rfl⟩ | hmem
  · exact hr
  · exact h index hv key' r hmem

theorem FilesOnly.removeAll {index : HashIndex} {entries : List IndexEntry} (h : v.FilesOnly P)
    (hv : v.index = some index)
    (hi : v'.index = some (entries.foldl (fun index e => index.remove e.key e.rowId) index)) :
    v'.FilesOnly P := by
  intro index' hindex' key r hmem
  rw [hi] at hindex'
  obtain rfl := Option.some.inj hindex'
  exact h index hv key r (HashIndex.mem_filed_removeAll hmem)

theorem FilesOnly.indexRow (h : v.FilesOnly P) (hr : P rowId) : (v.indexRow rowId row txn).1.FilesOnly P := by
  unfold InternalColumn.indexRow
  split
  · exact h.insert ‹_› hr rfl
  · exact h

theorem FilesOnly.updateIndex {columnId : ColumnID} {value : DataBaseDataEntry} {id : TransactionID}
    (h : v.FilesOnly P) (hr : P rowId) : (v.updateIndex columnId value rowId id).FilesOnly P := by
  unfold InternalColumn.updateIndex
  split
  · exact h
  · exact h.insert ‹_› hr rfl

theorem FilesOnly.rollback {id : TransactionID} (h : v.FilesOnly P) :
    (v.rollbackIndexTransaction id).FilesOnly P := by
  cases hv : v.index with
  | none => exact filesOnly_empty (Or.inl (by rw [rollbackIndexTransaction, hv]; rfl))
  | some index => exact h.removeAll hv (by rw [rollbackIndexTransaction, hv]; rfl)

theorem FilesOnly.pruned {isAlive : RowID → Bool} (h : v.FilesOnly P) : (v.pruned isAlive).FilesOnly P := by
  unfold InternalColumn.pruned
  split
  · exact h
  · exact h.removeAll ‹_› rfl

end InternalColumn

namespace Column.FilesOnly

variable {column column' : Column}

theorem mono (h : column.FilesOnly P) (hPQ : ∀ r, P r → Q r) : column.FilesOnly Q :=
  fun v hv index hindex key r hr => hPQ r (h v hv index hindex key r hr)

theorem updateLast {p : InternalColumn → Bool} {f : InternalColumn → InternalColumn}
    (h : column.FilesOnly P) (hf : ∀ v, v.FilesOnly P → (f v).FilesOnly P) :
    Column.FilesOnly P ⟨LastMatch.updateLast p f column.versions⟩ := by
  intro v hv
  rcases LastMatch.mem_updateLast hv with hv | ⟨w, hw, -, rfl⟩
  · exact h v hv
  · exact hf w (h w hw)

theorem map {f : InternalColumn → InternalColumn} (h : column.FilesOnly P)
    (hf : ∀ v, v.FilesOnly P → (f v).FilesOnly P) : Column.FilesOnly P ⟨column.versions.map f⟩ := by
  intro v hv
  obtain ⟨w, hw, rfl⟩ := List.mem_map.1 hv
  exact hf w (h w hw)

theorem new {columnId : ColumnID} {name : String} {dataType : DataBaseDataType}
    {constraints : BTreeSet Constraint} : (Column.new columnId name dataType constraints txn).FilesOnly P := by
  intro v hv
  obtain rfl := List.mem_singleton.1 hv
  refine InternalColumn.filesOnly_empty ?_
  unfold InternalColumn.new
  dsimp only
  split_ifs
  · exact Or.inr rfl
  · exact Or.inl rfl

/-- A new version of a column takes over the index of the old. -/
theorem update {name : Option String} {dataType : Option DataBaseDataType}
    {constraints : Option (BTreeSet Constraint)} (h : column.FilesOnly P) :
    (column.update name dataType constraints txn).FilesOnly P := by
  unfold Column.update
  cases hcurrent : column.getVersionedColumn txn with
  | none => exact h
  | some current =>
    obtain ⟨pre, post, hlast⟩ := LastMatch.findLast_some.1 hcurrent
    intro v hv
    rcases List.mem_append.1 hv with hv | hv
    · exact h.updateLast (f := (·.mark txn)) (fun _ hw => hw.of_index rfl) v hv
    · obtain rfl := List.mem_singleton.1 hv
      intro index hindex
      dsimp only at hindex
      split_ifs at hindex
      cases hindex
      cases hold : current.index with
      | none => exact fun key r hr => by simp [HashIndex.filed] at hr
      | some old => exact h current hlast.mem old hold

theorem ensureIndexReady (h : column.FilesOnly P) (hready : column.ensureIndexReady txn = .ok column') :
    column'.FilesOnly P := by
  unfold Column.ensureIndexReady at hready
  cases hv : column.getVersionedColumn txn with
  | none => rw [hv] at hready; cases hready
  | some v =>
    obtain ⟨pre, post, hlast⟩ := LastMatch.findLast_some.1 hv
    rw [hv] at hready
    dsimp only at hready
    cases hempty : v.ensureIndexEmpty with
    | error e => rw [hempty] at hready; cases hready
    | ok v' =>
      rw [hempty] at hready
      cases hready
      have hv' : v'.FilesOnly P := by
        unfold InternalColumn.ensureIndexEmpty at hempty
        cases hindex : v.index with
        | none =>
          rw [hindex] at hempty
          cases hempty
          exact InternalColumn.filesOnly_empty (Or.inr rfl)
        | some index =>
          rw [hindex] at hempty
          dsimp only at hempty
          split_ifs at hempty
          cases hempty
          exact h v hlast.mem
      exact h.updateLast fun _ _ => hv'

theorem indexRow (h : column.FilesOnly P) (hr : P rowId) : (column.indexRow rowId row txn).1.FilesOnly P :=
  h.updateLast fun _ hv => hv.indexRow hr

theorem updateIndex {columnId : ColumnID} {value : DataBaseDataEntry} (h : column.FilesOnly P)
    (hr : P rowId) : (column.updateIndex columnId value rowId txn).FilesOnly P :=
  h.updateLast fun _ hv => hv.updateIndex hr

theorem rollback (h : column.FilesOnly P) : (column.rollbackTransaction txn).FilesOnly P :=
  h.map fun _ hv => hv.rollback.of_index rfl

theorem pruned {oldest : TransactionID} {isAlive : RowID → Bool} (h : column.FilesOnly P) :
    (column.pruned oldest isAlive).FilesOnly P :=
  @map P ⟨column.versions.filter (·.transactionHeader.survives oldest)⟩ _
    (fun v hv => h v (List.mem_filter.1 hv).1) fun _ hv => hv.pruned

end Column.FilesOnly

/-! ## Tables -/

namespace Table

variable {t t' : Table} {ρ : RowMap} {columnId : ColumnID} {columns : BTreeMap ColumnID Column}

/-- Every row id in an index satisfies `P`. -/
def FilesOnly (P : RowID → Prop) (columns : BTreeMap ColumnID Column) : Prop :=
  ∀ (c : ColumnID) column, columns[c]? = some column → column.FilesOnly P

theorem FilesOnly.mono (h : FilesOnly P columns) (hPQ : ∀ r, P r → Q r) : FilesOnly Q columns :=
  fun c column hc => (h c column hc).mono hPQ

theorem FilesOnly.insert {column : Column} (h : FilesOnly P columns) (hc : column.FilesOnly P) :
    FilesOnly P (columns.insert columnId column) := by
  intro c column' hc'
  rw [BTreeMap.get_insert] at hc'
  split_ifs at hc'
  · cases hc'; exact hc
  · exact h c column' hc'

theorem FilesOnly.map {f : ColumnID → Column → Column} (h : FilesOnly P columns)
    (hf : ∀ c column, column.FilesOnly P → (f c column).FilesOnly P) : FilesOnly P (columns.map f) := by
  intro c column hc
  rw [Std.ExtTreeMap.getElem?_map] at hc
  obtain ⟨column', hc', rfl⟩ := Option.map_eq_some_iff.1 hc
  exact hf c column' (h c column' hc')

theorem FilesOnly.updateIndexesForRow {data : RowData} (h : FilesOnly P columns) (hr : P rowId) :
    FilesOnly P (Table.updateIndexesForRow rowId data txn columns) := by
  refine h.map fun c column hc => ?_
  split_ifs
  · cases data[c]? with
    | none => exact hc
    | some value => exact hc.updateIndex hr
  · exact hc

/-- Tables with the row map `ρ` in whose indexes only ids that satisfy `P` are filed. -/
def filingOnly (P : RowID → Prop) (ρ : RowMap) : Frame (Option PageID) Table Fault where
  env := none
  inv t := t.rowLocations = ρ ∧ FilesOnly P t.columns
  rel t t' := t'.rowLocations = t.rowLocations ∧ t'.nextRowId = t.nextRowId ∧
    (FilesOnly P t.columns → FilesOnly P t'.columns)
  exempt e := e = .blocked
  refl _ := ⟨rfl, rfl, id⟩
  trans h h' := ⟨h'.1.trans h.1, h'.2.1.trans h.2.1, h'.2.2 ∘ h.2.2⟩
  keep ht h := ⟨h.1.trans ht.1, h.2.2 ht.2⟩

theorem filingOnly_moved {L : PageID → Prop} (ρ : RowMap) (hm : Moved L t t') :
    (filingOnly P ρ).rel t t' :=
  ⟨hm.rowLocations, hm.nextRowId, fun h => hm.columns ▸ h⟩

theorem loads_filingOnly : Loads (filingOnly P ρ) ρ where
  locations _ ht := ht.1
  ensure p _ held t _ := by
    rcases ensurePageResident_spec p held t with h | ⟨-, -, hm, -⟩
    · exact Or.inl ⟨.blocked, h.1, rfl⟩
    · exact Or.inr ⟨trivial, filingOnly_moved ρ hm⟩
  exempt _ h := h

theorem places_filingOnly : Places (filingOnly P ρ) fun _ => True where
  evict pinned held t _ := by
    rcases framed_maybeEvictPages (L := fun _ => True) (I := fun _ => True)
      (k := fun _ _ => trivial) pinned t trivial with ⟨e, he, hex⟩ | ⟨-, hm, -⟩
    · exact Or.inl ⟨e, he, hex.1⟩
    · exact Or.inr ⟨trivial, filingOnly_moved ρ hm⟩
  opened _ _ := ⟨rfl, rfl, id⟩
  touched _ _ _ := ⟨rfl, rfl, id⟩
  rewritten _ _ _ _ _ _ := ⟨rfl, rfl, id⟩
  flags _ _ _ := trivial

/-- A column that files such ids only may take the place of one. -/
theorem follows_insertColumn {column : Column} {n : Table → ColumnID} (hc : column.FilesOnly P) :
    Follows (filingOnly P ρ) (modify fun t =>
      { t with columns := t.columns.insert columnId column, nextColumnId := n t }) :=
  Follows.modify fun _ _ => ⟨rfl, rfl, fun h => h.insert hc⟩

/-- The rows of the row map are filed. -/
theorem filingOnly_buildColumnIndexFromRows (hρ : ∀ r ∈ ρ, P r) :
    Follows (filingOnly P ρ) (buildColumnIndexFromRows columnId txn) := by
  have hinsert : ∀ {column : Column}, column.FilesOnly P → Follows (filingOnly P ρ)
      (modify fun t => { t with columns := t.columns.insert columnId column }) := fun hc =>
    follows_insertColumn (n := (·.nextColumnId)) hc
  unfold buildColumnIndexFromRows
  refine Follows.get fun t ht => ?_
  cases hcolumn : t.columns[columnId]? with
  | none => exact follows_throw
  | some column =>
    have hc := ht.2 columnId column hcolumn
    dsimp only
    split_ifs
    · exact Follows.pure
    · refine follows_ofResult_bind fun ready hready => ?_
      refine (hinsert (hc.ensureIndexReady hready)).bind fun _ => Follows.get fun t ht => Follows.foldlM fun indexed r hr =>
        (follows_withRow loads_filingOnly).bind fun row => ?_
      have hr : P r := hρ r (ht.1 ▸ Std.ExtTreeMap.mem_keys.1 hr)
      cases row with
      | none => exact Follows.pure
      | some row =>
        refine Follows.get fun t ht => ?_
        cases hcolumn : t.columns[columnId]? with
        | none => exact follows_throw
        | some column => exact (hinsert ((ht.2 columnId column hcolumn).indexRow hr)).bind fun _ => Follows.pure

theorem filingOnly_createColumn {columnName : String} {dataType : DataBaseDataType}
    {constraints : BTreeSet Constraint} (hρ : ∀ r ∈ ρ, P r) :
    Follows (filingOnly P ρ) (createColumn columnName dataType constraints txn) :=
  Follows.get fun t _ => (follows_insertColumn (n := fun _ => t.nextColumnId + 1)
    Column.FilesOnly.new).bind fun _ => (filingOnly_buildColumnIndexFromRows hρ).bind fun _ => Follows.pure

theorem filingOnly_addColumnConstraints {extraConstraints : BTreeSet Constraint} (hρ : ∀ r ∈ ρ, P r) :
    Follows (filingOnly P ρ) (addColumnConstraints columnId extraConstraints txn) := by
  refine Follows.get fun t ht => ?_
  cases hcolumn : t.columns[columnId]? with
  | none => exact follows_throw
  | some column =>
    exact (follows_insertColumn (n := (·.nextColumnId)) (ht.2 columnId column hcolumn).update).bind
      fun _ => (filingOnly_buildColumnIndexFromRows hρ).bind fun _ => Follows.pure

/-- The ids the table knows of have been given out. -/
structure Numbered (t : Table) : Prop where
  rowIds : ∀ r ∈ t.rowLocations, r ≤ t.nextRowId
  filed : FilesOnly (· ≤ t.nextRowId) t.columns

namespace Numbered

theorem of_follows {α : Type} {x : TableM α} (h : t.Numbered)
    (hx : Follows (filingOnly (· ≤ t.nextRowId) t.rowLocations) x)
    (hreturns : (x none t).1 ≠ .error .blocked) :
    (x none t).2.Numbered ∧ (x none t).2.nextRowId = t.nextRowId := by
  rcases hx none t ⟨rfl, h.filed⟩ with ⟨e, he, rfl⟩ | ⟨-, hρ, hn, hfiled⟩
  · exact absurd he hreturns
  · exact ⟨⟨hρ ▸ hn ▸ h.rowIds, hn ▸ hfiled h.filed⟩, hn⟩

theorem taken (h : t.Numbered) : ({ t with nextRowId := t.nextRowId + 1 } : Table).Numbered where
  rowIds r hr := Nat.le_succ_of_le (h.rowIds r hr)
  filed := h.filed.mono fun _ hr => Nat.le_succ_of_le hr

/-- The row with the last id given out is mapped and filed. -/
theorem inserted (h : t.Numbered) (hr : rowId ≤ t.nextRowId) (p : PageID) (data : RowData)
    (txn : Transaction) : ({ t with
      rowLocations := t.rowLocations.insert rowId p
      columns := updateIndexesForRow rowId data txn t.columns } : Table).Numbered where
  rowIds r hmem := by
    rcases Std.ExtTreeMap.mem_insert.1 hmem with he | hmem
    · rw [Std.LawfulEqOrd.compare_eq_iff_eq] at he
      exact he ▸ hr
    · exact h.rowIds r hmem
  filed := h.filed.updateIndexesForRow hr

theorem insertRow {data : RowData} {others : ForeignTables} (h : t.Numbered)
    (hreturns : (Table.insertRow data txn others none t).1 ≠ .error .blocked) :
    (Table.insertRow data txn others none t).2.Numbered := by
  unfold Table.insertRow at hreturns ⊢
  rw [bind_run] at hreturns ⊢
  have h₁ := h.of_follows (x := validateRowData data txn none (foreignKeyValueExists others txn))
    (follows_validateRowData loads_filingOnly)
  generalize validateRowData data txn none (foreignKeyValueExists others txn) none t = outcome
    at hreturns h₁ ⊢
  obtain ⟨e | a, t₁⟩ := outcome <;> dsimp only at hreturns ⊢
  · exact (h₁ fun he => hreturns (by rw [Except.error.inj he])).1
  have h₁ : t₁.Numbered := (h₁ nofun).1
  rw [get_bind, modify_bind, bind_run] at hreturns ⊢
  have h₃ := h₁.taken.of_follows (x := placeNewRow (t₁.nextRowId + 1) (Row.new txn data)
    (Row.new txn data).sizeBytes) (follows_placeNewRow places_filingOnly trivial)
  generalize placeNewRow (t₁.nextRowId + 1) (Row.new txn data) (Row.new txn data).sizeBytes none
    { t₁ with nextRowId := t₁.nextRowId + 1 } = outcome at hreturns h₃ ⊢
  obtain ⟨e | p, t₃⟩ := outcome <;> dsimp only at hreturns ⊢
  · exact (h₃ fun he => hreturns (by rw [Except.error.inj he])).1
  · obtain ⟨h₃, hn⟩ := h₃ nofun
    exact h₃.inserted (le_of_eq hn.symm) p data txn

/-- A row that is rewritten is filed again. -/
theorem updateRow {data : RowData} {others : ForeignTables} (h : t.Numbered)
    (hreturns : (Table.updateRow rowId data txn others none t).1 ≠ .error .blocked) :
    (Table.updateRow rowId data txn others none t).2.Numbered := by
  cases hr : t.rowLocations[rowId]? with
  | none =>
    have hmissing : pageForRow rowId none t = (.error (.err (.rowNotFound rowId)), t) := by
      unfold pageForRow
      rw [get_bind, hr]
      rfl
    unfold Table.updateRow
    rw [bind_error hmissing]
    exact h
  | some p =>
    have hknown := h.rowIds rowId (BTreeMap.mem_of_get hr)
    refine (h.of_follows ?_ hreturns).1
    refine (follows_pageForRow loads_filingOnly).bind fun page => follows_lockPage.bind fun _ => ?_
    cases page.rows[rowId]? with
    | none => exact follows_throw
    | some row =>
      exact (follows_validateRowData loads_filingOnly).within.bind fun _ =>
        (follows_writeRow places_filingOnly.toOpens trivial).bind fun _ =>
          Follows.modify fun _ _ => ⟨rfl, rfl, fun h => h.updateIndexesForRow hknown⟩

end Numbered

end Table

namespace TableOp

open Table

variable {t : Table} {op : TableOp}

theorem numbered_call {c : RowCall} (h : t.Numbered) (hreturns : c.Returns t) : (c.step t).Numbered := by
  cases c with
  | insertRow data txn others =>
    obtain ⟨hstep, hback⟩ := @RowCall.step_of_run t (.insertRow data txn others) _ _ .inserted rfl
    rw [hstep]
    exact h.insertRow (hback hreturns)
  | updateRow rowId data txn others =>
    obtain ⟨hstep, hback⟩ := @RowCall.step_of_run t (.updateRow rowId data txn others) _ _ (fun _ => .done) rfl
    rw [hstep]
    exact h.updateRow (hback hreturns)
  | deleteRow rowId txn =>
    obtain ⟨hstep, hback⟩ := @RowCall.step_of_run t (.deleteRow rowId txn) _ _ (fun _ => .done) rfl
    rw [hstep]
    exact (h.of_follows (follows_deleteRow places_filingOnly.toOpens loads_filingOnly trivial) (hback hreturns)).1
  | getRow rowId =>
    obtain ⟨hstep, hback⟩ := @RowCall.step_of_run t (.getRow rowId) _ _ .row rfl
    rw [hstep]
    exact (h.of_follows (follows_getRow loads_filingOnly) (hback hreturns)).1
  | search request txn accessPath =>
    obtain ⟨hstep, hback⟩ := @RowCall.step_of_run t (.search request txn accessPath) _ _ .rows rfl
    rw [hstep]
    exact (h.of_follows (follows_search loads_filingOnly) (hback hreturns)).1

/-- **The ids in the indexes** are ids of rows that have been inserted. -/
theorem numbered_step (hg : t.Good) (h : t.Numbered) (hreturns : op.Returns t) (hsafe : op.Safe t) :
    (op.step t).Numbered := by
  have hafter : (op.step t).Good := (good_step hg hreturns hsafe).1
  cases op with
  | call c =>
    rw [step_call]
    exact numbered_call h (call_returns hreturns)
  | createColumn columnName dataType constraints txn =>
    exact (h.of_follows ((filingOnly_createColumn h.rowIds).bind fun _ => Follows.pure) hreturns).1
  | addColumnConstraints columnId extraConstraints txn =>
    exact (h.of_follows (filingOnly_addColumnConstraints h.rowIds) hreturns).1
  | rollbackTransaction txn => exact ⟨h.rowIds, h.filed.map fun _ _ hc => hc.rollback⟩
  | persistDirtyPages =>
    obtain ⟨t', hrun, hm⟩ := persistDirtyPages_run (L := t.Referenced) hg.writable
    rw [step, show run persistDirtyPages none t = _ from hrun]
    exact ⟨hm.rowLocations ▸ hm.nextRowId ▸ h.rowIds, hm.columns ▸ hm.nextRowId ▸ h.filed⟩
  | flushAllPages =>
    rw [step, show run flushAllPages none t = _ from flushAllPages_run hg.readable hg.writable]
    exact ⟨h.rowIds, h.filed⟩
  | prune oldest =>
    have hview : (step t (.prune oldest)).view = t.view.prune oldest :=
      (@prune_refines t oldest hg hsafe True).view trivial
    have hn : (step t (.prune oldest)).nextRowId = t.nextRowId := congrArg View.nextRowId hview
    refine ⟨hafter.rowId_le, ?_⟩
    rw [hn, show (step t (.prune oldest)).columns = _ from congrArg View.columns hview]
    exact h.filed.map fun _ _ hc => hc.pruned

/-- What the calls of a run keep true of the ids in the indexes. -/
theorem numbered_run {tableId : TableID} {pageSize limit : ℕ} {store : PageStore} {ops : List TableOp}
    (hr : store.readFault = none) (hw : store.writeFault = none)
    (h : Runs.Each step (fun t op => op.Returns t ∧ op.Safe t) (start tableId pageSize limit store ∅) ops) :
    (Runs.exec step (start tableId pageSize limit store ∅) ops).Good ∧
      (Runs.exec step (start tableId pageSize limit store ∅) ops).Numbered := by
  refine h.invariant (I := fun t => t.Good ∧ t.Numbered) ⟨good_start hr hw, ?_, ?_⟩ fun t op hI hop =>
    ⟨(good_step hI.1 hop.1 hop.2).1, numbered_step hI.1 hI.2 hop.1 hop.2⟩
  · exact fun r hr => by simp [start, new] at hr
  · exact fun c column hc => by simp [start] at hc

end TableOp

end AntDb
