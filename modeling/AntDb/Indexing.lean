/-
  `CREATE INDEX` and `DROP INDEX`.

  An index is built for a column that has one: a column without an index is answered before
  `ensure_index_ready`, which would have made it.
-/
import AntDb.Joining

namespace AntDb

open Call TableM

/-! ## Commands -/

namespace Column

def dropIndex (column : Column) (txn : Transaction) : Except DataBaseErrors Column :=
  match column.getVersionedColumn txn with
  | none => .error (.queryError "No visible column version found while dropping index")
  | some v =>
    if .primaryKey ∈ v.constraints ∨ .unique ∈ v.constraints then
      .error (.queryError
        s!"Cannot drop index on column '{v.name}' because it enforces a PRIMARY KEY or UNIQUE constraint")
    else if v.index = none then .error (.indexNotFound v.name)
    else .ok ⟨LastMatch.updateLast (·.isVisible txn) (fun v => { v with index := none }) column.versions⟩

end Column

namespace Table

def isColumnIndexed (columnName : String) (txn : Transaction) : TableM Bool := do
  let t ← get
  match (visibleColumns t.columns txn)[normalizeIdentifier columnName]? with
  | none => return false
  | some columnId =>
    match t.columns[columnId]? with
    | none => throw (.queryError "Column not found while checking index")
    | some column => return column.isIndexed txn

def createColumnIndex (indexName : Option String) (columnName : String) (txn : Transaction) :
    TableM ℕ := do
  match (visibleColumns (← get).columns txn)[normalizeIdentifier columnName]? with
  | none => throw (.queryError s!"Column '{normalizeIdentifier columnName}' not found")
  | some columnId =>
    let indexed ← buildColumnIndexFromRows columnId txn
    match indexName with
    | none => return indexed
    | some name =>
      modify fun t => { t with indexNames := t.indexNames.insert (normalizeIdentifier name) columnId }
      return indexed

/-- The column of an index, by the index's name or else its own. -/
def indexedColumnId (indexName : String) (txn : Transaction) : TableM ColumnID := do
  let t ← get
  match t.indexNames[normalizeIdentifier indexName]? with
  | some columnId => return columnId
  | none =>
    match (visibleColumns t.columns txn)[normalizeIdentifier indexName]? with
    | some columnId => return columnId
    | none => throw (.indexNotFound indexName)

def dropColumnIndex (indexName : String) (txn : Transaction) : TableM Unit := do
  let columnId ← indexedColumnId indexName txn
  match (← get).columns[columnId]? with
  | none => throw (.queryError "Column not found while dropping index")
  | some column =>
    let column ← TableM.ofResult (column.dropIndex txn)
    modify fun t => { t with
      columns := t.columns.insert columnId column
      indexNames := t.indexNames.erase (normalizeIdentifier indexName) }

end Table

/-! ## Usable indexes -/

namespace View

/-- The entries of the rows that `txn` sees, each with the id of its row. -/
def visibleEntries (v : View) (columnId : ColumnID) (txn : Transaction) :
    List (RowID × DataBaseDataEntry) :=
  (v.visibleRows txn).filterMap fun x => x.2[columnId]?.map fun value => (x.1, value)

/-- The visible version of the column has an index in which the entry's row is filed. -/
def Files (v : View) (columnId : ColumnID) (txn : Transaction) (x : RowID × DataBaseDataEntry) : Prop :=
  ∃ column version index, v.columns[columnId]? = some column ∧
    column.getVersionedColumn txn = some version ∧ version.index = some index ∧
      x.1 ∈ index.filed (x.2.key columnId)

end View

namespace Table

/-- The column has an index of its visible entries, as many as were counted, and the index can
    be dropped again. -/
structure UsableIndex (name columnName : String) (columnId : ColumnID) (txn : Transaction) (count : ℕ)
    (t : Table) : Prop where
  indexed : (isColumnIndexed columnName txn none t).1 = .ok true
  files : ∀ x ∈ t.view.visibleEntries columnId txn, t.view.Files columnId txn x
  counted : count = (t.view.visibleEntries columnId txn).length
  dropped : ∃ t', dropColumnIndex name txn none t = (.ok (), t') ∧
    (isColumnIndexed columnName txn none t').1 = .ok false

variable {t t' : Table} {name columnName : String} {columnId : ColumnID} {column : Column}
  {txn : Transaction} {held : Option PageID} {count : ℕ}

/-- All that happens to a column without an index is that its index gets a name. -/
theorem createColumnIndex_run
    (hvisible : (visibleColumns t.columns txn)[normalizeIdentifier columnName]? = some columnId)
    (hcolumn : t.columns[columnId]? = some column) (hindexed : column.isIndexed txn = false) :
    createColumnIndex (some name) columnName txn held t =
      (.ok 0, { t with indexNames := t.indexNames.insert (normalizeIdentifier name) columnId }) := by
  have hbuild : buildColumnIndexFromRows columnId txn held t = (.ok 0, t) := by
    unfold buildColumnIndexFromRows
    simp only [get_bind, hcolumn, hindexed]
    rfl
  unfold createColumnIndex
  simp only [get_bind, hvisible]
  rw [bind_ok hbuild]
  rfl

/-- **No index is created** on a column that has none. -/
theorem createColumnIndex_unusable
    (hvisible : (visibleColumns t.columns txn)[normalizeIdentifier columnName]? = some columnId)
    (hcolumn : t.columns[columnId]? = some column) (hindexed : column.isIndexed txn = false)
    (hcreated : createColumnIndex (some name) columnName txn held t = (.ok count, t')) :
    ¬ UsableIndex name columnName columnId txn count t' := by
  intro husable
  rw [createColumnIndex_run hvisible hcolumn hindexed] at hcreated
  cases hcreated
  have hunindexed : (isColumnIndexed columnName txn none
      { t with indexNames := t.indexNames.insert (normalizeIdentifier name) columnId }).1 = .ok false := by
    unfold isColumnIndexed
    simp only [get_bind, hvisible, hcolumn, hindexed]
    rfl
  rw [husable.indexed] at hunindexed
  cases hunindexed

theorem dropIndex_unindexed (h : column.isIndexed txn = false) : ∃ e, column.dropIndex txn = .error e := by
  unfold Column.dropIndex
  unfold Column.isIndexed at h
  cases hv : column.getVersionedColumn txn with
  | none => exact ⟨_, rfl⟩
  | some v =>
    rw [hv] at h
    have hindex : v.index = none := by simpa [InternalColumn.isIndexed] using h
    dsimp only
    split_ifs
    · exact ⟨_, rfl⟩
    · exact ⟨_, rfl⟩

/-- The name is of no use either: `DROP INDEX` finds a column without an index. -/
theorem dropColumnIndex_created
    (hvisible : (visibleColumns t.columns txn)[normalizeIdentifier columnName]? = some columnId)
    (hcolumn : t.columns[columnId]? = some column) (hindexed : column.isIndexed txn = false)
    (hcreated : createColumnIndex (some name) columnName txn held t = (.ok count, t')) :
    ∃ e, dropColumnIndex name txn none t' = (.error (.err e), t') := by
  rw [createColumnIndex_run hvisible hcolumn hindexed] at hcreated
  cases hcreated
  obtain ⟨e, he⟩ := dropIndex_unindexed hindexed
  refine ⟨e, ?_⟩
  have hname : indexedColumnId name txn none
      { t with indexNames := t.indexNames.insert (normalizeIdentifier name) columnId } =
        (.ok columnId, { t with indexNames := t.indexNames.insert (normalizeIdentifier name) columnId }) := by
    unfold indexedColumnId
    simp only [get_bind, Std.ExtTreeMap.getElem?_insert_self]
    rfl
  unfold dropColumnIndex
  rw [bind_ok hname, get_bind]
  simp only [hcolumn, he]
  rfl

/-- A table with a column of Booleans and a row. -/
def flagTable : Table :=
  Runs.exec TableOp.step (Table.start 0 4096 0 .empty ∅)
    [.createColumn "a" .boolean ∅ (Database.uniqueFlag.txn 1),
      .call (.insertRow (.ofList [(0, .boolean true)] compare) (Database.uniqueFlag.txn 1) fun _ => none)]

theorem createColumnIndex_unusable_flag : ∃ column t', flagTable.columns[0]? = some column ∧
    column.isIndexed (Database.uniqueFlag.txn 1) = false ∧
      createColumnIndex (some "i") "a" (Database.uniqueFlag.txn 1) none flagTable = (.ok 0, t') ∧
        ¬ UsableIndex "i" "a" 0 (Database.uniqueFlag.txn 1) 0 t' := by
  obtain ⟨column, hcolumn⟩ : ∃ column, flagTable.columns[0]? = some column :=
    Option.isSome_iff_exists.1 (by decide +kernel)
  have hvisible : (visibleColumns flagTable.columns (Database.uniqueFlag.txn 1))[normalizeIdentifier "a"]? =
      some 0 := by decide +kernel
  have hnone : ∀ column ∈ flagTable.columns[0]?, column.isIndexed (Database.uniqueFlag.txn 1) = false := by
    decide +kernel
  have hindexed := hnone column hcolumn
  have hcreated : createColumnIndex (some "i") "a" (Database.uniqueFlag.txn 1) none flagTable = (.ok 0, _) :=
    createColumnIndex_run hvisible hcolumn hindexed
  exact ⟨column, _, hcolumn, hindexed, hcreated,
    createColumnIndex_unusable hvisible hcolumn hindexed hcreated⟩

/-- `CREATE INDEX i ON t (a)` on a table with one row: there is no index afterwards. -/
theorem createColumnIndex_without_index : ∃ column t', flagTable.columns[0]? = some column ∧
    (visibleColumns flagTable.columns (Database.uniqueFlag.txn 1))[normalizeIdentifier "a"]? = some 0 ∧
      column.isIndexed (Database.uniqueFlag.txn 1) = false ∧
        createColumnIndex (some "i") "a" (Database.uniqueFlag.txn 1) none flagTable = (.ok 0, t') ∧
          ¬ UsableIndex "i" "a" 0 (Database.uniqueFlag.txn 1) 0 t' := by
  obtain ⟨column, hcolumn⟩ : ∃ column, flagTable.columns[0]? = some column :=
    Option.isSome_iff_exists.1 (by decide +kernel)
  have hnone : ∀ column ∈ flagTable.columns[0]?, column.isIndexed (Database.uniqueFlag.txn 1) = false := by
    decide +kernel
  have hvisible : (visibleColumns flagTable.columns (Database.uniqueFlag.txn 1))[normalizeIdentifier "a"]? =
      some 0 := by decide +kernel
  have hcount : (createColumnIndex (some "i") "a" (Database.uniqueFlag.txn 1) none flagTable).1 = .ok 0 := by
    decide +kernel
  have hentries : ((createColumnIndex (some "i") "a" (Database.uniqueFlag.txn 1) none flagTable).2.view.visibleEntries
      0 (Database.uniqueFlag.txn 1)).length = 1 := by decide +kernel
  refine ⟨column, _, hcolumn, hvisible, hnone column hcolumn, Prod.ext hcount rfl, fun husable => ?_⟩
  -- one row has an entry, and none was counted
  have hcounted := husable.counted
  rw [hentries] at hcounted
  cases hcounted

end Table

end AntDb
