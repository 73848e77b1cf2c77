/-
  `Database::foreign_key_value_exists`: does a column of another table hold a value?

  An index answers with the row ids it files under the key of the value.  The ids of versions
  that have been replaced stay there, and so do those of other values with the same key, and
  the answer looks at nothing but whether their rows are visible.
-/
import AntDb.Reopening
import AntDb.Statements

namespace AntDb

open Call

namespace View

variable {v : View} {txn : Transaction} {rowId : RowID} {rowIds : List RowID}

theorem sees_iff : v.Sees txn rowId ↔ rowId ∈ v.rowIds ∧
    ((v.rows[rowId]?).bind (·.getVersionedRow txn)).isSome = true := by
  unfold Sees withRow
  split_ifs with h
  · rw [and_iff_right h, Option.isSome_iff_exists]
    constructor
    · rintro ⟨row, version, hrow, hv⟩
      rw [Except.ok.inj hrow]
      exact ⟨version, hv⟩
    · rintro ⟨version, hv⟩
      obtain ⟨row, hrow, hv⟩ := Option.bind_eq_some_iff.1 hv
      exact ⟨row, version, congrArg _ hrow, hv⟩
  · refine iff_of_false ?_ fun h' => h h'.1
    rintro ⟨row, version, hrow, -⟩
    cases hrow

instance : Decidable (v.Sees txn rowId) := decidable_of_iff _ sees_iff.symm

/-- Of rows the table knows, those that are visible are left. -/
theorem filterVisibleIndexCandidates_known (h : ∀ r ∈ rowIds, r ∈ v.rowIds) :
    v.filterVisibleIndexCandidates rowIds txn = .ok (rowIds.filter (v.Sees txn ·)) := by
  suffices h' : ∀ found, rowIds.foldlM (fun visible rowId => do
      let row ← v.withRow rowId
      return if ((row.bind (·.getVersionedRow txn)).isSome) then visible ++ [rowId] else visible)
        found = Except.ok (found ++ rowIds.filter (v.Sees txn ·)) from h' []
  induction rowIds with
  | nil => intro found; simp; rfl
  | cons a rowIds ih =>
    intro found
    obtain ⟨ha, hknown⟩ := List.forall_mem_cons.1 h
    have hrow : v.withRow a = .ok v.rows[a]? := if_pos ha
    rw [List.foldlM_cons, hrow]
    show List.foldlM _ _ rowIds = _
    rw [ih hknown]
    by_cases hsees : v.Sees txn a
    · rw [if_pos (sees_iff.1 hsees).2]
      simp [hsees]
    · rw [if_neg fun h => hsees (sees_iff.2 ⟨ha, h⟩)]
      simp [hsees]

/-- A row the table does not know is an error. -/
theorem filterVisibleIndexCandidates_unknown (h : ¬ ∀ r ∈ rowIds, r ∈ v.rowIds) :
    ∃ e, v.filterVisibleIndexCandidates rowIds txn = .error e := by
  suffices h' : ∀ found, ∃ e, rowIds.foldlM (fun visible rowId => do
      let row ← v.withRow rowId
      return if ((row.bind (·.getVersionedRow txn)).isSome) then visible ++ [rowId] else visible)
        found = Except.error e from h' []
  induction rowIds with
  | nil => exact absurd (fun r hr => by cases hr) h
  | cons a rowIds ih =>
    intro found
    rw [List.foldlM_cons]
    by_cases ha : a ∈ v.rowIds
    · have hrow : v.withRow a = .ok v.rows[a]? := if_pos ha
      rw [hrow]
      exact ih (fun hknown => h (List.forall_mem_cons.2 ⟨ha, hknown⟩)) _
    · have hrow : v.withRow a = .error (.rowNotFound a) := if_neg ha
      rw [hrow]
      exact ⟨_, rfl⟩

end View

namespace Database

/-- The table with this id and its name. -/
def tableWithId (db : Database) (tableId : TableID) : Option (String × Table) :=
  db.tables.toList.find? fun x => x.2.tableId = tableId

def foreignKeyValueExists (referedTableId : TableID) (referedColumnId : ColumnID)
    (value : DataBaseDataEntry) (id : TransactionID) : DbM Bool := do
  if value.isNull then return true
  match (← get).tableWithId referedTableId with
  | some (name, _) => asTransaction name id (Table.referencedValueExists referedColumnId value)
  | none => return false

variable {db : Database} {tableId : TableID} {columnId : ColumnID} {value : DataBaseDataEntry}
  {id : TransactionID} {name : String} {t : Table} {column : Column}

/-- A table with a unique column and a row. -/
def uniqueFlag : Database := ((do
    let id ← createTransaction
    let _ ← createTable "t"
    let _ ← asTransaction "t" id (Table.createColumn "a" .boolean {.unique})
    let _ ← asTransaction "t" id
      (Table.insertRow (.ofList [(0, .boolean false)] compare) · fun _ => none) : DbM Unit)
    () (.new ⟨4096, 0⟩)).2

end Database

end AntDb
