/-
  `plan_and_execute`: a statement is bound, optimized and executed.

  An `UPDATE` reads the rows to change first, and stores for each the entries of all columns that
  its transaction sees, the assigned ones among them.
-/
import AntDb.Binding
import AntDb.Headings

namespace AntDb

open Call

/-- `get_visible_column_names`. -/
def Table.getVisibleColumnNames (columns : BTreeMap ColumnID Column) (txn : Transaction) : List String :=
  (columns.toList.filterMap fun x => (x.2.getVersionedColumn txn).map (·.name)).mergeSort
    fun left right => compare left right ≠ .gt

namespace Sql

open Database (requireTable asTransaction)

inductive ExecutionResult where
  | select (columnNames : List String) (rows : List SearchResult)
  | rowsAffected (tag : String) (count : ℕ)
deriving DecidableEq

/-! ## The optimizer -/

/-- The names that the columns of a result go by. -/
def resultNames (plan : PhysicalSelectPlan) (rows : List SearchResult) (id : TransactionID) :
    DbM (List String) :=
  match plan.request.aggregate, plan.request.projection with
  | some (.countStar outputName), _ => return [outputName]
  | none, some projection => return projection.map (·.outputName)
  | none, none =>
    if plan.fromClause.joins ≠ [] then return (rows.head?.map (·.values.keys)).getD []
    else do
      let name ← requireTable plan.fromClause.base.tableName
      asTransaction name id fun txn => do return Table.getVisibleColumnNames (← get).columns txn

def executeSelect (plan : PhysicalSelectPlan) (id : TransactionID) : DbM ExecutionResult := do
  let rows ← Database.executePhysicalSelect plan id
  return .select (← resultNames plan rows id) rows

def executeDelete (tableName : String) (filter : Option SearchExpression) (accessPath : AccessPath)
    (id : TransactionID) : DbM ℕ := do
  let name ← requireTable tableName
  let rows ← asTransaction name id (Table.search (Database.targetRequest filter) · (some accessPath))
  rows.foldlM (fun deletedCount row => do
    asTransaction name id (Table.deleteRow row.rowId)
    return deletedCount + 1) 0

/-- The entries of a row by column id. -/
def rowDataById (visible : BTreeMap String ColumnID) (row : SearchResult) : Except DataBaseErrors RowData :=
  row.values.toList.foldlM (fun rowData x =>
    match visible[x.1]? with
    | some columnId => .ok (rowData.insert columnId x.2)
    | none => .error (.queryError s!"Column '{x.1}' not found during update")) ∅

/-- One assignment, on the entries that the assignments before it have left. -/
def assignColumn (columns : BTreeMap ColumnID Column) (txn : Transaction) (visible : BTreeMap String ColumnID)
    (rowData : RowData) (assignment : String × Dml.UpdateAssignment) : Except DataBaseErrors RowData :=
  match visible[assignment.1]? with
  | none => .error (.queryError s!"Assignment column '{assignment.1}' not found")
  | some columnId => do
    match ← Table.columnDataType columns txn columnId with
    | none => .error (.queryError s!"Assignment column '{assignment.1}' not found")
    | some expectedType =>
      return rowData.insert columnId
        (← Dml.applyUpdateAssignment assignment.2 rowData columnId expectedType)

/-- `fkLookup` are the answers of the other tables to the foreign keys of each row. -/
def executeUpdate (tableName : String) (assignments : List (String × Dml.UpdateAssignment))
    (filter : Option SearchExpression) (accessPath : AccessPath) (fkLookup : ℕ → ForeignTables)
    (id : TransactionID) : DbM ℕ := do
  let name ← requireTable tableName
  let visible ← asTransaction name id fun txn => do return Table.visibleColumns (← get).columns txn
  let rows ← asTransaction name id (Table.search (Database.targetRequest filter) · (some accessPath))
  rows.foldlM (fun updatedCount row => do
    let rowData ← ofResult (rowDataById visible row)
    let rowData ← assignments.foldlM (fun rowData assignment => asTransaction name id fun txn =>
      TableM.read fun t => assignColumn t.columns txn visible rowData assignment) rowData
    asTransaction name id (Table.updateRow row.rowId rowData · (fkLookup row.rowId))
    return updatedCount + 1) 0

def executeInsert (tableName : String) (rows : List RowData) (fkLookup : ℕ → ForeignTables)
    (id : TransactionID) : DbM ℕ := do
  let name ← requireTable tableName
  (rows.mapIdx fun i row => (row, fkLookup i)).foldlM (fun insertedCount row => do
    let _ ← asTransaction name id (Table.insertRow row.1 · row.2)
    return insertedCount + 1) 0

def execute (plan : PhysicalPlan) (fkLookup : ℕ → ForeignTables) (id : TransactionID) : DbM ExecutionResult :=
  match plan with
  | .select plan => executeSelect plan id
  | .delete tableName filter accessPath => do
    return .rowsAffected "DELETE" (← executeDelete tableName filter accessPath id)
  | .update tableName assignments filter accessPath => do
    return .rowsAffected "UPDATE" (← executeUpdate tableName assignments filter accessPath fkLookup id)
  | .insert tableName rows => do
    return .rowsAffected "INSERT" (← executeInsert tableName rows fkLookup id)

/-! ## The pipeline -/

end Sql

end AntDb
