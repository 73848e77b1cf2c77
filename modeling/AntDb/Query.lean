/-
  Searches that join tables: `execute_search` from the physical plan on.

  The base table is scanned, and the joins are applied one after another to the list of joined
  rows.  Filter, projection and ORDER BY come after the last join.
-/
import AntDb.Statements

namespace AntDb

open Call

structure TableSource where
  tableName : String
  tableAlias : Option String
deriving DecidableEq

def TableSource.aliasOrName (source : TableSource) : String := source.tableAlias.getD source.tableName

inductive JoinType where
  | inner | leftOuter | cross
deriving DecidableEq

structure JoinSpec where
  table : TableSource
  joinType : JoinType
  on : Option SearchExpression
  usingColumns : Option (List String)
deriving DecidableEq

structure FromClause where
  base : TableSource
  joins : List JoinSpec
deriving DecidableEq

/-- The request of a `SELECT` is split into its FROM clause and the rest. -/
structure PhysicalSelectPlan where
  fromClause : FromClause
  request : SearchRequest
  accessPaths : BTreeMap String AccessPath
deriving DecidableEq

/-! ## Joined rows -/

structure TableBinding where
  tableAlias : String
  tableName : String
  rowId : RowID
  columnMap : BTreeMap String ColumnID
  data : RowData
deriving DecidableEq

structure JoinedRow where
  tables : List TableBinding
deriving DecidableEq

structure JoinTableSchema where
  source : TableSource
  columnMap : BTreeMap String ColumnID
  columnNames : List String
deriving DecidableEq

structure JoinSchema where
  base : JoinTableSchema
  joinTables : List JoinTableSchema
deriving DecidableEq

namespace SearchExpression

/-- For `left_alias.left_col = right_alias.right_col` with the left side bound in `ctx`: the
    column of the right table and the value to look for. -/
def joinEqualityLookup (ctx : RowEvaluationContext) (rightAlias : String) :
    SearchExpression → Option (String × DataBaseDataEntry)
  | comparison (qualifiedColumn leftTable leftColumn) .equal
      (qualifiedColumn rightTable rightColumn) =>
    if normalizeIdentifier rightTable ≠ normalizeIdentifier rightAlias then none
    else match ctx.resolve (some leftTable) leftColumn with
      | .ok value => some (rightColumn, value)
      | .error _ => none
  | _ => none

end SearchExpression

namespace TableBinding

def value (binding : TableBinding) (columnId : ColumnID) : DataBaseDataEntry :=
  binding.data[columnId]?.getD .null

/-- The value of a column of a USING clause. -/
def usingValue (binding : TableBinding) (column : String) : Except DataBaseErrors DataBaseDataEntry :=
  match binding.columnMap[column]? with
  | some columnId => .ok (binding.value columnId)
  | none =>
    .error (.queryError s!"USING column '{column}' not found on '{binding.tableName}'")

end TableBinding

namespace JoinedRow

def append (joined : JoinedRow) (binding : TableBinding) : JoinedRow := ⟨joined.tables ++ [binding]⟩

/-- How many tables have a column of the name. -/
def columnOwners (joined : JoinedRow) : BTreeMap String ℕ :=
  joined.tables.foldl (fun owners binding => binding.columnMap.toList.foldl (fun owners x =>
    owners.alter x.1 fun n => some (n.getD 0 + 1)) owners) ∅

/-- `build_row_context`: the values by `alias.column`, and by column where one table has it. -/
def rowContext (joined : JoinedRow) : RowEvaluationContext :=
  let columnOwners := joined.columnOwners
  joined.tables.foldl (fun values binding => binding.columnMap.toList.foldl (fun values x =>
    let value := binding.value x.2
    let values := values.insert (normalizeIdentifier binding.tableAlias ++ "." ++ x.1) value
    if columnOwners[x.1]? = some 1 then values.insert x.1 value else values) values) ∅

def usingMatches (left right : TableBinding) : List String → Except DataBaseErrors Bool
  | [] => .ok true
  | column :: columns => do
    let leftValue ← left.usingValue column
    let rightValue ← right.usingValue column
    if leftValue.eq rightValue then usingMatches left right columns else return false

/-- `join_matches`, for a row whose last table is the right one. -/
def joinMatches (joined : JoinedRow) (join : JoinSpec) : Except DataBaseErrors Bool :=
  if join.joinType = .cross then .ok true
  else match join.on, join.usingColumns with
    | some on, _ => on.evaluate joined.rowContext
    | none, some columns =>
      match joined.tables.reverse with
      | right :: left :: _ => usingMatches left right columns
      | _ => .error (.queryError "Invalid JOIN state")
    | none, none => .error (.queryError "JOIN requires an ON or USING clause")

/-- The alias a projected column belongs to. -/
def projectionAlias (joined : JoinedRow) (column : ProjectionColumn) : Option String :=
  match column.tableAlias, joined.tables with
  | some tableAlias, _ => some tableAlias
  | none, [binding] => some binding.tableAlias
  | none, _ => none

def resolveProjectionValue (joined : JoinedRow) (column : ProjectionColumn) :
    Except DataBaseErrors DataBaseDataEntry :=
  match joined.projectionAlias column with
  | none =>
    .error (.queryError s!"Column '{column.columnName}' is ambiguous; qualify it with a table alias")
  | some tableAlias =>
    match joined.tables.find? (·.tableAlias = tableAlias) with
    | none => .error (.queryError s!"Table alias '{tableAlias}' not found in JOIN")
    | some binding =>
      match binding.columnMap[column.columnName]? with
      | none =>
        .error (.queryError s!"Column '{column.columnName}' not found on '{binding.tableName}'")
      | some columnId => .ok (binding.value columnId)

/-- The values of a result by output name. -/
def projectionValues (joined : JoinedRow) (projection : List ProjectionColumn) :
    Except DataBaseErrors (BTreeMap String DataBaseDataEntry) :=
  projection.foldlM (fun values column => do
    return values.insert column.outputName (← joined.resolveProjectionValue column)) ∅

end JoinedRow

/-! ## Joining a table -/

namespace JoinSpec

/-- The right side of a joined row. -/
def binding (join : JoinSpec) (rightSchema : JoinTableSchema) (rowId : RowID) (data : RowData) :
    TableBinding where
  tableAlias := join.table.aliasOrName
  tableName := join.table.tableName
  rowId := rowId
  columnMap := rightSchema.columnMap
  data := data

/-- The rows that go with one left row: those that match or, in an outer join without any, the
    left row with nothing on its right. -/
def orUnmatched (join : JoinSpec) (rightSchema : JoinTableSchema) (left : JoinedRow)
    (found : List JoinedRow) : List JoinedRow :=
  if found = [] ∧ join.joinType = .leftOuter then [left.append (join.binding rightSchema 0 ∅)]
  else found

def pushMatching (join : JoinSpec) (rightSchema : JoinTableSchema) (left : JoinedRow)
    (found : List JoinedRow) (rowId : RowID) (data : RowData) :
    Except DataBaseErrors (List JoinedRow) := do
  let candidate := left.append (join.binding rightSchema rowId data)
  return if ← candidate.joinMatches join then found ++ [candidate] else found

end JoinSpec

namespace Table

open TableM

def lookupVisibleRowData (rowId : RowID) (txn : Transaction) : TableM (Option RowData) := do
  return ((← withRow rowId).bind (·.getVersionedRow txn)).map (·.data)

/-- The matching rows for one left row, through a value lookup if the ON clause allows one. -/
def matchingRows (join : JoinSpec) (rightSchema : JoinTableSchema) (txn : Transaction)
    (left : JoinedRow) : TableM (List JoinedRow) := do
  match join.on.bind (·.joinEqualityLookup left.rowContext join.table.aliasOrName) with
  | some (columnName, value) =>
    match rightSchema.columnMap[normalizeIdentifier columnName]? with
    | none => throw (.queryError
        s!"Join column '{columnName}' not found on table '{join.table.tableName}'")
    | some columnId =>
      let rightCandidates ← lookupRowsByColumnValue columnId value txn
      rightCandidates.foldlM (fun found rightRowId => do
        match ← lookupVisibleRowData rightRowId txn with
        | none => return found
        | some data => TableM.ofResult (join.pushMatching rightSchema left found rightRowId data)) []
  | none => forEachVisibleRow txn (join.pushMatching rightSchema left) []

/-- `apply_join` on the right table. -/
def applyJoin (current : List JoinedRow) (join : JoinSpec) (rightSchema : JoinTableSchema)
    (txn : Transaction) : TableM (List JoinedRow) :=
  if join.joinType = .cross then
    current.foldlM (fun next left => forEachVisibleRow txn (fun next rowId data =>
      .ok (next ++ [left.append (join.binding rightSchema rowId data)])) next) []
  else
    current.foldlM (fun next left => do
      return next ++ join.orUnmatched rightSchema left (← matchingRows join rightSchema txn left)) []

/-- The rows of the base table. -/
def initialRows (source : TableSource) (txn : Transaction) : TableM (List JoinedRow) := do
  let columnMap := visibleColumns (← get).columns txn
  forEachVisibleRow txn (fun rows rowId data =>
    .ok (rows ++ [⟨[⟨source.aliasOrName, source.tableName, rowId, columnMap, data⟩]⟩])) []

end Table

/-! ## The select -/

/-- The name a sort column has in the results. -/
def SortBy.sortKey (sortBy : SortBy) : String :=
  match sortBy.tableAlias with
  | some tableAlias => normalizeIdentifier tableAlias ++ "." ++ normalizeIdentifier sortBy.columnName
  | none => normalizeIdentifier sortBy.columnName

/-- The value a result is sorted by. -/
def SearchResult.sortValue (result : SearchResult) (sortBy : SortBy) : DataBaseDataEntry :=
  (result.values[sortBy.sortKey]?.or result.values[sortBy.columnName]?).getD .null

/-- Compare by the values of the sort columns. -/
def compareValues (left right : SortBy → DataBaseDataEntry) : List SortBy → Ordering
  | [] => .eq
  | sortBy :: sortColumns =>
    match (left sortBy).cmp (right sortBy), sortBy.orderBy with
    | .eq, _ => compareValues left right sortColumns
    | order, .asc => order
    | order, .desc => order.swap

def SearchResult.compareRows (left right : SearchResult) (sortColumns : List SortBy) : Ordering :=
  compareValues left.sortValue right.sortValue sortColumns

/-- The rows from the offset on, as many as the limit allows. -/
def SearchRequest.slice {α : Type} (request : SearchRequest) (results : List α) : List α :=
  let results := results.drop (request.offset.getD 0)
  match request.limit with | some limit => results.take limit | none => results

namespace JoinTableSchema

/-- All columns of the table, in the order of their names. -/
def projection (schema : JoinTableSchema) : List ProjectionColumn :=
  schema.columnNames.map fun columnName => {
    outputName := schema.source.aliasOrName ++ "." ++ columnName
    tableAlias := some schema.source.aliasOrName
    columnName := columnName }

end JoinTableSchema

def resolveProjection (fromClause : FromClause) (schema : JoinSchema)
    (projection : Option (List ProjectionColumn)) : Except DataBaseErrors (List ProjectionColumn) :=
  match projection with
  | some columns => .ok columns
  | none =>
    if fromClause.joins = [] then
      .error (.queryError "Wildcard projection must be resolved by single-table search")
    else .ok (schema.base.projection ++ schema.joinTables.flatMap (·.projection))

def matchesJoinFilter (filter : Option SearchExpression) (joined : JoinedRow) :
    Except DataBaseErrors Bool :=
  match filter with
  | some filter => filter.evaluate joined.rowContext
  | none => .ok true

def projectJoined (projection : List ProjectionColumn) (joined : JoinedRow) :
    Except DataBaseErrors SearchResult := do
  return {
    rowId := (joined.tables.head?.map (·.rowId)).getD 0
    values := ← joined.projectionValues projection }

/-- What follows the joins: the rows that pass the filter are projected, the results sorted, and
    the slice taken. -/
def finishSearch (projection : List ProjectionColumn) (request : SearchRequest)
    (current : List JoinedRow) : Except DataBaseErrors (List SearchResult) := do
  let results ← current.foldlM (fun results joined => do
    if ← matchesJoinFilter request.filter joined then
      return results ++ [← projectJoined projection joined]
    else return results) []
  let results := if request.orderBy = [] then results
    else results.mergeSort fun left right => left.compareRows right request.orderBy ≠ .gt
  return request.slice results

namespace Database

def loadTableSchema (source : TableSource) (id : TransactionID) : DbM JoinTableSchema := do
  let name ← requireTable source.tableName
  let columnMap ← asTransaction name id fun txn => do
    return Table.visibleColumns (← get).columns txn
  return { source := source, columnMap := columnMap, columnNames := columnMap.keys }

def resolveJoinSchema (fromClause : FromClause) (id : TransactionID) : DbM JoinSchema := do
  let base ← loadTableSchema fromClause.base id
  let (joinTables, _) ← fromClause.joins.foldlM (fun (joinTables, aliases) join => do
    let schema ← loadTableSchema join.table id
    let tableAlias := schema.source.aliasOrName
    if tableAlias ∈ aliases then
      throw (.queryError s!"Duplicate table alias '{tableAlias}' in JOIN")
    return (joinTables ++ [schema], aliases ++ [tableAlias])) ([], [base.source.aliasOrName])
  return ⟨base, joinTables⟩

def initialRows (source : TableSource) (id : TransactionID) : DbM (List JoinedRow) := do
  asTransaction (← requireTable source.tableName) id (Table.initialRows source)

def applyJoin (current : List JoinedRow) (join : JoinSpec) (rightSchema : JoinTableSchema)
    (id : TransactionID) : DbM (List JoinedRow) := do
  asTransaction (← requireTable join.table.tableName) id (Table.applyJoin current join rightSchema)

/-- The joined rows of a select, and the projection of their results. -/
def joinedRows (plan : PhysicalSelectPlan) (id : TransactionID) :
    DbM (List ProjectionColumn × List JoinedRow) := do
  let schema ← resolveJoinSchema plan.fromClause id
  let projection ← ofResult (resolveProjection plan.fromClause schema plan.request.projection)
  let initial ← initialRows plan.fromClause.base id
  let current ← (plan.fromClause.joins.zip schema.joinTables).foldlM (fun current x =>
    applyJoin current x.1 x.2 id) initial
  return (projection, current)

def executeJoinSearch (plan : PhysicalSelectPlan) (id : TransactionID) : DbM (List SearchResult) := do
  let (projection, current) ← joinedRows plan id
  ofResult (finishSearch projection plan.request current)

def executePhysicalSelect (plan : PhysicalSelectPlan) (id : TransactionID) :
    DbM (List SearchResult) := do
  if plan.fromClause.joins = [] then
    let name ← requireTable plan.fromClause.base.tableName
    asTransaction name id
      (Table.search plan.request · plan.accessPaths[plan.fromClause.base.tableName]?)
  else executeJoinSearch plan id

end Database

end AntDb
