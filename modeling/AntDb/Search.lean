/-
  `Table::search`: the rows of one table that pass a filter, projected and ordered.
-/
import AntDb.Access
import AntDb.Expression

namespace AntDb.Table

open Call TableM

/-- The visible columns by lower-case name. -/
def visibleColumns (columns : BTreeMap ColumnID Column) (txn : Transaction) :
    BTreeMap String ColumnID :=
  columns.toList.foldl (fun visible x =>
    match x.2.getVersionedColumn txn with
    | some version => visible.insert (normalizeIdentifier version.name) x.1
    | none => visible) ∅

/-- The values of a version under the names of the visible columns. -/
def evaluationContext (visible : BTreeMap String ColumnID) (version : InternalRow) :
    RowEvaluationContext :=
  visible.map fun _ columnId => version.data[columnId]?.getD .null

def matchesFilter (visible : BTreeMap String ColumnID) (filter : Option SearchExpression)
    (version : InternalRow) : Except DataBaseErrors Bool :=
  match filter with
  | some filter => filter.evaluate (evaluationContext visible version)
  | none => .ok true

/-- The ids of the rows that match, in the order they are visited. -/
def pushMatchingRow (visible : BTreeMap String ColumnID) (filter : Option SearchExpression)
    (found : List RowID) (rowId : RowID) (version : InternalRow) :
    Except DataBaseErrors (List RowID) := do
  return if ← matchesFilter visible filter version then found ++ [rowId] else found

def indexLookupCandidates (columnName : String) (value : DataBaseDataEntry) (txn : Transaction)
    (visible : BTreeMap String ColumnID) : TableM (Option (List RowID)) := do
  match visible[columnName]? with
  | none => return none
  | some columnId =>
    match (← get).columns[columnId]? with
    | none => throw (.queryError s!"Column '{columnName}' not found while resolving index lookup")
    | some column =>
      match column.indexLookup value txn with
      | none => return none
      | some rowIds => return some (← filterVisibleIndexCandidates rowIds txn)

def equalityCandidates (filter : Option SearchExpression) (txn : Transaction)
    (visible : BTreeMap String ColumnID) : TableM (Option (List RowID)) := do
  match filter.bind (·.equalityLookup) with
  | some (columnName, value) => indexLookupCandidates columnName value txn visible
  | none => return none

/-- The rows to look at: those an index lookup gives, or all. -/
def candidateRowIds (request : SearchRequest) (txn : Transaction) (accessPath : Option AccessPath)
    (visible : BTreeMap String ColumnID) : TableM (Option (List RowID)) :=
  match accessPath with
  | some .seqScan => return none
  | some (.indexEquality columnName value) => indexLookupCandidates columnName value txn visible
  | none => equalityCandidates request.filter txn visible

def matchingRowIds (filter : Option SearchExpression) (txn : Transaction)
    (visible : BTreeMap String ColumnID) (candidates : Option (List RowID)) :
    TableM (List RowID) :=
  match candidates with
  | some rowIds =>
    rowIds.foldlM (fun found rowId => do
      match (← withRow rowId).bind (·.getVersionedRow txn) with
      | some version => ofResult (pushMatchingRow visible filter found rowId version)
      | none => return found) []
  | none => scanVisible txn (pushMatchingRow visible filter) []

def projectionColumns (projection : Option (List ProjectionColumn))
    (visible : BTreeMap String ColumnID) : Except DataBaseErrors (List (String × ColumnID)) :=
  match projection with
  | none => .ok visible.toList
  | some columns => columns.mapM fun column =>
    if column.tableAlias.isSome then
      .error (.queryError
        s!"Qualified column '{column.columnName}' is only supported in JOIN queries")
    else
      match visible[column.columnName]? with
      | some columnId => .ok (column.outputName, columnId)
      | none => .error (.queryError s!"Projection column '{column.columnName}' not found")

def sortColumns (orderBy : List SortBy) (visible : BTreeMap String ColumnID) :
    Except DataBaseErrors (List (ColumnID × OrderBy)) :=
  orderBy.mapM fun sortBy =>
    match visible[sortBy.columnName]? with
    | some columnId => .ok (columnId, sortBy.orderBy)
    | none => .error (.queryError s!"ORDER BY column '{sortBy.columnName}' not found")

def unreadableDuringSort : String := "matching row must remain readable during sort"

/-- Does row `a` come after row `b` in the order of the sort columns? -/
def sortsAfter (columns : List (ColumnID × OrderBy)) (txn : Transaction) (a b : RowID) :
    TableM Bool :=
  match columns with
  | [] => return false
  | (columnId, orderBy) :: columns => do
    let left ← (withVersionedColumnEntry a columnId txn).expect unreadableDuringSort
    let right ← (withVersionedColumnEntry b columnId txn).expect unreadableDuringSort
    match (left.getD .null).cmp (right.getD .null), orderBy with
    | .eq, _ => sortsAfter columns txn a b
    | .gt, .asc | .lt, .desc => return true
    | .lt, .asc | .gt, .desc => return false

/-- Insert a row id before the first one it sorts not after. -/
def insertSorted (columns : List (ColumnID × OrderBy)) (txn : Transaction) (a : RowID) :
    List RowID → TableM (List RowID)
  | [] => return [a]
  | b :: sorted => do
    if ← sortsAfter columns txn a b then return b :: (← insertSorted columns txn a sorted)
    else return a :: b :: sorted

/-- A stable sort, as `sort_by`; in which order that compares is not documented. -/
def sortRowIds (columns : List (ColumnID × OrderBy)) (txn : Transaction) :
    List RowID → TableM (List RowID)
  | [] => return []
  | a :: rowIds => do insertSorted columns txn a (← sortRowIds columns txn rowIds)

def sortMatching (columns : List (ColumnID × OrderBy)) (txn : Transaction)
    (matching : List RowID) : TableM (List RowID) :=
  if columns = [] then return matching else sortRowIds columns txn matching

def projectRow (projection : List (String × ColumnID)) (txn : Transaction) (rowId : RowID) :
    TableM SearchResult := do
  match (← withRow rowId).bind (·.getVersionedRow txn) with
  | none => throw (.rowNotFound rowId)
  | some version =>
    return {
      rowId := rowId
      values := projection.foldl (fun values x =>
        values.insert x.1 (version.data[x.2]?.getD .null)) ∅ }

/-- `search` of `COUNT(*)`. -/
def searchCount (request : SearchRequest) (outputName : String) (txn : Transaction)
    (visible : BTreeMap String ColumnID) : TableM (List SearchResult) := do
  if request.orderBy ≠ [] then
    throw (.queryError "ORDER BY is unsupported with COUNT(*)")
  let candidates ← equalityCandidates request.filter txn visible
  let matching ← matchingRowIds request.filter txn visible candidates
  return [{
    rowId := 0
    values := (∅ : BTreeMap String DataBaseDataEntry).insert outputName
      (.integerI64 (Int64.ofNat matching.length)) }]

def searchRows (request : SearchRequest) (txn : Transaction) (accessPath : Option AccessPath)
    (visible : BTreeMap String ColumnID) : TableM (List SearchResult) := do
  let projection ← ofResult (projectionColumns request.projection visible)
  let sort ← ofResult (sortColumns request.orderBy visible)
  let candidates ← candidateRowIds request txn accessPath visible
  let matching ← matchingRowIds request.filter txn visible candidates
  let sorted ← sortMatching sort txn matching
  let selected := sorted.drop (request.offset.getD 0)
  let selected := match request.limit with | some limit => selected.take limit | none => selected
  selected.foldlM (fun results rowId => do
    return results ++ [← projectRow projection txn rowId]) []

def search (request : SearchRequest) (txn : Transaction) (accessPath : Option AccessPath) :
    TableM (List SearchResult) := do
  let visible := visibleColumns (← get).columns txn
  match request.aggregate with
  | some (.countStar outputName) => searchCount request outputName txn visible
  | none => searchRows request txn accessPath visible

end AntDb.Table
