/-
  Reading and writing rows of a table: lookups, validation, insertion into pages,
  deletion and update.
-/
import AntDb.Table

namespace AntDb

/-- What the other tables of the database answer to "does this column hold this value";
    `none` for an id that is not another table's. -/
abbrev ForeignTables := TableID → Option (ColumnID → DataBaseDataEntry → Except DataBaseErrors Bool)

namespace Table

open Call TableM

/-! ## Reading rows -/

def pageForRow (rowId : RowID) : TableM Page := do
  match (← get).rowLocations[rowId]? with
  | none => throw (.rowNotFound rowId)
  | some pageId => ensurePageResident pageId

/-- `with_row`: the row as its page holds it. -/
def withRow (rowId : RowID) : TableM (Option Row) := do
  let page ← pageForRow rowId
  lockPage page.pageId
  return page.rows[rowId]?

def withVersionedColumnEntry (rowId : RowID) (columnId : ColumnID) (txn : Transaction) :
    TableM (Option DataBaseDataEntry) := do
  let row ← withRow rowId
  return (row.bind (·.getVersionedRow txn)).bind (·.data[columnId]?)

def getRow (rowId : RowID) : TableM Row := do
  match ← withRow rowId with
  | some row => return row
  | none => throw (.rowNotFound rowId)

/-- Visit the version of every row that `txn` sees, page after page. -/
def scanVisible {σ : Type} (txn : Transaction)
    (f : σ → RowID → InternalRow → Except DataBaseErrors σ) (init : σ) : TableM σ := do
  let pageIds := (← get).referencedPages
  pageIds.toList.foldlM (fun acc pageId => do
    let page ← ensurePageResident pageId
    lockPage page.pageId
    page.rows.toList.foldlM (fun acc x =>
      match x.2.getVersionedRow txn with
      | some version => ofResult (f acc x.1 version)
      | none => pure acc) acc) init

def forEachVisibleRow {σ : Type} (txn : Transaction)
    (f : σ → RowID → RowData → Except DataBaseErrors σ) (init : σ) : TableM σ :=
  scanVisible txn (fun acc rowId version => f acc rowId version.data) init

def filterVisibleIndexCandidates (rowIds : List RowID) (txn : Transaction) : TableM (List RowID) :=
  rowIds.foldlM (fun visible rowId => do
    let row ← withRow rowId
    return if ((row.bind (·.getVersionedRow txn)).isSome) then visible ++ [rowId] else visible) []

def lookupRowsByColumnValue (columnId : ColumnID) (value : DataBaseDataEntry) (txn : Transaction) :
    TableM (List RowID) := do
  match (← get).columns[columnId]? with
  | none => throw (.queryError "Column not found while resolving join lookup")
  | some column =>
    match column.indexLookup value txn with
    | some rowIds => filterVisibleIndexCandidates rowIds txn
    | none =>
      forEachVisibleRow txn (fun found rowId data =>
        .ok (if (data[columnId]?.map (·.eq value)).getD false then found ++ [rowId] else found)) []

def referencedValueExists (columnId : ColumnID) (value : DataBaseDataEntry) (txn : Transaction) :
    TableM Bool := do
  return !(← lookupRowsByColumnValue columnId value txn).isEmpty

/-- `Database::foreign_key_value_exists` as this table's writers call it. -/
def foreignKeyValueExists (others : ForeignTables) (txn : Transaction) (tableId : TableID)
    (columnId : ColumnID) (value : DataBaseDataEntry) : TableM Bool := do
  if value.isNull then return true
  match others tableId with
  | some answer => ofResult (answer columnId value)
  | none =>
    if tableId = (← get).tableId then referencedValueExists columnId value txn else return false

/-! ## Validation and indexes -/

def validateDataType (data : DataBaseDataEntry) (expectedType : DataBaseDataType)
    (isNullable : Bool) : Bool :=
  data.dataType = expectedType || (isNullable && data.dataType = .null)

def validateRowData (data : RowData) (txn : Transaction) (excludeRowId : Option RowID)
    (fkLookup : TableID → ColumnID → DataBaseDataEntry → TableM Bool) : TableM Unit := do
  let columns := (← get).columns
  columns.toList.forM fun x => do
    let value := data[x.1]?.getD .null
    match x.2.getVersionedColumn txn with
    | none => return
    | some version =>
      if !validateDataType value version.dataType version.isNullable then
        throw (.dataTypeMismatch x.1 version.dataType.name value.dataType.name)
      x.2.schemaValidation value (fun rowId => withVersionedColumnEntry rowId x.1 txn) fkLookup txn
        excludeRowId

def updateIndexesForRow (rowId : RowID) (data : RowData) (txn : Transaction)
    (columns : BTreeMap ColumnID Column) : BTreeMap ColumnID Column :=
  columns.map fun columnId column =>
    if column.isIndexed txn then
      match data[columnId]? with
      | some value => column.updateIndex columnId value rowId txn
      | none => column
    else column

/-! ## Insertion -/

/-- A fresh empty page.  Its registration may evict pages, the fresh one among them; what the
    caller then does to the page is done to a copy nobody reads. -/
def registerPage : TableM PageID := do
  let t ← get
  let page := Page.new t.nextPageId t.pageSize
  modify fun t => { t with
    nextPageId := t.nextPageId + 1
    rowSpace := t.rowSpace.insert page
    memoryUsed := wrappingAdd t.memoryUsed page.memoryBytes }
  modify fun t => t.touchPage page.pageId
  maybeEvictPages none
  return page.pageId

def forceAppendToPage (pageId : PageID) (rowId : RowID) (row : Row) (size : ℕ) : TableM Unit :=
  modify fun t => { t with rowSpace := t.rowSpace.update pageId (·.append rowId row size) }

def tryAppendToTailPage (rowId : RowID) (row : Row) (size : ℕ) : TableM (Option PageID) := do
  let t ← get
  match t.rowSpace.keys.getLast?.bind t.rowSpace.get? with
  | none => return none
  | some tail =>
    if tail.hasRoomFor size then
      forceAppendToPage tail.pageId rowId row size
      modify fun t => t.touchPage tail.pageId
      return some tail.pageId
    else return none

def insertRowIntoPage (rowId : RowID) (row : Row) (size : ℕ) : TableM PageID := do
  if let some tailId ← tryAppendToTailPage rowId row size then return tailId
  -- the retry of the source, for another inserter in between
  if let some tailId ← tryAppendToTailPage rowId row size then return tailId
  let pageId ← registerPage
  forceAppendToPage pageId rowId row size
  return pageId

/-- The continuation pages after `previous`. -/
def extendOverflowChain : ℕ → PageID → TableM Unit
  | 0, _ => return
  | extraPages + 1, previous => do
    let continuation ← registerPage
    modify fun t => { t with
      rowSpace := t.rowSpace.update continuation fun page =>
        { page with isOverflow := true, usedBytes := page.capacity, isDirty := true } }
    modify fun t => { t with
      rowSpace := t.rowSpace.update previous fun page => { page with nextPage := some continuation } }
    extendOverflowChain extraPages continuation

/-- `size.div_ceil(page_size).saturating_sub(1)`. -/
def extraPages (size pageSize : ℕ) : ℕ := (size + pageSize - 1) / pageSize - 1

def insertOverflowRow (rowId : RowID) (row : Row) (size : ℕ) : TableM PageID := do
  let head ← registerPage
  forceAppendToPage head rowId row size
  extendOverflowChain (extraPages size (← get).pageSize) head
  return head

/-- A row larger than a page opens its own chain of pages. -/
def placeNewRow (rowId : RowID) (row : Row) (size : ℕ) : TableM PageID := do
  if size > (← get).pageSize then insertOverflowRow rowId row size
  else insertRowIntoPage rowId row size

def insertRow (data : RowData) (txn : Transaction) (others : ForeignTables) : TableM RowID := do
  validateRowData data txn none (foreignKeyValueExists others txn)
  let rowId := (← get).nextRowId + 1
  modify fun t => { t with nextRowId := rowId }
  let row := Row.new txn data
  let pageId ← placeNewRow rowId row row.sizeBytes
  modify fun t => { t with rowLocations := t.rowLocations.insert rowId pageId }
  modify fun t => { t with columns := updateIndexesForRow rowId data txn t.columns }
  return rowId

/-! ## Deletion and update -/

/-- Rewrite a row in its page. -/
def writeRow (pageId : PageID) (rowId : RowID) (f : Row → Row) : TableM Unit :=
  modify fun t => { t with
    rowSpace := t.rowSpace.update pageId fun page =>
      { page with rows := page.rows.modify rowId f, isDirty := true } }

def deleteRow (rowId : RowID) (txn : Transaction) : TableM Unit := do
  let page ← pageForRow rowId
  lockPage page.pageId
  if rowId ∈ page.rows then writeRow page.pageId rowId (·.remove txn)
  else throw (.rowNotFound rowId)

/-- The row the update is validated as: the visible data overridden by the new. -/
def effectiveData (row : Row) (data : RowData) (txn : Transaction) : RowData :=
  ((row.getVersionedRow txn).map (·.data)).getD ∅ ∪ data

def updateRow (rowId : RowID) (data : RowData) (txn : Transaction) (others : ForeignTables) :
    TableM Unit := do
  let page ← pageForRow rowId
  lockPage page.pageId
  match page.rows[rowId]? with
  | none => throw (.rowNotFound rowId)
  | some row =>
    let effective := effectiveData row data txn
    holding page.pageId
      (validateRowData effective txn (some rowId) (foreignKeyValueExists others txn))
    writeRow page.pageId rowId (·.update txn data)
    modify fun t => { t with columns := updateIndexesForRow rowId effective txn t.columns }

end Table

end AntDb
