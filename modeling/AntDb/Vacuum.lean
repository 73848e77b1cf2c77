/-
  Creating, flushing, vacuuming, rolling back and reopening a table.
-/
import AntDb.Access

namespace AntDb.Table

open Call TableM

/-! ## Creation -/

/-- `Table::new`, over the page file `pageStore`. -/
def new (tableId : TableID) (pageSize memoryLimit : ℕ) (pageStore : PageStore) : Table where
  tableId := tableId
  rowSpace := .empty
  rowLocations := ∅
  columns := ∅
  indexNames := ∅
  nextPageId := 0
  nextRowId := 0
  nextColumnId := 0
  pageSize := max pageSize 1
  evictedPages := ∅
  onDiskPages := ∅
  lru := ∅
  lruCounter := 0
  memoryUsed := 0
  pageStore := pageStore
  memoryLimit := memoryLimit

/-- The index of a column from the rows `txn` sees; the number of rows filed. -/
def buildColumnIndexFromRows (columnId : ColumnID) (txn : Transaction) : TableM ℕ := do
  let some column := (← get).columns[columnId]?
    | throw (.queryError "Column not found while building index")
  if !column.isIndexed txn then return 0
  let column ← ofResult (column.ensureIndexReady txn)
  modify fun t => { t with columns := t.columns.insert columnId column }
  (← get).rowLocations.keys.foldlM (fun indexed rowId => do
    match ← withRow rowId with
    | none => return indexed
    | some row =>
      let some column := (← get).columns[columnId]?
        | throw (.queryError "Column not found while building index")
      let (column, filed) := column.indexRow rowId row txn
      modify fun t => { t with columns := t.columns.insert columnId column }
      return if filed then indexed + 1 else indexed) 0

def createColumn (columnName : String) (dataType : DataBaseDataType)
    (constraints : BTreeSet Constraint) (txn : Transaction) : TableM ColumnID := do
  let columnId := (← get).nextColumnId
  modify fun t => { t with
    nextColumnId := columnId + 1
    columns := t.columns.insert columnId (.new columnId columnName dataType constraints txn) }
  let _ ← buildColumnIndexFromRows columnId txn
  return columnId

def addColumnConstraints (columnId : ColumnID) (extraConstraints : BTreeSet Constraint)
    (txn : Transaction) : TableM Unit := do
  let some column := (← get).columns[columnId]?
    | throw (.queryError "Column not found while applying table constraints")
  let merged := (column.getVersionedConstraints txn).getD ∅ ∪ extraConstraints
  modify fun t => { t with
    columns := t.columns.insert columnId (column.update none none (some merged) txn) }
  let _ ← buildColumnIndexFromRows columnId txn

/-! ## Flushing -/

def persistDirtyPages : TableM Unit := do
  let t ← get
  let flushed ← t.rowSpace.values.foldlM (fun flushed page => do
    if page.isDirty then
      let store ← read fun t => t.pageStore.mergePage page t.rowLocations
      modify fun t => { t with pageStore := store }
      return flushed ++ [page.pageId]
    else return flushed) []
  modify fun t => { t with onDiskPages := flushed.foldl (·.insert ·) t.onDiskPages }

/-- The record of a page that is not resident goes into the new file as it is. -/
def keepRecord (kept : List Page) (pageId : PageID) : TableM (List Page) := do
  match ← read fun t => t.pageStore.readPage pageId with
  | some page => return kept ++ [page]
  | none => return kept

/-- `flush_all_pages`: the page file is rewritten with the resident pages and with the pages it
    lists that are not resident. -/
def flushAllPages : TableM Unit := do
  let t ← get
  let pageIds ← read fun t => t.pageStore.listPageIds
  let kept ← (pageIds.filter fun p => p ∉ t.rowSpace.pages).foldlM keepRecord []
  modify fun t => { t with rowSpace := t.rowSpace.map fun page => { page with isDirty := false } }
  let pages := kept ++ (← get).rowSpace.values
  let store ← read fun t => t.pageStore.writeAll pages t.rowLocations
  modify fun t => { t with
    pageStore := store
    onDiskPages := .ofList (pages.map (·.pageId)) compare }

/-! ## Vacuum -/

def materializeAllPages : TableM Unit := do
  (← get).referencedPages.toList.forM fun pageId => do
    let _ ← ensurePageResident pageId

/-- Does a version of the row survive?  A row that cannot be read has none. -/
def rowIsAliveForPrune (rowId : RowID) (oldestActiveTxn : TransactionID) : TableM Bool :=
  tryCatch (do
    return ((← withRow rowId).map fun row =>
      row.versions.any (·.transactionHeader.survives oldestActiveTxn)).getD false)
    fun _ => return false

/-- The rows of a page that keep a version. -/
def pruneRows (oldestActiveTxn : TransactionID) (rows : BTreeMap RowID Row) : BTreeMap RowID Row :=
  rows.filterMap fun _ row =>
    if (row.prune oldestActiveTxn).versions = [] then none else some (row.prune oldestActiveTxn)

def pruneVersions (oldestActiveTxn : TransactionID) : TableM Unit := do
  modify fun t => { t with
    rowSpace := t.rowSpace.map fun page => { page with rows := pruneRows oldestActiveTxn page.rows } }
  (← get).columns.toList.forM fun x => do
    let column ← x.2.prune oldestActiveTxn (rowIsAliveForPrune · oldestActiveTxn)
    modify fun t => { t with columns := t.columns.insert x.1 column }

/-- The pages `compact` has filled so far. -/
structure Compaction where
  space : PageMap
  locations : BTreeMap RowID PageID
  nextPageId : PageID

namespace Compaction

/-- `alloc_page`; the fresh page has the id `nextPageId` had. -/
def allocPage (c : Compaction) (pageSize : ℕ) : Compaction :=
  { c with nextPageId := c.nextPageId + 1, space := c.space.insert (.new c.nextPageId pageSize) }

def appendTo (c : Compaction) (pageId : PageID) (rowId : RowID) (row : Row) : Compaction :=
  { c with
    space := c.space.update pageId (·.append rowId row row.sizeBytes)
    locations := c.locations.insert rowId pageId }

def extendChain (c : Compaction) (pageSize : ℕ) : ℕ → PageID → Compaction
  | 0, _ => c
  | extraPages + 1, previous =>
    let continuation := c.nextPageId
    let c := c.allocPage pageSize
    let c := { c with
      space := (c.space.update continuation fun page =>
        { page with isOverflow := true, usedBytes := page.capacity }).update previous fun page =>
          { page with nextPage := some continuation } }
    c.extendChain pageSize extraPages continuation

/-- Append to the last page, or to a fresh one; a row larger than a page opens its own chain. -/
def placeRow (pageSize : ℕ) (c : Compaction) (x : RowID × Row) : Compaction :=
  if x.2.sizeBytes > pageSize then
    let head := c.nextPageId
    ((c.allocPage pageSize).appendTo head x.1 x.2).extendChain pageSize
      (extraPages x.2.sizeBytes pageSize) head
  else
    match (c.space.keys.getLast?.bind c.space.get?).filter (·.hasRoomFor x.2.sizeBytes) with
    | some tail => c.appendTo tail.pageId x.1 x.2
    | none => (c.allocPage pageSize).appendTo c.nextPageId x.1 x.2

end Compaction

/-- The rows with a version on the resident pages, in row order. -/
def liveRows (t : Table) : List (RowID × Row) :=
  ((t.rowSpace.values.flatMap fun page => page.rows.toList).filter fun x =>
    x.2.versions ≠ []).insertionSort fun a b => a.1 ≤ b.1

def compact (t : Table) : Table :=
  let c := t.liveRows.foldl (Compaction.placeRow t.pageSize) ⟨.empty, ∅, 0⟩
  ({ t with
    nextPageId := c.nextPageId
    rowSpace := c.space
    rowLocations := c.locations
    evictedPages := ∅
    onDiskPages := ∅ }).rebuildRuntimeState

/-- Run `x`, whose error is logged only; was there none? -/
def logged (x : TableM Unit) : TableM Bool :=
  tryCatch (do x; return true) fun _ => return false

def prune (oldestActiveTxn : TransactionID) : TableM Unit := do
  if ← logged materializeAllPages then
    pruneVersions oldestActiveTxn
    modify compact
    let _ ← logged flushAllPages

/-! ## Rollback -/

def rollbackTransaction (t : Table) (txn : Transaction) : Table :=
  { t with
    columns := t.columns.map fun _ column => column.rollbackTransaction txn
    rowSpace := t.rowSpace.map fun page =>
      { page with rows := page.rows.map fun _ row => row.rollbackTransaction txn } }

/-! ## Reopening -/

/-- The table as its serialized metadata bring it back, over the same page file. -/
def reopened (t : Table) : Table :=
  { t with
    rowSpace := .empty
    rowLocations := ∅
    evictedPages := ∅
    onDiskPages := ∅
    lru := ∅
    lruCounter := 0
    memoryUsed := 0 }

def restorePageIndexFromDisk : TableM Unit := do
  let pageIds ← read fun t => t.pageStore.listPageIds
  modify fun t => { t with onDiskPages := .ofList pageIds compare }
  if pageIds = [] then
    modify rebuildRuntimeState
  else
    let stored ← read fun t => t.pageStore.readRowLocations
    let rowLocations ←
      if stored.isEmpty then
        pageIds.foldlM (fun locations p => do
          let page ← loadPageFromDisk p
          return page.rows.keys.foldl (fun locations rowId => locations.insert rowId p) locations)
          stored
      else pure stored
    modify fun t => { t with rowLocations := rowLocations, rowSpace := .empty }
    modify rebuildRuntimeState

/-- `bind_page_store`: an error while the page index is restored is logged only. -/
def bindPageStore : TableM Unit := do
  let _ ← logged restorePageIndexFromDisk

end AntDb.Table
