/-
  Tables: resident and evicted pages, their bookkeeping, and reading pages back in.

  `TableM` threads the table through a call and stops it at the first error.  It also
  knows the page whose write lock the call holds, if any: asking for the lock of that
  page blocks the call for good.  Locks of other pages are always free, since calls
  run one after the other.
-/
import AntDb.Lib.Call
import AntDb.Page

namespace AntDb

structure Table where
  tableId : TableID
  rowSpace : PageMap
  rowLocations : BTreeMap RowID PageID
  columns : BTreeMap ColumnID Column
  indexNames : BTreeMap String ColumnID
  nextPageId : PageID
  nextRowId : RowID
  nextColumnId : ColumnID
  pageSize : ℕ
  evictedPages : BTreeSet PageID
  onDiskPages : BTreeSet PageID
  lru : BTreeMap PageID ℕ
  lruCounter : ℕ
  memoryUsed : ℕ
  pageStore : PageStore
  memoryLimit : ℕ
deriving DecidableEq

/-- How a call ends without a result: with an error, waiting for a lock it holds itself, or in
    a panic. -/
inductive Fault where
  | err (error : DataBaseErrors)
  | blocked
  | panic (message : String)
deriving DecidableEq

abbrev TableM (α : Type) : Type := Call (Option PageID) Table Fault α

namespace TableM

variable {α : Type}

instance : MonadExceptOf DataBaseErrors (Call (Option PageID) Table Fault) where
  throw e := Call.fail (.err e)
  tryCatch x handle := x.handling fun | .err e => handle e | e => Call.fail e

def ofResult (x : Except DataBaseErrors α) : TableM α := Call.ofExcept (x.mapError .err)

/-- What a function of the table gives, or its error. -/
def read (f : Table → Except DataBaseErrors α) : TableM α := do ofResult (f (← Call.get))

/-- Ask for the lock of a page. -/
def lockPage (pageId : PageID) : TableM Unit := fun held t =>
  if held = some pageId then (.error .blocked, t) else (.ok (), t)

/-- Run `x` while holding the write lock of a page. -/
def holding (pageId : PageID) (x : TableM α) : TableM α := x.within (some pageId)

/-- `expect`: an error is a panic. -/
def expect (x : TableM α) (message : String) : TableM α :=
  x.handling fun | .err _ => Call.fail (.panic message) | e => Call.fail e

end TableM

namespace Table

open Call TableM

/-! ## Bookkeeping of resident pages -/

def touchPage (t : Table) (pageId : PageID) : Table :=
  { t with lruCounter := t.lruCounter + 1, lru := t.lru.insert pageId t.lruCounter }

def trackPageInMemory (t : Table) (page : Page) : Table :=
  ({ t with memoryUsed := wrappingAdd t.memoryUsed page.memoryBytes }).touchPage page.pageId

def untrackPageInMemory (t : Table) (page : Page) : Table :=
  { t with
    memoryUsed := wrappingSub t.memoryUsed page.memoryBytes
    lru := t.lru.erase page.pageId }

/-- The pages some row is mapped to. -/
def referencedPages (t : Table) : BTreeSet PageID := .ofList (t.rowLocations.toList.map Prod.snd) compare

def rebuildRuntimeState (t : Table) : Table :=
  { t with
    memoryUsed := t.rowSpace.values.foldl (fun used page => saturatingAdd used page.memoryBytes) 0
    lruCounter := t.rowSpace.keys.length
    lru := .ofList (t.rowSpace.keys.zip (List.range t.rowSpace.keys.length)) compare
    evictedPages := t.referencedPages.filter fun p => p ∉ t.rowSpace.pages }

/-- The resident page used longest ago, other than the pinned one. -/
def pickLruVictim (t : Table) (pinned : Option PageID) : Option PageID :=
  (minByKey Prod.snd ((t.rowSpace.keys.filter fun p => pinned ≠ some p).filterMap fun p =>
    t.lru[p]?.map fun seq => (p, seq))).map Prod.fst

/-! ## Eviction -/

def writePageToDisk (page : Page) : TableM Unit := do
  let t ← get
  let store ← ofResult (t.pageStore.mergePage page t.rowLocations)
  modify fun t => { t with pageStore := store, onDiskPages := t.onDiskPages.insert page.pageId }

def loadPageFromDisk (pageId : PageID) : TableM Page := do
  match ← read fun t => t.pageStore.readPage pageId with
  | some page => return page
  | none => throw (.queryError s!"Page {pageId} not found on disk")

/-- `flush_and_evict_page`; the page has left `row_space` already. -/
def flushAndEvictPage (page : Page) : TableM Unit := do
  lockPage page.pageId
  let t ← get
  if page.isDirty ∨ page.pageId ∉ t.onDiskPages then writePageToDisk page
  modify fun t => t.untrackPageInMemory page
  modify fun t => { t with evictedPages := t.evictedPages.insert page.pageId }

def evictPage (pageId : PageID) : TableM Unit := do
  match (← get).rowSpace.get? pageId with
  | none => return
  | some page =>
    modify fun t => { t with rowSpace := t.rowSpace.erase pageId }
    flushAndEvictPage page

/-- The loop of `maybe_evict_pages`: one page leaves in each round, so as many rounds as there
    are resident pages are enough. -/
def evictDownTo (limit : ℕ) (pinned : Option PageID) : ℕ → TableM Unit
  | 0 => return
  | rounds + 1 => do
    let t ← get
    if t.memoryUsed ≤ limit then return
    match t.pickLruVictim pinned with
    | none => return
    | some victim =>
      evictPage victim
      evictDownTo limit pinned rounds

def maybeEvictPages (pinned : Option PageID) : TableM Unit := do
  let t ← get
  if t.memoryLimit = 0 then return
  evictDownTo t.memoryLimit pinned t.rowSpace.keys.length

def ensurePageResident (pageId : PageID) : TableM Page := do
  match (← get).rowSpace.get? pageId with
  | some page =>
    modify fun t => t.touchPage pageId
    return page
  | none =>
    let page ← loadPageFromDisk pageId
    modify fun t => { t with
      rowSpace := t.rowSpace.insert page
      memoryUsed := wrappingAdd t.memoryUsed page.memoryBytes }
    modify fun t => t.touchPage pageId
    modify fun t => { t with evictedPages := t.evictedPages.erase pageId }
    maybeEvictPages (some pageId)
    return page

end Table

end AntDb
