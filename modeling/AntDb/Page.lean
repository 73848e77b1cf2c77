/-
  Pages, maps of pages, and the page file of a table.

  The page file is modelled as the map its index and its records amount to, with the
  row map that is stored beside it; a page is written and read back as it is.
-/
import AntDb.Column

namespace AntDb

abbrev PageID := ℕ

/-- `saturating_add` on 64 bits. -/
def saturatingAdd (a b : ℕ) : ℕ := min (a + b) (2 ^ 64 - 1)

/-- `fetch_add` on 64 bits. -/
def wrappingAdd (a b : ℕ) : ℕ := (a + b) % 2 ^ 64

/-- `fetch_sub` on 64 bits. -/
def wrappingSub (a b : ℕ) : ℕ := (a + 2 ^ 64 - b % 2 ^ 64) % 2 ^ 64

structure Page where
  pageId : PageID
  capacity : ℕ
  usedBytes : ℕ
  rows : BTreeMap RowID Row
  nextPage : Option PageID
  isOverflow : Bool
  isDirty : Bool
deriving DecidableEq

namespace Page

def new (pageId : PageID) (capacity : ℕ) : Page where
  pageId := pageId
  capacity := capacity
  usedBytes := 0
  rows := ∅
  nextPage := none
  isOverflow := false
  isDirty := false

def hasRoomFor (page : Page) (size : ℕ) : Bool :=
  !page.isOverflow && saturatingAdd page.usedBytes size ≤ page.capacity

def append (page : Page) (rowId : RowID) (row : Row) (size : ℕ) : Page :=
  { page with
    usedBytes := saturatingAdd page.usedBytes size
    rows := page.rows.insert rowId row
    isDirty := true }

/-- `page_memory_bytes`: the encoded size of the page, field by field. -/
def memoryBytes (page : Page) : ℕ :=
  8 + 8 + 8 + (8 + (page.rows.toList.map fun x => 8 + x.2.sizeBytes).sum) +
    (if page.nextPage.isSome then 9 else 1) + 1 + 1

end Page

/-- Pages by id, each under its own. -/
structure PageMap where
  pages : BTreeMap PageID Page
  named : ∀ (p : PageID) (page : Page), pages[p]? = some page → page.pageId = p
deriving DecidableEq

namespace PageMap

def empty : PageMap := ⟨∅, fun p page h => by simp at h⟩

def get? (s : PageMap) (p : PageID) : Option Page := s.pages[p]?

def keys (s : PageMap) : List PageID := s.pages.keys

def values (s : PageMap) : List Page := s.pages.toList.map Prod.snd

def insert (s : PageMap) (page : Page) : PageMap where
  pages := s.pages.insert page.pageId page
  named p q h := by
    rw [BTreeMap.get_insert] at h
    split_ifs at h with hp
    · obtain rfl := Option.some.inj h; exact hp
    · exact s.named p q h

def erase (s : PageMap) (p : PageID) : PageMap where
  pages := s.pages.erase p
  named q page h := by
    rw [BTreeMap.get_erase] at h
    split_ifs at h
    exact s.named q page h

/-- Rewrite the page under `p`, if there is one. -/
def update (s : PageMap) (p : PageID) (f : Page → Page)
    (hf : ∀ page, (f page).pageId = page.pageId := by intro; rfl) : PageMap where
  pages := s.pages.modify p f
  named q page h := by
    rw [BTreeMap.get_modify] at h
    split_ifs at h
    · obtain ⟨page', hq, rfl⟩ := Option.map_eq_some_iff.1 h
      rw [hf]; exact s.named q page' hq
    · exact s.named q page h

/-- Rewrite every page. -/
def map (s : PageMap) (f : Page → Page)
    (hf : ∀ page, (f page).pageId = page.pageId := by intro; rfl) : PageMap where
  pages := s.pages.map fun _ page => f page
  named q page h := by
    rw [Std.ExtTreeMap.getElem?_map] at h
    obtain ⟨page', hq, rfl⟩ := Option.map_eq_some_iff.1 h
    rw [hf]; exact s.named q page' hq

variable {s s' : PageMap} {p q : PageID} {page : Page} {f : Page → Page}

theorem pageId_of_get (h : s.get? p = some page) : page.pageId = p := s.named p page h

@[simp] theorem get?_empty : empty.get? p = none := by simp [empty, get?]

theorem get?_insert :
    (s.insert page).get? q = if page.pageId = q then some page else s.get? q :=
  BTreeMap.get_insert _ _ _ _

theorem get?_erase : (s.erase p).get? q = if p = q then none else s.get? q :=
  BTreeMap.get_erase _ _ _

theorem get?_update {hf} :
    (s.update p f hf).get? q = if p = q then (s.get? q).map f else s.get? q :=
  BTreeMap.get_modify _ _ _ _

theorem get?_map {hf} : (s.map f hf).get? q = (s.get? q).map f :=
  Std.ExtTreeMap.getElem?_map

theorem mem_keys : p ∈ s.keys ↔ ∃ page, s.get? p = some page := by
  rw [keys, Std.ExtTreeMap.mem_keys, BTreeMap.mem_iff_get]; rfl

theorem mem_values : page ∈ s.values ↔ s.get? page.pageId = some page := by
  rw [values, BTreeMap.mem_values]
  exact ⟨fun ⟨p, h⟩ => by rw [← s.named p page h] at h; exact h, fun h => ⟨_, h⟩⟩

theorem ext_get (h : ∀ p, s.get? p = s'.get? p) : s = s' := by
  obtain ⟨pages, named⟩ := s
  obtain ⟨pages', named'⟩ := s'
  obtain rfl : pages = pages' := Std.ExtTreeMap.ext_getElem? fun p => h p
  rfl

end PageMap

/-! ## The page file -/

/-- A completed write of the page file: the page merged into it (`none` if the file was written
    whole), the records before and after, and the row map stored with them. -/
structure FileWrite where
  merged : Option Page
  before : PageMap
  after : PageMap
  rowLocations : BTreeMap RowID PageID
deriving DecidableEq

/-- The page file.  `writes` is its history, newest write first; nothing reads it. -/
structure PageStore where
  pages : PageMap
  rowLocations : BTreeMap RowID PageID
  writes : List FileWrite
  /-- the error the file system reports on a read, if it does -/
  readFault : Option String
  /-- the error the file system reports on a write, if it does -/
  writeFault : Option String
deriving DecidableEq

namespace PageStore

/-- The store of a table that has no page file yet. -/
def empty : PageStore := ⟨.empty, ∅, [], none, none⟩

def reading {α : Type} (store : PageStore) (a : α) : Except DataBaseErrors α :=
  match store.readFault with
  | some message => .error (.ioError message)
  | none => .ok a

def writing (store store' : PageStore) : Except DataBaseErrors PageStore :=
  match store.writeFault with
  | some message => .error (.ioError message)
  | none => .ok store'

def listPageIds (store : PageStore) : Except DataBaseErrors (List PageID) :=
  store.reading store.pages.keys

def readPage (store : PageStore) (pageId : PageID) : Except DataBaseErrors (Option Page) :=
  store.reading (store.pages.get? pageId)

def readRowLocations (store : PageStore) : Except DataBaseErrors (BTreeMap RowID PageID) :=
  store.reading store.rowLocations

/-- The store after a write. -/
def wrote (store : PageStore) (merged : Option Page) (pages : PageMap)
    (rowLocations : BTreeMap RowID PageID) : PageStore :=
  { store with
    pages := pages
    rowLocations := rowLocations
    writes := ⟨merged, store.pages, pages, rowLocations⟩ :: store.writes }

/-- `merge_page`: the record of the page and the row map are replaced. -/
def mergePage (store : PageStore) (page : Page) (rowLocations : BTreeMap RowID PageID) :
    Except DataBaseErrors PageStore :=
  store.writing (store.wrote (some page) (store.pages.insert page) rowLocations)

/-- `write_all_serialized`: the file holds these pages and nothing else. -/
def writeAll (store : PageStore) (pages : List Page) (rowLocations : BTreeMap RowID PageID) :
    Except DataBaseErrors PageStore :=
  store.writing (store.wrote none (pages.foldl PageMap.insert .empty) rowLocations)

end PageStore

end AntDb
