/-
  The page file byte by byte: `page_store.rs`.

  A page file starts with a header, which says where its index stands and where the next record
  goes.  Pages are appended to the file one record after another, and each time the index is
  written anew behind them.
-/
import AntDb.Lib.Call
import AntDb.Lib.Files
import AntDb.Page

namespace AntDb.Disk

open Call Files SipHash

/-! ## Paths and files -/

/-- A path: a directory and the name of a file in it. -/
structure PathBuf where
  parent : String
  fileName : String
deriving DecidableEq

/-- The name without its extension: what stands before the last dot, unless nothing does. -/
def fileStem (fileName : String) : String :=
  match fileName.toList.reverse.dropWhile (· ≠ '.') with
  | [] | [_] => fileName
  | _ :: stem => String.ofList stem.reverse

def PathBuf.withExtension (path : PathBuf) (extension : String) : PathBuf :=
  if path.fileName = "" ∨ path.fileName = ".." then path
  else { path with fileName := fileStem path.fileName ++ "." ++ extension }

def PathBuf.display (path : PathBuf) : String := path.parent ++ "/" ++ path.fileName

abbrev FileSystem := PathBuf → Option Bytes

/-- The largest offset in a file. -/
def maxOffset : ℕ := 2 ^ 63 - 1

/-! ## The format -/

def magic : Bytes := [0x41, 0x4e, 0x54, 0x50, 0x47]

def version : ℕ := 1

def headerSize : ℕ := 33

/-- The bytes of one record. -/
structure PageLocation where
  offset : ℕ
  length : ℕ
deriving DecidableEq

abbrev PageIndex := BTreeMap PageID PageLocation

abbrev RowLocationIndex := BTreeMap RowID PageID

structure DiskIndex where
  pages : PageIndex
  rowLocations : RowLocationIndex
deriving DecidableEq

/-- What `bincode` does for the pages and the index; `decodePages` reads an index that has no row
    map. -/
structure Bincode (π : Type) where
  encodePage : π → Except String Bytes
  decodePage : Bytes → Except String π
  encodeIndex : DiskIndex → Except String Bytes
  decodeIndex : Bytes → Except String DiskIndex
  decodePages : Bytes → Except String PageIndex

/-- Values come back from their bytes, and those of an index start with a number of entries. -/
structure Bincode.Lawful {π : Type} (code : Bincode π) : Prop where
  page : ∀ page bytes, code.encodePage page = .ok bytes → code.decodePage bytes = .ok page
  index : ∀ index bytes, code.encodeIndex index = .ok bytes → code.decodeIndex bytes = .ok index
  index_ne_nil : ∀ index bytes, code.encodeIndex index = .ok bytes → bytes ≠ []

structure PageFileHeader where
  indexOffset : ℕ
  indexLength : ℕ
  appendOffset : ℕ
deriving DecidableEq

namespace PageFileHeader

/-- What `write_to` writes at the start of a file. -/
def toBytes (header : PageFileHeader) : Bytes :=
  magic ++ leBytes 4 version ++ leBytes 8 header.indexOffset ++ leBytes 8 header.indexLength ++
    leBytes 8 header.appendOffset

/-- `read_exact`, with the error of a file that is too short. -/
def readExact (file : Bytes) (offset length : ℕ) : Except DataBaseErrors Bytes :=
  match readAt file offset length with
  | some bytes => .ok bytes
  | none => .error (.ioError "failed to fill whole buffer")

def readFrom (file : Bytes) : Except DataBaseErrors (Option PageFileHeader) := do
  if readAt file 0 5 = some magic then
    let versionBytes ← readExact file 5 4
    if ofLeBytes versionBytes = version then
      let indexOffset ← readExact file 9 8
      let indexLength ← readExact file 17 8
      let appendOffset ← readExact file 25 8
      return some ⟨ofLeBytes indexOffset, ofLeBytes indexLength, ofLeBytes appendOffset⟩
    else .error (.deserializationError s!"Unsupported page file version {ofLeBytes versionBytes}")
  else return none

end PageFileHeader

open PageFileHeader

/-! ## The store -/

/-- The header and the index as the store knows them, once it has read them. -/
structure PageStoreState where
  index : PageIndex
  rowLocations : RowLocationIndex
  indexOffset : ℕ
  indexLength : ℕ
  appendOffset : ℕ
  loaded : Bool
deriving DecidableEq

def PageStoreState.default : PageStoreState := ⟨∅, ∅, 0, 0, 0, false⟩

structure PageStore where
  path : PathBuf
  state : PageStoreState
deriving DecidableEq

def PageStore.new (path : PathBuf) : PageStore := ⟨path, .default⟩

/-- A page store and the files it works on. -/
structure World where
  store : PageStore
  files : FileSystem

abbrev StoreM (α : Type) : Type := Call Unit World DataBaseErrors α

namespace World

def withState (w : World) (state : PageStoreState) : World :=
  { w with store := { w.store with state := state } }

def withFile (w : World) (path : PathBuf) (file : Option Bytes) : World :=
  { w with files := Function.update w.files path file }

/-- A new store on the same path. -/
def reopened (w : World) : World := { w with store := .new w.store.path }

end World

namespace PageStore

variable {π : Type} (code : Bincode π)

/-- Open a file to write it; it is created if there is none. -/
def openFile (path : PathBuf) : StoreM Unit :=
  modify fun w => if (w.files path).isSome then w else w.withFile path (some [])

/-- Seek to `offset` and write all of `bytes`. -/
def writeFile (path : PathBuf) (offset : ℕ) (bytes : Bytes) : StoreM Unit := fun _ w =>
  if offset + bytes.length ≤ maxOffset then
    (.ok (), w.withFile path (some (writeAt ((w.files path).getD []) offset bytes)))
  else (.error (.ioError "File too large (os error 27)"), w)

def renameFile (source target : PathBuf) : StoreM Unit :=
  modify fun w =>
    if source = target then w
    else (w.withFile target (w.files source)).withFile source none

def deserializeIndex (bytes : Bytes) : Except DataBaseErrors (PageIndex × RowLocationIndex) :=
  if bytes = [] then .ok (∅, ∅)
  else match code.decodeIndex bytes with
    | .ok disk => .ok (disk.pages, disk.rowLocations)
    | .error _ =>
      match code.decodePages bytes with
      | .ok pages => .ok (pages, ∅)
      | .error e => .error (.deserializationError e)

def readIndexBytes (file : Bytes) (header : PageFileHeader) : Except DataBaseErrors Bytes :=
  if header.indexLength = 0 then .ok [] else readExact file header.indexOffset header.indexLength

def readHeaderAndIndex (file : Bytes) :
    Except DataBaseErrors (Option (PageFileHeader × PageIndex × RowLocationIndex)) := do
  match ← readFrom file with
  | none => return none
  | some header =>
    let indexBytes ← readIndexBytes file header
    let (index, rowLocations) ← deserializeIndex code indexBytes
    return some (header, index, rowLocations)

def populateState (header : PageFileHeader) (index : PageIndex) (rowLocations : RowLocationIndex) :
    PageStoreState where
  index := index
  rowLocations := rowLocations
  indexOffset := header.indexOffset
  indexLength := header.indexLength
  appendOffset := header.appendOffset
  loaded := true

/-- The state of a store whose file has nothing in it. -/
def blankState (state : PageStoreState) : PageStoreState :=
  { state with indexOffset := headerSize, appendOffset := headerSize, loaded := true }

def loadState : StoreM Unit := do
  let w ← get
  if w.store.state.loaded then return ()
  else match w.files w.store.path with
    | none | some [] => modify fun w => w.withState (blankState w.store.state)
    | some file =>
      match ← ofExcept (readHeaderAndIndex code file) with
      | none => Call.fail (.deserializationError
          s!"Invalid page file '{w.store.path.display}': missing or corrupt ANTPG header")
      | some (header, index, rowLocations) =>
        modify fun w => w.withState (populateState header index rowLocations)

/-! ## Writing -/

def serializationError {α : Type} (x : Except String α) : Except DataBaseErrors α :=
  x.mapError .serializationError

/-- `write_compact_file` and `write_compact_file_from_bytes`, which differ in `serialize`: the pages
    are written to a file of its own, one after another, which then replaces the page file. -/
def writeCompact {α : Type} (serialize : α → Except DataBaseErrors Bytes) (path : PathBuf)
    (pages : List (PageID × α)) (rowLocations : RowLocationIndex) :
    StoreM (PageFileHeader × PageIndex × RowLocationIndex) := do
  let tmpPath := path.withExtension "tmp"
  openFile tmpPath
  writeFile tmpPath 0 (toBytes ⟨headerSize, 0, headerSize⟩)
  let (offset, index) ← pages.foldlM (fun (acc : ℕ × PageIndex) x => do
    let pageBytes ← ofExcept (serialize x.2)
    writeFile tmpPath acc.1 pageBytes
    return (acc.1 + pageBytes.length, acc.2.insert x.1 ⟨acc.1, pageBytes.length % 2 ^ 32⟩))
    (headerSize, ∅)
  let indexBytes ← ofExcept (serializationError (code.encodeIndex ⟨index, rowLocations⟩))
  writeFile tmpPath offset indexBytes
  let header : PageFileHeader := ⟨offset, indexBytes.length, offset + indexBytes.length⟩
  writeFile tmpPath 0 header.toBytes
  renameFile tmpPath path
  return (header, index, rowLocations)

def writeCompactFile (path : PathBuf) (pages : BTreeMap PageID π) (rowLocations : RowLocationIndex) :
    StoreM (PageFileHeader × PageIndex × RowLocationIndex) :=
  writeCompact code (fun page => serializationError (code.encodePage page)) path pages.toList
    rowLocations

def writeCompactFileFromBytes (path : PathBuf) (pages : List (PageID × Bytes))
    (rowLocations : RowLocationIndex) : StoreM (PageFileHeader × PageIndex × RowLocationIndex) :=
  writeCompact code .ok path pages rowLocations

def writeAll (pages : BTreeMap PageID π) (rowLocations : RowLocationIndex) : StoreM Unit := do
  let (header, index, rowLocations) ←
    writeCompactFile code (← get).store.path pages rowLocations
  loadState code
  modify fun w => w.withState (populateState header index rowLocations)

def writeAllSerialized (pages : List (PageID × Bytes)) (rowLocations : RowLocationIndex) :
    StoreM Unit := do
  let (header, index, rowLocations) ←
    writeCompactFileFromBytes code (← get).store.path pages rowLocations
  loadState code
  modify fun w => w.withState (populateState header index rowLocations)

/-- Enter a record into the index of the state. -/
def enterRecord (pageId : PageID) (location : PageLocation) : StoreM Unit :=
  modify fun w =>
    w.withState { w.store.state with index := w.store.state.index.insert pageId location }

def mergePages (updates : BTreeMap PageID π) (rowLocations : RowLocationIndex) : StoreM Unit := do
  if updates.isEmpty then return ()
  else
    let path := (← get).store.path
    openFile path
    loadState code
    let appendOffset := max (← get).store.state.appendOffset headerSize
    let appendOffset ← updates.toList.foldlM (fun appendOffset x => do
      let pageBytes ← ofExcept (serializationError (code.encodePage x.2))
      writeFile path appendOffset pageBytes
      enterRecord x.1 ⟨appendOffset, pageBytes.length % 2 ^ 32⟩
      return appendOffset + pageBytes.length) appendOffset
    modify fun w => w.withState { w.store.state with rowLocations := rowLocations }
    let state := (← get).store.state
    let indexBytes ← ofExcept
      (serializationError (code.encodeIndex ⟨state.index, state.rowLocations⟩))
    writeFile path appendOffset indexBytes
    let header : PageFileHeader := ⟨appendOffset, indexBytes.length, appendOffset + indexBytes.length⟩
    writeFile path 0 header.toBytes
    modify fun w => w.withState (populateState header w.store.state.index w.store.state.rowLocations)

def mergePage (pageId : PageID) (page : π) (rowLocations : RowLocationIndex) : StoreM Unit :=
  mergePages code ((∅ : BTreeMap PageID π).insert pageId page) rowLocations

/-! ## Reading -/

def listPageIds : StoreM (List PageID) := do
  loadState code
  return (← get).store.state.index.keys

def readRowLocations : StoreM RowLocationIndex := do
  loadState code
  return (← get).store.state.rowLocations

def readPageBytes (file : Bytes) (location : PageLocation) : Except DataBaseErrors Bytes :=
  readExact file location.offset location.length

def readPage (pageId : PageID) : StoreM (Option π) := do
  loadState code
  let w ← get
  match w.store.state.index[pageId]? with
  | none => return none
  | some location =>
    match w.files w.store.path with
    | none => Call.fail (.ioError "No such file or directory (os error 2)")
    | some file =>
      let pageBytes ← ofExcept (readPageBytes file location)
      let page ← ofExcept ((code.decodePage pageBytes).mapError .deserializationError)
      return some page

end PageStore

end AntDb.Disk
