/-
  What a failed merge changes.

  A merge that fails shows in the pages that it has entered into the cached index, in the row
  map once all its pages are written, in records behind the append offset (those of merges that
  failed before), and in a file that was empty and has no header now.
-/
import AntDb.Appending

namespace AntDb.Disk

open Call Files

variable {π : Type} {code : Bincode π} {w w' : World} {file file' bytes : Bytes} {limit : ℕ}
  {pageId : PageID} {location : PageLocation} {m : Merge π}

/-! ## Answers -/

variable (code) in
/-- The two stores answer alike. -/
def SameAnswers (w w' : World) : Prop :=
  (∀ pageId, (PageStore.readPage code pageId () w').1 = (PageStore.readPage code pageId () w).1) ∧
    (PageStore.listPageIds code () w').1 = (PageStore.listPageIds code () w).1 ∧
    (PageStore.readRowLocations code () w').1 = (PageStore.readRowLocations code () w).1

theorem SameAnswers.refl : SameAnswers code w w := ⟨fun _ => rfl, rfl, rfl⟩

variable (code) in
/-- What the bytes of a page read as. -/
def decodeRecord (bytes : Bytes) : Except DataBaseErrors (Option π) :=
  match code.decodePage bytes with
  | .ok page => .ok (some page)
  | .error e => .error (.deserializationError e)

variable (code) in
/-- What the record at a place of the file reads as. -/
def readRecord (file : Option Bytes) (location : PageLocation) : Except DataBaseErrors (Option π) :=
  match file with
  | none => .error (.ioError "No such file or directory (os error 2)")
  | some file =>
    match PageStore.readPageBytes file location with
    | .ok bytes => decodeRecord code bytes
    | .error e => .error e

variable (code) in
/-- What a page reads as from the index of a store. -/
def World.lookup (w : World) (index : PageIndex) (pageId : PageID) : Except DataBaseErrors (Option π) :=
  match index[pageId]? with
  | none => .ok none
  | some location => readRecord code (w.files w.store.path) location

variable (code) in
/-- What a page reads as once it is written; the length of its record is stored in 32 bits. -/
def reread (page : π) : Except DataBaseErrors (Option π) :=
  match code.encodePage page with
  | .ok bytes => decodeRecord code (bytes.take (bytes.length % 2 ^ 32))
  | .error e => .error (.serializationError e)

/-- A page that is written and reads as itself. -/
theorem reread_lawful (hcode : code.Lawful) {page : π} (h : code.encodePage page = .ok bytes)
    (hlength : bytes.length < 2 ^ 32) : reread code page = .ok (some page) := by
  unfold reread decodeRecord
  rw [h]
  dsimp only
  rw [Nat.mod_eq_of_lt hlength, List.take_length, hcode.page _ _ h]

/-- The record lies in the file in front of the limit. -/
def InFront (file : Bytes) (limit : ℕ) (location : PageLocation) : Prop :=
  location.offset + location.length ≤ limit ∧ limit ≤ file.length

namespace Merge

variable (code) (m : Merge π) (w : World)

/-- The file that a merge leaves when it fails. -/
def fileLeft : Bytes := writeAt (w.content w.store.path) (w.appendOffset code) (m.written code w)

/-- The record reads as before when the merge has failed, or lies in front of what it writes. -/
def Spares (location : PageLocation) : Prop :=
  InFront (w.content w.store.path) (w.appendOffset code) location ∨
    readRecord code (some (m.fileLeft code w)) location =
      readRecord code (some (w.content w.store.path)) location

/-- When the merge starts and fails, nothing of it shows. -/
structure Harmless : Prop where
  /-- the pages entered into the index were there with the same content -/
  pages : ∀ x ∈ (m.progress code w).entered,
    (PageStore.readPage code x.1 () w).1 = reread code x.2.1
  /-- once all pages are entered, the row map was there too -/
  rowLocations : (m.progress code w).complete = true →
    (PageStore.readRowLocations code () w).1 = .ok m.rowLocations
  /-- the other records that the store knows are spared -/
  known : ∀ (pageId : PageID) location, (∀ x ∈ (m.progress code w).entered, x.1 ≠ pageId) →
    (w.known code).index[pageId]? = some location → m.Spares code w location
  /-- the records that the file lists are spared -/
  filed : ∀ (pageId : PageID) location,
    (w.reopened.known code).index[pageId]? = some location → m.Spares code w location
  /-- there was a header, or nothing has been written -/
  header : w.content w.store.path ≠ [] ∨ m.written code w = []

variable {code m w}

end Merge

/-! ## Atomicity -/

variable {e : DataBaseErrors} {path : PathBuf} {files : FileSystem} {attempts : List (Attempt π)}

/-- The device is full when a merge writes its index. -/
def diskFull : MergeFaults :=
  { MergeFaults.none with index := some (3, .ioError "No space left on device (os error 28)") }

end AntDb.Disk
