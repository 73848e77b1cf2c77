/-
  The page file is a map of pages.

  Every record that the index lists lies between the header and the place where the next record
  goes, so no write ever touches it, and what a store knows of its file is what a new store reads
  from the file.
-/
import AntDb.Encoding
import AntDb.Lib.Runs

namespace AntDb.Disk

open Call Files SipHash

variable {π : Type} {code : Bincode π}

/-! ## What a page file is for -/

/-- Pages by id, and the row map that is stored with them. -/
structure Contents (π : Type) where
  pages : BTreeMap PageID π
  rowLocations : RowLocationIndex

/-- The calls that write a page file. -/
inductive StoreCall (π : Type) where
  | writeAll (pages : BTreeMap PageID π) (rowLocations : RowLocationIndex)
  | writeAllSerialized (pages : List (PageID × Bytes)) (rowLocations : RowLocationIndex)
  | mergePage (pageId : PageID) (page : π) (rowLocations : RowLocationIndex)
  | mergePages (updates : BTreeMap PageID π) (rowLocations : RowLocationIndex)

namespace StoreCall

variable (code : Bincode π)

def run : StoreCall π → StoreM Unit
  | writeAll pages rowLocations => PageStore.writeAll code pages rowLocations
  | writeAllSerialized pages rowLocations => PageStore.writeAllSerialized code pages rowLocations
  | mergePage pageId page rowLocations => PageStore.mergePage code pageId page rowLocations
  | mergePages updates rowLocations => PageStore.mergePages code updates rowLocations

def step (w : World) (call : StoreCall π) : World := (call.run code () w).2

/-- Every encoded page is shorter than 2^32 bytes, and what is handed over as bytes is one. -/
def Sized : StoreCall π → Prop
  | writeAll pages _ => ∀ x ∈ pages.toList, ∀ bytes, code.encodePage x.2 = .ok bytes →
    bytes.length < 2 ^ 32
  | writeAllSerialized pages _ => ∀ x ∈ pages, x.2.length < 2 ^ 32 ∧
    ∃ page, code.decodePage x.2 = .ok page
  | mergePage _ page _ => ∀ bytes, code.encodePage page = .ok bytes → bytes.length < 2 ^ 32
  | mergePages updates _ => ∀ x ∈ updates.toList, ∀ bytes, code.encodePage x.2 = .ok bytes →
    bytes.length < 2 ^ 32

end StoreCall

namespace Contents

def empty : Contents π := ⟨∅, ∅⟩

/-- Enter the page that the bytes encode. -/
def enterBytes (code : Bincode π) (pages : BTreeMap PageID π) (x : PageID × Bytes) :
    BTreeMap PageID π :=
  match code.decodePage x.2 with
  | .ok page => pages.insert x.1 page
  | .error _ => pages

/-- What a call does to a map of pages.  Merging no pages does nothing. -/
def apply (code : Bincode π) (contents : Contents π) : StoreCall π → Contents π
  | .writeAll pages rowLocations => ⟨pages, rowLocations⟩
  | .writeAllSerialized pages rowLocations => ⟨pages.foldl (enterBytes code) ∅, rowLocations⟩
  | .mergePage pageId page rowLocations => ⟨contents.pages.insert pageId page, rowLocations⟩
  | .mergePages updates rowLocations =>
    if updates.isEmpty then contents
    else ⟨updates.toList.foldl (fun pages x => pages.insert x.1 x.2) contents.pages, rowLocations⟩

end Contents

/-! ## Records -/

variable (code) in
/-- The bytes at the location encode the page.  They lie behind the header and before `limit`. -/
def Recorded (file : Bytes) (limit : ℕ) (location : PageLocation) (page : π) : Prop :=
  headerSize ≤ location.offset ∧ location.offset + location.length ≤ limit ∧
    ∃ bytes, readAt file location.offset location.length = some bytes ∧
      code.decodePage bytes = .ok page

variable (code) in
/-- The index lists records of exactly these pages. -/
def Records (file : Bytes) (index : PageIndex) (limit : ℕ) (pages : BTreeMap PageID π) : Prop :=
  ∀ pageId : PageID, Option.Rel (Recorded code file limit) index[pageId]? pages[pageId]?

variable {file bytes : Bytes} {limit limit' : ℕ} {index : PageIndex} {pages : BTreeMap PageID π}
  {location : PageLocation} {page : π} {pageId : PageID} {rowLocations : RowLocationIndex}

/-- Nothing that is written behind the records or over the header changes them. -/
theorem Recorded.written (h : Recorded code file limit location page) (hle : limit ≤ limit')
    {offset : ℕ} (hoffset : limit ≤ offset ∨ offset + bytes.length ≤ headerSize) :
    Recorded code (writeAt file offset bytes) limit' location page := by
  obtain ⟨hheader, hlimit, read, hread, hdecode⟩ := h
  exact ⟨hheader, hlimit.trans hle, read, readAt_writeAt_disjoint hread (by omega), hdecode⟩

namespace Records

theorem empty : Records code file ∅ limit ∅ := fun pageId => by
  rw [Std.ExtTreeMap.getElem?_empty, Std.ExtTreeMap.getElem?_empty]
  exact Option.Rel.none

theorem written (h : Records code file index limit pages) (hle : limit ≤ limit') {offset : ℕ}
    (hoffset : limit ≤ offset ∨ offset + bytes.length ≤ headerSize) :
    Records code (writeAt file offset bytes) index limit' pages := by
  intro pageId
  have hpage := h pageId
  generalize index[pageId]? = location at hpage ⊢
  generalize pages[pageId]? = page at hpage ⊢
  cases hpage with
  | none => exact Option.Rel.none
  | some hr => exact Option.Rel.some (hr.written hle hoffset)

/-- A record is appended. -/
theorem append (h : Records code file index limit pages) (hheader : headerSize ≤ limit)
    (hlength : bytes.length < 2 ^ 32) (hdecode : code.decodePage bytes = .ok page) :
    Records code (writeAt file limit bytes) (index.insert pageId ⟨limit, bytes.length % 2 ^ 32⟩)
      (limit + bytes.length) (pages.insert pageId page) := by
  intro q
  rw [BTreeMap.get_insert, BTreeMap.get_insert]
  split_ifs with hq
  · refine Option.Rel.some ⟨hheader, ?_, bytes, ?_, hdecode⟩
    · exact Nat.add_le_add_left (Nat.mod_le _ _) _
    · rw [Nat.mod_eq_of_lt hlength]
      exact readAt_writeAt
  · exact (h.written (Nat.le_add_right _ _) (Or.inl le_rfl)) q

theorem keys (h : Records code file index limit pages) : index.keys = pages.keys :=
  BTreeMap.keys_congr fun pageId => by
    have hpage := h pageId
    generalize index[pageId]? = location at hpage ⊢
    generalize pages[pageId]? = page at hpage ⊢
    cases hpage <;> rfl

end Records

/-! ## Reading the header and the index -/

theorem header_length (header : PageFileHeader) : header.toBytes.length = headerSize := by
  simp [PageFileHeader.toBytes, length_leBytes, magic, headerSize]

theorem readExact_ok {offset length : ℕ} (h : readAt file offset length = some bytes) :
    PageFileHeader.readExact file offset length = .ok bytes := by
  rw [PageFileHeader.readExact, h]

/-- A header is read as it has been written. -/
theorem readFrom_ok {header : PageFileHeader}
    (h : readAt file 0 headerSize = some header.toBytes) (hindex : header.indexOffset < 2 ^ 64)
    (hlength : header.indexLength < 2 ^ 64) (happend : header.appendOffset < 2 ^ 64) :
    PageFileHeader.readFrom file = .ok (some header) := by
  rw [← header_length header] at h
  unfold PageFileHeader.toBytes at h
  obtain ⟨h, happendBytes⟩ := readAt_append h
  obtain ⟨h, hlengthBytes⟩ := readAt_append h
  obtain ⟨h, hindexBytes⟩ := readAt_append h
  obtain ⟨hmagic, hversion⟩ := readAt_append h
  simp only [List.length_append, length_leBytes, magic, List.length_cons, List.length_nil,
    Nat.zero_add, Nat.reduceAdd] at happendBytes hlengthBytes hindexBytes hmagic hversion
  unfold PageFileHeader.readFrom
  rw [magic, hmagic, if_pos rfl, readExact_ok hversion, readExact_ok hindexBytes,
    readExact_ok hlengthBytes, readExact_ok happendBytes]
  have h8 : ∀ n < 2 ^ 64, ofLeBytes (leBytes 8 n) = n := fun n hn =>
    ofLeBytes_of_lt (by norm_num at hn ⊢; exact hn)
  show Except.ok (some _) = _
  rw [h8 _ hindex, h8 _ hlength, h8 _ happend]

/-- A file that is finished with its index and its header. -/
theorem readHeaderAndIndex_finished (hcode : code.Lawful)
    (hindex : code.encodeIndex ⟨index, rowLocations⟩ = .ok bytes) (hheader : headerSize ≤ limit)
    (hmax : limit + bytes.length ≤ maxOffset) :
    PageStore.readHeaderAndIndex code (writeAt (writeAt file limit bytes) 0
        (PageFileHeader.toBytes ⟨limit, bytes.length, limit + bytes.length⟩)) =
      .ok (some (⟨limit, bytes.length, limit + bytes.length⟩, index, rowLocations)) := by
  set header : PageFileHeader := ⟨limit, bytes.length, limit + bytes.length⟩ with hdef
  have hmax64 : maxOffset < 2 ^ 64 := by norm_num [maxOffset]
  have hread : PageFileHeader.readFrom (writeAt (writeAt file limit bytes) 0 header.toBytes) =
      .ok (some header) := by
    refine readFrom_ok ?_ ?_ ?_ ?_
    · rw [← header_length header]
      exact readAt_writeAt
    · show limit < 2 ^ 64
      omega
    · show bytes.length < 2 ^ 64
      omega
    · show limit + bytes.length < 2 ^ 64
      omega
  have hne := hcode.index_ne_nil _ _ hindex
  have hbytes : PageStore.readIndexBytes (writeAt (writeAt file limit bytes) 0 header.toBytes) header =
      .ok bytes := by
    have hstay : readAt (writeAt (writeAt file limit bytes) 0 header.toBytes) limit bytes.length =
        some bytes :=
      readAt_writeAt_disjoint readAt_writeAt (Or.inr (by rw [header_length, Nat.zero_add]; exact hheader))
    rw [PageStore.readIndexBytes, if_neg (by simpa [hdef] using hne)]
    exact readExact_ok hstay
  unfold PageStore.readHeaderAndIndex
  rw [hread]
  show (PageStore.readIndexBytes _ header >>= _) = _
  rw [hbytes]
  show (PageStore.deserializeIndex code bytes >>= _) = _
  unfold PageStore.deserializeIndex
  rw [if_neg hne, hcode.index _ _ hindex]
  rfl

/-! ## Stores -/

/-- The bytes under a path, none if there is no file. -/
def World.content (w : World) (path : PathBuf) : Bytes := (w.files path).getD []

variable (code) in
/-- A new store reads the contents from the file. -/
def Persisted (content : Bytes) (contents : Contents π) : Prop :=
  (content = [] ∧ contents = .empty) ∨
    content ≠ [] ∧ ∃ (header : PageFileHeader) (index : PageIndex),
      PageStore.readHeaderAndIndex code content = .ok (some (header, index, contents.rowLocations)) ∧
      headerSize ≤ header.appendOffset ∧ Records code content index header.appendOffset contents.pages

variable (code) in
/-- The store knows what the file holds. -/
structure Tracks (content : Bytes) (state : PageStoreState) (contents : Contents π) : Prop where
  loaded : state.loaded = true
  header : headerSize ≤ state.appendOffset
  rowLocations : state.rowLocations = contents.rowLocations
  records : Records code content state.index state.appendOffset contents.pages

variable (code) in
/-- The file holds the contents, and the store knows it or has not looked. -/
structure Holds (w : World) (contents : Contents π) : Prop where
  persisted : Persisted code (w.content w.store.path) contents
  state : w.store.state = .default ∨ Tracks code (w.content w.store.path) w.store.state contents

variable {w w' : World} {contents : Contents π}

theorem Holds.reopened (h : Holds code w contents) : Holds code w.reopened contents :=
  ⟨h.persisted, Or.inl rfl⟩

theorem loadState_loaded (h : w.store.state.loaded = true) :
    PageStore.loadState code () w = (.ok (), w) := by
  unfold PageStore.loadState
  rw [get_bind, h]
  rfl

theorem loadState_blank (h : w.store.state.loaded = false) (hblank : w.content w.store.path = []) :
    PageStore.loadState code () w = (.ok (), w.withState (PageStore.blankState w.store.state)) := by
  unfold PageStore.loadState
  rw [get_bind, h, if_neg (by simp)]
  unfold World.content at hblank
  cases hfile : w.files w.store.path with
  | none => rfl
  | some file =>
    obtain rfl : file = [] := by simpa [hfile] using hblank
    rfl

theorem loadState_filed {header : PageFileHeader} (h : w.store.state.loaded = false)
    (hne : w.content w.store.path ≠ [])
    (hread : PageStore.readHeaderAndIndex code (w.content w.store.path) =
      .ok (some (header, index, rowLocations))) :
    PageStore.loadState code () w =
      (.ok (), w.withState (PageStore.populateState header index rowLocations)) := by
  unfold PageStore.loadState
  rw [get_bind, h, if_neg (by simp)]
  unfold World.content at hne hread
  cases hfile : w.files w.store.path with
  | none => simp [hfile] at hne
  | some file =>
    rw [hfile, Option.getD_some] at hread
    cases file with
    | nil => simp [hfile] at hne
    | cons byte file =>
      have hok : (ofExcept (PageStore.readHeaderAndIndex code (byte :: file)) : StoreM _) () w =
          (.ok (some (header, index, rowLocations)), w) := by
        rw [hread]
        rfl
      exact bind_ok hok

/-- A store that has looked at its file knows it. -/
theorem Holds.loadState (h : Holds code w contents) : ∃ state,
    PageStore.loadState code () w = (.ok (), w.withState state) ∧
      Tracks code (w.content w.store.path) state contents := by
  rcases h.state with hdefault | htracks
  · have hloaded : w.store.state.loaded = false := by rw [hdefault]; rfl
    rcases h.persisted with ⟨hblank, rfl⟩ | ⟨hne, header, index, hread, hheader, hrecords⟩
    · refine ⟨_, loadState_blank hloaded hblank, ?_⟩
      rw [hdefault]
      exact ⟨rfl, le_rfl, rfl, Records.empty⟩
    · exact ⟨_, loadState_filed hloaded hne hread, rfl, hheader, rfl, hrecords⟩
  · exact ⟨_, loadState_loaded htracks.loaded, htracks⟩

/-- Where there are pages there is a file. -/
theorem Holds.hasFile (h : Holds code w contents) (hpage : contents.pages[pageId]? = some page) :
    w.files w.store.path = some (w.content w.store.path) := by
  cases hfile : w.files w.store.path with
  | some file => rw [World.content, hfile]; rfl
  | none =>
    have hblank : w.content w.store.path = [] := by rw [World.content, hfile]; rfl
    rcases h.persisted with ⟨-, rfl⟩ | ⟨hne, -⟩
    · simp [Contents.empty] at hpage
    · exact absurd hblank hne

/-! ## Answers -/

theorem listPageIds_ok (h : Holds code w contents) :
    (PageStore.listPageIds code () w).1 = .ok contents.pages.keys := by
  obtain ⟨state, hload, htracks⟩ := h.loadState
  rw [← htracks.records.keys]
  unfold PageStore.listPageIds
  rw [bind_ok hload]
  rfl

theorem readRowLocations_ok (h : Holds code w contents) :
    (PageStore.readRowLocations code () w).1 = .ok contents.rowLocations := by
  obtain ⟨state, hload, htracks⟩ := h.loadState
  rw [← htracks.rowLocations]
  unfold PageStore.readRowLocations
  rw [bind_ok hload]
  rfl

theorem readPage_ok (h : Holds code w contents) (pageId : PageID) :
    (PageStore.readPage code pageId () w).1 = .ok contents.pages[pageId]? := by
  obtain ⟨state, hload, htracks⟩ := h.loadState
  have hrecord := htracks.records pageId
  have hfile := fun page => @Holds.hasFile π code page pageId w contents h
  unfold PageStore.readPage
  rw [bind_ok hload, get_bind]
  have hindex : (w.withState state).store.state.index = state.index := rfl
  rw [hindex]
  generalize state.index[pageId]? = location at hrecord ⊢
  generalize contents.pages[pageId]? = page at hrecord hfile ⊢
  cases hrecord with
  | none => rfl
  | @some location page hrecorded =>
    obtain ⟨hheader, -, bytes, hread, hdecode⟩ := hrecorded
    have hbytes : (ofExcept (PageStore.readPageBytes (w.content w.store.path) location) : StoreM Bytes)
        () (w.withState state) = (.ok bytes, w.withState state) := by
      rw [PageStore.readPageBytes, readExact_ok hread]
      rfl
    have hpage : (ofExcept ((code.decodePage bytes).mapError .deserializationError) : StoreM π) ()
        (w.withState state) = (.ok page, w.withState state) := by
      rw [hdecode]
      rfl
    have hfiles : (w.withState state).files (w.withState state).store.path =
        some (w.content w.store.path) := hfile page rfl
    dsimp only
    rw [hfiles]
    dsimp only
    rw [bind_ok hbytes, bind_ok hpage]
    rfl

/-! ## Writing -/

theorem writeFile_returned {path : PathBuf} {offset : ℕ}
    (h : PageStore.writeFile path offset bytes () w = (.ok (), w')) :
    offset + bytes.length ≤ maxOffset ∧
      w' = w.withFile path (some (writeAt (w.content path) offset bytes)) := by
  unfold PageStore.writeFile at h
  split_ifs at h with hmax
  · exact ⟨hmax, (Prod.mk.inj h).2.symm⟩
  · cases (Prod.mk.inj h).1

theorem ofExcept_returned {α : Type} {x : Except DataBaseErrors α} {a : α}
    (h : (ofExcept x : StoreM α) () w = (.ok a, w')) : x = .ok a ∧ w' = w :=
  ⟨(Prod.mk.inj h).1, (Prod.mk.inj h).2.symm⟩

theorem serialization_ok {x : Except String Bytes}
    (h : PageStore.serializationError x = .ok bytes) : x = .ok bytes := by
  cases x with
  | error e => cases h
  | ok read => exact congrArg _ (Except.ok.inj h)

@[simp] theorem content_withFile (path : PathBuf) (read : Bytes) :
    (w.withFile path (some read)).content path = read := by
  simp [World.content, World.withFile]

theorem openFile_store {path : PathBuf} (h : PageStore.openFile path () w = (.ok (), w')) :
    w'.store = w.store := by
  rw [← (Prod.mk.inj h).2]
  dsimp only
  split_ifs <;> rfl

theorem openFile_content {path : PathBuf} (h : PageStore.openFile path () w = (.ok (), w'))
    (other : PathBuf) : w'.content other = w.content other := by
  rw [← (Prod.mk.inj h).2]
  dsimp only
  split_ifs with hsome
  · rfl
  · by_cases ho : other = path
    · subst ho
      rw [content_withFile, World.content, Option.not_isSome_iff_eq_none.1 hsome]
      rfl
    · simp [World.content, World.withFile, Function.update_of_ne ho]

theorem renameFile_returned {source target : PathBuf}
    (h : PageStore.renameFile source target () w = (.ok (), w')) :
    w'.store = w.store ∧ w'.content target = w.content source := by
  rw [← (Prod.mk.inj h).2]
  dsimp only
  split_ifs with hsame
  · exact ⟨rfl, by rw [hsame]⟩
  · refine ⟨rfl, ?_⟩
    simp [World.content, World.withFile, Function.update_of_ne (Ne.symm hsame)]

/-- What a file is finished with: the index behind the records, and the header. -/
theorem finished (hcode : code.Lawful) (hrecords : Records code file index limit pages)
    (hheader : headerSize ≤ limit) (hindex : code.encodeIndex ⟨index, rowLocations⟩ = .ok bytes)
    (hmax : limit + bytes.length ≤ maxOffset) {finished : Bytes}
    (hfinished : finished = writeAt (writeAt file limit bytes) 0
      (PageFileHeader.toBytes ⟨limit, bytes.length, limit + bytes.length⟩)) :
    finished ≠ [] ∧
      PageStore.readHeaderAndIndex code finished =
        .ok (some (⟨limit, bytes.length, limit + bytes.length⟩, index, rowLocations)) ∧
      Records code finished index (limit + bytes.length) pages := by
  have hread := @readHeaderAndIndex_finished π code file bytes limit index rowLocations hcode hindex
    hheader hmax
  rw [← hfinished] at hread
  refine ⟨fun hnil => ?_, hread, ?_⟩
  · rw [hnil] at hread
    cases hread
  · rw [hfinished]
    refine (hrecords.written (Nat.le_add_right _ _) (Or.inl le_rfl)).written le_rfl (Or.inr ?_)
    rw [header_length, Nat.zero_add]

section Compact

variable {α : Type} {serialize : α → Except DataBaseErrors Bytes}
  {enter : BTreeMap PageID π → PageID × α → BTreeMap PageID π} {entries : List (PageID × α)}
  {path tmpPath : PathBuf}

variable (code) in
/-- An entry is serialized to the bytes of the page that `enter` enters. -/
def Entered (serialize : α → Except DataBaseErrors Bytes)
    (enter : BTreeMap PageID π → PageID × α → BTreeMap PageID π) (x : PageID × α) : Prop :=
  ∀ bytes, serialize x.2 = .ok bytes → bytes.length < 2 ^ 32 ∧
    ∃ page, code.decodePage bytes = .ok page ∧ ∀ pages, enter pages x = pages.insert x.1 page

/-- The pages are written one behind the other. -/
theorem writePages_returned (hentries : ∀ x ∈ entries, Entered code serialize enter x)
    {acc acc' : ℕ × PageIndex}
    (h : (entries.foldlM (fun (acc : ℕ × PageIndex) x => do
        let pageBytes ← ofExcept (serialize x.2)
        PageStore.writeFile tmpPath acc.1 pageBytes
        return (acc.1 + pageBytes.length, acc.2.insert x.1 ⟨acc.1, pageBytes.length % 2 ^ 32⟩)) acc :
          StoreM (ℕ × PageIndex)) () w = (.ok acc', w'))
    (hrecords : Records code (w.content tmpPath) acc.2 acc.1 pages) (hheader : headerSize ≤ acc.1) :
    Records code (w'.content tmpPath) acc'.2 acc'.1 (entries.foldl enter pages) ∧
      headerSize ≤ acc'.1 ∧ w'.store = w.store := by
  induction entries generalizing acc w pages with
  | nil =>
    obtain ⟨hacc, rfl⟩ := Prod.mk.inj h
    obtain rfl := Except.ok.inj hacc
    exact ⟨hrecords, hheader, rfl⟩
  | cons x entries ih =>
    rw [List.foldlM_cons] at h
    obtain ⟨acc₁, w₁, hround, hrest⟩ := bind_returned h
    obtain ⟨bytes, w₂, hserialize, hround₁⟩ := bind_returned hround
    obtain ⟨hbytes, rfl⟩ := ofExcept_returned hserialize
    obtain ⟨_, w₃, hwrite, hround₂⟩ := bind_returned hround₁
    obtain ⟨-, rfl⟩ := writeFile_returned hwrite
    obtain ⟨hacc, rfl⟩ := Prod.mk.inj hround₂
    obtain rfl := Except.ok.inj hacc
    obtain ⟨hlength, page, hdecode, henter⟩ := hentries x (by simp) bytes hbytes
    obtain ⟨hrecords', hheader', hstore⟩ := ih (fun y hy => hentries y (List.mem_cons_of_mem _ hy)) hrest
      (by
        rw [content_withFile]
        exact hrecords.append hheader hlength hdecode) (hheader.trans (Nat.le_add_right _ _))
    rw [List.foldl_cons, henter]
    exact ⟨hrecords', hheader', hstore⟩

/-- The page file is replaced by a new one. -/
theorem writeCompact_returned (hcode : code.Lawful)
    (hentries : ∀ x ∈ entries, Entered code serialize enter x) {header : PageFileHeader}
    {rowLocations' : RowLocationIndex}
    (h : PageStore.writeCompact code serialize path entries rowLocations () w =
      (.ok (header, index, rowLocations'), w')) :
    rowLocations' = rowLocations ∧ w'.store = w.store ∧ w'.content path ≠ [] ∧
      PageStore.readHeaderAndIndex code (w'.content path) = .ok (some (header, index, rowLocations)) ∧
      headerSize ≤ header.appendOffset ∧
      Records code (w'.content path) index header.appendOffset (entries.foldl enter ∅) := by
  unfold PageStore.writeCompact at h
  dsimp only at h
  generalize path.withExtension "tmp" = tmpPath at h
  obtain ⟨_, w₁, hopen, h₁⟩ := bind_returned h
  obtain ⟨_, w₂, hblank, h₂⟩ := bind_returned h₁
  obtain ⟨acc, w₃, hpages, h₃⟩ := bind_returned h₂
  obtain ⟨bytes, w₄, hserialize, h₄⟩ := bind_returned h₃
  obtain ⟨_, w₅, hwriteIndex, h₅⟩ := bind_returned h₄
  obtain ⟨_, w₆, hwriteHeader, h₆⟩ := bind_returned h₅
  obtain ⟨_, w₇, hrename, h₇⟩ := bind_returned h₆
  clear h h₁ h₂ h₃ h₄ h₅ h₆
  obtain ⟨hresult, rfl⟩ := Prod.mk.inj h₇
  obtain ⟨rfl, hindex', rfl⟩ : _ = header ∧ acc.2 = index ∧ rowLocations = rowLocations' := by
    obtain ⟨hheader, hrest⟩ := Prod.mk.inj (Except.ok.inj hresult)
    exact ⟨hheader, Prod.mk.inj hrest⟩
  have hstoreOpen : w₁.store = w.store := openFile_store hopen
  obtain ⟨-, rfl⟩ := writeFile_returned hblank
  obtain ⟨hrecords, hheader, hstore⟩ := writePages_returned hentries hpages Records.empty le_rfl
  obtain ⟨hbytes, rfl⟩ := ofExcept_returned hserialize
  obtain ⟨hmax, rfl⟩ := writeFile_returned hwriteIndex
  obtain ⟨-, rfl⟩ := writeFile_returned hwriteHeader
  rw [content_withFile] at hrename
  rw [hindex'] at hrecords hbytes
  obtain ⟨hne, hread, hrecords'⟩ :=
    finished hcode hrecords hheader (serialization_ok hbytes) hmax rfl
  obtain ⟨hstoreRename, hcontent⟩ := renameFile_returned hrename
  rw [content_withFile] at hcontent
  rw [hcontent]
  refine ⟨rfl, hstoreRename.trans (hstore.trans hstoreOpen), hne, hread, ?_, hrecords'⟩
  exact hheader.trans (Nat.le_add_right _ _)

end Compact

theorem loadState_returned (h : PageStore.loadState code () w = (.ok (), w')) :
    ∃ state, w' = w.withState state := by
  cases hloaded : w.store.state.loaded with
  | true =>
    rw [loadState_loaded hloaded] at h
    exact ⟨w.store.state, (Prod.mk.inj h).2.symm⟩
  | false =>
    by_cases hblank : w.content w.store.path = []
    · rw [loadState_blank hloaded hblank] at h
      exact ⟨_, (Prod.mk.inj h).2.symm⟩
    · unfold PageStore.loadState at h
      rw [get_bind, hloaded, if_neg (by simp)] at h
      cases hfile : w.files w.store.path with
      | none => simp [World.content, hfile] at hblank
      | some file =>
        cases file with
        | nil => simp [World.content, hfile] at hblank
        | cons byte file =>
          rw [hfile] at h
          dsimp only at h
          obtain ⟨read, w₁, hread, h⟩ := bind_returned h
          obtain ⟨-, rfl⟩ := ofExcept_returned hread
          cases read with
          | none => cases h
          | some read => exact ⟨_, (Prod.mk.inj h).2.symm⟩

/-- The state of a store after its file has been finished. -/
theorem holds_populated {header : PageFileHeader} (hstate : w.store.state =
      PageStore.populateState header index rowLocations) (hne : w.content w.store.path ≠ [])
    (hread : PageStore.readHeaderAndIndex code (w.content w.store.path) =
      .ok (some (header, index, rowLocations)))
    (hheader : headerSize ≤ header.appendOffset)
    (hrecords : Records code (w.content w.store.path) index header.appendOffset pages) :
    Holds code w ⟨pages, rowLocations⟩ where
  persisted := Or.inr ⟨hne, header, index, hread, hheader, hrecords⟩
  state := Or.inr (hstate ▸ ⟨rfl, hheader, rfl, hrecords⟩)

section

variable {w₁ w₂ : World}

/-- Whatever the store was before, it holds the pages that have been written. -/
theorem replaced {α : Type} {serialize : α → Except DataBaseErrors Bytes}
    {enter : BTreeMap PageID π → PageID × α → BTreeMap PageID π} {entries : List (PageID × α)}
    {header : PageFileHeader} {rowLocations' : RowLocationIndex} (hcode : code.Lawful)
    (hentries : ∀ x ∈ entries, Entered code serialize enter x)
    (hcompact : PageStore.writeCompact code serialize w.store.path entries rowLocations () w =
      (.ok (header, index, rowLocations'), w₁))
    (hload : PageStore.loadState code () w₁ = (.ok (), w₂)) :
    Holds code (w₂.withState (PageStore.populateState header index rowLocations'))
      ⟨entries.foldl enter ∅, rowLocations⟩ := by
  obtain ⟨rfl, hstore, hne, hread, hheader, hrecords⟩ := writeCompact_returned hcode hentries hcompact
  obtain ⟨state, rfl⟩ := loadState_returned hload
  rw [← hstore] at hne hread hrecords
  exact holds_populated rfl hne hread hheader hrecords

theorem writeAll_returned {pages : BTreeMap PageID π} (hcode : code.Lawful)
    (hsized : (StoreCall.writeAll pages rowLocations).Sized code)
    (h : PageStore.writeAll code pages rowLocations () w = (.ok (), w')) :
    Holds code w' ⟨pages, rowLocations⟩ := by
  unfold PageStore.writeAll at h
  rw [get_bind] at h
  obtain ⟨⟨header, index, rowLocations'⟩, w₁, hcompact, h₁⟩ := bind_returned h
  obtain ⟨_, w₂, hload, h₂⟩ := bind_returned h₁
  rw [← (Prod.mk.inj h₂).2]
  have hentries : ∀ x ∈ pages.toList, Entered code
      (fun page => PageStore.serializationError (code.encodePage page))
      (fun pages x => pages.insert x.1 x.2) x := fun x hx bytes hbytes =>
    have hbytes := serialization_ok hbytes
    ⟨hsized x hx bytes hbytes, x.2, hcode.page _ _ hbytes, fun _ => rfl⟩
  have hholds := replaced hcode hentries hcompact hload
  rwa [BTreeMap.foldl_insert_empty] at hholds

theorem writeAllSerialized_returned {pages : List (PageID × Bytes)} (hcode : code.Lawful)
    (hsized : (StoreCall.writeAllSerialized pages rowLocations : StoreCall π).Sized code)
    (h : PageStore.writeAllSerialized code pages rowLocations () w = (.ok (), w')) :
    Holds code w' ⟨pages.foldl (Contents.enterBytes code) ∅, rowLocations⟩ := by
  unfold PageStore.writeAllSerialized at h
  rw [get_bind] at h
  obtain ⟨⟨header, index, rowLocations'⟩, w₁, hcompact, h₁⟩ := bind_returned h
  obtain ⟨_, w₂, hload, h₂⟩ := bind_returned h₁
  rw [← (Prod.mk.inj h₂).2]
  have hentries : ∀ x ∈ pages, Entered code .ok (Contents.enterBytes code) x := fun x hx bytes hbytes => by
    obtain rfl := Except.ok.inj hbytes
    obtain ⟨hlength, page, hdecode⟩ := hsized x hx
    exact ⟨hlength, page, hdecode, fun _ => by rw [Contents.enterBytes, hdecode]⟩
  exact replaced hcode hentries hcompact hload

/-! ## Merging -/

/-- The pages are appended, and entered into the state. -/
theorem appendPages_returned (hcode : code.Lawful) {updates : List (PageID × π)} {path : PathBuf}
    (hsized : ∀ x ∈ updates, ∀ bytes, code.encodePage x.2 = .ok bytes → bytes.length < 2 ^ 32)
    {offset offset' : ℕ}
    (h : (updates.foldlM (fun appendOffset x => do
        let pageBytes ← ofExcept (PageStore.serializationError (code.encodePage x.2))
        PageStore.writeFile path appendOffset pageBytes
        PageStore.enterRecord x.1 ⟨appendOffset, pageBytes.length % 2 ^ 32⟩
        return appendOffset + pageBytes.length) offset : StoreM ℕ) () w = (.ok offset', w'))
    (hrecords : Records code (w.content path) w.store.state.index offset pages)
    (hheader : headerSize ≤ offset) :
    Records code (w'.content path) w'.store.state.index offset'
        (updates.foldl (fun pages x => pages.insert x.1 x.2) pages) ∧
      headerSize ≤ offset' ∧ w'.store.path = w.store.path := by
  induction updates generalizing offset w pages with
  | nil =>
    obtain ⟨hoffset, rfl⟩ := Prod.mk.inj h
    obtain rfl := Except.ok.inj hoffset
    exact ⟨hrecords, hheader, rfl⟩
  | cons x updates ih =>
    rw [List.foldlM_cons] at h
    obtain ⟨offset₁, w₁, hround, hrest⟩ := bind_returned h
    obtain ⟨bytes, w₂, hserialize, hround₁⟩ := bind_returned hround
    obtain ⟨hbytes, rfl⟩ := ofExcept_returned hserialize
    obtain ⟨_, w₃, hwrite, hround₂⟩ := bind_returned hround₁
    obtain ⟨-, rfl⟩ := writeFile_returned hwrite
    obtain ⟨_, w₄, henter, hround₃⟩ := bind_returned hround₂
    obtain rfl := (Prod.mk.inj henter).2
    obtain ⟨hoffset, rfl⟩ := Prod.mk.inj hround₃
    obtain rfl := Except.ok.inj hoffset
    have hbytes := serialization_ok hbytes
    have happend : Records code (writeAt (w₂.content path) offset bytes)
        (w₂.store.state.index.insert x.1 ⟨offset, bytes.length % 2 ^ 32⟩) (offset + bytes.length)
        (pages.insert x.1 x.2) :=
      hrecords.append hheader (hsized x (by simp) bytes hbytes) (hcode.page _ _ hbytes)
    obtain ⟨hrecords', hheader', hpath⟩ := ih (fun y hy => hsized y (List.mem_cons_of_mem _ hy)) hrest
      ((congrArg (fun file => Records code file _ _ _) (content_withFile path _)).mpr happend)
      (hheader.trans (Nat.le_add_right _ _))
    exact ⟨hrecords', hheader', hpath⟩

theorem mergePages_returned (hcode : code.Lawful) {updates : BTreeMap PageID π}
    (hsized : (StoreCall.mergePages updates rowLocations).Sized code) (hholds : Holds code w contents)
    (h : PageStore.mergePages code updates rowLocations () w = (.ok (), w')) :
    Holds code w' (contents.apply code (.mergePages updates rowLocations)) := by
  unfold PageStore.mergePages at h
  show Holds code w' (if updates.isEmpty then contents else _)
  split_ifs at h ⊢ with hempty
  · rwa [← (Prod.mk.inj h).2]
  rw [get_bind] at h
  obtain ⟨_, w₁, hopen, h₁⟩ := bind_returned h
  have hstore := openFile_store hopen
  have hopened : Holds code w₁ contents :=
    ⟨by rw [hstore, openFile_content hopen]; exact hholds.persisted,
      by rw [hstore, openFile_content hopen]; exact hholds.state⟩
  obtain ⟨state, hload, htracks⟩ := hopened.loadState
  rw [bind_ok hload, get_bind] at h₁
  have hoffset : max (w₁.withState state).store.state.appendOffset headerSize = state.appendOffset :=
    max_eq_left htracks.header
  rw [hoffset] at h₁
  obtain ⟨offset, w₂, hpages, h₂⟩ := bind_returned h₁
  obtain ⟨hrecords, hheader, hpath⟩ := appendPages_returned hcode hsized hpages
    (by rw [← hstore]; exact htracks.records) htracks.header
  rw [modify_bind, get_bind] at h₂
  obtain ⟨bytes, w₃, hserialize, h₃⟩ := bind_returned h₂
  obtain ⟨hbytes, rfl⟩ := ofExcept_returned hserialize
  obtain ⟨_, w₄, hwriteIndex, h₄⟩ := bind_returned h₃
  obtain ⟨hmax, rfl⟩ := writeFile_returned hwriteIndex
  obtain ⟨_, w₅, hwriteHeader, h₅⟩ := bind_returned h₄
  obtain ⟨-, rfl⟩ := writeFile_returned hwriteHeader
  rw [content_withFile] at h₅
  have hpath' : w₂.store.path = w.store.path := by rw [hpath, ← hstore]; rfl
  obtain ⟨hne, hread, hrecords'⟩ := finished hcode hrecords hheader (serialization_ok hbytes) hmax rfl
  have hfinal := (Prod.mk.inj h₅).2
  have hpathFinal : w'.store.path = w.store.path := by rw [← hfinal]; exact hpath'
  have hcontent : w'.content w'.store.path = writeAt (writeAt (w₂.content w.store.path) offset bytes) 0
      (PageFileHeader.toBytes ⟨offset, bytes.length, offset + bytes.length⟩) := by
    rw [hpathFinal, ← hfinal]
    exact content_withFile _ _
  rw [← hcontent] at hne hread hrecords'
  exact holds_populated (by rw [← hfinal]; rfl) hne hread (hheader.trans (Nat.le_add_right _ _))
    hrecords'

theorem mergePage_returned (hcode : code.Lawful)
    (hsized : (StoreCall.mergePage pageId page rowLocations).Sized code) (hholds : Holds code w contents)
    (h : PageStore.mergePage code pageId page rowLocations () w = (.ok (), w')) :
    Holds code w' (contents.apply code (.mergePage pageId page rowLocations)) := by
  have hlist : ((∅ : BTreeMap PageID π).insert pageId page).toList = [(pageId, page)] := by
    have hlength : ((∅ : BTreeMap PageID π).insert pageId page).toList.length = 1 := by
      rw [Std.ExtTreeMap.length_toList, Std.ExtTreeMap.size_insert]
      simp
    obtain ⟨x, hx⟩ := List.length_eq_one_iff.1 hlength
    have hmem : x ∈ ((∅ : BTreeMap PageID π).insert pageId page).toList := by rw [hx]; simp
    rw [BTreeMap.mem_toList, BTreeMap.get_insert] at hmem
    split_ifs at hmem with hid
    · rw [hx, hid, Option.some.inj hmem]
    · simp at hmem
  have hmerged := mergePages_returned hcode (fun x hx => by
    rw [hlist, List.mem_singleton] at hx
    rw [hx]
    exact hsized) hholds h
  have hne : ((∅ : BTreeMap PageID π).insert pageId page).isEmpty = false := by simp
  have happly : contents.apply code (.mergePages (Std.ExtTreeMap.insert ∅ pageId page) rowLocations) =
      contents.apply code (.mergePage pageId page rowLocations) := by
    simp only [Contents.apply]
    rw [hne, hlist]
    rfl
  rwa [happly] at hmerged

end

/-! ## Runs -/

/-- A call that succeeds does to the file what it does to the map. -/
theorem Holds.step (hcode : code.Lawful) {call : StoreCall π} (hholds : Holds code w contents)
    (hok : (call.run code () w).1 = .ok ()) (hsized : call.Sized code) :
    Holds code (call.step code w) (contents.apply code call) := by
  have h : call.run code () w = (.ok (), call.step code w) := Prod.ext hok rfl
  cases call with
  | writeAll pages rowLocations => exact writeAll_returned hcode hsized h
  | writeAllSerialized pages rowLocations => exact writeAllSerialized_returned hcode hsized h
  | mergePage pageId page rowLocations => exact mergePage_returned hcode hsized hholds h
  | mergePages updates rowLocations => exact mergePages_returned hcode hsized hholds h

/-- Every call of the run succeeds. -/
def Succeeds (code : Bincode π) (w : World) (calls : List (StoreCall π)) : Prop :=
  Runs.Each (StoreCall.step code) (fun w call => (call.run code () w).1 = .ok () ∧ call.Sized code) w
    calls

theorem Holds.run (hcode : code.Lawful) {calls : List (StoreCall π)} (hholds : Holds code w contents)
    (hcalls : Succeeds code w calls) :
    Holds code (Runs.exec (StoreCall.step code) w calls) (calls.foldl (Contents.apply code) contents) := by
  induction calls generalizing w contents with
  | nil => exact hholds
  | cons call calls ih => exact ih (hholds.step hcode hcalls.1.1 hcalls.1.2) hcalls.2

/-- **The page file is a map of pages**: after any calls that succeed, on a path where there was
    nothing before, the store and every new store on its path answer with what the calls make of
    the empty map. -/
theorem page_file_is_map (hcode : code.Lawful) {path : PathBuf} {files : FileSystem}
    (hblank : files path = none ∨ files path = some []) {calls : List (StoreCall π)}
    (hcalls : Succeeds code ⟨.new path, files⟩ calls) :
    ∀ w ∈ [Runs.exec (StoreCall.step code) ⟨.new path, files⟩ calls,
      (Runs.exec (StoreCall.step code) ⟨.new path, files⟩ calls).reopened],
      (∀ pageId, (PageStore.readPage code pageId () w).1 =
        .ok (calls.foldl (Contents.apply code) .empty).pages[pageId]?) ∧
      (PageStore.listPageIds code () w).1 =
        .ok (calls.foldl (Contents.apply code) .empty).pages.keys ∧
      (PageStore.readRowLocations code () w).1 =
        .ok (calls.foldl (Contents.apply code) .empty).rowLocations := by
  have hstart : Holds code ⟨.new path, files⟩ .empty := by
    refine ⟨Or.inl ⟨?_, rfl⟩, Or.inl rfl⟩
    show (files path).getD [] = []
    rcases hblank with h | h <;> rw [h] <;> rfl
  have hrun := hstart.run hcode hcalls
  intro w hw
  have hholds : Holds code w (calls.foldl (Contents.apply code) .empty) := by
    rcases List.mem_pair.1 hw with rfl | rfl
    · exact hrun
    · exact hrun.reopened
  exact ⟨fun pageId => readPage_ok hholds pageId, listPageIds_ok hholds, readRowLocations_ok hholds⟩

/-- A path without a file. -/
def newTable : World := ⟨.new ⟨"data", "main-t"⟩, fun _ => none⟩

theorem page_file_is_map_newTable :
    let calls : List (StoreCall Page) := [.mergePage 1 (.new 1 4096) (.ofList [(10, 1)] compare),
      .writeAll (.ofList [(2, .new 2 4096)] compare) (.ofList [(11, 2)] compare),
      .mergePages (.ofList [(1, .new 1 8192), (2, .new 2 8192)] compare) (.ofList [(11, 1)] compare)]
    ∀ w ∈ [Runs.exec (StoreCall.step newPages) newTable calls,
      (Runs.exec (StoreCall.step newPages) newTable calls).reopened],
      (∀ pageId, (PageStore.readPage newPages pageId () w).1 =
        .ok (calls.foldl (Contents.apply newPages) .empty).pages[pageId]?) ∧
      (PageStore.listPageIds newPages () w).1 =
        .ok (calls.foldl (Contents.apply newPages) .empty).pages.keys ∧
      (PageStore.readRowLocations newPages () w).1 =
        .ok (calls.foldl (Contents.apply newPages) .empty).rowLocations := by
  intro calls
  refine page_file_is_map newPages_lawful (Or.inl rfl) ⟨⟨?_, ?_⟩, ⟨?_, ?_⟩, ⟨?_, ?_⟩, trivial⟩
  · decide +kernel
  · exact fun bytes => length_newPages
  · decide +kernel
  · exact fun x _ bytes => length_newPages
  · decide +kernel
  · exact fun x _ bytes => length_newPages

/-- A merge of no pages leaves the row map as it is. -/
theorem merge_of_no_pages :
    let calls : List (StoreCall Page) := [.mergePage 1 (.new 1 4096) (.ofList [(10, 1)] compare),
      .mergePages ∅ (.ofList [(10, 1), (11, 1)] compare)]
    Succeeds newPages newTable calls ∧
      (PageStore.readRowLocations newPages () (Runs.exec (StoreCall.step newPages) newTable calls)).1 =
        .ok (.ofList [(10, 1)] compare) ∧
      (PageStore.readRowLocations newPages () (Runs.exec (StoreCall.step newPages) newTable calls)).1 ≠
        .ok (.ofList [(10, 1), (11, 1)] compare) := by
  intro calls
  refine ⟨⟨⟨?_, ?_⟩, ⟨?_, ?_⟩, trivial⟩, ?_, ?_⟩
  · decide +kernel
  · exact fun bytes => length_newPages
  · decide +kernel
  · exact fun x _ bytes => length_newPages
  · decide +kernel
  · decide +kernel

/-! ## The page file of a table -/

/-- The page file that the tables are modelled with has these contents. -/
def Represents (store : AntDb.PageStore) (contents : Contents Page) : Prop :=
  (∀ pageId, contents.pages[pageId]? = store.pages.get? pageId) ∧
    contents.rowLocations = store.rowLocations

variable {store store₁ store' : AntDb.PageStore} {contents : Contents Page} {code : Bincode Page}
  {rowLocations : RowLocationIndex}

theorem writing_returned (h : store.writing store₁ = .ok store') : store' = store₁ := by
  unfold AntDb.PageStore.writing at h
  split at h
  · cases h
  · exact (Except.ok.inj h).symm

namespace Represents

theorem mergePage {page : Page} (h : Represents store contents)
    (hmerge : store.mergePage page rowLocations = .ok store') :
    Represents store' (contents.apply code (.mergePage page.pageId page rowLocations)) := by
  obtain rfl := writing_returned hmerge
  refine ⟨fun pageId => ?_, rfl⟩
  show (contents.pages.insert page.pageId page)[pageId]? = (store.pages.insert page).get? pageId
  rw [BTreeMap.get_insert, PageMap.get?_insert, h.1]

theorem writeAll {pages : List Page} {entries : List (PageID × Bytes)}
    (hentries : List.Forall₂ (fun page x => x.1 = page.pageId ∧ code.decodePage x.2 = .ok page) pages
      entries)
    (hwrite : store.writeAll pages rowLocations = .ok store') :
    Represents store' (contents.apply code (.writeAllSerialized entries rowLocations)) := by
  obtain rfl := writing_returned hwrite
  refine ⟨?_, rfl⟩
  show ∀ pageId : PageID, (entries.foldl (Contents.enterBytes code) ∅)[pageId]? =
    (pages.foldl PageMap.insert .empty).get? pageId
  suffices hfold : ∀ (own : BTreeMap PageID Page) (known : PageMap),
      (∀ pageId : PageID, own[pageId]? = known.get? pageId) → ∀ pageId : PageID,
        (entries.foldl (Contents.enterBytes code) own)[pageId]? =
          (pages.foldl PageMap.insert known).get? pageId from
    hfold ∅ .empty fun pageId => by simp
  clear hwrite
  induction hentries with
  | nil => exact fun _ _ h => h
  | @cons page x pages entries hx _ ih =>
    intro own known h
    refine ih _ _ fun pageId => ?_
    rw [Contents.enterBytes, hx.2]
    dsimp only
    rw [BTreeMap.get_insert, PageMap.get?_insert, hx.1, h]

/-- **The page file answers as the one the tables are modelled with**, while the file system reports
    no error. -/
theorem answers (h : Represents store contents) (hfault : store.readFault = none) {w : World}
    (hholds : Holds code w contents) :
    (∀ pageId, (PageStore.readPage code pageId () w).1 = store.readPage pageId) ∧
      (PageStore.listPageIds code () w).1 = store.listPageIds ∧
      (PageStore.readRowLocations code () w).1 = store.readRowLocations := by
  have hkeys : contents.pages.keys = store.pages.keys :=
    BTreeMap.keys_congr fun pageId => congrArg Option.isSome (h.1 pageId)
  refine ⟨fun pageId => ?_, ?_, ?_⟩
  · rw [readPage_ok hholds, h.1, AntDb.PageStore.readPage, AntDb.PageStore.reading, hfault]
  · rw [listPageIds_ok hholds, hkeys, AntDb.PageStore.listPageIds, AntDb.PageStore.reading, hfault]
  · rw [readRowLocations_ok hholds, h.2, AntDb.PageStore.readRowLocations, AntDb.PageStore.reading,
      hfault]

end Represents

end AntDb.Disk
