/-
  Merges that fail.

  `merge_pages` appends the pages to the file one after another and enters each into the
  cached index at once; the row map and the index follow, and the header last.  `progress`
  is what a merge has written and entered by the time it stops, and `mergePagesWith_cases`
  says how it ends.
-/
import AntDb.Persisting

namespace AntDb.Disk

open Call Files

variable {π : Type} {code : Bincode π}

/-- The errors of the steps of a merge in front of its header, with the number of bytes that a
    write has written by then. -/
structure MergeFaults where
  /-- of creating the directory or opening the file -/
  opening : Option DataBaseErrors
  /-- of reading the header and the index, when they are read -/
  loading : Option DataBaseErrors
  /-- of seeking to the place of a page or writing it -/
  page : PageID → Option (ℕ × DataBaseErrors)
  /-- of seeking to the place of the index or writing it, or seeking to the header -/
  index : Option (ℕ × DataBaseErrors)

def MergeFaults.none : MergeFaults := ⟨.none, .none, fun _ => .none, .none⟩

namespace PageStore

variable (code)

def failIf : Option DataBaseErrors → StoreM Unit
  | some e => Call.fail e
  | none => return ()

def loadStateWith (fault : Option DataBaseErrors) : StoreM Unit := do
  if (← get).store.state.loaded then return ()
  else
    failIf fault
    loadState code

def writeFileWith (fault : Option (ℕ × DataBaseErrors)) (path : PathBuf) (offset : ℕ)
    (bytes : Bytes) : StoreM Unit :=
  match fault with
  | none => writeFile path offset bytes
  | some (written, e) => do
    modify fun w =>
      w.withFile path (some (writeAt ((w.files path).getD []) offset (bytes.take written)))
    Call.fail e

def appendPageWith (faults : MergeFaults) (path : PathBuf) (appendOffset : ℕ) (x : PageID × π) :
    StoreM ℕ := do
  let pageBytes ← ofExcept (serializationError (code.encodePage x.2))
  writeFileWith (faults.page x.1) path appendOffset pageBytes
  enterRecord x.1 ⟨appendOffset, pageBytes.length % 2 ^ 32⟩
  return appendOffset + pageBytes.length

/-- What follows the pages: the row map, the index and the header. -/
def finishMergeWith (faults : MergeFaults) (path : PathBuf) (rowLocations : RowLocationIndex)
    (appendOffset : ℕ) : StoreM Unit := do
  modify fun w => w.withState { w.store.state with rowLocations := rowLocations }
  let state := (← get).store.state
  let indexBytes ← ofExcept
    (serializationError (code.encodeIndex ⟨state.index, state.rowLocations⟩))
  writeFileWith faults.index path appendOffset indexBytes
  let header : PageFileHeader := ⟨appendOffset, indexBytes.length, appendOffset + indexBytes.length⟩
  writeFile path 0 header.toBytes
  modify fun w => w.withState (populateState header w.store.state.index w.store.state.rowLocations)

/-- `merge_pages`, with the errors it meets. -/
def mergePagesWith (faults : MergeFaults) (updates : BTreeMap PageID π)
    (rowLocations : RowLocationIndex) : StoreM Unit := do
  if updates.isEmpty then return ()
  else
    let path := (← get).store.path
    failIf faults.opening
    openFile path
    loadStateWith code faults.loading
    let appendOffset := max (← get).store.state.appendOffset headerSize
    let appendOffset ← updates.toList.foldlM (appendPageWith code faults path) appendOffset
    finishMergeWith code faults path rowLocations appendOffset

theorem pass_bind {α : Type} {f : Unit → StoreM α} {w : World} :
    (failIf none >>= f) () w = f () () w := rfl

/-- Without faults it is the merge. -/
theorem mergePagesWith_none {updates : BTreeMap PageID π} {rowLocations : RowLocationIndex} :
    mergePagesWith code .none updates rowLocations = mergePages code updates rowLocations := by
  have hload : loadStateWith code MergeFaults.none.loading = loadState code := by
    funext env w
    unfold loadStateWith
    rw [get_bind]
    cases hloaded : w.store.state.loaded with
    | true => exact (loadState_loaded hloaded).symm
    | false => rfl
  unfold mergePagesWith mergePages
  rw [hload]
  rfl

end PageStore

/-! ## What a merge has done by the time it stops -/

/-- The pages entered into the index with their places, the bytes behind the append offset, and
    whether all pages are written. -/
structure Progress (π : Type) where
  entered : List (PageID × π × PageLocation)
  bytes : Bytes
  complete : Bool

variable (code) in
/-- The pages are written from `offset` on until one of them cannot be. -/
def progress (faults : MergeFaults) : ℕ → List (PageID × π) → Progress π
  | _, [] => ⟨[], [], true⟩
  | offset, x :: rest =>
    match code.encodePage x.2, faults.page x.1 with
    | .error _, _ => ⟨[], [], false⟩
    | .ok bytes, some (written, _) => ⟨[], bytes.take written, false⟩
    | .ok bytes, none =>
      if offset + bytes.length ≤ maxOffset then
        let next := progress faults (offset + bytes.length) rest
        ⟨(x.1, x.2, ⟨offset, bytes.length % 2 ^ 32⟩) :: next.entered, bytes ++ next.bytes,
          next.complete⟩
      else ⟨[], [], false⟩

variable (code) in
/-- What is written of the index when it is not written as a whole. -/
def indexWritten (faults : MergeFaults) (disk : DiskIndex) : Bytes :=
  match code.encodeIndex disk, faults.index with
  | .ok bytes, some (written, _) => bytes.take written
  | _, _ => []

def Progress.index (p : Progress π) (index : PageIndex) : PageIndex :=
  p.entered.foldl (fun index x => index.insert x.1 x.2.2) index

namespace World

/-- The world with another state of the store and another page file. -/
def stopped (w : World) (state : PageStoreState) (file : Bytes) : World :=
  { store := { w.store with state := state }
    files := Function.update w.files w.store.path (some file) }

/-- The world when the file has been opened. -/
def opened (w : World) : World := w.stopped w.store.state (w.content w.store.path)

variable {w : World} {state state' : PageStoreState} {file file' : Bytes}

@[simp] theorem stopped_path : (w.stopped state file).store.path = w.store.path := rfl

@[simp] theorem stopped_state : (w.stopped state file).store.state = state := rfl

@[simp] theorem stopped_content : (w.stopped state file).content w.store.path = file := by
  simp [content, stopped]

@[simp] theorem stopped_stopped : (w.stopped state file).stopped state' file' = w.stopped state' file' := by
  simp [stopped]

theorem withState_stopped : (w.stopped state file).withState state' = w.stopped state' file := rfl

theorem withFile_stopped :
    (w.stopped state file).withFile w.store.path (some file') = w.stopped state file' := by
  simp [stopped, withFile]

/-- A world whose page file exists. -/
theorem stopped_self (h : (w.files w.store.path).isSome) :
    w.stopped w.store.state (w.content w.store.path) = w := by
  obtain ⟨file, hfile⟩ := Option.isSome_iff_exists.1 h
  have hupdate : Function.update w.files w.store.path (some (w.content w.store.path)) = w.files := by
    rw [content, hfile, Option.getD_some, ← hfile, Function.update_eq_self]
  rw [stopped, hupdate]

end World

variable {w w' : World} {faults : MergeFaults} {state : PageStoreState} {file bytes : Bytes} {offset : ℕ}

theorem openFile_run : PageStore.openFile w.store.path () w = (.ok (), w.opened) := by
  show (Except.ok (), if (w.files w.store.path).isSome then w else _) = _
  split_ifs with h
  · rw [World.opened, World.stopped_self h]
  · have hblank : w.content w.store.path = [] := by
      rw [World.content, Option.not_isSome_iff_eq_none.1 h]; rfl
    rw [World.opened, hblank]
    rfl

theorem writeFileWith_run {fault : Option (ℕ × DataBaseErrors)} :
    PageStore.writeFileWith fault w.store.path offset bytes () (w.stopped state file) =
      match fault with
      | some (written, e) => (.error e, w.stopped state (writeAt file offset (bytes.take written)))
      | none =>
        if offset + bytes.length ≤ maxOffset then (.ok (), w.stopped state (writeAt file offset bytes))
        else (.error (.ioError "File too large (os error 27)"), w.stopped state file) := by
  have hfile : ((w.stopped state file).files w.store.path).getD [] = file := World.stopped_content
  cases fault with
  | none =>
    unfold PageStore.writeFileWith PageStore.writeFile
    dsimp only
    rw [hfile, World.withFile_stopped]
  | some fault =>
    obtain ⟨written, e⟩ := fault
    unfold PageStore.writeFileWith
    dsimp only
    rw [modify_bind, hfile, World.withFile_stopped]
    rfl

/-- What the loop leaves. -/
theorem appendPages_run (l : List (PageID × π)) (state : PageStoreState) (file : Bytes) (offset : ℕ) :
    ∃ r, l.foldlM (PageStore.appendPageWith code faults w.store.path) offset () (w.stopped state file) =
        (r, w.stopped { state with index := (progress code faults offset l).index state.index }
          (writeAt file offset (progress code faults offset l).bytes)) ∧
      ((progress code faults offset l).complete = true →
        r = .ok (offset + (progress code faults offset l).bytes.length)) ∧
      ((progress code faults offset l).complete = false → ∃ e, r = .error e) := by
  induction l generalizing state file offset with
  | nil =>
    refine ⟨.ok offset, ?_, fun _ => rfl, nofun⟩
    rw [List.foldlM_nil, progress, writeAt_nil]
    rfl
  | cons x rest ih =>
    rw [List.foldlM_cons, progress]
    have hround : PageStore.appendPageWith code faults w.store.path offset x () (w.stopped state file) =
        (ofExcept (PageStore.serializationError (code.encodePage x.2)) >>= fun bytes => do
          PageStore.writeFileWith (faults.page x.1) w.store.path offset bytes
          PageStore.enterRecord x.1 ⟨offset, bytes.length % 2 ^ 32⟩
          return offset + bytes.length : StoreM ℕ) () (w.stopped state file) := rfl
    cases hencode : code.encodePage x.2 with
    | error e =>
      rw [hencode] at hround
      refine ⟨.error (.serializationError e), ?_, nofun, fun _ => ⟨_, rfl⟩⟩
      rw [bind_error (hround.trans rfl), writeAt_nil]
      rfl
    | ok bytes =>
      rw [hencode] at hround
      replace hround := hround.trans (bind_ok (rfl : (ofExcept (.ok bytes) : StoreM Bytes) () _ = _))
      cases hfault : faults.page x.1 with
      | some fault =>
        obtain ⟨written, e⟩ := fault
        rw [hfault] at hround
        refine ⟨.error e, ?_, nofun, fun _ => ⟨_, rfl⟩⟩
        rw [bind_error (hround.trans (bind_error writeFileWith_run))]
        rfl
      | none =>
        rw [hfault] at hround
        by_cases hmax : offset + bytes.length ≤ maxOffset
        · have hwrite := @writeFileWith_run w state file bytes offset none
          dsimp only at hwrite
          rw [if_pos hmax] at hwrite
          obtain ⟨r, hrest, hok, herr⟩ := ih
            { state with index := state.index.insert x.1 ⟨offset, bytes.length % 2 ^ 32⟩ }
            (writeAt file offset bytes) (offset + bytes.length)
          dsimp only
          rw [if_pos hmax, bind_ok (hround.trans ((bind_ok hwrite).trans rfl))]
          refine ⟨r, ?_, fun hc => ?_, herr⟩
          · rw [writeAt_writeAt] at hrest
            exact hrest
          · rw [hok hc, List.length_append, Nat.add_assoc]
        · have hwrite := @writeFileWith_run w state file bytes offset none
          dsimp only at hwrite
          rw [if_neg hmax] at hwrite
          dsimp only
          rw [if_neg hmax, bind_error (hround.trans (bind_error hwrite)), writeAt_nil]
          exact ⟨_, rfl, nofun, fun _ => ⟨_, rfl⟩⟩

theorem finishMergeWith_run {rowLocations : RowLocationIndex} :
    (∃ e, PageStore.finishMergeWith code faults w.store.path rowLocations offset ()
        (w.stopped state file) = (.error e, w.stopped { state with rowLocations := rowLocations }
          (writeAt file offset (indexWritten code faults ⟨state.index, rowLocations⟩)))) ∨
    ∃ bytes : Bytes, code.encodeIndex ⟨state.index, rowLocations⟩ = .ok bytes ∧
      offset + bytes.length ≤ maxOffset ∧ PageStore.finishMergeWith code faults w.store.path rowLocations
        offset () (w.stopped state file) = (.ok (), w.stopped
          (PageStore.populateState ⟨offset, bytes.length, offset + bytes.length⟩ state.index
            rowLocations)
          (writeAt (writeAt file offset bytes) 0
            (PageFileHeader.toBytes ⟨offset, bytes.length, offset + bytes.length⟩))) := by
  have hrun : PageStore.finishMergeWith code faults w.store.path rowLocations offset ()
      (w.stopped state file) = (ofExcept (PageStore.serializationError
          (code.encodeIndex ⟨state.index, rowLocations⟩)) >>= fun bytes => do
        PageStore.writeFileWith faults.index w.store.path offset bytes
        PageStore.writeFile w.store.path 0
          (PageFileHeader.toBytes ⟨offset, bytes.length, offset + bytes.length⟩)
        modify fun w => w.withState (PageStore.populateState ⟨offset, bytes.length, offset + bytes.length⟩
          w.store.state.index w.store.state.rowLocations) : StoreM Unit) ()
        (w.stopped { state with rowLocations := rowLocations } file) := rfl
  rw [hrun, indexWritten]
  cases hencode : code.encodeIndex ⟨state.index, rowLocations⟩ with
  | error e => exact Or.inl ⟨_, by rw [writeAt_nil]; rfl⟩
  | ok bytes =>
    have hserialize : (ofExcept (PageStore.serializationError (.ok bytes)) : StoreM Bytes) ()
        (w.stopped { state with rowLocations := rowLocations } file) = (.ok bytes, _) := rfl
    rw [bind_ok hserialize]
    cases hfault : faults.index with
    | some fault =>
      obtain ⟨written, e⟩ := fault
      exact Or.inl ⟨e, bind_error writeFileWith_run⟩
    | none =>
      by_cases hmax : offset + bytes.length ≤ maxOffset
      · have hindex := @writeFileWith_run w { state with rowLocations := rowLocations } file bytes offset none
        dsimp only at hindex
        rw [if_pos hmax] at hindex
        have hheader := @writeFileWith_run w { state with rowLocations := rowLocations }
          (writeAt file offset bytes)
          (PageFileHeader.toBytes ⟨offset, bytes.length, offset + bytes.length⟩) 0 none
        dsimp only at hheader
        rw [header_length, if_pos (by decide)] at hheader
        exact Or.inr ⟨bytes, rfl, hmax, (bind_ok hindex).trans ((bind_ok hheader).trans rfl)⟩
      · have hindex := @writeFileWith_run w { state with rowLocations := rowLocations } file bytes offset none
        dsimp only at hindex
        rw [if_neg hmax] at hindex
        exact Or.inl ⟨_, (bind_error hindex).trans (by rw [writeAt_nil])⟩

/-! ## How a merge ends -/

variable (code) in
/-- The state of the store after it has looked at its file. -/
def World.known (w : World) : PageStoreState := (PageStore.loadState code () w).2.store.state

variable (code) in
/-- Where a merge writes its first page. -/
def World.appendOffset (w : World) : ℕ := max (w.known code).appendOffset headerSize

/-- A merge and the errors it meets. -/
structure Merge (π : Type) where
  faults : MergeFaults
  updates : BTreeMap PageID π
  rowLocations : RowLocationIndex

namespace Merge

variable (code) (m : Merge π) (w : World)

def run : StoreM Unit := PageStore.mergePagesWith code m.faults m.updates m.rowLocations

/-- The merge gets as far as its first page. -/
def Starts : Prop := m.faults.opening = none ∧
  (w.store.state.loaded = true ∨ m.faults.loading = none) ∧ (PageStore.loadState code () w).1 = .ok ()

def progress : Progress π := Disk.progress code m.faults (w.appendOffset code) m.updates.toList

def index : PageIndex := (m.progress code w).index (w.known code).index

/-- The bytes that a merge leaves behind the append offset when it fails. -/
def written : Bytes :=
  (m.progress code w).bytes ++
    if (m.progress code w).complete then
      indexWritten code m.faults ⟨m.index code w, m.rowLocations⟩
    else []

/-- The state of the store that a merge leaves when it fails. -/
def stateLeft : PageStoreState :=
  { w.known code with
    index := m.index code w
    rowLocations := if (m.progress code w).complete then m.rowLocations
      else (w.known code).rowLocations }

end Merge

theorem loadState_cases (w : World) : ∃ state, (PageStore.loadState code () w).2 = w.withState state ∧
    ((PageStore.loadState code () w).1 = .ok () ∨ state = w.store.state) := by
  unfold PageStore.loadState
  rw [get_bind]
  split_ifs
  · exact ⟨w.store.state, rfl, Or.inr rfl⟩
  cases w.files w.store.path with
  | none => exact ⟨_, rfl, Or.inl rfl⟩
  | some file =>
    cases file with
    | nil => exact ⟨_, rfl, Or.inl rfl⟩
    | cons byte file =>
      dsimp only
      cases PageStore.readHeaderAndIndex code (byte :: file) with
      | error e => exact ⟨w.store.state, rfl, Or.inr rfl⟩
      | ok read =>
        cases read with
        | none => exact ⟨w.store.state, rfl, Or.inr rfl⟩
        | some read => exact ⟨_, rfl, Or.inl rfl⟩

theorem loadState_world (w : World) :
    (PageStore.loadState code () w).2 = w.withState (w.known code) := by
  obtain ⟨state, hstate, -⟩ := @loadState_cases π code w
  rw [World.known, hstate]
  rfl

/-- A store that cannot read its file stays as it is. -/
theorem known_of_failed (h : (PageStore.loadState code () w).1 ≠ .ok ()) :
    w.known code = w.store.state := by
  obtain ⟨state, hstate, hok⟩ := @loadState_cases π code w
  rw [World.known, hstate]
  exact hok.resolve_left h

theorem loadState_run (w : World) : PageStore.loadState code () w =
    ((PageStore.loadState code () w).1, w.withState (w.known code)) :=
  Prod.ext rfl (loadState_world w)

@[simp] theorem content_opened : w.opened.content w.store.path = w.content w.store.path :=
  World.stopped_content

/-- Opening the file does not change what is read from it. -/
theorem loadState_opened : PageStore.loadState code () w.opened =
    ((PageStore.loadState code () w).1, w.opened.withState (w.known code)) := by
  by_cases hfile : (w.files w.store.path).isSome
  · rw [World.opened, World.stopped_self hfile]
    exact loadState_run w
  have hblank : w.content w.store.path = [] := by
    rw [World.content, Option.not_isSome_iff_eq_none.1 hfile]; rfl
  cases hloaded : w.store.state.loaded with
  | true =>
    have hloaded' : w.opened.store.state.loaded = true := hloaded
    rw [loadState_loaded hloaded', World.known, loadState_loaded hloaded]
    rfl
  | false =>
    have hloaded' : w.opened.store.state.loaded = false := hloaded
    have hblank' : w.opened.content w.opened.store.path = [] := content_opened.trans hblank
    rw [loadState_blank hloaded' hblank', World.known, loadState_blank hloaded hblank]
    rfl

theorem loadStateWith_ok {fault : Option DataBaseErrors}
    (h : w.store.state.loaded = true ∨ fault = none) : PageStore.loadStateWith code fault () w.opened =
      ((PageStore.loadState code () w).1, w.opened.withState (w.known code)) := by
  unfold PageStore.loadStateWith
  rw [get_bind, ← loadState_opened]
  have hstate : w.opened.store.state.loaded = w.store.state.loaded := rfl
  rw [hstate]
  cases hloaded : w.store.state.loaded with
  | true => exact (@loadState_loaded _ _ w.opened hloaded).symm
  | false =>
    rw [h.resolve_left (by simp [hloaded])]
    rfl

theorem loadStateWith_failed {fault : Option DataBaseErrors}
    (h : ¬(w.store.state.loaded = true ∨ fault = none)) :
    ∃ e, PageStore.loadStateWith code fault () w.opened = (.error e, w.opened) := by
  obtain ⟨hloaded, hfault⟩ := not_or.1 h
  obtain ⟨e, rfl⟩ := Option.ne_none_iff_exists'.1 hfault
  have hloaded' : w.opened.store.state.loaded = false := Bool.eq_false_of_not_eq_true hloaded
  unfold PageStore.loadStateWith
  rw [get_bind, hloaded']
  exact ⟨e, rfl⟩

namespace Merge

variable {m : Merge π}

/-- A merge of no pages does nothing. -/
theorem run_empty (h : m.updates.isEmpty = true) : m.run code () w = (.ok (), w) := by
  unfold run PageStore.mergePagesWith
  rw [if_pos h]
  rfl

/-- A merge that does not start leaves the store and the bytes of the file alone. -/
theorem run_unstarted (h : m.updates.isEmpty = false) (hstarts : ¬ m.Starts code w) :
    ∃ e, m.run code () w = (.error e, w) ∨ m.run code () w = (.error e, w.opened) := by
  unfold run PageStore.mergePagesWith
  rw [if_neg (by simp [h]), get_bind]
  cases hopening : m.faults.opening with
  | some e => exact ⟨e, Or.inl rfl⟩
  | none =>
    rw [PageStore.pass_bind, bind_ok openFile_run]
    by_cases hload : w.store.state.loaded = true ∨ m.faults.loading = none
    · have hfails : (PageStore.loadState code () w).1 ≠ .ok () := fun hok =>
        hstarts ⟨hopening, hload, hok⟩
      have hrun := @loadStateWith_ok π code w _ hload
      rw [known_of_failed hfails] at hrun
      cases hr : (PageStore.loadState code () w).1 with
      | ok _ => exact absurd hr hfails
      | error e =>
        rw [hr] at hrun
        exact ⟨e, Or.inr (bind_error hrun)⟩
    · obtain ⟨e, hrun⟩ := @loadStateWith_failed π code w _ hload
      exact ⟨e, Or.inr (bind_error hrun)⟩

/-- What a merge that starts leaves when it fails, and when it succeeds. -/
theorem run_started (h : m.updates.isEmpty = false) (hstarts : m.Starts code w) :
    (∃ e, m.run code () w = (.error e, w.stopped (m.stateLeft code w)
      (writeAt (w.content w.store.path) (w.appendOffset code) (m.written code w)))) ∨
    ∃ (bytes file : Bytes) (limit : ℕ),
      code.encodeIndex ⟨m.index code w, m.rowLocations⟩ = .ok bytes ∧
      headerSize ≤ limit ∧ limit + bytes.length ≤ maxOffset ∧ m.run code () w = (.ok (), w.stopped
        (PageStore.populateState ⟨limit, bytes.length, limit + bytes.length⟩ (m.index code w)
          m.rowLocations)
        (writeAt (writeAt file limit bytes) 0
          (PageFileHeader.toBytes ⟨limit, bytes.length, limit + bytes.length⟩))) := by
  obtain ⟨hopening, hload, hok⟩ := hstarts
  have hrun := @loadStateWith_ok π code w _ hload
  rw [hok] at hrun
  obtain ⟨r, hpages, hcomplete, hfails⟩ := @appendPages_run π code w m.faults m.updates.toList
    (w.known code) (w.content w.store.path) (w.appendOffset code)
  have hmerge : m.run code () w = (m.updates.toList.foldlM
      (PageStore.appendPageWith code m.faults w.store.path) (w.appendOffset code) >>=
        PageStore.finishMergeWith code m.faults w.store.path m.rowLocations) ()
      (w.stopped (w.known code) (w.content w.store.path)) := by
    unfold run PageStore.mergePagesWith
    rw [if_neg (by simp [h]), get_bind, hopening, PageStore.pass_bind, bind_ok openFile_run,
      bind_ok hrun, get_bind]
    rfl
  rw [hmerge, stateLeft, written, index, progress]
  cases hc : (Disk.progress code m.faults (w.appendOffset code) m.updates.toList).complete with
  | false =>
    obtain ⟨e, rfl⟩ := hfails hc
    rw [bind_error hpages, if_neg nofun, if_neg nofun, List.append_nil]
    exact Or.inl ⟨e, rfl⟩
  | true =>
    rw [hcomplete hc] at hpages
    rw [bind_ok hpages, if_pos rfl, if_pos rfl, ← writeAt_writeAt]
    rcases finishMergeWith_run with ⟨e, hrun⟩ | ⟨bytes, hencode, hmax, hrun⟩
    · exact Or.inl ⟨e, hrun⟩
    · exact Or.inr ⟨bytes, _, _, hencode, (le_max_right _ _).trans (Nat.le_add_right _ _), hmax, hrun⟩

end Merge

end AntDb.Disk
