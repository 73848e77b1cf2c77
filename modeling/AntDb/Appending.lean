/-
  Where a store appends.

  Behind the append offset nothing stands that a new store reads: the header, the index and where
  it ends are in front (`Bounded`).  A store that has looked at its file appends there
  (`Intact`), whatever calls have been made of it, and whatever merges have failed.
-/
import AntDb.MergeFaults

namespace AntDb.Disk

open Call Files

variable {π : Type} {code : Bincode π} {w w' : World} {file file' bytes : Bytes} {limit : ℕ}
  {pageId : PageID} {location : PageLocation} {state : PageStoreState} {m : Merge π}

/-! ## What a new store reads -/

theorem readFrom_congr (h : AgreeBelow headerSize file file') :
    PageFileHeader.readFrom file' = PageFileHeader.readFrom file := by
  have hread : ∀ offset length, offset + length ≤ headerSize →
      readAt file' offset length = readAt file offset length := fun _ _ hle => h.readAt hle
  unfold PageFileHeader.readFrom PageFileHeader.readExact
  rw [hread 0 5 (by decide), hread 5 4 (by decide), hread 9 8 (by decide), hread 17 8 (by decide),
    hread 25 8 (by decide)]

/-- The file is empty, or what its header leads to ends in front of `limit`, where the header
    says that the next page goes. -/
structure Bounded (file : Bytes) (limit : ℕ) : Prop where
  header : headerSize ≤ limit
  kept : file = [] ∨ limit ≤ file.length ∧ ∀ header, PageFileHeader.readFrom file = .ok (some header) →
    header.indexOffset + header.indexLength ≤ limit ∧ header.appendOffset = limit

/-- Writing behind the limit. -/
theorem Bounded.written (h : Bounded file limit) (hne : file ≠ []) :
    AgreeBelow limit file (writeAt file limit bytes) ∧ Bounded (writeAt file limit bytes) limit := by
  obtain ⟨hlength, hheader⟩ := h.kept.resolve_left hne
  have hagree : AgreeBelow limit file (writeAt file limit bytes) := AgreeBelow.writeAt le_rfl hlength
  refine ⟨hagree, h.header, Or.inr ⟨hlength.trans length_le_writeAt, fun header hread => ?_⟩⟩
  exact hheader header ((readFrom_congr (hagree.mono h.header)).symm.trans hread)

/-- A file that starts with a gap has no header. -/
theorem readFrom_gap (hheader : headerSize ≤ limit) (hne : bytes ≠ []) :
    PageFileHeader.readFrom (writeAt [] limit bytes) = .ok none := by
  have hmagic : readAt (writeAt [] limit bytes) 0 5 ≠ some magic := by
    intro h
    have hfirst := (readAt_iff.1 h).2 0 (by decide)
    rw [getElem_writeAt_gap hne (Nat.zero_le _) (lt_of_lt_of_le (by decide) hheader)] at hfirst
    cases hfirst
  unfold PageFileHeader.readFrom
  rw [if_neg hmagic]
  rfl

theorem Bounded.gap (hheader : headerSize ≤ limit) (hne : bytes ≠ []) :
    Bounded (writeAt [] limit bytes) limit := by
  refine ⟨hheader, Or.inr ⟨(Nat.le_add_right _ _).trans (end_le_writeAt hne), fun header hread => ?_⟩⟩
  rw [readFrom_gap hheader hne] at hread
  cases hread

theorem readFrom_finished (hheader : headerSize ≤ limit) (hmax : limit + bytes.length ≤ maxOffset) :
    PageFileHeader.readFrom (writeAt (writeAt file limit bytes) 0
        (PageFileHeader.toBytes ⟨limit, bytes.length, limit + bytes.length⟩)) =
      .ok (some ⟨limit, bytes.length, limit + bytes.length⟩) := by
  have hmax64 : maxOffset < 2 ^ 64 := by norm_num [maxOffset]
  refine readFrom_ok ?_ ?_ ?_ ?_
  · rw [← header_length ⟨limit, bytes.length, limit + bytes.length⟩]
    exact readAt_writeAt
  all_goals dsimp only; omega

/-- A file that is finished with its index and its header. -/
theorem Bounded.finished (hheader : headerSize ≤ limit) (hmax : limit + bytes.length ≤ maxOffset)
    (hne : bytes ≠ []) : Bounded (writeAt (writeAt file limit bytes) 0
      (PageFileHeader.toBytes ⟨limit, bytes.length, limit + bytes.length⟩)) (limit + bytes.length) := by
  refine ⟨hheader.trans (Nat.le_add_right _ _),
    Or.inr ⟨(end_le_writeAt hne).trans length_le_writeAt, fun header hread => ?_⟩⟩
  rw [readFrom_finished hheader hmax] at hread
  obtain rfl := Option.some.inj (Except.ok.inj hread)
  exact ⟨le_rfl, rfl⟩

/-! ## Stores that write behind what they know -/

/-- The file is bounded by the append offset of the store, if it has looked at the file, and is
    there if the store lists pages. -/
structure Intact (w : World) : Prop where
  file : (w.files w.store.path).isSome ∨ w.store.state.index = ∅
  bounded : ∃ limit, Bounded (w.content w.store.path) limit ∧ (w.store.state = .default ∨
    w.store.state.loaded = true ∧ w.store.state.appendOffset = limit)

theorem blank_of_missing (h : ¬ (w.files w.store.path).isSome) : w.content w.store.path = [] := by
  rw [World.content, Option.not_isSome_iff_eq_none.1 h]
  rfl

/-- What a store knows once it has looked at its file. -/
theorem known_unloaded (hloaded : w.store.state.loaded = false)
    (hok : (PageStore.loadState code () w).1 = .ok ()) :
    (w.content w.store.path = [] ∧ w.known code = PageStore.blankState w.store.state) ∨
    w.content w.store.path ≠ [] ∧ ∃ header index rowLocations,
      PageStore.readHeaderAndIndex code (w.content w.store.path) =
        .ok (some (header, index, rowLocations)) ∧
      w.known code = PageStore.populateState header index rowLocations := by
  by_cases hblank : w.content w.store.path = []
  · refine Or.inl ⟨hblank, ?_⟩
    rw [World.known, loadState_blank hloaded hblank]
    rfl
  · refine Or.inr ⟨hblank, ?_⟩
    cases hfile : w.files w.store.path with
    | none => exact absurd (blank_of_missing (by simp [hfile])) hblank
    | some file =>
      have hcontent : w.content w.store.path = file := by rw [World.content, hfile]; rfl
      rw [hcontent] at hblank ⊢
      obtain ⟨byte, rest, rfl⟩ := List.exists_cons_of_ne_nil hblank
      unfold World.known
      unfold PageStore.loadState at hok ⊢
      rw [get_bind, hloaded, hfile] at hok ⊢
      cases hread : PageStore.readHeaderAndIndex code (byte :: rest) with
      | error e =>
        simp only [Bool.false_eq_true, if_false, hread] at hok
        cases hok
      | ok read =>
        simp only [Bool.false_eq_true, if_false, hread] at hok ⊢
        cases read with
        | none => cases hok
        | some read =>
          obtain ⟨header, index, rowLocations⟩ := read
          exact ⟨header, index, rowLocations, rfl, rfl⟩

theorem readFrom_of_index {header : PageFileHeader} {index : PageIndex}
    {rowLocations : RowLocationIndex} (h : PageStore.readHeaderAndIndex code file =
      .ok (some (header, index, rowLocations))) :
    PageFileHeader.readFrom file = .ok (some header) := by
  unfold PageStore.readHeaderAndIndex at h
  cases hread : PageFileHeader.readFrom file with
  | error e => rw [hread] at h; cases h
  | ok read =>
    cases read with
    | none => rw [hread] at h; cases h
    | some header' =>
      rw [hread] at h
      change (PageStore.readIndexBytes file header' >>= _) = _ at h
      cases hindex : PageStore.readIndexBytes file header' with
      | error e => rw [hindex] at h; cases h
      | ok bytes =>
        rw [hindex] at h
        change (PageStore.deserializeIndex code bytes >>= _) = _ at h
        cases hdisk : PageStore.deserializeIndex code bytes with
        | error e => rw [hdisk] at h; cases h
        | ok disk =>
          rw [hdisk] at h
          rw [(Prod.mk.inj (Option.some.inj (Except.ok.inj h))).1]

namespace Intact

theorem reopened (h : Intact w) : Intact w.reopened := by
  obtain ⟨limit, hbounded, -⟩ := h.bounded
  exact ⟨Or.inr rfl, limit, hbounded, Or.inl rfl⟩

/-- A store that has looked at its file is bounded by its append offset. -/
theorem known (h : Intact w) (hok : (PageStore.loadState code () w).1 = .ok ()) :
    (w.known code).loaded = true ∧ w.appendOffset code = (w.known code).appendOffset ∧
      Bounded (w.content w.store.path) (w.appendOffset code) ∧
      ((w.files w.store.path).isSome ∨ (w.known code).index = ∅) := by
  suffices hknown : (w.known code).loaded = true ∧
      Bounded (w.content w.store.path) (w.known code).appendOffset ∧
      ((w.files w.store.path).isSome ∨ (w.known code).index = ∅) by
    obtain ⟨hloaded, hbounded, hfile⟩ := hknown
    have hoffset : w.appendOffset code = (w.known code).appendOffset := max_eq_left hbounded.header
    exact ⟨hloaded, hoffset, hoffset ▸ hbounded, hfile⟩
  obtain ⟨limit, hbounded, hstate | ⟨hloaded, hoffset⟩⟩ := h.bounded
  · have hloaded : w.store.state.loaded = false := by rw [hstate]; rfl
    rcases known_unloaded hloaded hok with ⟨hblank, hknown⟩ | ⟨hne, header, index, ρ, hread, hknown⟩
    · rw [hknown, hblank, hstate]
      exact ⟨rfl, ⟨le_rfl, Or.inl rfl⟩, Or.inr rfl⟩
    · rw [hknown]
      obtain ⟨-, hheader⟩ := hbounded.kept.resolve_left hne
      obtain ⟨-, hlimit⟩ := hheader header (readFrom_of_index hread)
      refine ⟨rfl, ?_, Or.inl ?_⟩
      · show Bounded _ header.appendOffset
        rw [hlimit]
        exact hbounded
      · by_contra hmissing
        exact hne (blank_of_missing hmissing)
  · have hknown : w.known code = w.store.state := by rw [World.known, loadState_loaded hloaded]
    rw [hknown]
    exact ⟨hloaded, hoffset ▸ hbounded, h.file⟩

theorem read (h : Intact w) : Intact (PageStore.loadState code () w).2 := by
  rw [loadState_world]
  by_cases hok : (PageStore.loadState code () w).1 = .ok ()
  · obtain ⟨hloaded, hoffset, hbounded, hfile⟩ := h.known hok
    exact ⟨hfile, _, hbounded, Or.inr ⟨hloaded, hoffset.symm⟩⟩
  · rw [known_of_failed hok]
    exact h

/-- A store whose file has been replaced or extended. -/
theorem stopped (hbounded : Bounded file limit) (hloaded : state.loaded = true)
    (hoffset : state.appendOffset = limit) : Intact (w.stopped state file) :=
  ⟨Or.inl (by simp [World.stopped]), limit, by
    rw [World.stopped_path, World.stopped_content]; exact hbounded, Or.inr ⟨hloaded, hoffset⟩⟩

theorem opened (h : Intact w) : Intact w.opened := by
  obtain ⟨limit, hbounded, hstate⟩ := h.bounded
  exact ⟨Or.inl (by simp [World.opened, World.stopped]), limit, content_opened.symm ▸ hbounded, hstate⟩

/-- A merge that fails leaves the store intact. -/
theorem merge_failed (h : Intact w) (hstarts : m.Starts code w) : Intact (w.stopped (m.stateLeft code w)
    (writeAt (w.content w.store.path) (w.appendOffset code) (m.written code w))) := by
  obtain ⟨hloaded, hoffset, hbounded, -⟩ := h.known hstarts.2.2
  refine stopped (?_ : Bounded _ (w.appendOffset code)) hloaded hoffset.symm
  by_cases hne : w.content w.store.path = []
  · by_cases hwritten : m.written code w = []
    · rw [hwritten, writeAt_nil]
      exact hbounded
    · rw [hne]
      exact Bounded.gap hbounded.header hwritten
  · exact (hbounded.written hne).2

/-- Every merge leaves the store intact. -/
theorem merge (hcode : code.Lawful) (h : Intact w) : Intact (m.run code () w).2 := by
  cases hempty : m.updates.isEmpty with
  | true => rw [Merge.run_empty hempty]; exact h
  | false =>
    by_cases hstarts : m.Starts code w
    · rcases Merge.run_started hempty hstarts with ⟨e, hrun⟩ | ⟨bytes, file, limit, hencode, hheader,
        hmax, hrun⟩
      · rw [hrun]
        exact h.merge_failed hstarts
      · rw [hrun]
        exact stopped (Bounded.finished hheader hmax (hcode.index_ne_nil _ _ hencode)) rfl rfl
    · obtain ⟨e, hrun | hrun⟩ := Merge.run_unstarted hempty hstarts
      · rw [hrun]; exact h
      · rw [hrun]; exact h.opened

end Intact

/-! ## Files written as a whole -/

section Compact

variable {α : Type} {serialize : α → Except DataBaseErrors Bytes} {entries : List (PageID × α)}
  {path tmpPath : PathBuf} {rowLocations rowLocations' : RowLocationIndex} {header : PageFileHeader}
  {index : PageIndex} {w₁ w₂ : World}

theorem writePages_offset {acc acc' : ℕ × PageIndex}
    (h : (entries.foldlM (fun (acc : ℕ × PageIndex) x => do
        let pageBytes ← ofExcept (serialize x.2)
        PageStore.writeFile tmpPath acc.1 pageBytes
        return (acc.1 + pageBytes.length, acc.2.insert x.1 ⟨acc.1, pageBytes.length % 2 ^ 32⟩)) acc :
          StoreM (ℕ × PageIndex)) () w = (.ok acc', w')) :
    acc.1 ≤ acc'.1 ∧ w'.store = w.store := by
  induction entries generalizing acc w with
  | nil =>
    obtain ⟨hacc, rfl⟩ := Prod.mk.inj h
    obtain rfl := Except.ok.inj hacc
    exact ⟨le_rfl, rfl⟩
  | cons x entries ih =>
    rw [List.foldlM_cons] at h
    obtain ⟨acc₁, w₁, hround, hrest⟩ := bind_returned h
    obtain ⟨bytes, w₂, hserialize, hround₁⟩ := bind_returned hround
    obtain ⟨-, rfl⟩ := ofExcept_returned hserialize
    obtain ⟨_, w₃, hwrite, hround₂⟩ := bind_returned hround₁
    obtain ⟨-, rfl⟩ := writeFile_returned hwrite
    obtain ⟨hacc, rfl⟩ := Prod.mk.inj hround₂
    obtain rfl := Except.ok.inj hacc
    obtain ⟨hle, hstore⟩ := ih hrest
    exact ⟨(Nat.le_add_right _ _).trans hle, hstore⟩

/-- The page file is replaced by one that is finished with its index and its header. -/
theorem writeCompact_finished (hcode : code.Lawful)
    (h : PageStore.writeCompact code serialize path entries rowLocations () w =
      (.ok (header, index, rowLocations'), w')) :
    w'.store = w.store ∧ ∃ (bytes file : Bytes) (limit : ℕ), bytes ≠ [] ∧ headerSize ≤ limit ∧
      limit + bytes.length ≤ maxOffset ∧ header = ⟨limit, bytes.length, limit + bytes.length⟩ ∧
      w'.content path = writeAt (writeAt file limit bytes) 0 header.toBytes := by
  unfold PageStore.writeCompact at h
  dsimp only at h
  generalize path.withExtension "tmp" = tmpPath at h
  obtain ⟨_, w₁, hopen, h₁⟩ := bind_returned h
  obtain ⟨_, w₂, hblank, h₂⟩ := bind_returned h₁
  obtain ⟨acc, w₃, hpages, h₃⟩ := bind_returned h₂
  obtain ⟨bytes, w₄, hserialize, h₄⟩ := bind_returned h₃
  obtain ⟨_, w₅, hwriteIndex, h₅⟩ := bind_returned h₄
  obtain ⟨_, w₆, hwriteHeader, h₆⟩ := bind_returned h₅
  obtain ⟨_, w₇, hrename, h₇⟩ := bind_returned h₆
  clear h h₁ h₂ h₃ h₄ h₅ h₆
  obtain ⟨hresult, rfl⟩ := Prod.mk.inj h₇
  have hheader := (Prod.mk.inj (Except.ok.inj hresult)).1
  have hstoreOpen : w₁.store = w.store := openFile_store hopen
  obtain ⟨-, rfl⟩ := writeFile_returned hblank
  obtain ⟨hle, hstore⟩ := writePages_offset hpages
  obtain ⟨hbytes, rfl⟩ := ofExcept_returned hserialize
  obtain ⟨hmax, rfl⟩ := writeFile_returned hwriteIndex
  obtain ⟨-, rfl⟩ := writeFile_returned hwriteHeader
  obtain ⟨hstoreRename, hcontent⟩ := renameFile_returned hrename
  rw [content_withFile, content_withFile] at hcontent
  refine ⟨hstoreRename.trans (hstore.trans hstoreOpen), bytes, w₄.content tmpPath, acc.1,
    hcode.index_ne_nil _ _ (serialization_ok hbytes), hle, hmax, hheader.symm, ?_⟩
  rw [hcontent, ← hheader]

/-- A store that replaces its file is intact afterwards. -/
theorem Intact.replaced (hcode : code.Lawful)
    (hcompact : PageStore.writeCompact code serialize w.store.path entries rowLocations () w =
      (.ok (header, index, rowLocations'), w₁))
    (hload : PageStore.loadState code () w₁ = (.ok (), w₂)) :
    Intact (w₂.withState (PageStore.populateState header index rowLocations')) := by
  obtain ⟨hstore, bytes, file, limit, hne, hheader, hmax, rfl, hcontent⟩ :=
    writeCompact_finished hcode hcompact
  obtain ⟨state, rfl⟩ := loadState_returned hload
  rw [← hstore] at hcontent
  have hbounded := @Bounded.finished file bytes limit hheader hmax hne
  rw [← hcontent] at hbounded
  refine ⟨Or.inl ?_, _, hbounded, Or.inr ⟨rfl, rfl⟩⟩
  show (w₁.files w₁.store.path).isSome = true
  by_contra hmissing
  have hread := @readFrom_finished file bytes limit hheader hmax
  rw [← hcontent, blank_of_missing hmissing] at hread
  cases hread

end Compact

/-- Every call that succeeds leaves the store intact. -/
theorem Intact.write (hcode : code.Lawful) {call : StoreCall π} (h : Intact w)
    (hok : (call.run code () w).1 = .ok ()) : Intact (call.step code w) := by
  have hrun : call.run code () w = (.ok (), call.step code w) := Prod.ext hok rfl
  have hmerge : ∀ (updates : BTreeMap PageID π) rowLocations,
      Intact (PageStore.mergePages code updates rowLocations () w).2 := by
    intro updates rowLocations
    rw [← PageStore.mergePagesWith_none]
    exact h.merge (m := ⟨.none, updates, rowLocations⟩) hcode
  cases call with
  | writeAll pages rowLocations =>
    change PageStore.writeAll code pages rowLocations () w = _ at hrun
    unfold PageStore.writeAll at hrun
    rw [get_bind] at hrun
    obtain ⟨⟨header, index, rowLocations'⟩, w₁, hcompact, h₁⟩ := bind_returned hrun
    obtain ⟨_, w₂, hload, h₂⟩ := bind_returned h₁
    rw [← (Prod.mk.inj h₂).2]
    exact Intact.replaced hcode hcompact hload
  | writeAllSerialized pages rowLocations =>
    change PageStore.writeAllSerialized code pages rowLocations () w = _ at hrun
    unfold PageStore.writeAllSerialized at hrun
    rw [get_bind] at hrun
    obtain ⟨⟨header, index, rowLocations'⟩, w₁, hcompact, h₁⟩ := bind_returned hrun
    obtain ⟨_, w₂, hload, h₂⟩ := bind_returned h₁
    rw [← (Prod.mk.inj h₂).2]
    exact Intact.replaced hcode hcompact hload
  | mergePage pageId page rowLocations => exact hmerge _ _
  | mergePages updates rowLocations => exact hmerge _ _

/-! ## Runs -/

/-- What may happen to a store: a call that writes, a merge that may fail, a first look at the file
    when it is read, and a new store on its path. -/
inductive Attempt (π : Type) where
  | write (call : StoreCall π)
  | merge (m : Merge π)
  | read
  | reopen

namespace Attempt

variable (code) in
def step (w : World) : Attempt π → World
  | write call => call.step code w
  | merge m => (m.run code () w).2
  | read => (PageStore.loadState code () w).2
  | reopen => w.reopened

variable (code) in
/-- The calls succeed, the merges apart. -/
def Allowed (w : World) : Attempt π → Prop
  | write call => (call.run code () w).1 = .ok ()
  | _ => True

end Attempt

theorem Intact.run (hcode : code.Lawful) {attempts : List (Attempt π)} (h : Intact w)
    (hallowed : Runs.Each (Attempt.step code) (Attempt.Allowed code) w attempts) :
    Intact (Runs.exec (Attempt.step code) w attempts) :=
  hallowed.invariant h fun w attempt hw hallowed => by
    cases attempt with
    | write call => exact hw.write hcode hallowed
    | merge m => exact hw.merge hcode
    | read => exact hw.read
    | reopen => exact hw.reopened

end AntDb.Disk
