/-
  The encoding of the index: a map is the number of its entries and then the entries, and all
  numbers have a fixed width and their least significant byte first.
-/
import AntDb.Disk

namespace AntDb.Disk

open Files SipHash

/-! ## Entries of a fixed width -/

/-- Split off `n` entries of `width` bytes. -/
def splitEntries (width : ℕ) : ℕ → Bytes → Option (List Bytes × Bytes)
  | 0, bytes => some ([], bytes)
  | n + 1, bytes =>
    if bytes.length < width then none
    else (splitEntries width n (bytes.drop width)).map fun x => (bytes.take width :: x.1, x.2)

theorem splitEntries_flatten {width : ℕ} {entries : List Bytes}
    (h : ∀ entry ∈ entries, entry.length = width) (rest : Bytes) :
    splitEntries width entries.length (entries.flatten ++ rest) = some (entries, rest) := by
  induction entries with
  | nil => rfl
  | cons entry entries ih =>
    have hentry := h entry (by simp)
    rw [List.flatten_cons, List.append_assoc, List.length_cons, splitEntries,
      if_neg (by simp [hentry]), List.drop_left' hentry, List.take_left' hentry,
      ih fun e he => h e (List.mem_cons_of_mem _ he)]
    rfl

section Map

variable {υ : Type} {width : ℕ} {encode : ℕ × υ → Bytes} {decode : Bytes → ℕ × υ} {m : BTreeMap ℕ υ}

def encodeMap (encode : ℕ × υ → Bytes) (m : BTreeMap ℕ υ) : Bytes :=
  leBytes 8 m.toList.length ++ (m.toList.map encode).flatten

def decodeMap (width : ℕ) (decode : Bytes → ℕ × υ) (bytes : Bytes) : Option (BTreeMap ℕ υ × Bytes) := do
  let count ← readAt bytes 0 8
  let (entries, rest) ← splitEntries width (ofLeBytes count) (bytes.drop 8)
  return ((entries.map decode).foldl (fun m x => m.insert x.1 x.2) ∅, rest)

theorem decodeMap_encodeMap (hsize : m.toList.length < 2 ^ 64)
    (hwidth : ∀ x ∈ m.toList, (encode x).length = width)
    (hdecode : ∀ x ∈ m.toList, decode (encode x) = x) (rest : Bytes) :
    decodeMap width decode (encodeMap encode m ++ rest) = some (m, rest) := by
  have hcount : readAt (encodeMap encode m ++ rest) 0 8 = some (leBytes 8 m.toList.length) := by
    rw [readAt_iff]
    refine ⟨length_leBytes _ _, fun i hi => ?_⟩
    rw [encodeMap, List.append_assoc, Nat.zero_add,
      List.getElem?_append_left (by rw [length_leBytes]; exact hi)]
  have hdrop : (encodeMap encode m ++ rest).drop 8 = (m.toList.map encode).flatten ++ rest := by
    rw [encodeMap, List.append_assoc, List.drop_left' (length_leBytes _ _)]
  have hsplit := splitEntries_flatten (List.forall_mem_map.2 hwidth) rest
  rw [List.length_map] at hsplit
  unfold decodeMap
  rw [hcount, hdrop]
  have h8 : ofLeBytes (leBytes 8 m.toList.length) = m.toList.length :=
    ofLeBytes_of_lt (by norm_num at hsize ⊢; exact hsize)
  have hmap : (m.toList.map encode).map decode = m.toList := by
    rw [List.map_map]
    exact (List.map_congr_left hdecode).trans (List.map_id _)
  simp only [Option.bind_eq_bind, Option.bind_some, h8, hsplit, hmap, BTreeMap.foldl_insert_empty]
  rfl

end Map

/-! ## The index -/

def encodePageEntry (x : PageID × PageLocation) : Bytes :=
  leBytes 8 x.1 ++ leBytes 8 x.2.offset ++ leBytes 4 x.2.length

def decodePageEntry (bytes : Bytes) : PageID × PageLocation :=
  (ofLeBytes (bytes.take 8), ⟨ofLeBytes ((bytes.drop 8).take 8), ofLeBytes (bytes.drop 16)⟩)

def encodeRowEntry (x : RowID × PageID) : Bytes := leBytes 8 x.1 ++ leBytes 8 x.2

def decodeRowEntry (bytes : Bytes) : RowID × PageID :=
  (ofLeBytes (bytes.take 8), ofLeBytes (bytes.drop 8))

theorem ofLeBytes_eight {x : ℕ} (h : x < 2 ^ 64) : ofLeBytes (leBytes 8 x) = x :=
  ofLeBytes_of_lt (by norm_num at h ⊢; exact h)

theorem decodePageEntry_encode {x : PageID × PageLocation} (hid : x.1 < 2 ^ 64)
    (hoffset : x.2.offset < 2 ^ 64) (hlength : x.2.length < 2 ^ 32) :
    decodePageEntry (encodePageEntry x) = x := by
  have h4 : ofLeBytes (leBytes 4 x.2.length) = x.2.length :=
    ofLeBytes_of_lt (by norm_num at hlength ⊢; exact hlength)
  have htake : (encodePageEntry x).take 8 = leBytes 8 x.1 := by
    rw [encodePageEntry, List.append_assoc, List.take_left' (length_leBytes _ _)]
  have hdrop : (encodePageEntry x).drop 8 = leBytes 8 x.2.offset ++ leBytes 4 x.2.length := by
    rw [encodePageEntry, List.append_assoc, List.drop_left' (length_leBytes _ _)]
  have hrest : (encodePageEntry x).drop 16 = leBytes 4 x.2.length := by
    rw [encodePageEntry, List.drop_left' (by simp [length_leBytes])]
  rw [decodePageEntry, htake, hdrop, hrest, List.take_left' (length_leBytes _ _),
    ofLeBytes_eight hid, ofLeBytes_eight hoffset, h4]

theorem decodeRowEntry_encode {x : RowID × PageID} (hrow : x.1 < 2 ^ 64) (hpage : x.2 < 2 ^ 64) :
    decodeRowEntry (encodeRowEntry x) = x := by
  rw [decodeRowEntry, encodeRowEntry, List.take_left' (length_leBytes _ _),
    List.drop_left' (length_leBytes _ _), ofLeBytes_eight hrow, ofLeBytes_eight hpage]

/-- The numbers of the index have the widths of their types. -/
structure DiskIndex.Fits (index : DiskIndex) : Prop where
  pages : ∀ x ∈ index.pages.toList, x.1 < 2 ^ 64 ∧ x.2.offset < 2 ^ 64 ∧ x.2.length < 2 ^ 32
  rowLocations : ∀ x ∈ index.rowLocations.toList, x.1 < 2 ^ 64 ∧ x.2 < 2 ^ 64
  pageCount : index.pages.toList.length < 2 ^ 64
  rowCount : index.rowLocations.toList.length < 2 ^ 64

instance (index : DiskIndex) : Decidable index.Fits :=
  decidable_of_iff (((∀ x ∈ index.pages.toList, x.1 < 2 ^ 64 ∧ x.2.offset < 2 ^ 64 ∧
      x.2.length < 2 ^ 32) ∧ ∀ x ∈ index.rowLocations.toList, x.1 < 2 ^ 64 ∧ x.2 < 2 ^ 64) ∧
      index.pages.toList.length < 2 ^ 64 ∧ index.rowLocations.toList.length < 2 ^ 64)
    ⟨fun h => ⟨h.1.1, h.1.2, h.2.1, h.2.2⟩, fun h => ⟨⟨h.1, h.2⟩, h.3, h.4⟩⟩

def encodeIndex (index : DiskIndex) : Except String Bytes :=
  if index.Fits then
    .ok (encodeMap encodePageEntry index.pages ++ encodeMap encodeRowEntry index.rowLocations)
  else .error "number out of range"

/-- Bytes behind the index are ignored. -/
def decodeIndex (bytes : Bytes) : Except String DiskIndex :=
  match decodeMap 20 decodePageEntry bytes with
  | none => .error "unexpected end of file"
  | some (pages, rest) =>
    match decodeMap 16 decodeRowEntry rest with
    | none => .error "unexpected end of file"
    | some (rowLocations, _) => .ok ⟨pages, rowLocations⟩

def decodePages (bytes : Bytes) : Except String PageIndex :=
  match decodeMap 20 decodePageEntry bytes with
  | none => .error "unexpected end of file"
  | some (pages, _) => .ok pages

theorem decodeIndex_encodeIndex {index : DiskIndex} {bytes : Bytes}
    (h : encodeIndex index = .ok bytes) : decodeIndex bytes = .ok index := by
  unfold encodeIndex at h
  split_ifs at h with hfits
  rw [← Except.ok.inj h]
  have hpages : decodeMap 20 decodePageEntry (encodeMap encodePageEntry index.pages ++
      encodeMap encodeRowEntry index.rowLocations) =
        some (index.pages, encodeMap encodeRowEntry index.rowLocations) :=
    decodeMap_encodeMap hfits.pageCount (fun x _ => by simp [encodePageEntry, length_leBytes])
      (fun x hx => decodePageEntry_encode (hfits.pages x hx).1 (hfits.pages x hx).2.1
        (hfits.pages x hx).2.2) _
  have hrows : decodeMap 16 decodeRowEntry (encodeMap encodeRowEntry index.rowLocations ++ []) =
      some (index.rowLocations, []) :=
    decodeMap_encodeMap hfits.rowCount (fun x _ => by simp [encodeRowEntry, length_leBytes])
      (fun x hx => decodeRowEntry_encode (hfits.rowLocations x hx).1 (hfits.rowLocations x hx).2) []
  rw [List.append_nil] at hrows
  unfold decodeIndex
  rw [hpages]
  dsimp only
  rw [hrows]

theorem encodeIndex_ne_nil {index : DiskIndex} {bytes : Bytes} (h : encodeIndex index = .ok bytes) :
    bytes ≠ [] := by
  unfold encodeIndex at h
  split_ifs at h
  rw [← Except.ok.inj h]
  intro hnil
  have hlength := congrArg List.length hnil
  simp [encodeMap, length_leBytes] at hlength

/-! ## The two formats -/

/-- An index without a row map, as older files have it. -/
def legacyIndex (pages : PageIndex) : Bytes := encodeMap encodePageEntry pages

namespace PageStore

/-- `serialize_index`. -/
def serializeIndex {π : Type} (code : Bincode π) (index : PageIndex) (rowLocations : RowLocationIndex) :
    Except DataBaseErrors Bytes := serializationError (code.encodeIndex ⟨index, rowLocations⟩)

end PageStore

/-- `bincode` with this encoding of the index, whatever it does for the pages. -/
def fixedWidth {π : Type} (encodePage : π → Except String Bytes) (decodePage : Bytes → Except String π) :
    Bincode π := ⟨encodePage, decodePage, encodeIndex, decodeIndex, decodePages⟩

section Formats

variable {π : Type} {encodePage : π → Except String Bytes} {decodePage : Bytes → Except String π}
  {pages : PageIndex} {rowLocations : RowLocationIndex} {rest : Bytes}

theorem decodeMap_legacyIndex (h : DiskIndex.Fits ⟨pages, rowLocations⟩) :
    decodeMap 20 decodePageEntry (legacyIndex pages ++ rest) = some (pages, rest) :=
  decodeMap_encodeMap h.pageCount (fun x _ => by simp [encodePageEntry, length_leBytes])
    (fun x hx => decodePageEntry_encode (h.pages x hx).1 (h.pages x hx).2.1 (h.pages x hx).2.2) rest

/-- Behind the pages of a legacy index no number of rows follows. -/
theorem decodeIndex_legacyIndex (h : DiskIndex.Fits ⟨pages, rowLocations⟩) :
    decodeIndex (legacyIndex pages) = .error "unexpected end of file" := by
  have hpages := @decodeMap_legacyIndex pages rowLocations [] h
  rw [List.append_nil] at hpages
  have hrows : decodeMap 16 decodeRowEntry [] = none := rfl
  unfold decodeIndex
  rw [hpages]
  dsimp only
  rw [hrows]

theorem decodePages_legacyIndex (h : DiskIndex.Fits ⟨pages, rowLocations⟩) :
    decodePages (legacyIndex pages) = .ok pages := by
  have hpages := @decodeMap_legacyIndex pages rowLocations [] h
  rw [List.append_nil] at hpages
  unfold decodePages
  rw [hpages]

theorem legacyIndex_ne_nil : legacyIndex pages ≠ [] := by
  intro hnil
  have hlength := congrArg List.length hnil
  simp [legacyIndex, encodeMap, length_leBytes] at hlength

theorem fixedWidth_decodeIndex : (fixedWidth encodePage decodePage).decodeIndex = decodeIndex := rfl

theorem fixedWidth_decodePages : (fixedWidth encodePage decodePage).decodePages = decodePages := rfl

theorem encodeIndex_fits (h : DiskIndex.Fits ⟨pages, rowLocations⟩) : encodeIndex ⟨pages, rowLocations⟩ =
    .ok (legacyIndex pages ++ encodeMap encodeRowEntry rowLocations) := if_pos h

theorem serializeIndex_fits (h : DiskIndex.Fits ⟨pages, rowLocations⟩) :
    PageStore.serializeIndex (fixedWidth encodePage decodePage) pages rowLocations =
      .ok (legacyIndex pages ++ encodeMap encodeRowEntry rowLocations) := by
  show PageStore.serializationError (encodeIndex _) = _
  rw [encodeIndex_fits h]
  rfl

/-- **Both formats of the index come back**, and no index of the older one is taken for the newer. -/
theorem index_formats (h : DiskIndex.Fits ⟨pages, rowLocations⟩) :
    (∃ bytes, PageStore.serializeIndex (fixedWidth encodePage decodePage) pages rowLocations = .ok bytes ∧
      PageStore.deserializeIndex (fixedWidth encodePage decodePage) bytes = .ok (pages, rowLocations)) ∧
    PageStore.deserializeIndex (fixedWidth encodePage decodePage) (legacyIndex pages) = .ok (pages, ∅) ∧
    ∀ index, decodeIndex (legacyIndex pages) ≠ .ok index := by
  refine ⟨⟨_, serializeIndex_fits h, ?_⟩, ?_, ?_⟩
  · unfold PageStore.deserializeIndex
    rw [if_neg (encodeIndex_ne_nil (encodeIndex_fits h)), fixedWidth_decodeIndex,
      decodeIndex_encodeIndex (encodeIndex_fits h)]
  · unfold PageStore.deserializeIndex
    rw [if_neg legacyIndex_ne_nil, fixedWidth_decodeIndex, decodeIndex_legacyIndex h,
      fixedWidth_decodePages]
    dsimp only
    rw [decodePages_legacyIndex h]
  · intro index hdecode
    rw [decodeIndex_legacyIndex h] at hdecode
    cases hdecode

end Formats

/-! ## Pages without rows -/

/-- The encoding of a page that has just been made; other pages are not encoded. -/
def encodeNewPage (page : Page) : Except String Bytes :=
  if page = .new page.pageId page.capacity ∧ page.pageId < 2 ^ 64 ∧ page.capacity < 2 ^ 64 then
    .ok (leBytes 8 page.pageId ++ leBytes 8 page.capacity ++ leBytes 8 0 ++ leBytes 8 0 ++ [0, 0, 0])
  else .error "page with rows"

def decodeNewPage (bytes : Bytes) : Except String Page :=
  if bytes.length = 35 then
    .ok (.new (ofLeBytes (bytes.take 8)) (ofLeBytes ((bytes.drop 8).take 8)))
  else .error "unexpected end of file"

/-- The encoding for page files whose pages have no rows. -/
def newPages : Bincode Page where
  encodePage := encodeNewPage
  decodePage := decodeNewPage
  encodeIndex := encodeIndex
  decodeIndex := decodeIndex
  decodePages := decodePages

theorem length_newPages {page : Page} {bytes : Bytes} (h : newPages.encodePage page = .ok bytes) :
    bytes.length < 2 ^ 32 := by
  replace h : encodeNewPage page = .ok bytes := h
  unfold encodeNewPage at h
  split_ifs at h
  rw [← Except.ok.inj h]
  simp [length_leBytes]

theorem newPages_lawful : newPages.Lawful where
  page page bytes h := by
    replace h : encodeNewPage page = .ok bytes := h
    unfold encodeNewPage at h
    split_ifs at h with hpage
    rw [← Except.ok.inj h]
    unfold newPages
    dsimp only
    rw [decodeNewPage, if_pos (by simp [length_leBytes])]
    simp only [List.append_assoc]
    rw [List.take_left' (length_leBytes _ _), List.drop_left' (length_leBytes _ _),
      List.take_left' (length_leBytes _ _), ofLeBytes_eight hpage.2.1, ofLeBytes_eight hpage.2.2,
      ← hpage.1]
  index _ _ := decodeIndex_encodeIndex
  index_ne_nil _ _ := encodeIndex_ne_nil

theorem index_formats_newPages :
    let code := fixedWidth encodeNewPage decodeNewPage
    let pages : PageIndex := .ofList [(1, ⟨33, 35⟩), (2, ⟨68, 35⟩)] compare
    let rowLocations : RowLocationIndex := .ofList [(10, 1), (11, 2)] compare
    (∃ bytes, PageStore.serializeIndex code pages rowLocations = .ok bytes ∧
      PageStore.deserializeIndex code bytes = .ok (pages, rowLocations)) ∧
    PageStore.deserializeIndex code (legacyIndex pages) = .ok (pages, ∅) ∧
    ∀ index, decodeIndex (legacyIndex pages) ≠ .ok index := by
  intro code pages rowLocations
  have hfits : DiskIndex.Fits ⟨pages, rowLocations⟩ := by decide +kernel
  exact index_formats hfits

end AntDb.Disk
