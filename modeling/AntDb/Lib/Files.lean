/-
  Files as strings of bytes: reading and writing at an offset, and numbers written with their
  least significant byte first.
-/
import AntDb.Lib.SipHash

namespace Files

open SipHash

abbrev Bytes := List UInt8

/-! ## Numbers -/

theorem length_leBytes (n x : ℕ) : (leBytes n x).length = n := by simp [leBytes]

theorem leBytes_succ (n x : ℕ) : leBytes (n + 1) x = UInt8.ofNat x :: leBytes n (x / 256) := by
  simp [leBytes, List.range_succ_eq_map, Function.comp_def, pow_succ', Nat.div_div_eq_div_mul]

/-- The bytes of a number are its remainder. -/
theorem ofLeBytes_leBytes (n x : ℕ) : ofLeBytes (leBytes n x) = x % 256 ^ n := by
  induction n generalizing x with
  | zero => simp [leBytes, ofLeBytes, Nat.mod_one]
  | succ n ih =>
    have h : ofLeBytes (leBytes (n + 1) x) = x % 256 + 256 * ofLeBytes (leBytes n (x / 256)) := by
      rw [leBytes_succ]
      simp [ofLeBytes]
    rw [h, ih, pow_succ', Nat.mod_mul]

theorem ofLeBytes_of_lt {n x : ℕ} (h : x < 256 ^ n) : ofLeBytes (leBytes n x) = x := by
  rw [ofLeBytes_leBytes, Nat.mod_eq_of_lt h]

/-! ## Reading and writing -/

/-- All of the `length` bytes from `offset` on. -/
def readAt (file : Bytes) (offset length : ℕ) : Option Bytes :=
  let bytes := (file.drop offset).take length
  if bytes.length = length then some bytes else none

/-- Write `bytes` from `offset` on.  A gap between the end of the file and them reads as zeros. -/
def writeAt (file : Bytes) (offset : ℕ) (bytes : Bytes) : Bytes :=
  if bytes = [] then file
  else file.take offset ++ List.replicate (offset - file.length) 0 ++ bytes ++
    file.drop (offset + bytes.length)

variable {file bytes read : Bytes} {offset length i : ℕ}

theorem readAt_iff :
    readAt file offset length = some read ↔
      read.length = length ∧ ∀ i < length, file[offset + i]? = read[i]? := by
  unfold readAt
  dsimp only
  constructor
  · intro h
    split_ifs at h with hlength
    obtain rfl := Option.some.inj h
    exact ⟨hlength, fun i hi => by rw [List.getElem?_take_of_lt hi, List.getElem?_drop]⟩
  · rintro ⟨rfl, h⟩
    have heq : (file.drop offset).take read.length = read := by
      refine List.ext_getElem? fun i => ?_
      by_cases hi : i < read.length
      · rw [List.getElem?_take_of_lt hi, List.getElem?_drop, h i hi]
      · rw [List.getElem?_eq_none (by simp; omega), List.getElem?_eq_none (by omega)]
    rw [heq, if_pos rfl]

theorem getElem_writeAt_below (h : i < offset) (hi : i < file.length) :
    (writeAt file offset bytes)[i]? = file[i]? := by
  unfold writeAt
  split_ifs
  · rfl
  · rw [List.append_assoc, List.append_assoc, List.getElem?_append_left (by simp; omega),
      List.getElem?_take_of_lt h]

theorem getElem_writeAt_within (h : i < bytes.length) :
    (writeAt file offset bytes)[offset + i]? = bytes[i]? := by
  have hne : bytes ≠ [] := fun he => by simp [he] at h
  have hlength : (file.take offset ++ List.replicate (offset - file.length) 0).length = offset := by
    simp; omega
  rw [writeAt, if_neg hne, List.append_assoc, List.getElem?_append_right (by omega), hlength,
    Nat.add_sub_cancel_left, List.getElem?_append_left h]

theorem getElem_writeAt_above (h : offset + bytes.length ≤ i) :
    (writeAt file offset bytes)[i]? = file[i]? := by
  unfold writeAt
  split_ifs
  · rfl
  · have hlength : (file.take offset ++ List.replicate (offset - file.length) 0 ++ bytes).length =
        offset + bytes.length := by
      simp; omega
    rw [List.getElem?_append_right (by omega), hlength, List.getElem?_drop, Nat.add_sub_cancel' h]

/-- What has been written is read back. -/
theorem readAt_writeAt : readAt (writeAt file offset bytes) offset bytes.length = some bytes :=
  readAt_iff.2 ⟨rfl, fun _ hi => getElem_writeAt_within hi⟩

/-- A write elsewhere does not change what is read. -/
theorem readAt_writeAt_disjoint (h : readAt file offset length = some read) {offset' : ℕ}
    (hdisjoint : offset + length ≤ offset' ∨ offset' + bytes.length ≤ offset) :
    readAt (writeAt file offset' bytes) offset length = some read := by
  obtain ⟨hlength, hread⟩ := readAt_iff.1 h
  refine readAt_iff.2 ⟨hlength, fun i hi => ?_⟩
  rw [← hread i hi]
  rcases hdisjoint with hbelow | habove
  · have hin : offset + i < file.length := by
      by_contra hout
      have hnone := hread i hi
      rw [List.getElem?_eq_none (by omega), List.getElem?_eq_getElem (by omega)] at hnone
      cases hnone
    exact getElem_writeAt_below (by omega) hin
  · exact getElem_writeAt_above (by omega)

/-- Reading a part of what is read. -/
theorem readAt_append {first second : Bytes}
    (h : readAt file offset (first ++ second).length = some (first ++ second)) :
    readAt file offset first.length = some first ∧
      readAt file (offset + first.length) second.length = some second := by
  obtain ⟨-, hread⟩ := readAt_iff.1 h
  rw [List.length_append] at hread
  constructor
  · refine readAt_iff.2 ⟨rfl, fun i hi => ?_⟩
    rw [hread i (by omega), List.getElem?_append_left hi]
  · refine readAt_iff.2 ⟨rfl, fun i hi => ?_⟩
    rw [Nat.add_assoc, hread (first.length + i) (by omega), List.getElem?_append_right (by omega),
      Nat.add_sub_cancel_left]

@[simp] theorem writeAt_nil : writeAt file offset [] = file := if_pos rfl

theorem length_le_writeAt : file.length ≤ (writeAt file offset bytes).length := by
  unfold writeAt
  split_ifs
  · exact le_rfl
  · simp only [List.length_append, List.length_take, List.length_replicate, List.length_drop]
    omega

theorem end_le_writeAt (h : bytes ≠ []) : offset + bytes.length ≤ (writeAt file offset bytes).length := by
  rw [writeAt, if_neg h]
  simp only [List.length_append, List.length_take, List.length_replicate, List.length_drop]
  omega

/-- The gap between the end of the file and what is written reads as zeros. -/
theorem getElem_writeAt_gap (h : bytes ≠ []) (hi : file.length ≤ i) (hoffset : i < offset) :
    (writeAt file offset bytes)[i]? = some 0 := by
  have htake : (file.take offset).length = file.length := by simp; omega
  rw [writeAt, if_neg h, List.append_assoc, List.append_assoc,
    List.getElem?_append_right (by omega), htake,
    List.getElem?_append_left (by simp; omega), List.getElem?_replicate, if_pos (by omega)]

/-- Writing one piece behind the other writes both. -/
theorem writeAt_writeAt {first second : Bytes} :
    writeAt (writeAt file offset first) (offset + first.length) second =
      writeAt file offset (first ++ second) := by
  by_cases hfirst : first = []
  · simp [hfirst]
  by_cases hsecond : second = []
  · simp [hsecond]
  have hboth : first ++ second ≠ [] := by simp [hfirst]
  have hend : offset + first.length ≤ (writeAt file offset first).length := end_le_writeAt hfirst
  refine List.ext_getElem? fun i => ?_
  rcases lt_or_ge i offset with hi | hi
  · rw [getElem_writeAt_below (by omega) (by omega)]
    rcases lt_or_ge i file.length with hin | hout
    · rw [getElem_writeAt_below hi hin, getElem_writeAt_below hi hin]
    · rw [getElem_writeAt_gap hfirst hout hi, getElem_writeAt_gap hboth hout hi]
  obtain ⟨k, rfl⟩ := Nat.exists_eq_add_of_le hi
  rcases lt_or_ge k first.length with hk | hk
  · rw [getElem_writeAt_below (by omega) (by omega), getElem_writeAt_within hk,
      getElem_writeAt_within (by rw [List.length_append]; omega), List.getElem?_append_left hk]
  obtain ⟨j, rfl⟩ := Nat.exists_eq_add_of_le hk
  rcases lt_or_ge j second.length with hj | hj
  · rw [← Nat.add_assoc, getElem_writeAt_within hj, Nat.add_assoc,
      getElem_writeAt_within (by rw [List.length_append]; omega), List.getElem?_append_right hk,
      Nat.add_sub_cancel_left]
  · rw [getElem_writeAt_above (by omega), getElem_writeAt_above (by omega),
      getElem_writeAt_above (by rw [List.length_append]; omega)]

/-! ## Files that agree -/

/-- The files have the same bytes in front of `limit`. -/
def AgreeBelow (limit : ℕ) (file file' : Bytes) : Prop := ∀ i < limit, file'[i]? = file[i]?

namespace AgreeBelow

variable {file' file'' : Bytes} {limit limit' : ℕ}

theorem refl (limit : ℕ) (file : Bytes) : AgreeBelow limit file file := fun _ _ => rfl

theorem trans (h : AgreeBelow limit file file') (h' : AgreeBelow limit file' file'') :
    AgreeBelow limit file file'' := fun i hi => (h' i hi).trans (h i hi)

theorem symm (h : AgreeBelow limit file file') : AgreeBelow limit file' file := fun i hi =>
  (h i hi).symm

theorem mono (h : AgreeBelow limit file file') (hle : limit' ≤ limit) : AgreeBelow limit' file file' :=
  fun i hi => h i (hi.trans_le hle)

/-- What lies in front of the limit is read alike. -/
theorem readAt (h : AgreeBelow limit file file') (hle : offset + length ≤ limit) :
    readAt file' offset length = readAt file offset length := by
  refine Option.ext fun read => ?_
  rw [readAt_iff, readAt_iff]
  refine and_congr_right fun _ => forall₂_congr fun i hi => ?_
  rw [h (offset + i) (by omega)]

/-- A write behind the limit. -/
theorem writeAt (hoffset : limit ≤ offset) (hlength : limit ≤ file.length) :
    AgreeBelow limit file (writeAt file offset bytes) := fun _ hi =>
  getElem_writeAt_below (hi.trans_le hoffset) (hi.trans_le hlength)

end AgreeBelow

theorem readAt_zero : readAt file offset 0 = some [] := by simp [readAt]

end Files
