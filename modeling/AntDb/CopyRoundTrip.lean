/-
  What `COPY FROM` reads of what `COPY TO` writes, with the default options.

  A written field is read back as its text, but the null string is not escaped and is read as
  the letter `N`; and bytes are written with a backslash too many.
-/
import AntDb.CopyRows

namespace AntDb.Copy

variable {delimiter : Char} {fmt : StdFormatting} {std : StdParsing} {entry : DataBaseDataEntry}
  {text field : String} {written : List Char} {n : ℤ} {signed : Bool}

/-! ## Written fields -/

/-- What is written is read as the field, whatever comes after it. -/
def ReadsAs (delimiter : Char) (written : List Char) (field : String) : Prop :=
  ∀ rest, readFields delimiter (written ++ rest) = field.toList.map some ++ readFields delimiter rest

theorem readsAs_escaped (h : Escapable delimiter) :
    ReadsAs delimiter (escapeCopyField field delimiter) field := by
  intro rest
  have hunits : escapeCopyField field delimiter =
      (field.toList.map some).flatMap (escapeUnit delimiter) :=
    (List.flatMap_map some (escapeUnit delimiter) field.toList).symm
  rw [hunits]
  refine readFields_units fun u hu => ?_
  obtain ⟨c, -, rfl⟩ := List.mem_map.1 hu
  exact readsBack_some (Or.inr h)

/-- The null string is read as a letter. -/
theorem readsAs_null : ReadsAs '\t' "\\N".toList "N" := fun _ => readFields_escape (by decide)

theorem readFields_joined {fields : List String} {all : List (List Char)} (h : delimiter ≠ '\\')
    (hall : List.Forall₂ (ReadsAs delimiter) all fields) :
    readFields delimiter (joinFields delimiter all) = unitsOf fields := by
  induction hall with
  | nil => exact readFields.eq_1 delimiter
  | @cons written field others fields hfield hall ih =>
    rw [joinFields, unitsOf] at ih ⊢
    cases hall with
    | nil =>
      have hread := hfield []
      rw [List.append_nil, readFields, List.append_nil] at hread
      rwa [List.intercalate_singleton, List.map_singleton, List.intercalate_singleton]
    | cons =>
      rw [List.intercalate_cons_cons, List.append_assoc, hfield, List.singleton_append, readFields_char h,
        if_pos rfl, ih]
      rfl

theorem splitCopyFields_joined {fields : List String} {all : List (List Char)} (h : delimiter ≠ '\\')
    (hne : fields ≠ []) (hall : List.Forall₂ (ReadsAs delimiter) all fields) :
    splitCopyFields (joinFields delimiter all) delimiter = fields :=
  (splitCopyFields_iff hne).2 (readFields_joined h hall)

theorem splitCopyFields_written (h : delimiter ≠ '\\') (hwritten : ReadsAs delimiter written field) :
    splitCopyFields written delimiter = [field] := by
  have hjoined := splitCopyFields_joined h (by simp) (.cons hwritten .nil)
  rwa [joinFields, List.intercalate_singleton] at hjoined

/-! ## Values -/

/-- The field that a formatted entry is read as. -/
def fieldText (fmt : StdFormatting) (entry : DataBaseDataEntry) : String :=
  (rendered fmt entry).getD "N"

theorem readsAs_formatted : ReadsAs '\t' (formatCopyValue fmt entry "\\N" '\t') (fieldText fmt entry) := by
  rw [formatCopyValue, fieldText]
  cases rendered fmt entry with
  | none => exact readsAs_null
  | some text => exact readsAs_escaped (by decide)

theorem not_decimal_nullString : ¬ Decimal signed "\\N".toList n := by
  intro h
  have hdigits := (decimal_plain_iff (by rintro rest ⟨⟩) (by rintro rest ⟨⟩)).1 h
  exact absurd (hdigits.2.1 '\\' (by decide)) (by decide)

/-- What is rendered of an entry of a type that is checked is a written form of the entry. -/
theorem written_rendered (h : isChecked entry.dataType = true) (htext : rendered fmt entry = some text) :
    Written entry.dataType text entry := by
  cases entry with
  | null | floatF32 | floatF64 | string | bytes | timestamp => cases h
  | boolean flag =>
    obtain rfl := Option.some.inj htext
    refine ⟨flag, rfl, ?_⟩
    cases flag <;> decide +kernel
  | integerU8 | integerU16 | integerU32 | integerU64 | integerU128 =>
    obtain rfl := Option.some.inj htext
    exact ⟨_, rfl, decimal_repr _⟩
  | integerI8 | integerI16 | integerI32 | integerI64 | integerI128 =>
    obtain rfl := Option.some.inj htext
    exact ⟨_, rfl, decimal_repr_int _⟩

theorem rendered_isSome (h : entry ≠ .null) : ∃ text, rendered fmt entry = some text := by
  cases entry with
  | null => exact absurd rfl h
  | _ => exact ⟨_, rfl⟩

theorem not_written_nullString {dataType : DataBaseDataType} {v : DataBaseDataEntry} :
    ¬ Written dataType "\\N" v := by
  intro h
  cases dataType with
  | null | floatF32 | floatF64 | string => exact h
  | boolean =>
    obtain ⟨flag, -, h⟩ := h
    cases flag <;> exact absurd h (by decide +kernel)
  | bytes =>
    obtain ⟨hex, bytes, -, h, -⟩ := h
    cases h
  | integerU8 | integerU16 | integerU32 | integerU64 | integerU128 | integerI8 | integerI16
    | integerI32 | integerI64 | integerI128 | timestamp =>
    obtain ⟨w, -, h⟩ := h
    exact not_decimal_nullString h

theorem length_le_utf8Encode (chars : List Char) : chars.length ≤ chars.utf8Encode.size := by
  induction chars with
  | nil => exact Nat.zero_le _
  | cons c chars ih =>
    have hc : [c].utf8Encode.size = c.utf8Size := by
      rw [List.utf8Encode_singleton, List.size_toByteArray, String.length_utf8EncodeChar]
    have hpos := c.utf8Size_pos
    rw [List.utf8Encode_cons, ByteArray.size_append, hc, List.length_cons]
    omega

theorem length_toList (b : ByteArray) : b.toList.length = b.size := by
  have hloop : ∀ i r, (ByteArray.toList.loop b i r).length = (b.size - i) + r.length := by
    intro i r
    induction i, r using ByteArray.toList.loop.induct b with
    | case1 i r hi ih =>
      rw [ByteArray.toList.loop, if_pos hi, ih, List.length_cons]
      omega
    | case2 i r hi =>
      rw [ByteArray.toList.loop, if_neg hi, List.length_reverse]
      omega
  have h := hloop 0 []
  rwa [Nat.sub_zero] at h

theorem length_encodeHex (bytes : List UInt8) : (encodeHex bytes).toList.length = 2 * bytes.length := by
  rw [encodeHex, String.toList_ofList]
  induction bytes with
  | nil => rfl
  | cons byte bytes ih =>
    rw [List.flatMap_cons, List.length_append, ih]
    show 2 + _ = 2 * (bytes.length + 1)
    ring

/-- Bytes are written with two backslashes, and are read as text that is longer. -/
theorem parseCopyValue_rendered_bytes {bytes : List UInt8} :
    parseCopyValue std ("\\\\x" ++ encodeHex bytes) .bytes "\\N" ≠ .ok (.bytes bytes) := by
  have htext : ("\\\\x" ++ encodeHex bytes).toList = '\\' :: '\\' :: 'x' :: (encodeHex bytes).toList := by
    rw [String.toList_append]
    rfl
  have hnull : "\\\\x" ++ encodeHex bytes ≠ "\\N" := by
    intro h
    rw [h] at htext
    cases htext
  rw [parseCopyValue.eq_def, if_neg hnull]
  dsimp only
  split
  · rename_i hex hhex
    rw [htext] at hhex
    cases hhex
  · intro h
    have hbytes : ("\\\\x" ++ encodeHex bytes).toUTF8.toList = bytes := by
      simpa using h
    have hle := length_le_utf8Encode ("\\\\x" ++ encodeHex bytes).toList
    rw [String.utf8Encode_toList, ← String.toUTF8_eq_toByteArray, ← length_toList, hbytes, htext] at hle
    simp only [List.length_cons, length_encodeHex] at hle
    omega

/-- The formatted entry is read as one field, and its value is the entry. -/
def RoundTrips (fmt : StdFormatting) (std : StdParsing) (entry : DataBaseDataEntry) : Prop :=
  ∃ field, splitCopyFields (formatCopyValue fmt entry "\\N" '\t') '\t' = [field] ∧
    parseCopyValue std field entry.dataType "\\N" = .ok entry

/-- **Values round-trip** except for bytes. -/
theorem roundTrips_iff (hnull : entry ≠ .null)
    (hfloat : entry.dataType ≠ .floatF32 ∧ entry.dataType ≠ .floatF64)
    (hmarker : entry ≠ .string "\\N") : RoundTrips fmt std entry ↔ entry.dataType ≠ .bytes := by
  obtain ⟨text, htext⟩ : ∃ text, rendered fmt entry = some text := rendered_isSome hnull
  have hsplit : splitCopyFields (formatCopyValue fmt entry "\\N" '\t') '\t' = [text] := by
    have hreads : ReadsAs '\t' (formatCopyValue fmt entry "\\N" '\t') (fieldText fmt entry) :=
      readsAs_formatted
    have h := splitCopyFields_written (by decide) hreads
    rwa [fieldText, htext] at h
  have hparse : RoundTrips fmt std entry ↔ parseCopyValue std text entry.dataType "\\N" = .ok entry := by
    simp [RoundTrips, hsplit]
  rw [hparse]
  by_cases hchecked : isChecked entry.dataType = true
  · have hbytes : entry.dataType ≠ .bytes := by
      intro h
      rw [h] at hchecked
      cases hchecked
    have hwritten := written_rendered hchecked htext
    have hne : text ≠ "\\N" := by
      rintro rfl
      exact not_written_nullString hwritten
    exact iff_of_true ((parseCopyValue_checked hchecked hne).2 hwritten) hbytes
  cases entry with
  | null => exact absurd rfl hnull
  | floatF32 => exact absurd rfl hfloat.1
  | floatF64 => exact absurd rfl hfloat.2
  | string s =>
    obtain rfl := Option.some.inj htext
    have hne : s ≠ "\\N" := fun h => hmarker (by rw [h])
    refine iff_of_true ?_ (by rintro ⟨⟩)
    rw [parseCopyValue.eq_def, if_neg hne]
    rfl
  | timestamp w =>
    obtain rfl := Option.some.inj htext
    have hwritten : Written .timestamp w.toInt.repr (.timestamp w) := ⟨w, rfl, decimal_repr_int _⟩
    have hne : w.toInt.repr ≠ "\\N" := fun h => not_written_nullString (h ▸ hwritten)
    exact iff_of_true ((parseCopyValue_timestamp hne).2 (Or.inl hwritten)) (by rintro ⟨⟩)
  | bytes b =>
    obtain rfl := Option.some.inj htext
    exact iff_of_false parseCopyValue_rendered_bytes (by simp [DataBaseDataEntry.dataType])
  | boolean | integerU8 | integerU16 | integerU32 | integerU64 | integerU128 | integerI8 | integerI16
    | integerI32 | integerI64 | integerI128 => exact absurd rfl hchecked

theorem roundTrips_string : DataBaseDataEntry.string "a\\b" ≠ .null ∧
    RoundTrips .floatless .floatless (.string "a\\b") :=
  ⟨by decide, (roundTrips_iff (by decide) (by decide) (by decide)).2 (by decide)⟩

/-- The byte 1 is written `\\\\x01` and read as the text `\\x01`. -/
theorem bytes_changed : ¬ ∀ fmt std entry, entry ≠ .null →
    entry.dataType ≠ .floatF32 ∧ entry.dataType ≠ .floatF64 → entry ≠ .string "\\N" →
      RoundTrips fmt std entry := by
  intro h
  obtain ⟨field, hsplit, hparse⟩ := h .floatless .floatless (.bytes [1]) (by decide) (by decide) (by decide)
  have hread : splitCopyFields (formatCopyValue .floatless (.bytes [1]) "\\N" '\t') '\t' = ["\\\\x01"] := by
    decide +kernel
  rw [hread] at hsplit
  obtain rfl : "\\\\x01" = field := by simpa using hsplit
  have hvalue : parseCopyValue .floatless "\\\\x01" .bytes "\\N" = .ok (.bytes [92, 92, 120, 48, 49]) := by
    decide +kernel
  have : Except.ok (DataBaseDataEntry.bytes [92, 92, 120, 48, 49]) = Except.ok (ε := Fault) (.bytes [1]) :=
    hvalue.symm.trans hparse
  exact absurd this (by decide)

end AntDb.Copy
