/-
  Which text `parse_copy_value` takes for which values.

  Text of an integer or Boolean column that is not a written form is an error.  A timestamp
  falls back to the current time, and bytes to what the pair parser makes of a plus sign; a
  slice inside a character has no answer at all.
-/
import AntDb.CopyValues

namespace AntDb.Copy

/-! ## Written forms -/

/-- `text` is a written form of `v` for a column of type `dataType`. -/
def Written (dataType : DataBaseDataType) (text : String) (v : DataBaseDataEntry) : Prop :=
  match dataType with
  | .boolean => ∃ flag, v = .boolean flag ∧
    normalizeIdentifier text ∈ if flag then ["t", "true", "yes", "1"] else ["f", "false", "no", "0"]
  | .integerU8 => ∃ w, v = .integerU8 w ∧ Decimal false text.toList w.toNat
  | .integerU16 => ∃ w, v = .integerU16 w ∧ Decimal false text.toList w.toNat
  | .integerU32 => ∃ w, v = .integerU32 w ∧ Decimal false text.toList w.toNat
  | .integerU64 => ∃ w, v = .integerU64 w ∧ Decimal false text.toList w.toNat
  | .integerU128 => ∃ w, v = .integerU128 w ∧ Decimal false text.toList w.toNat
  | .integerI8 => ∃ w, v = .integerI8 w ∧ Decimal true text.toList w.toInt
  | .integerI16 => ∃ w, v = .integerI16 w ∧ Decimal true text.toList w.toInt
  | .integerI32 => ∃ w, v = .integerI32 w ∧ Decimal true text.toList w.toInt
  | .integerI64 => ∃ w, v = .integerI64 w ∧ Decimal true text.toList w.toInt
  | .integerI128 => ∃ w, v = .integerI128 w ∧ Decimal true text.toList w.toInt
  | .timestamp => ∃ w, v = .timestamp w ∧ Decimal true text.toList w.toInt
  | .bytes => ∃ hex bytes, v = .bytes bytes ∧ text.toList = '\\' :: 'x' :: hex ∧ Spells hex bytes
  | .null | .floatF32 | .floatF64 | .string => False

/-- The types whose values are checked: the integers and the Booleans. -/
def isChecked : DataBaseDataType → Bool
  | .null | .floatF32 | .floatF64 | .string | .bytes | .timestamp => false
  | _ => true

variable {std : StdParsing} {dataType : DataBaseDataType} {text nullString : String}
  {v : DataBaseDataEntry} {hex : List Char} {bytes : List UInt8}

theorem parseBoolean_iff {flag : Bool} : parseBoolean text = some flag ↔
    normalizeIdentifier text ∈ if flag then ["t", "true", "yes", "1"] else ["f", "false", "no", "0"] := by
  have hdisjoint : ∀ word ∈ ["t", "true", "yes", "1"], word ∉ ["f", "false", "no", "0"] := by decide
  cases flag with
  | true =>
    rw [if_pos rfl]
    unfold parseBoolean
    split_ifs with htrue hfalse
    · exact iff_of_true rfl htrue
    · exact iff_of_false (by rintro ⟨⟩) htrue
    · exact iff_of_false (by rintro ⟨⟩) htrue
  | false =>
    rw [if_neg Bool.false_ne_true]
    unfold parseBoolean
    split_ifs with htrue hfalse
    · exact iff_of_false (by rintro ⟨⟩) (hdisjoint _ htrue)
    · exact iff_of_true rfl hfalse
    · exact iff_of_false (by rintro ⟨⟩) hfalse

theorem parseCopyValue_null (h : text = nullString) :
    parseCopyValue std text dataType nullString = .ok .null := by
  rw [parseCopyValue.eq_def, if_pos h]

/-- Text that is not the null string is a value of the type exactly if it is a written form. -/
theorem parseCopyValue_checked (h : isChecked dataType = true) (hnull : text ≠ nullString) :
    parseCopyValue std text dataType nullString = .ok v ↔ Written dataType text v := by
  rw [parseCopyValue.eq_def, if_neg hnull]
  cases dataType with
  | null | floatF32 | floatF64 | string | bytes | timestamp => cases h
  | boolean =>
    rw [Written]
    simp only [← parseBoolean_iff]
    cases parseBoolean text with
    | none => exact iff_of_false (by rintro ⟨⟩) (by rintro ⟨flag, -, ⟨⟩⟩)
    | some flag => simp [eq_comm]
  | integerU8 => exact integerValue_iff integerType_u8
  | integerU16 => exact integerValue_iff integerType_u16
  | integerU32 => exact integerValue_iff integerType_u32
  | integerU64 => exact integerValue_iff integerType_u64
  | integerU128 => exact integerValue_iff integerType_u128
  | integerI8 => exact integerValue_iff integerType_i8
  | integerI16 => exact integerValue_iff integerType_i16
  | integerI32 => exact integerValue_iff integerType_i32
  | integerI64 => exact integerValue_iff integerType_i64
  | integerI128 => exact integerValue_iff integerType_i128

theorem parseCopyValue_checked_error (h : isChecked dataType = true)
    (hnot : ∀ v, parseCopyValue std text dataType nullString ≠ .ok v) :
    ∃ e, parseCopyValue std text dataType nullString = .error (.err e) := by
  have hnull : text ≠ nullString := fun hnull => hnot .null (parseCopyValue_null hnull)
  rw [parseCopyValue.eq_def, if_neg hnull]
  simp only [parseCopyValue.eq_def, if_neg hnull] at hnot
  cases dataType with
  | null | floatF32 | floatF64 | string | bytes | timestamp => cases h
  | boolean =>
    dsimp only at hnot ⊢
    cases hparse : parseBoolean text with
    | none => exact ⟨_, rfl⟩
    | some flag => rw [hparse] at hnot; exact absurd rfl (hnot _)
  | integerU8 | integerU16 | integerU32 | integerU64 | integerU128 | integerI8 | integerI16
    | integerI32 | integerI64 | integerI128 => exact integerValue_error hnot

theorem parseCopyValue_now (h : dataType ≠ .timestamp) {now : Int64} :
    parseCopyValue { std with now := now } text dataType nullString =
      parseCopyValue std text dataType nullString := by
  cases dataType <;> first | rfl | exact absurd rfl h

/-! ## Timestamps and bytes -/

theorem parseCopyValue_timestamp (hnull : text ≠ nullString) :
    parseCopyValue std text .timestamp nullString = .ok v ↔ Written .timestamp text v ∨
      ((∀ w, ¬ Written .timestamp text w) ∧ v = .timestamp std.now) := by
  have hwritten : ∀ {w}, integerValue text (-2 ^ 63) (2 ^ 63 - 1)
      (fun n => .timestamp (Int64.ofInt n)) = .ok w ↔ Written .timestamp text w :=
    integerValue_iff integerType_i64
  rw [parseCopyValue.eq_def, if_neg hnull]
  simp only [← hwritten]
  unfold integerValue
  cases parseInteger (-2 ^ 63) (2 ^ 63 - 1) text with
  | ok n => simp
  | error message => simp [eq_comm]

theorem parseCopyValue_bytes (hnull : text ≠ nullString) (htext : text.toList = '\\' :: 'x' :: hex) :
    parseCopyValue std text .bytes nullString = .ok v ↔ ∃ bytes, v = .bytes bytes ∧ Pairs hex bytes := by
  rw [parseCopyValue.eq_def, if_neg hnull]
  simp only [htext, ← decodeHex_ok]
  cases decodeHex hex with
  | error fault => exact iff_of_false (by rintro ⟨⟩) (by rintro ⟨bytes, -, ⟨⟩⟩)
  | ok decoded =>
    cases decoded with
    | error message => exact iff_of_false (by rintro ⟨⟩) (by rintro ⟨bytes, -, ⟨⟩⟩)
    | ok bytes =>
      show Except.ok (DataBaseDataEntry.bytes bytes) = .ok v ↔ _
      simp [eq_comm]

/-- A result or an error, and no panic. -/
def Answers {α : Type} (result : Except Fault α) : Prop :=
  (∃ a, result = .ok a) ∨ ∃ e, result = .error (.err e)

theorem answers_iff {α : Type} {result : Except Fault α} :
    Answers result ↔ ∀ fault, (∀ e, fault ≠ .err e) → result ≠ .error fault := by
  cases result with
  | ok a => exact iff_of_true (Or.inl ⟨a, rfl⟩) fun fault _ => by rintro ⟨⟩
  | error fault =>
    constructor
    · rintro (⟨a, ⟨⟩⟩ | ⟨e, he⟩) fault' hfault heq
      rw [← Except.error.inj heq] at hfault
      exact hfault e (Except.error.inj he)
    · intro h
      by_contra hnot
      exact h fault (fun e he => hnot (Or.inr ⟨e, by rw [he]⟩)) rfl

theorem floatValue_answers {e m : ℕ} {parsed : Except String (Option (NotNan e m))}
    {entry : NotNan e m → DataBaseDataEntry} : Answers (floatValue text parsed entry) := by
  cases parsed with
  | error message => exact Or.inr ⟨_, rfl⟩
  | ok value =>
    cases value with
    | none => exact Or.inr ⟨_, rfl⟩
    | some value => exact Or.inl ⟨_, rfl⟩

theorem parseCopyValue_answers (h : dataType ≠ .bytes) :
    Answers (parseCopyValue std text dataType nullString) := by
  by_cases hnull : text = nullString
  · exact Or.inl ⟨_, parseCopyValue_null hnull⟩
  by_cases hchecked : isChecked dataType = true
  · by_cases hok : ∃ v, parseCopyValue std text dataType nullString = .ok v
    · exact Or.inl hok
    · exact Or.inr (parseCopyValue_checked_error hchecked fun v hv => hok ⟨v, hv⟩)
  rw [parseCopyValue.eq_def, if_neg hnull]
  cases dataType with
  | bytes => exact absurd rfl h
  | null | string => exact Or.inl ⟨_, rfl⟩
  | floatF32 | floatF64 => exact floatValue_answers
  | timestamp =>
    dsimp only
    cases parseInteger (-2 ^ 63) (2 ^ 63 - 1) text <;> exact Or.inl ⟨_, rfl⟩
  | boolean | integerU8 | integerU16 | integerU32 | integerU64 | integerU128 | integerI8 | integerI16
    | integerI32 | integerI64 | integerI128 => exact absurd rfl hchecked

/-- A value is neither an entry nor an error exactly where bytes end inside a character. -/
theorem parseCopyValue_sliced {fault : Fault} (hfault : ∀ e, fault ≠ .err e) :
    parseCopyValue std text dataType nullString = .error fault ↔
      fault = sliced ∧ text ≠ nullString ∧ dataType = .bytes ∧
        ∃ hex, text.toList = '\\' :: 'x' :: hex ∧ utf8Length hex % 2 = 0 ∧ Astray hex := by
  by_cases hbytes : dataType = .bytes
  · subst hbytes
    rw [and_iff_right rfl]
    by_cases hnull : text = nullString
    · rw [parseCopyValue_null hnull]
      exact iff_of_false (by rintro ⟨⟩) fun h => h.2.1 hnull
    rw [and_iff_right hnull, parseCopyValue.eq_def, if_neg hnull]
    dsimp only
    split
    · rename_i hex htext
      rw [htext]
      have hhex : (∃ hex', '\\' :: 'x' :: hex = '\\' :: 'x' :: hex' ∧
          utf8Length hex' % 2 = 0 ∧ Astray hex') ↔ utf8Length hex % 2 = 0 ∧ Astray hex := by
        simp
      rw [hhex, ← decodeHex_error]
      cases decodeHex hex with
      | error fault' =>
        exact ⟨fun h => congrArg Except.error (Except.error.inj h),
          fun h => congrArg Except.error (Except.error.inj h)⟩
      | ok decoded =>
        cases decoded with
        | error message =>
          refine iff_of_false (fun h => ?_) (by rintro ⟨⟩)
          exact hfault _ (Except.error.inj h).symm
        | ok bytes => exact iff_of_false (by rintro ⟨⟩) (by rintro ⟨⟩)
    · rename_i hnot
      refine iff_of_false (by rintro ⟨⟩) ?_
      rintro ⟨-, hex, htext, -⟩
      exact hnot hex htext
  · refine iff_of_false (fun h => ?_) fun h => hbytes h.2.2.1
    have hanswers : Answers (parseCopyValue std text dataType nullString) := parseCopyValue_answers hbytes
    rcases hanswers with ⟨v, hv⟩ | ⟨e, he⟩
    · rw [hv] at h; cases h
    · rw [he] at h
      exact hfault e (Except.error.inj h).symm

/-! ## Malformed values -/

/-- The value is taken for what it is a written form of, and is else an error, at any time. -/
def Faithful (dataType : DataBaseDataType) (text nullString : String) : Prop :=
  ∀ std, (∀ v, parseCopyValue std text dataType nullString = .ok v ↔ Written dataType text v) ∧
    ((∀ v, ¬ Written dataType text v) →
      ∃ e, parseCopyValue std text dataType nullString = .error (.err e)) ∧
    ∀ now, parseCopyValue { std with now := now } text dataType nullString =
      parseCopyValue std text dataType nullString

/-- Text other than the null string for an integer, Boolean or timestamp, or text after `\x`
    for bytes. -/
def Listed (dataType : DataBaseDataType) (text nullString : String) : Prop :=
  ((isChecked dataType = true ∨ dataType = .timestamp) ∧ text ≠ nullString) ∨
    (dataType = .bytes ∧ ∃ hex, text.toList = '\\' :: 'x' :: hex)

theorem faithful_checked (h : isChecked dataType = true) (hnull : text ≠ nullString) :
    Faithful dataType text nullString := by
  refine fun std => ⟨fun v => parseCopyValue_checked h hnull, fun hnot => ?_, fun now => ?_⟩
  · exact parseCopyValue_checked_error h fun v hv => hnot v ((parseCopyValue_checked h hnull).1 hv)
  · refine parseCopyValue_now ?_
    rintro rfl
    cases h

theorem faithful_timestamp (hnull : text ≠ nullString) :
    Faithful .timestamp text nullString ↔ ∃ v, Written .timestamp text v := by
  constructor
  · intro h
    by_contra hnone
    have hnone : ∀ w, ¬ Written .timestamp text w := fun w hw => hnone ⟨w, hw⟩
    have hnow : parseCopyValue .floatless text .timestamp nullString = .ok (.timestamp 0) :=
      (parseCopyValue_timestamp hnull).2 (Or.inr ⟨hnone, rfl⟩)
    exact hnone _ (((h _).1 _).1 hnow)
  · rintro ⟨w, hw⟩ std
    have hok : ∀ (std : StdParsing) v, parseCopyValue std text .timestamp nullString = .ok v ↔
        Written .timestamp text v := by
      intro std v
      rw [parseCopyValue_timestamp hnull]
      exact or_iff_left fun h => h.1 w hw
    refine ⟨hok std, fun hnone => absurd hw (hnone w), fun now => ?_⟩
    rw [(hok std w).2 hw, (hok _ w).2 hw]

theorem faithful_bytes (htext : text.toList = '\\' :: 'x' :: hex) :
    Faithful .bytes text nullString ↔ text ≠ nullString ∧
      ¬ ('+' ∈ hex ∧ ∃ bytes, Pairs hex bytes) ∧ ¬ (utf8Length hex % 2 = 0 ∧ Astray hex) := by
  have hwritten : ∀ {v}, Written .bytes text v ↔ ∃ bytes, v = .bytes bytes ∧ Spells hex bytes := by
    intro v
    simp [Written, htext]
  by_cases hnull : text = nullString
  · refine iff_of_false (fun h => ?_) fun h => h.1 hnull
    obtain ⟨bytes, ⟨⟩, -⟩ := hwritten.1 (((h .floatless).1 .null).1 (parseCopyValue_null hnull))
  rw [and_iff_right hnull]
  have hok : ∀ {std v}, parseCopyValue std text .bytes nullString = .ok v ↔
      ∃ bytes, v = .bytes bytes ∧ Pairs hex bytes := parseCopyValue_bytes hnull htext
  constructor
  · intro h
    constructor
    · rintro ⟨hplus, bytes, hpairs⟩
      obtain ⟨bytes', -, hspells⟩ := hwritten.1 (((h .floatless).1 _).1 (hok.2 ⟨bytes, rfl, hpairs⟩))
      exact (spells_iff.1 hspells).2 hplus
    · intro hastray
      have hsliced : parseCopyValue .floatless text .bytes nullString = .error sliced :=
        (parseCopyValue_sliced (by rintro e ⟨⟩)).2 ⟨rfl, hnull, rfl, hex, htext, hastray⟩
      obtain ⟨e, he⟩ := (h .floatless).2.1 fun v hv => by
        rw [← (h .floatless).1, hsliced] at hv
        cases hv
      rw [hsliced] at he
      cases he
  · rintro ⟨hplus, hastray⟩ std
    have hpairs : ∀ bytes, Pairs hex bytes ↔ Spells hex bytes := fun bytes =>
      ⟨fun h => spells_iff.2 ⟨h, fun hmem => hplus ⟨hmem, bytes, h⟩⟩, fun h => (spells_iff.1 h).1⟩
    have hforms : ∀ v, parseCopyValue std text .bytes nullString = .ok v ↔ Written .bytes text v := by
      intro v
      rw [hok, hwritten]
      simp only [hpairs]
    refine ⟨hforms, fun hnone => ?_, fun now => parseCopyValue_now (by rintro ⟨⟩)⟩
    cases hparse : parseCopyValue std text .bytes nullString with
    | ok v => exact absurd ((hforms v).1 hparse) (hnone v)
    | error fault =>
      by_contra hfault
      have hfault : ∀ e, fault ≠ .err e := fun e he => hfault ⟨e, by rw [he]⟩
      obtain ⟨-, -, -, hex', htext', h⟩ := (parseCopyValue_sliced hfault).1 hparse
      rw [htext] at htext'
      cases htext'
      exact hastray h

/-- **COPY rejects malformed values**, except for timestamps, plus signs among hexadecimal
    digits, and slices inside a character. -/
theorem faithful_iff (h : Listed dataType text nullString) : Faithful dataType text nullString ↔
    (dataType = .timestamp → ∃ v, Written .timestamp text v) ∧
      (dataType = .bytes → text ≠ nullString ∧ ∀ hex, text.toList = '\\' :: 'x' :: hex →
        ¬ ('+' ∈ hex ∧ ∃ bytes, Pairs hex bytes) ∧ ¬ (utf8Length hex % 2 = 0 ∧ Astray hex)) := by
  rcases h with ⟨hchecked | rfl, hnull⟩ | ⟨rfl, hex, htext⟩
  · refine iff_of_true (faithful_checked hchecked hnull) ⟨?_, ?_⟩
    · rintro rfl
      cases hchecked
    · rintro rfl
      cases hchecked
  · rw [faithful_timestamp hnull]
    simp
  · rw [faithful_bytes htext]
    simp [htext]

theorem not_astray_nil : ¬ Astray [] := by rintro ⟨⟩

theorem faithful_iff_pair : Listed .bytes "\\x0F" "\\N" ∧ Faithful .bytes "\\x0F" "\\N" := by
  have hlisted : Listed .bytes "\\x0F" "\\N" := Or.inr ⟨rfl, ['0', 'F'], rfl⟩
  refine ⟨hlisted, (faithful_iff hlisted).2 ⟨by rintro ⟨⟩, fun _ => ⟨by decide, ?_⟩⟩⟩
  intro hex htext
  obtain rfl : ['0', 'F'] = hex := by
    have : '\\' :: 'x' :: ['0', 'F'] = '\\' :: 'x' :: hex := htext
    simpa using this
  refine ⟨fun h => absurd h.1 (by decide), fun h => ?_⟩
  cases h.2 with
  | wide hwide => exact absurd hwide (by decide)
  | narrow _ hd => exact hd (by decide)
  | pair _ h => exact not_astray_nil h

/-- `u8::from_str_radix` takes `+5` for a byte. -/
theorem unfaithful_plus :
    ¬ ∀ dataType text nullString, Listed dataType text nullString → Faithful dataType text nullString := by
  intro h
  have hplus := h .bytes "\\x+5" "\\N" (Or.inr ⟨rfl, ['+', '5'], rfl⟩)
  have hpairs : Pairs ['+', '5'] [5] := .pair (by decide) .nil
  have htext : "\\x+5".toList = '\\' :: 'x' :: ['+', '5'] := rfl
  exact ((faithful_bytes htext).1 hplus).2.1 ⟨by decide, [5], hpairs⟩

end AntDb.Copy
