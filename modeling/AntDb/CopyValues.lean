/-
  What `parse_copy_value` takes for a value, type by type.

  Integers are decimal numbers in the range of their type, and bytes after `\x` are pairs of
  hexadecimal digits.  The pair parser lets a plus sign stand for a first digit, and the slices
  it is given may end inside a character.
-/
import AntDb.Escaping
import AntDb.Lib.Gathering

namespace AntDb.Copy

/-! ## Decimal numbers -/

/-- `text` is a decimal number of value `n`; a minus sign it may have only if `signed`. -/
inductive Decimal (signed : Bool) : List Char → ℤ → Prop
  | plain {digits} (hne : digits ≠ []) (h : ∀ c ∈ digits, c.isDigit = true) :
    Decimal signed digits (Nat.ofDigitChars 10 digits 0)
  | plus {digits} (hne : digits ≠ []) (h : ∀ c ∈ digits, c.isDigit = true) :
    Decimal signed ('+' :: digits) (Nat.ofDigitChars 10 digits 0)
  | minus {digits} (hsigned : signed = true) (hne : digits ≠ []) (h : ∀ c ∈ digits, c.isDigit = true) :
    Decimal signed ('-' :: digits) (-Nat.ofDigitChars 10 digits 0)

variable {text : List Char} {negative : Bool} {lo hi n : ℤ} {m : ℕ} {digits : List Char}
  {c d : Char} {b : UInt8} {bytes decoded : List UInt8} {nullString : String}

theorem decimalDigit_iff {digit : ℕ} :
    decimalDigit c = some digit ↔ c.isDigit = true ∧ c.toNat - '0'.toNat = digit := by
  have hdigit : ('0' ≤ c ∧ c ≤ '9') ↔ c.isDigit = true := by
    rw [Char.isDigit, Bool.and_eq_true, decide_eq_true_iff, decide_eq_true_iff]
    rfl
  unfold decimalDigit
  split_ifs with h
  · rw [Option.some.injEq, and_iff_right (hdigit.1 h)]
  · exact iff_of_false (by rintro ⟨⟩) fun h' => h (hdigit.2 h'.1)

theorem le_ofDigitChars : m ≤ Nat.ofDigitChars 10 digits m := by
  induction digits generalizing m with
  | nil => rw [Nat.ofDigitChars_nil]
  | cons c digits ih =>
    rw [Nat.ofDigitChars_cons]
    refine le_trans ?_ ih
    omega

/-- The sign of a number. -/
def sign (negative : Bool) : ℤ := if negative then -1 else 1

theorem sign_true : sign true = -1 := rfl

theorem sign_false : sign false = 1 := rfl

/-- The digits are read to the end exactly if the number is in range. -/
theorem parseDigits_iff (hlo : lo ≤ 0) (hhi : 0 ≤ hi) (hm : lo ≤ sign negative * m)
    (hm' : sign negative * m ≤ hi) : parseDigits negative lo hi (sign negative * m) digits = .ok n ↔
      (∀ c ∈ digits, c.isDigit = true) ∧ n = sign negative * Nat.ofDigitChars 10 digits m ∧
        lo ≤ n ∧ n ≤ hi := by
  induction digits generalizing m with
  | nil =>
    rw [parseDigits, Except.ok.injEq, Nat.ofDigitChars_nil]
    constructor
    · rintro rfl
      exact ⟨by simp, rfl, hm, hm'⟩
    · exact fun h => h.2.1.symm
  | cons c digits ih =>
    rw [parseDigits]
    cases hc : decimalDigit c with
    | none =>
      refine iff_of_false (by rintro ⟨⟩) fun h => ?_
      have hdigit := decimalDigit_iff.2 ⟨h.1 c (by simp), rfl⟩
      rw [hc] at hdigit
      cases hdigit
    | some digit =>
      obtain ⟨hdigit, hvalue⟩ := decimalDigit_iff.1 hc
      have hnext : (if negative = true then sign negative * m * 10 - digit
          else sign negative * m * 10 + digit) = sign negative * ((10 * m + digit : ℕ) : ℤ) := by
        cases negative <;> simp [sign_true, sign_false] <;> ring
      have hfinal : Nat.ofDigitChars 10 (c :: digits) m = Nat.ofDigitChars 10 digits (10 * m + digit) := by
        rw [Nat.ofDigitChars_cons, hvalue]
      have hgrows : 10 * m + digit ≤ Nat.ofDigitChars 10 digits (10 * m + digit) := le_ofDigitChars
      dsimp only
      rw [hnext, hfinal]
      split_ifs with hlow hhigh
      · refine iff_of_false (by rintro ⟨⟩) ?_
        rintro ⟨-, rfl, hle, -⟩
        cases negative <;> simp only [sign_true, sign_false] at * <;> omega
      · refine iff_of_false (by rintro ⟨⟩) ?_
        rintro ⟨-, rfl, -, hle⟩
        cases negative <;> simp only [sign_true, sign_false] at * <;> omega
      · rw [ih (not_lt.1 hlow) (not_lt.1 hhigh)]
        refine and_congr_left fun _ => ?_
        simp [hdigit]

theorem parseDigits_zero_iff (hlo : lo ≤ 0) (hhi : 0 ≤ hi) :
    parseDigits negative lo hi 0 digits = .ok n ↔ (∀ c ∈ digits, c.isDigit = true) ∧
      n = sign negative * Nat.ofDigitChars 10 digits 0 ∧ lo ≤ n ∧ n ≤ hi := by
  have h : parseDigits negative lo hi (sign negative * (0 : ℕ)) digits = .ok n ↔ _ :=
    parseDigits_iff hlo hhi (by simpa using hlo) (by simpa using hhi)
  simpa using h

section Decimal

variable {signed : Bool}

theorem not_decimal_nil : ¬ Decimal signed [] n := by
  intro h
  cases h with
  | plain hne _ => exact hne rfl

theorem decimal_plus_iff : Decimal signed ('+' :: digits) n ↔
    digits ≠ [] ∧ (∀ c ∈ digits, c.isDigit = true) ∧ n = Nat.ofDigitChars 10 digits 0 := by
  constructor
  · intro h
    cases h with
    | plain _ h => exact absurd (h '+' (by simp)) (by decide)
    | plus hne h => exact ⟨hne, h, rfl⟩
  · rintro ⟨hne, h, rfl⟩
    exact .plus hne h

theorem decimal_minus_iff : Decimal signed ('-' :: digits) n ↔ signed = true ∧
    digits ≠ [] ∧ (∀ c ∈ digits, c.isDigit = true) ∧ n = -Nat.ofDigitChars 10 digits 0 := by
  constructor
  · intro h
    cases h with
    | plain _ h => exact absurd (h '-' (by simp)) (by decide)
    | minus hsigned hne h => exact ⟨hsigned, hne, h, rfl⟩
  · rintro ⟨hsigned, hne, h, rfl⟩
    exact .minus hsigned hne h

theorem decimal_plain_iff (hplus : ∀ rest, digits ≠ '+' :: rest) (hminus : ∀ rest, digits ≠ '-' :: rest) :
    Decimal signed digits n ↔
      digits ≠ [] ∧ (∀ c ∈ digits, c.isDigit = true) ∧ n = Nat.ofDigitChars 10 digits 0 := by
  constructor
  · intro h
    cases h with
    | plain hne h => exact ⟨hne, h, rfl⟩
    | plus => exact absurd rfl (hplus _)
    | minus => exact absurd rfl (hminus _)
  · rintro ⟨hne, h, rfl⟩
    exact .plain hne h

end Decimal

/-- **An integer is parsed** from the decimal numbers in its range. -/
theorem parseInteger_iff {text : String} (hlo : lo ≤ 0) (hhi : 0 ≤ hi) :
    parseInteger lo hi text = .ok n ↔ Decimal (lo < 0) text.toList n ∧ lo ≤ n ∧ n ≤ hi := by
  unfold parseInteger
  split
  · rename_i heq
    rw [heq]
    exact iff_of_false (by rintro ⟨⟩) fun h => not_decimal_nil h.1
  · rename_i heq
    rw [heq, decimal_plus_iff]
    exact iff_of_false (by rintro ⟨⟩) fun h => h.1.1 rfl
  · rename_i heq
    rw [heq, decimal_minus_iff]
    exact iff_of_false (by rintro ⟨⟩) fun h => h.1.2.1 rfl
  · rename_i digits hne heq
    rw [heq, decimal_plus_iff, parseDigits_zero_iff hlo hhi, sign_false, one_mul, and_assoc, and_assoc,
      and_iff_right hne]
  · rename_i digits hne heq
    rw [heq, decimal_minus_iff]
    split_ifs with hsigned
    · rw [parseDigits_zero_iff hlo hhi, sign_true, neg_one_mul, decide_eq_true_iff, and_assoc, and_assoc,
        and_assoc, and_iff_right hsigned, and_iff_right hne]
    · exact iff_of_false (by rintro ⟨⟩) fun h => hsigned (of_decide_eq_true h.1.1)
  · rename_i hnil hplus' hminus' hplus hminus
    rw [decimal_plain_iff (fun rest => hplus rest) (fun rest => hminus rest),
      parseDigits_zero_iff hlo hhi, sign_false, one_mul, and_assoc, and_assoc,
      and_iff_right hnil]

/-- A rendered number is a decimal number. -/
theorem decimal_repr (m : ℕ) : Decimal false m.repr.toList m := by
  rw [Nat.toList_repr]
  have h : Decimal false (Nat.toDigits 10 m) _ := .plain Nat.toDigits_ne_nil fun c hc =>
    Nat.isDigit_of_mem_toDigits (by decide) (by decide) hc
  rwa [Nat.ofDigitChars_ten_toDigits] at h

theorem decimal_repr_int (n : ℤ) : Decimal true n.repr.toList n := by
  rw [Int.repr_eq_if]
  split_ifs with h
  · have hplain : Decimal true (Nat.toDigits 10 n.toNat) _ := .plain Nat.toDigits_ne_nil fun c hc =>
      Nat.isDigit_of_mem_toDigits (by decide) (by decide) hc
    rw [Nat.ofDigitChars_ten_toDigits, Int.toNat_of_nonneg h] at hplain
    rwa [Nat.toList_repr]
  · have hminus : Decimal true ('-' :: Nat.toDigits 10 (-n).toNat) _ := .minus rfl Nat.toDigits_ne_nil
      fun c hc => Nat.isDigit_of_mem_toDigits (by decide) (by decide) hc
    rw [Nat.ofDigitChars_ten_toDigits, Int.toNat_of_nonneg (by omega), neg_neg] at hminus
    rwa [String.toList_append, Nat.toList_repr]

/-! ## Integer types -/

section Integer

variable {W : Type} {make : W → DataBaseDataEntry} {value : W → ℤ} {entry : ℤ → DataBaseDataEntry}
  {text : String} {v : DataBaseDataEntry}

/-- A type of integers: its values, the numbers they are, and the entries they make. -/
structure IntegerType (lo hi : ℤ) (value : W → ℤ) (make : W → DataBaseDataEntry)
    (entry : ℤ → DataBaseDataEntry) : Prop where
  lo_le : lo ≤ 0
  le_hi : 0 ≤ hi
  ge : ∀ w, lo ≤ value w
  le : ∀ w, value w ≤ hi
  entry_value : ∀ w, entry (value w) = make w
  onto : ∀ n, lo ≤ n → n ≤ hi → ∃ w, value w = n

theorem integerValue_iff (h : IntegerType lo hi value make entry) :
    integerValue text lo hi entry = .ok v ↔
      ∃ w, v = make w ∧ Decimal (lo < 0) text.toList (value w) := by
  have hok : integerValue text lo hi entry = .ok v ↔
      ∃ n, parseInteger lo hi text = .ok n ∧ entry n = v := by
    unfold integerValue
    cases parseInteger lo hi text with
    | error e => exact iff_of_false (by rintro ⟨⟩) (by rintro ⟨n, ⟨⟩, -⟩)
    | ok n => simp
  rw [hok]
  constructor
  · rintro ⟨n, hn, rfl⟩
    obtain ⟨hdecimal, hlo, hhi⟩ := (parseInteger_iff h.lo_le h.le_hi).1 hn
    obtain ⟨w, rfl⟩ := h.onto n hlo hhi
    exact ⟨w, h.entry_value w, hdecimal⟩
  · rintro ⟨w, rfl, hdecimal⟩
    exact ⟨value w, (parseInteger_iff h.lo_le h.le_hi).2 ⟨hdecimal, h.ge w, h.le w⟩, h.entry_value w⟩

/-- Text that is no integer of the type is an error. -/
theorem integerValue_error (hnot : ∀ v, integerValue text lo hi entry ≠ .ok v) :
    ∃ e, integerValue text lo hi entry = .error (.err e) := by
  unfold integerValue at hnot ⊢
  cases hn : parseInteger lo hi text with
  | error message => exact ⟨_, rfl⟩
  | ok n => rw [hn] at hnot; exact absurd rfl (hnot _)

end Integer

theorem integerType_u8 : IntegerType 0 (2 ^ 8 - 1) (fun w : UInt8 => (w.toNat : ℤ)) .integerU8
    fun n => .integerU8 (UInt8.ofNat n.toNat) where
  lo_le := le_rfl
  le_hi := by norm_num
  ge w := by positivity
  le w := by have := w.toNat_lt; omega
  entry_value w := by rw [Int.toNat_natCast, UInt8.ofNat_toNat]
  onto n hlo hhi := ⟨UInt8.ofNat n.toNat, by
    rw [UInt8.toNat_ofNat_of_lt' (show n.toNat < 2 ^ 8 by omega)]; omega⟩

theorem integerType_u16 : IntegerType 0 (2 ^ 16 - 1) (fun w : UInt16 => (w.toNat : ℤ)) .integerU16
    fun n => .integerU16 (UInt16.ofNat n.toNat) where
  lo_le := le_rfl
  le_hi := by norm_num
  ge w := by positivity
  le w := by have := w.toNat_lt; omega
  entry_value w := by rw [Int.toNat_natCast, UInt16.ofNat_toNat]
  onto n hlo hhi := ⟨UInt16.ofNat n.toNat, by
    rw [UInt16.toNat_ofNat_of_lt' (show n.toNat < 2 ^ 16 by omega)]; omega⟩

theorem integerType_u32 : IntegerType 0 (2 ^ 32 - 1) (fun w : UInt32 => (w.toNat : ℤ)) .integerU32
    fun n => .integerU32 (UInt32.ofNat n.toNat) where
  lo_le := le_rfl
  le_hi := by norm_num
  ge w := by positivity
  le w := by have := w.toNat_lt; omega
  entry_value w := by rw [Int.toNat_natCast, UInt32.ofNat_toNat]
  onto n hlo hhi := ⟨UInt32.ofNat n.toNat, by
    rw [UInt32.toNat_ofNat_of_lt' (show n.toNat < 2 ^ 32 by omega)]; omega⟩

theorem integerType_u64 : IntegerType 0 (2 ^ 64 - 1) (fun w : UInt64 => (w.toNat : ℤ)) .integerU64
    fun n => .integerU64 (UInt64.ofNat n.toNat) where
  lo_le := le_rfl
  le_hi := by norm_num
  ge w := by positivity
  le w := by have := w.toNat_lt; omega
  entry_value w := by rw [Int.toNat_natCast, UInt64.ofNat_toNat]
  onto n hlo hhi := ⟨UInt64.ofNat n.toNat, by
    rw [UInt64.toNat_ofNat_of_lt' (show n.toNat < 2 ^ 64 by omega)]; omega⟩

theorem integerType_u128 : IntegerType 0 (2 ^ 128 - 1) (fun w : BitVec 128 => (w.toNat : ℤ))
    .integerU128 fun n => .integerU128 (BitVec.ofNat 128 n.toNat) where
  lo_le := le_rfl
  le_hi := by norm_num
  ge w := by positivity
  le w := by have := w.isLt; omega
  entry_value w := by rw [Int.toNat_natCast, BitVec.ofNat_toNat, BitVec.setWidth_eq]
  onto n hlo hhi := ⟨BitVec.ofNat 128 n.toNat, by
    rw [BitVec.toNat_ofNat, Nat.mod_eq_of_lt (by omega)]; omega⟩

theorem integerType_i8 : IntegerType (-2 ^ 7) (2 ^ 7 - 1) Int8.toInt .integerI8
    fun n => .integerI8 (Int8.ofInt n) where
  lo_le := by norm_num
  le_hi := by norm_num
  ge w := w.le_toInt
  le w := Int.le_sub_one_of_lt w.toInt_lt
  entry_value w := by rw [Int8.ofInt_toInt]
  onto n hlo hhi := ⟨Int8.ofInt n, Int8.toInt_ofInt_of_le hlo (by omega)⟩

theorem integerType_i16 : IntegerType (-2 ^ 15) (2 ^ 15 - 1) Int16.toInt .integerI16
    fun n => .integerI16 (Int16.ofInt n) where
  lo_le := by norm_num
  le_hi := by norm_num
  ge w := w.le_toInt
  le w := Int.le_sub_one_of_lt w.toInt_lt
  entry_value w := by rw [Int16.ofInt_toInt]
  onto n hlo hhi := ⟨Int16.ofInt n, Int16.toInt_ofInt_of_le hlo (by omega)⟩

theorem integerType_i32 : IntegerType (-2 ^ 31) (2 ^ 31 - 1) Int32.toInt .integerI32
    fun n => .integerI32 (Int32.ofInt n) where
  lo_le := by norm_num
  le_hi := by norm_num
  ge w := w.le_toInt
  le w := Int.le_sub_one_of_lt w.toInt_lt
  entry_value w := by rw [Int32.ofInt_toInt]
  onto n hlo hhi := ⟨Int32.ofInt n, Int32.toInt_ofInt_of_le hlo (by omega)⟩

theorem integerType_i64 {make : Int64 → DataBaseDataEntry} :
    IntegerType (-2 ^ 63) (2 ^ 63 - 1) Int64.toInt make fun n => make (Int64.ofInt n) where
  lo_le := by norm_num
  le_hi := by norm_num
  ge w := w.le_toInt
  le w := Int.le_sub_one_of_lt w.toInt_lt
  entry_value w := by rw [Int64.ofInt_toInt]
  onto n hlo hhi := ⟨Int64.ofInt n, Int64.toInt_ofInt_of_le hlo (by omega)⟩

theorem integerType_i128 : IntegerType (-2 ^ 127) (2 ^ 127 - 1) (BitVec.toInt (n := 128)) .integerI128
    fun n => .integerI128 (BitVec.ofInt 128 n) where
  lo_le := by norm_num
  le_hi := by norm_num
  ge w := BitVec.le_toInt w
  le w := Int.le_sub_one_of_lt BitVec.toInt_lt
  entry_value w := by rw [BitVec.ofInt_toInt]
  onto n hlo hhi := ⟨BitVec.ofInt 128 n, by
    rw [BitVec.toInt_ofInt, Int.bmod_eq_of_le (by norm_num; omega) (by norm_num; omega)]⟩

/-! ## Hexadecimal pairs -/

/-- Pairs of hexadecimal digits, and the bytes they spell. -/
inductive Spells : List Char → List UInt8 → Prop
  | nil : Spells [] []
  | pair {c d : Char} {high low : ℕ} {text bytes} (hc : hexDigit c = some high) (hd : hexDigit d = some low)
    (h : Spells text bytes) : Spells (c :: d :: text) (UInt8.ofNat (high * 16 + low) :: bytes)

/-- Pairs that are taken for bytes; a plus sign may stand for the first digit. -/
inductive Pairs : List Char → List UInt8 → Prop
  | nil : Pairs [] []
  | pair {c d : Char} {b : UInt8} {text bytes} (hb : parseHexPair c d = .ok b) (h : Pairs text bytes) :
    Pairs (c :: d :: text) (b :: bytes)

/-- After pairs that are taken for bytes comes a slice that ends inside a character. -/
inductive Astray : List Char → Prop
  | wide {c : Char} {text : List Char} (h : 2 < c.utf8Size) : Astray (c :: text)
  | narrow {c d : Char} {text : List Char} (hc : c.utf8Size = 1) (hd : d.utf8Size ≠ 1) :
    Astray (c :: d :: text)
  | pair {c d : Char} {b : UInt8} {text : List Char} (hb : parseHexPair c d = .ok b) (h : Astray text) :
    Astray (c :: d :: text)

/-- The bytes the text takes in UTF-8. -/
def utf8Length (text : List Char) : ℕ := (text.map Char.utf8Size).sum

theorem hexDigit_size {digit : ℕ} (h : hexDigit c = some digit) : c.utf8Size = 1 := by
  have hle : ∀ {lo hi : Char}, lo ≤ c ∧ c ≤ hi → hi.toNat < 128 → c.utf8Size = 1 := by
    intro lo hi hc hhi
    have : c.toNat ≤ hi.toNat := UInt32.le_iff_toNat_le.1 hc.2
    rw [Char.utf8Size_eq_one_iff]
    exact UInt32.le_iff_toNat_le.2 (by show c.toNat ≤ 127; omega)
  unfold hexDigit at h
  split_ifs at h with h1 h2 h3
  · exact hle h1 (by decide)
  · exact hle h2 (by decide)
  · exact hle h3 (by decide)

theorem parseHexPair_iff : parseHexPair c d = .ok b ↔
    ∃ low, hexDigit d = some low ∧ ((∃ high, hexDigit c = some high ∧ UInt8.ofNat (high * 16 + low) = b) ∨
      (c = '+' ∧ UInt8.ofNat low = b)) := by
  unfold parseHexPair
  cases hd : hexDigit d with
  | none => cases hexDigit c <;> simp
  | some low =>
    cases hc : hexDigit c with
    | some high =>
      have hplus : c ≠ '+' := by
        rintro rfl
        cases hc
      simp [hplus]
    | none =>
      dsimp only
      split_ifs with hplus
      · simp [hplus]
      · simp [hplus]

theorem parseHexPair_size (h : parseHexPair c d = .ok b) : c.utf8Size = 1 ∧ d.utf8Size = 1 := by
  obtain ⟨low, hd, h⟩ := parseHexPair_iff.1 h
  refine ⟨?_, hexDigit_size hd⟩
  rcases h with ⟨high, hc, -⟩ | ⟨rfl, -⟩
  · exact hexDigit_size hc
  · decide

theorem pairs_length (h : Pairs text bytes) : utf8Length text = 2 * bytes.length := by
  induction h with
  | nil => rfl
  | pair hb _ ih =>
    obtain ⟨hc, hd⟩ := parseHexPair_size hb
    rw [utf8Length] at ih ⊢
    rw [List.map_cons, List.map_cons, List.sum_cons, List.sum_cons, ih, hc, hd, List.length_cons]
    ring

/-- Without a plus sign the pairs are of digits. -/
theorem spells_iff : Spells text bytes ↔ Pairs text bytes ∧ '+' ∉ text := by
  constructor
  · intro h
    induction h with
    | nil => exact ⟨.nil, List.not_mem_nil⟩
    | pair hc hd h ih =>
      refine ⟨.pair (parseHexPair_iff.2 ⟨_, hd, Or.inl ⟨_, hc, rfl⟩⟩) ih.1, ?_⟩
      rw [List.mem_cons, List.mem_cons]
      rintro (rfl | rfl | hmem)
      · cases hc
      · cases hd
      · exact ih.2 hmem
  · rintro ⟨h, hplus⟩
    induction h with
    | nil => exact .nil
    | pair hb h ih =>
      obtain ⟨low, hd, hb⟩ := parseHexPair_iff.1 hb
      rw [List.mem_cons, List.mem_cons, not_or, not_or] at hplus
      rcases hb with ⟨high, hc, rfl⟩ | ⟨rfl, -⟩
      · exact .pair hc hd (ih hplus.2.2)
      · exact absurd rfl hplus.1

theorem decodeHexPairs_ok : decodeHexPairs decoded text = .ok (.ok bytes) ↔
    ∃ tail, bytes = decoded ++ tail ∧ Pairs text tail := by
  induction decoded, text using decodeHexPairs.induct generalizing bytes with
  | case1 decoded =>
    rw [decodeHexPairs]
    constructor
    · rintro ⟨⟩
      exact ⟨[], (List.append_nil _).symm, .nil⟩
    · rintro ⟨tail, rfl, hpairs⟩
      cases hpairs
      rw [List.append_nil]
  | case2 decoded c hsize =>
    rw [decodeHexPairs, if_pos hsize]
    exact iff_of_false (by rintro ⟨⟩) (by rintro ⟨tail, -, ⟨⟩⟩)
  | case3 decoded c hsize =>
    rw [decodeHexPairs, if_neg hsize]
    exact iff_of_false (by rintro ⟨⟩) (by rintro ⟨tail, -, ⟨⟩⟩)
  | case4 decoded c d text hsize =>
    rw [decodeHexPairs, if_pos hsize]
    refine iff_of_false (by rintro ⟨⟩) ?_
    rintro ⟨tail, -, hpairs⟩
    cases hpairs with
    | pair hb _ => rw [(parseHexPair_size hb).1] at hsize; cases hsize
  | case5 decoded c d text hsize hsizes =>
    rw [decodeHexPairs, if_neg hsize, if_pos hsizes]
    refine iff_of_false (by rintro ⟨⟩) ?_
    rintro ⟨tail, -, hpairs⟩
    cases hpairs with
    | pair hb _ => exact hsizes.elim (· (parseHexPair_size hb).1) (· (parseHexPair_size hb).2)
  | case6 decoded c d text hsize hsizes message hpair =>
    rw [decodeHexPairs, if_neg hsize, if_neg hsizes, hpair]
    refine iff_of_false (by rintro ⟨⟩) ?_
    rintro ⟨tail, -, hpairs⟩
    cases hpairs with
    | pair hb _ => rw [hpair] at hb; cases hb
  | case7 decoded c d text hsize hsizes byte hpair ih =>
    rw [decodeHexPairs, if_neg hsize, if_neg hsizes, hpair]
    refine ih.trans ⟨?_, ?_⟩
    · rintro ⟨tail, rfl, hpairs⟩
      exact ⟨byte :: tail, by simp, .pair hpair hpairs⟩
    · rintro ⟨tail, rfl, hpairs⟩
      cases hpairs with
      | pair hb h =>
        rw [hpair] at hb
        cases hb
        exact ⟨_, by simp, h⟩

/-- What a slice inside a character is answered with. -/
def sliced : Fault := .panic "byte index is not a char boundary"

theorem decodeHexPairs_error {fault : Fault} (heven : utf8Length text % 2 = 0) :
    decodeHexPairs decoded text = .error fault ↔ fault = sliced ∧ Astray text := by
  induction decoded, text using decodeHexPairs.induct with
  | case1 decoded =>
    rw [decodeHexPairs]
    exact iff_of_false (by rintro ⟨⟩) (by rintro ⟨-, ⟨⟩⟩)
  | case2 decoded c hsize =>
    rw [decodeHexPairs, if_pos hsize]
    refine iff_of_false (by rintro ⟨⟩) ?_
    rintro ⟨-, hastray⟩
    cases hastray with
    | wide h => omega
  | case3 decoded c hsize =>
    rw [decodeHexPairs, if_neg hsize]
    have hpos := c.utf8Size_pos
    have hlength : utf8Length [c] = c.utf8Size := by simp [utf8Length]
    have hwide : Astray [c] := .wide (by omega)
    rw [and_iff_left hwide, Except.error.injEq]
    exact eq_comm
  | case4 decoded c d text hsize =>
    rw [decodeHexPairs, if_pos hsize]
    refine iff_of_false (by rintro ⟨⟩) ?_
    rintro ⟨-, hastray⟩
    cases hastray with
    | wide h => omega
    | narrow hc _ => omega
    | pair hb _ => rw [(parseHexPair_size hb).1] at hsize; cases hsize
  | case5 decoded c d text hsize hsizes =>
    rw [decodeHexPairs, if_neg hsize, if_pos hsizes]
    have hpos := c.utf8Size_pos
    have hastray : Astray (c :: d :: text) := by
      by_cases hc : c.utf8Size = 1
      · exact .narrow hc (hsizes.resolve_left (not_not_intro hc))
      · exact .wide (by omega)
    rw [and_iff_left hastray, Except.error.injEq]
    exact eq_comm
  | case6 decoded c d text hsize hsizes message hpair =>
    rw [decodeHexPairs, if_neg hsize, if_neg hsizes, hpair]
    refine iff_of_false (by rintro ⟨⟩) ?_
    rintro ⟨-, hastray⟩
    cases hastray with
    | wide h => omega
    | narrow _ hd => exact hsizes (Or.inr hd)
    | pair hb _ => rw [hpair] at hb; cases hb
  | case7 decoded c d text hsize hsizes byte hpair ih =>
    rw [decodeHexPairs, if_neg hsize, if_neg hsizes, hpair]
    obtain ⟨hc, hd⟩ := parseHexPair_size hpair
    have hlength : utf8Length (c :: d :: text) = 2 + utf8Length text := by
      simp only [utf8Length, List.map_cons, List.sum_cons, hc, hd]
      omega
    refine (ih (by omega)).trans (and_congr_right fun _ => ⟨.pair hpair, fun hastray => ?_⟩)
    cases hastray with
    | wide h => omega
    | narrow _ hd => exact absurd (parseHexPair_size hpair).2 hd
    | pair _ h => exact h

/-- **Bytes are decoded** from the pairs. -/
theorem decodeHex_ok : decodeHex text = .ok (.ok bytes) ↔ Pairs text bytes := by
  have hpairs : decodeHexPairs [] text = .ok (.ok bytes) ↔ Pairs text bytes := by
    rw [decodeHexPairs_ok]
    simp
  unfold decodeHex
  split_ifs with hodd
  · refine iff_of_false (by rintro ⟨⟩) fun h => hodd ?_
    have := pairs_length h
    rw [utf8Length] at this
    omega
  · exact hpairs

theorem decodeHex_error {fault : Fault} : decodeHex text = .error fault ↔
    fault = sliced ∧ utf8Length text % 2 = 0 ∧ Astray text := by
  unfold decodeHex
  split_ifs with hodd
  · exact iff_of_false (by rintro ⟨⟩) fun h => hodd h.2.1
  · have heven : utf8Length text % 2 = 0 := not_not.1 hodd
    rw [decodeHexPairs_error heven, and_iff_right heven]

end AntDb.Copy
