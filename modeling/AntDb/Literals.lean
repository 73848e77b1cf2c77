/-
  Integer literals under unary minus and parentheses.

  A literal becomes the first of five integer variants that holds it.  A minus casts the unsigned ones
  to the signed type of their width, which is a different number from half of the range on; what is
  signed then stays exact under any further minus.
-/
import AntDb.Dml

namespace AntDb.Dml

/-! ## Literals -/

/-- The text of an integer literal. -/
structure IntegerLiteral where
  text : String
  nonempty : text.toList ≠ []
  digits : ∀ c ∈ text.toList, c.isDigit = true

def IntegerLiteral.number (l : IntegerLiteral) : ℕ := Nat.ofDigitChars 10 l.text.toList 0

/-- The decimal text of a number. -/
def IntegerLiteral.ofNat (n : ℕ) : IntegerLiteral where
  text := n.repr
  nonempty := by
    rw [Nat.toList_repr]
    exact Nat.toDigits_ne_nil
  digits := by
    rw [Nat.toList_repr]
    exact fun c hc => Nat.isDigit_of_mem_toDigits (by decide) (by decide) hc

@[simp] theorem IntegerLiteral.number_ofNat (n : ℕ) : (ofNat n).number = n := by
  rw [number, ofNat, Nat.toList_repr, Nat.ofDigitChars_ten_toDigits]

/-- What can stand around an expression. -/
inductive Wrapper where
  | minus
  | paren
deriving DecidableEq

/-- The literal in the wrappers, the outermost first. -/
def IntegerLiteral.wrapped (l : IntegerLiteral) : List Wrapper → SqlExpr
  | [] => .value (.number l.text)
  | .minus :: ws => .unaryMinus (l.wrapped ws)
  | .paren :: ws => .nested (l.wrapped ws)

/-- The value of a number in the wrappers. -/
def signed : List Wrapper → ℤ → ℤ
  | [], z => z
  | .minus :: ws, z => -signed ws z
  | .paren :: ws, z => signed ws z

/-- A literal's number after the cast that the first minus makes. -/
def castNumber (n : ℕ) : ℤ :=
  if n < 2 ^ 63 then n else if n < 2 ^ 64 then n - 2 ^ 64 else if n < 2 ^ 127 then n else n - 2 ^ 128

/-- An entry of a signed type that can be negated again and again. -/
inductive Negatable : DataBaseDataEntry → ℤ → Prop where
  | i32 {z : ℤ} : -2 ^ 31 < z → z < 2 ^ 31 → Negatable (.integerI32 (Int32.ofInt z)) z
  | i64 {z : ℤ} : -2 ^ 63 < z → z < 2 ^ 63 → Negatable (.integerI64 (Int64.ofInt z)) z
  | i128 {z : ℤ} : -2 ^ 127 < z → z < 2 ^ 127 → Negatable (.integerI128 (BitVec.ofInt 128 z)) z

variable {l : IntegerLiteral} {ws : List Wrapper} {parseF64 : SearchRequest.ParseF64} {now : Int64}
  {entry entry' : DataBaseDataEntry} {n : ℕ} {z : ℤ} {digits : List Char}

/-! ## Reading digits -/

theorem parseDigits_digits (hne : digits ≠ []) (h : ∀ c ∈ digits, c.isDigit = true) :
    parseDigits digits = some (Nat.ofDigitChars 10 digits 0) := by
  rw [parseDigits, if_neg hne]
  clear hne
  generalize (0 : ℕ) = m
  induction digits generalizing m with
  | nil => rfl
  | cons c digits ih =>
    rw [List.foldlM_cons, if_pos (h c (List.mem_cons_self ..)), Nat.ofDigitChars_cons]
    exact ih (fun d hd => h d (List.mem_cons_of_mem c hd)) _

theorem readInteger_digits (hne : digits ≠ []) (h : ∀ c ∈ digits, c.isDigit = true) (signed : Bool) :
    readInteger signed digits = some (Nat.ofDigitChars 10 digits 0 : ℤ) := by
  unfold readInteger
  split
  · exact absurd (h '-' (List.mem_cons_self ..)) (by decide)
  · exact absurd (h '+' (List.mem_cons_self ..)) (by decide)
  · rw [parseDigits_digits hne h, Option.map_some]

theorem parseInteger_literal (l : IntegerLiteral) (signed : Bool) (lo hi : ℤ) :
    parseInteger signed lo hi l.text = if lo ≤ l.number ∧ l.number ≤ hi then some (l.number : ℤ) else none := by
  rw [parseInteger, readInteger_digits l.nonempty l.digits, Option.filter_some]
  simp only [decide_eq_true_eq]
  rfl

/-- The entry of a literal below `2 ^ 128`. -/
def literalEntry (n : ℕ) : DataBaseDataEntry :=
  if n < 2 ^ 31 then .integerI32 (Int32.ofInt n)
  else if n < 2 ^ 63 then .integerI64 (Int64.ofInt n)
  else if n < 2 ^ 64 then .integerU64 (UInt64.ofNat n)
  else .integerU128 (BitVec.ofInt 128 n)

theorem parseSqlValue_literal (l : IntegerLiteral) : parseSqlValue parseF64 (.number l.text) =
    if l.number < 2 ^ 128 then .ok (literalEntry l.number)
    else .error (.queryError s!"Numeric literal '{l.text}' is too large or invalid") := by
  have hfloat : ¬ ('.' ∈ l.text.toList ∨ 'e' ∈ l.text.toList ∨ 'E' ∈ l.text.toList) := by
    rintro (h | h | h) <;> exact absurd (l.digits _ h) (by decide)
  rw [parseSqlValue, SearchRequest.parseSqlValue, if_neg hfloat]
  · simp only [parseI32, parseI64, parseU64, parseU128, parseI128, parseInteger_literal]
    generalize l.number = n
    unfold literalEntry
    split_ifs <;> first | rfl | omega
  · rintro debug ⟨⟩

/-! ## Negation -/

theorem Negatable.toInteger (h : Negatable entry z) : entry.toInteger = some z := by
  cases h with
  | i32 hlo hhi => exact congrArg some (Int32.toInt_ofInt_of_le (by omega) (by omega))
  | i64 hlo hhi => exact congrArg some (Int64.toInt_ofInt_of_le (by omega) (by omega))
  | i128 hlo hhi => exact congrArg some (BitVec.toInt_ofInt_eq_self (by omega) (by omega) (by omega))

theorem negated_of_ne {lo : ℤ} {make : ℤ → DataBaseDataEntry} (h : z ≠ lo) :
    negated lo z make = .ok (make (-z)) := if_neg h

theorem Negatable.negate (h : Negatable entry z) : ∃ entry', negate entry = .ok entry' ∧ Negatable entry' (-z) := by
  cases h with
  | i32 hlo hhi =>
    refine ⟨_, ?_, .i32 (by omega) (by omega)⟩
    rw [Dml.negate, Int32.toInt_ofInt_of_le (by omega) (by omega), negated_of_ne (by omega)]
  | i64 hlo hhi =>
    refine ⟨_, ?_, .i64 (by omega) (by omega)⟩
    rw [Dml.negate, Int64.toInt_ofInt_of_le (by omega) (by omega), negated_of_ne (by omega)]
  | i128 hlo hhi =>
    refine ⟨_, ?_, .i128 (by omega) (by omega)⟩
    rw [Dml.negate, BitVec.toInt_ofInt_eq_self (by omega) (by omega) (by omega), negated_of_ne (by omega)]

theorem literalEntry_toInteger (h : n < 2 ^ 128) : (literalEntry n).toInteger = some (n : ℤ) := by
  unfold literalEntry
  split_ifs
  · exact congrArg some (Int32.toInt_ofInt_of_le (by omega) (by omega))
  · exact congrArg some (Int64.toInt_ofInt_of_le (by omega) (by omega))
  · refine congrArg some ?_
    rw [UInt64.toNat_ofNat_of_lt' (by rw [UInt64.size]; omega)]
  · refine congrArg some ?_
    rw [BitVec.toNat_ofInt]
    omega

/-- The signed value of the width of a literal that does not fit `i64`. -/
theorem toInt64_literal (hlo : 2 ^ 63 ≤ n) (hhi : n < 2 ^ 64) :
    (UInt64.ofNat n).toInt64.toInt = (n : ℤ) - 2 ^ 64 := by
  have hbits : (UInt64.ofNat n).toInt64.toInt = (BitVec.ofNat 64 n).toInt := rfl
  rw [hbits, BitVec.toInt_eq_toNat_cond, BitVec.toNat_ofNat, Nat.mod_eq_of_lt hhi]
  omega

theorem toInt_literal (hhi : n < 2 ^ 128) :
    (BitVec.ofInt 128 n).toInt = if n < 2 ^ 127 then (n : ℤ) else n - 2 ^ 128 := by
  rw [BitVec.toInt_eq_toNat_cond, BitVec.toNat_ofInt]
  split_ifs <;> omega

/-- The first minus. -/
theorem negate_literalEntry (h : n < 2 ^ 128) (h₆₃ : n ≠ 2 ^ 63) (h₁₂₇ : n ≠ 2 ^ 127) :
    ∃ entry, negate (literalEntry n) = .ok entry ∧ Negatable entry (-castNumber n) := by
  by_cases hi32 : n < 2 ^ 31
  · rw [literalEntry, if_pos hi32, castNumber, if_pos (by omega)]
    exact Negatable.negate (.i32 (by omega) (by omega))
  by_cases hi64 : n < 2 ^ 63
  · rw [literalEntry, if_neg hi32, if_pos hi64, castNumber, if_pos hi64]
    exact Negatable.negate (.i64 (by omega) (by omega))
  by_cases hu64 : n < 2 ^ 64
  · rw [literalEntry, if_neg hi32, if_neg hi64, if_pos hu64, castNumber, if_neg hi64, if_pos hu64,
      negate, toInt64_literal (by omega) hu64, negated_of_ne (by omega)]
    exact ⟨_, rfl, .i64 (by omega) (by omega)⟩
  · have hcast : castNumber n = if n < 2 ^ 127 then (n : ℤ) else n - 2 ^ 128 := by
      rw [castNumber, if_neg hi64, if_neg hu64]
    rw [literalEntry, if_neg hi32, if_neg hi64, if_neg hu64, negate, toInt_literal h, ← hcast]
    have hrange : -2 ^ 127 < castNumber n ∧ castNumber n < 2 ^ 127 := by
      rw [hcast]
      split_ifs <;> omega
    rw [negated_of_ne (by omega)]
    exact ⟨_, rfl, .i128 (by omega) (by omega)⟩

/-- The first minus on the number of the least value of a signed type. -/
theorem negate_literalEntry_overflow (h : n = 2 ^ 63 ∨ n = 2 ^ 127) :
    negate (literalEntry n) = .error negateOverflow := by
  rcases h with rfl | rfl
  · decide
  · decide

/-! ## Nesting -/

theorem signed_injective {ws : List Wrapper} {a b : ℤ} (h : signed ws a = signed ws b) : a = b := by
  induction ws with
  | nil => exact h
  | cons w ws ih =>
    cases w with
    | minus => exact ih (neg_injective h)
    | paren => exact ih h

theorem parse_plain (parseF64 : SearchRequest.ParseF64) (now : Int64) (hminus : .minus ∉ ws) : parseSqlExpression parseF64 now (l.wrapped ws) =
    (parseSqlValue parseF64 (.number l.text)).mapError .err := by
  induction ws with
  | nil => rfl
  | cons w ws ih =>
    cases w with
    | minus => exact absurd (List.mem_cons_self ..) hminus
    | paren => exact ih fun h => hminus (List.mem_cons_of_mem _ h)

theorem signed_plain (hminus : .minus ∉ ws) : signed ws z = z := by
  induction ws with
  | nil => rfl
  | cons w ws ih =>
    cases w with
    | minus => exact absurd (List.mem_cons_self ..) hminus
    | paren => exact ih fun h => hminus (List.mem_cons_of_mem _ h)

/-- A literal of `2 ^ 128` or more is refused. -/
theorem parse_tooLarge (parseF64 : SearchRequest.ParseF64) (now : Int64) (h : 2 ^ 128 ≤ l.number) : ∃ err,
    parseSqlExpression parseF64 now (l.wrapped ws) = .error (.err err) := by
  induction ws with
  | nil =>
    refine ⟨.queryError s!"Numeric literal '{l.text}' is too large or invalid", ?_⟩
    rw [IntegerLiteral.wrapped, parseSqlExpression, parseSqlValue_literal, if_neg (by omega)]
    rfl
  | cons w ws ih =>
    obtain ⟨err, herr⟩ := ih
    refine ⟨err, ?_⟩
    cases w with
    | minus =>
      rw [IntegerLiteral.wrapped, parseSqlExpression, herr]
      rfl
    | paren => exact herr

/-- Two literals make the first minus overflow. -/
theorem parse_overflow (parseF64 : SearchRequest.ParseF64) (now : Int64) (h : l.number = 2 ^ 63 ∨ l.number = 2 ^ 127) (hminus : .minus ∈ ws) :
    parseSqlExpression parseF64 now (l.wrapped ws) = .error negateOverflow := by
  induction ws with
  | nil => cases hminus
  | cons w ws ih =>
    cases w with
    | paren => exact ih ((List.mem_cons.1 hminus).resolve_left (by rintro ⟨⟩))
    | minus =>
      rw [IntegerLiteral.wrapped, parseSqlExpression]
      by_cases hinner : .minus ∈ ws
      · rw [ih hinner]
        rfl
      · rw [parse_plain _ _ hinner, parseSqlValue_literal, if_pos (by omega)]
        exact negate_literalEntry_overflow h

/-- From the first minus on the expression has the value of the cast number. -/
theorem parse_minus (parseF64 : SearchRequest.ParseF64) (now : Int64) (h : l.number < 2 ^ 128) (h₆₃ : l.number ≠ 2 ^ 63) (h₁₂₇ : l.number ≠ 2 ^ 127)
    (hminus : .minus ∈ ws) : ∃ entry, parseSqlExpression parseF64 now (l.wrapped ws) = .ok entry ∧
      Negatable entry (signed ws (castNumber l.number)) := by
  induction ws with
  | nil => cases hminus
  | cons w ws ih =>
    cases w with
    | paren => exact ih ((List.mem_cons.1 hminus).resolve_left (by rintro ⟨⟩))
    | minus =>
      rw [IntegerLiteral.wrapped, parseSqlExpression]
      by_cases hinner : .minus ∈ ws
      · obtain ⟨entry, hparse, hneg⟩ := ih hinner
        rw [hparse]
        exact hneg.negate
      · rw [parse_plain _ _ hinner, parseSqlValue_literal, if_pos h, signed, signed_plain hinner]
        exact negate_literalEntry h h₆₃ h₁₂₇

/-! ## Literals that keep their value -/

/-- The expression is refused, or it becomes an integer of its value. -/
def ValueKept (parseF64 : SearchRequest.ParseF64) (now : Int64) (l : IntegerLiteral) (ws : List Wrapper) :
    Prop :=
  (∃ err, parseSqlExpression parseF64 now (l.wrapped ws) = .error (.err err)) ∨
    ∃ entry, parseSqlExpression parseF64 now (l.wrapped ws) = .ok entry ∧
      entry.toInteger = some (signed ws l.number)

/-- A literal keeps its value unless it is negated and has its top bit in the unsigned type it is read
    with. -/
theorem valueKept_iff (parseF64 : SearchRequest.ParseF64) (now : Int64) (l : IntegerLiteral)
    (ws : List Wrapper) : ValueKept parseF64 now l ws ↔
      .minus ∉ ws ∨ l.number < 2 ^ 63 ∨ 2 ^ 64 ≤ l.number ∧ l.number < 2 ^ 127 ∨ 2 ^ 128 ≤ l.number := by
  by_cases hlarge : 2 ^ 128 ≤ l.number
  · exact iff_of_true (.inl (parse_tooLarge _ _ hlarge)) (.inr (.inr (.inr hlarge)))
  by_cases hminus : .minus ∈ ws
  swap
  · refine iff_of_true (.inr ⟨literalEntry l.number, ?_, ?_⟩) (.inl hminus)
    · rw [parse_plain _ _ hminus, parseSqlValue_literal, if_pos (by omega)]
      rfl
    · rw [signed_plain hminus, literalEntry_toInteger (by omega)]
  by_cases hleast : l.number = 2 ^ 63 ∨ l.number = 2 ^ 127
  · refine iff_of_false ?_ (by rintro (h | h | h | h) <;> [exact h hminus; omega; omega; omega])
    rintro (⟨err, h⟩ | ⟨entry, h, -⟩) <;> rw [parse_overflow _ _ hleast hminus] at h <;> cases h
  push Not at hleast
  obtain ⟨entry, hparse, hneg⟩ := parse_minus parseF64 now (by omega) hleast.1 hleast.2 hminus
  have hcast : castNumber l.number = l.number ↔
      l.number < 2 ^ 63 ∨ 2 ^ 64 ≤ l.number ∧ l.number < 2 ^ 127 ∨ 2 ^ 128 ≤ l.number := by
    unfold castNumber
    split_ifs <;> omega
  rw [← hcast]
  constructor
  · rintro (⟨err, h⟩ | ⟨entry', h, hvalue⟩) <;> rw [hparse] at h <;> cases h
    rw [hneg.toInteger] at hvalue
    exact .inr (signed_injective (Option.some.inj hvalue))
  · rintro (h | h)
    · exact absurd hminus h
    · refine .inr ⟨entry, hparse, ?_⟩
      rw [hneg.toInteger, h]

/-- The largest `u64`. -/
def maxU64 : IntegerLiteral := .ofNat 18446744073709551615

/-- The negated literal is stored as 1. -/
theorem minus_maxU64_is_one :
    parseSqlExpression noFloats 0 (maxU64.wrapped [.minus]) = .ok (.integerI64 1) ∧
      ¬ ValueKept noFloats 0 maxU64 [.minus] := by
  have hone : parseSqlExpression noFloats 0 (maxU64.wrapped [.minus]) = .ok (.integerI64 1) := by
    decide +kernel
  refine ⟨hone, ?_⟩
  rintro (⟨err, h⟩ | ⟨entry, h, hvalue⟩) <;> rw [hone] at h <;> cases h
  exact absurd hvalue (by decide +kernel)

end AntDb.Dml
