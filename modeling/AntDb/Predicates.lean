/-
  Filters on integer columns.

  A literal of a query becomes the first of five integer variants that holds it, a stored
  value has the variant of its column, and entries are compared variant first.  So a filter
  compares numbers if both variants are one, and else by the place of the variants.
-/
import AntDb.Search

namespace AntDb

/-! ## Parsed SQL -/

/-- A literal; `debug` is how `{:?}` shows one of another kind. -/
inductive SqlValue where
  | number (text : String)
  | singleQuotedString (value : String)
  | boolean (flag : Bool)
  | null
  | other (debug : String)
deriving DecidableEq

inductive BinaryOperator where
  | and | or | eq | notEq | gt | lt | gtEq | ltEq
  | other (debug : String)
deriving DecidableEq

inductive SqlExpr where
  | value (value : SqlValue)
  | identifier (name : String)
  | compoundIdentifier (first : String) (rest : List String)
  | binaryOp (left : SqlExpr) (op : BinaryOperator) (right : SqlExpr)
  | unaryNot (expr : SqlExpr)
  | nested (expr : SqlExpr)
  | isNull (expr : SqlExpr)
  | isNotNull (expr : SqlExpr)
  | other (debug : String)
deriving DecidableEq

/-! ## Literals -/

def parseDigits (digits : List Char) : Option ℕ :=
  if digits = [] then none
  else digits.foldlM (fun n c => if c.isDigit then some (10 * n + (c.toNat - 48)) else none) 0

/-- Digits after an optional sign, which is a minus only if the type read is signed. -/
def readInteger (signed : Bool) (text : List Char) : Option ℤ :=
  match text with
  | '-' :: digits => if signed then (parseDigits digits).map fun n : ℕ => -(n : ℤ) else none
  | '+' :: digits => (parseDigits digits).map fun n : ℕ => (n : ℤ)
  | digits => (parseDigits digits).map fun n : ℕ => (n : ℤ)

/-- `text.parse()` for an integer type with the values from `lo` to `hi`. -/
def parseInteger (signed : Bool) (lo hi : ℤ) (text : String) : Option ℤ :=
  (readInteger signed text.toList).filter fun n => lo ≤ n ∧ n ≤ hi

def parseI32 : String → Option ℤ := parseInteger true (-2 ^ 31) (2 ^ 31 - 1)

def parseI64 : String → Option ℤ := parseInteger true (-2 ^ 63) (2 ^ 63 - 1)

def parseU64 : String → Option ℤ := parseInteger false 0 (2 ^ 64 - 1)

def parseU128 : String → Option ℤ := parseInteger false 0 (2 ^ 128 - 1)

def parseI128 : String → Option ℤ := parseInteger true (-2 ^ 127) (2 ^ 127 - 1)

namespace SearchRequest

/-- What `text.parse::<f64>()` gives: an error, or a float that may be a NaN (`none`). -/
abbrev ParseF64 := String → Except String (Option (NotNan 11 52))

variable (parseF64 : ParseF64)

def parseSqlValue : SqlValue → Except DataBaseErrors DataBaseDataEntry
  | .number text =>
    if '.' ∈ text.toList ∨ 'e' ∈ text.toList ∨ 'E' ∈ text.toList then
      match parseF64 text with
      | .error err => .error (.queryError s!"Unable to parse numeric literal '{text}': {err}")
      | .ok none => .error (.queryError "Floating point literal must not be NaN")
      | .ok (some float) => .ok (.floatF64 float)
    else if let some signed := parseI32 text then .ok (.integerI32 (Int32.ofInt signed))
    else if let some signed := parseI64 text then .ok (.integerI64 (Int64.ofInt signed))
    else if let some unsigned := parseU64 text then .ok (.integerU64 (UInt64.ofNat unsigned.toNat))
    else if let some unsigned := parseU128 text then .ok (.integerU128 (BitVec.ofInt 128 unsigned))
    else if let some signed := parseI128 text then .ok (.integerI128 (BitVec.ofInt 128 signed))
    else .error (.queryError s!"Numeric literal '{text}' is too large or invalid")
  | .singleQuotedString value => .ok (.string value)
  | .boolean flag => .ok (.boolean flag)
  | .null => .ok .null
  | .other debug => .error (.queryError s!"Unsupported literal value in WHERE clause: {debug}")

end SearchRequest

/-- `from_sql_operator`. -/
def SearchOperator.fromSqlOperator : BinaryOperator → Except DataBaseErrors SearchOperator
  | .eq => .ok .equal
  | .notEq => .ok .notEqual
  | .gt => .ok .greaterThan
  | .lt => .ok .lessThan
  | .gtEq => .ok .greaterThanOrEqual
  | .ltEq => .ok .lessThanOrEqual
  | .and => .error (.queryError "Unsupported operator: And")
  | .or => .error (.queryError "Unsupported operator: Or")
  | .other debug => .error (.queryError s!"Unsupported operator: {debug}")

namespace SearchRequest

variable (parseF64 : ParseF64)

def parseSqlExpression : SqlExpr → Except DataBaseErrors SearchExpression
  | .value value => do return .literal (← parseSqlValue parseF64 value)
  | .identifier name => .ok (.column (normalizeIdentifier name))
  | .compoundIdentifier first rest =>
    match rest.getLast? with
    | none => .ok (.column (normalizeIdentifier first))
    | some last => .ok (.qualifiedColumn (normalizeIdentifier first) (normalizeIdentifier last))
  | .binaryOp left op right => do
    match op with
    | .and => return .and (← parseSqlExpression left) (← parseSqlExpression right)
    | .or => return .or (← parseSqlExpression left) (← parseSqlExpression right)
    | op =>
      let left ← parseSqlExpression left
      let operator ← SearchOperator.fromSqlOperator op
      return .comparison left operator (← parseSqlExpression right)
  | .unaryNot expr => do return .not (← parseSqlExpression expr)
  | .nested expr => parseSqlExpression expr
  | .isNull expr => do return .comparison (← parseSqlExpression expr) .equal (.literal .null)
  | .isNotNull expr => do return .comparison (← parseSqlExpression expr) .notEqual (.literal .null)
  | .other debug => .error (.queryError s!"Unsupported SQL expression in WHERE clause: {debug}")

end SearchRequest

/-! ## Stored values -/

def outOfRangeForColumn : DataBaseErrors := .queryError "Integer value out of range for column"

/-- `i32::try_from` of a value, as an entry. -/
def tryI32 (value : ℤ) : Except DataBaseErrors DataBaseDataEntry :=
  if -2 ^ 31 ≤ value ∧ value < 2 ^ 31 then .ok (.integerI32 (Int32.ofInt value))
  else .error outOfRangeForColumn

/-- `i64::try_from` of a value, as an entry. -/
def tryI64 (value : ℤ) : Except DataBaseErrors DataBaseDataEntry :=
  if -2 ^ 63 ≤ value ∧ value < 2 ^ 63 then .ok (.integerI64 (Int64.ofInt value))
  else .error outOfRangeForColumn

/-- `coerce_to_type`. -/
def coerceToType (value : DataBaseDataEntry) (expected : DataBaseDataType) :
    Except DataBaseErrors DataBaseDataEntry :=
  if value.dataType = expected ∨ value.isNull then .ok value
  else
    match value, expected with
    | .integerI64 v, .integerI32 => tryI32 v.toInt
    | .integerI64 v, .integerI64 => .ok (.integerI64 v)
    | .integerI32 v, .integerI64 => .ok (.integerI64 v.toInt64)
    | .integerU64 v, .integerI32 => tryI32 v.toNat
    | .integerU64 v, .integerI64 => tryI64 v.toNat
    | .timestamp v, .timestamp => .ok (.timestamp v)
    | _, _ => .error
      (.queryError s!"Cannot coerce value type {value.dataType.name} to {expected.name}")

/-! ## Integers and their variants -/

/-- The place of a type's variant in the derived order of entries. -/
def DataBaseDataType.place : DataBaseDataType → ℤ
  | .null => 0
  | .integerU8 => 1
  | .integerU16 => 2
  | .integerU32 => 3
  | .integerU64 => 4
  | .integerU128 => 5
  | .integerI8 => 6
  | .integerI16 => 7
  | .integerI32 => 8
  | .integerI64 => 9
  | .integerI128 => 10
  | .floatF32 => 11
  | .floatF64 => 12
  | .string => 13
  | .boolean => 14
  | .bytes => 15
  | .timestamp => 16

/-- The number an integer entry stands for. -/
def DataBaseDataEntry.toInteger : DataBaseDataEntry → Option ℤ
  | integerU8 value => some value.toNat
  | integerU16 value => some value.toNat
  | integerU32 value => some value.toNat
  | integerU64 value => some value.toNat
  | integerU128 value => some value.toNat
  | integerI8 value => some value.toInt
  | integerI16 value => some value.toInt
  | integerI32 value => some value.toInt
  | integerI64 value => some value.toInt
  | integerI128 value => some value.toInt
  | _ => none

/-- The type of the entry that the literal of a number becomes. -/
def literalType (y : ℤ) : DataBaseDataType :=
  if -2 ^ 31 ≤ y ∧ y < 2 ^ 31 then .integerI32
  else if -2 ^ 63 ≤ y ∧ y < 2 ^ 63 then .integerI64
  else if 0 ≤ y ∧ y < 2 ^ 64 then .integerU64
  else if 0 ≤ y then .integerU128
  else .integerI128

namespace SearchOperator

/-- What an operator says of two numbers. -/
def Holds (operator : SearchOperator) (x y : ℤ) : Prop :=
  match operator with
  | .equal => x = y
  | .notEqual => x ≠ y
  | .greaterThan => y < x
  | .lessThan => x < y
  | .greaterThanOrEqual => y ≤ x
  | .lessThanOrEqual => x ≤ y

/-- Entries of the types `T` and `L` have one variant, or the places of their variants mislead
    the operator neither about equality nor about the order of `x` and `y`. -/
def Undisturbed (operator : SearchOperator) (T L : DataBaseDataType) (x y : ℤ) : Prop :=
  T = L ∨
    match operator with
    | .equal | .notEqual => x ≠ y
    | .lessThan | .greaterThanOrEqual => T.place < L.place ↔ x < y
    | .greaterThan | .lessThanOrEqual => L.place < T.place ↔ y < x

end SearchOperator

section

variable {a b e l v : DataBaseDataEntry} {x y : ℤ} {T L : DataBaseDataType}

theorem DataBaseDataType.place_injective : Function.Injective DataBaseDataType.place := by
  intro T L
  cases T <;> cases L <;> simp [place]

theorem DataBaseDataEntry.ordKey_of_toInteger (h : a.toInteger = some x) :
    a.ordKey = [a.dataType.place, x] := by
  cases a <;> simp_all [toInteger, ordKey, dataType, DataBaseDataType.place]

theorem DataBaseDataEntry.eq_of_toInteger (ha : a.toInteger = some x) (hb : b.toInteger = some y) :
    a.eq b = true ↔ a.dataType = b.dataType ∧ x = y := by
  rw [eq_iff, ordKey_of_toInteger ha, ordKey_of_toInteger hb]
  simp [DataBaseDataType.place_injective.eq_iff]

theorem DataBaseDataEntry.cmp_of_toInteger (ha : a.toInteger = some x) (hb : b.toInteger = some y) :
    a.cmp b = (compare a.dataType.place b.dataType.place).then (compare x y) := by
  rw [cmp, ordKey_of_toInteger ha, ordKey_of_toInteger hb]
  rw [List.compare_cons_cons, List.compare_cons_cons, List.compare_nil_nil, Ordering.then_eq]

namespace SearchOperator

variable {operator : SearchOperator}

/-- Between entries of one variant an operator compares the numbers. -/
theorem compare_same (ha : a.toInteger = some x) (hb : b.toInteger = some y)
    (htype : a.dataType = b.dataType) : operator.compare a b = true ↔ operator.Holds x y := by
  have heq := DataBaseDataEntry.eq_of_toInteger ha hb
  have hcmp := DataBaseDataEntry.cmp_of_toInteger ha hb
  rw [htype, Std.ReflOrd.compare_self, Ordering.eq_then] at hcmp
  cases operator <;> simp only [SearchOperator.compare, Holds, hcmp, decide_eq_true_eq]
  case equal => rw [heq, and_iff_right htype]
  case notEqual => rw [Bool.not_eq_true', ← Bool.not_eq_true, heq, and_iff_right htype]
  case greaterThan => exact Std.compare_eq_gt
  case lessThan => exact Std.compare_eq_lt
  case greaterThanOrEqual => rw [Ne, Std.compare_eq_lt, not_lt]
  case lessThanOrEqual => rw [Ne, Std.compare_eq_gt, not_lt]

/-- Between entries of two variants it compares the places of the variants. -/
theorem compare_different (ha : a.toInteger = some x) (hb : b.toInteger = some y)
    (htype : a.dataType ≠ b.dataType) :
    operator.compare a b = true ↔ operator.Holds a.dataType.place b.dataType.place := by
  have heq := DataBaseDataEntry.eq_of_toInteger ha hb
  have hplace : a.dataType.place ≠ b.dataType.place :=
    fun h => htype (DataBaseDataType.place_injective h)
  have hcmp : a.cmp b = Ord.compare a.dataType.place b.dataType.place := by
    rw [DataBaseDataEntry.cmp_of_toInteger ha hb]
    rcases lt_or_gt_of_ne hplace with h | h
    · rw [Std.compare_eq_lt.2 h]; rfl
    · rw [Std.compare_eq_gt.2 h]; rfl
  cases operator <;> simp only [SearchOperator.compare, Holds, hcmp, decide_eq_true_eq]
  case equal => exact iff_of_false (fun h => htype (heq.1 h).1) hplace
  case notEqual =>
    rw [Bool.not_eq_true', ← Bool.not_eq_true]
    exact iff_of_true (fun h => htype (heq.1 h).1) hplace
  case greaterThan => exact Std.compare_eq_gt
  case lessThan => exact Std.compare_eq_lt
  case greaterThanOrEqual => rw [Ne, Std.compare_eq_lt, not_lt]
  case lessThanOrEqual => rw [Ne, Std.compare_eq_gt, not_lt]

/-- **When an operator compares numbers.** -/
theorem compare_holds_iff (ha : a.toInteger = some x) (hb : b.toInteger = some y) :
    (operator.compare a b = true ↔ operator.Holds x y) ↔
      operator.Undisturbed a.dataType b.dataType x y := by
  by_cases htype : a.dataType = b.dataType
  · exact iff_of_true (compare_same ha hb htype) (Or.inl htype)
  · have hplace : a.dataType.place ≠ b.dataType.place :=
      fun h => htype (DataBaseDataType.place_injective h)
    rw [compare_different ha hb htype]
    unfold Undisturbed
    rw [or_iff_right htype]
    cases operator <;> simp only [Holds]
    case equal => rw [iff_false_left hplace]
    case notEqual => rw [iff_true_left hplace]
    case greaterThanOrEqual =>
      rw [← not_lt, ← not_lt (a := x)]
      exact not_iff_not
    case lessThanOrEqual =>
      rw [← not_lt, ← not_lt (a := y)]
      exact not_iff_not

end SearchOperator

/-! ## The filters a query is parsed to -/

variable {text : List Char}

/-- A signed type reads what an unsigned one does. -/
theorem readInteger_signed (h : readInteger false text = some x) :
    readInteger true text = some x ∧ 0 ≤ x := by
  unfold readInteger at h ⊢
  split at h
  · simp at h
  · obtain ⟨n, hn, rfl⟩ := Option.map_eq_some_iff.1 h
    exact ⟨h, Int.natCast_nonneg n⟩
  · obtain ⟨n, hn, rfl⟩ := Option.map_eq_some_iff.1 h
    exact ⟨h, Int.natCast_nonneg n⟩

/-- A positive number has no minus. -/
theorem readInteger_unsigned (h : readInteger true text = some x) (hx : 0 < x) :
    readInteger false text = some x := by
  unfold readInteger at h ⊢
  split at h
  · rw [if_pos rfl] at h
    obtain ⟨n, hn, rfl⟩ := Option.map_eq_some_iff.1 h
    omega
  · exact h
  · exact h

end

section

variable {signed : Bool} {lo hi n : ℤ} {text : String} {parseF64 : SearchRequest.ParseF64}
  {l : DataBaseDataEntry} {y : ℤ}

theorem parseInteger_eq_some : parseInteger signed lo hi text = some n ↔
    readInteger signed text.toList = some n ∧ lo ≤ n ∧ n ≤ hi := by
  rw [parseInteger, Option.filter_eq_some_iff, decide_eq_true_iff]

theorem parseInteger_eq_none (h : readInteger signed text.toList = some n)
    (hnone : parseInteger signed lo hi text = none) : ¬ (lo ≤ n ∧ n ≤ hi) := by
  intro hn
  rw [parseInteger_eq_some.2 ⟨h, hn⟩] at hnone
  cases hnone

/-- **An integer literal** becomes an entry of the first type that holds it. -/
theorem dataType_of_parse (hl : SearchRequest.parseSqlValue parseF64 (.number text) = .ok l)
    (hy : l.toInteger = some y) : l.dataType = literalType y := by
  unfold SearchRequest.parseSqlValue at hl
  dsimp only at hl
  split_ifs at hl with hfloat
  · cases hp : parseF64 text with
    | error err => rw [hp] at hl; cases hl
    | ok float =>
      rw [hp] at hl
      cases float <;> cases hl
      cases hy
  cases h₁ : parseI32 text with
  | some n =>
    obtain ⟨-, hlo, hhi⟩ := parseInteger_eq_some.1 h₁
    rw [h₁] at hl
    obtain rfl := Except.ok.inj hl
    have hn : (Int32.ofInt n).toInt = n := Int32.toInt_ofInt_of_le (by omega) (by omega)
    obtain rfl : n = y := hn.symm.trans (Option.some.inj hy)
    rw [literalType, if_pos (by omega)]; rfl
  | none =>
  rw [h₁] at hl
  cases h₂ : parseI64 text with
  | some n =>
    obtain ⟨hread, hlo, hhi⟩ := parseInteger_eq_some.1 h₂
    have hi32 := parseInteger_eq_none hread h₁
    rw [h₂] at hl
    obtain rfl := Except.ok.inj hl
    have hn : (Int64.ofInt n).toInt = n := Int64.toInt_ofInt_of_le (by omega) (by omega)
    obtain rfl : n = y := hn.symm.trans (Option.some.inj hy)
    rw [literalType, if_neg (by omega), if_pos (by omega)]; rfl
  | none =>
  rw [h₂] at hl
  cases h₃ : parseU64 text with
  | some n =>
    obtain ⟨hread, hlo, hhi⟩ := parseInteger_eq_some.1 h₃
    have hi32 := parseInteger_eq_none (readInteger_signed hread).1 h₁
    have hi64 := parseInteger_eq_none (readInteger_signed hread).1 h₂
    rw [h₃] at hl
    obtain rfl := Except.ok.inj hl
    have hn : ((UInt64.ofNat n.toNat).toNat : ℤ) = n := by
      rw [UInt64.toNat_ofNat_of_lt' (by rw [UInt64.size]; omega)]; omega
    obtain rfl : n = y := hn.symm.trans (Option.some.inj hy)
    rw [literalType, if_neg (by omega), if_neg (by omega), if_pos (by omega)]; rfl
  | none =>
  rw [h₃] at hl
  cases h₄ : parseU128 text with
  | some n =>
    obtain ⟨hread, hlo, hhi⟩ := parseInteger_eq_some.1 h₄
    have hi32 := parseInteger_eq_none (readInteger_signed hread).1 h₁
    have hi64 := parseInteger_eq_none (readInteger_signed hread).1 h₂
    have hu64 := parseInteger_eq_none hread h₃
    rw [h₄] at hl
    obtain rfl := Except.ok.inj hl
    have hn : ((BitVec.ofInt 128 n).toNat : ℤ) = n := by
      rw [BitVec.toNat_ofInt]; omega
    obtain rfl : n = y := hn.symm.trans (Option.some.inj hy)
    rw [literalType, if_neg (by omega), if_neg (by omega), if_neg (by omega), if_pos (by omega)]; rfl
  | none =>
  rw [h₄] at hl
  cases h₅ : parseI128 text with
  | some n =>
    obtain ⟨hread, hlo, hhi⟩ := parseInteger_eq_some.1 h₅
    have hi32 := parseInteger_eq_none hread h₁
    have hi64 := parseInteger_eq_none hread h₂
    have hneg : ¬ 0 < n := fun hpos => by
      have hu128 := parseInteger_eq_none (readInteger_unsigned hread hpos) h₄
      omega
    rw [h₅] at hl
    obtain rfl := Except.ok.inj hl
    have hn : (BitVec.ofInt 128 n).toInt = n :=
      BitVec.toInt_ofInt_eq_self (by omega) (by omega) (by omega)
    obtain rfl : n = y := hn.symm.trans (Option.some.inj hy)
    rw [literalType, if_neg (by omega), if_neg (by omega), if_neg (by omega), if_neg (by omega)]; rfl
  | none => rw [h₅] at hl; cases hl

theorem dataType_of_tryI32 {n : ℤ} (h : tryI32 n = .ok l) : l.dataType = .integerI32 := by
  unfold tryI32 at h
  split_ifs at h
  obtain rfl := Except.ok.inj h
  rfl

theorem dataType_of_tryI64 {n : ℤ} (h : tryI64 n = .ok l) : l.dataType = .integerI64 := by
  unfold tryI64 at h
  split_ifs at h
  obtain rfl := Except.ok.inj h
  rfl

/-- What is stored for a column has its type, unless it is NULL. -/
theorem dataType_of_coerce {v e : DataBaseDataEntry} {T : DataBaseDataType}
    (h : coerceToType v T = .ok e) : e.dataType = T ∨ e = .null := by
  unfold coerceToType at h
  split_ifs at h with hv
  · obtain rfl := Except.ok.inj h
    exact hv.imp_right fun h => of_decide_eq_true h
  · left
    split at h
    · exact dataType_of_tryI32 h
    · obtain rfl := Except.ok.inj h; rfl
    · obtain rfl := Except.ok.inj h; rfl
    · exact dataType_of_tryI32 h
    · exact dataType_of_tryI64 h
    · obtain rfl := Except.ok.inj h; rfl
    · cases h

/-- The filter `column op literal` of a query. -/
def predicate (parseF64 : SearchRequest.ParseF64) (column : SqlExpr) (op : BinaryOperator)
    (text : String) : Except DataBaseErrors SearchExpression :=
  SearchRequest.parseSqlExpression parseF64 (.binaryOp column op (.value (.number text)))

variable {ctx : RowEvaluationContext} {column : SqlExpr} {c : SearchExpression}
  {op : BinaryOperator} {operator : SearchOperator} {v e : DataBaseDataEntry}
  {T : DataBaseDataType} {x : ℤ}

/-- The filter compares what the row holds with the literal. -/
theorem evaluate_predicate (hcolumn : SearchRequest.parseSqlExpression parseF64 column = .ok c)
    (hop : SearchOperator.fromSqlOperator op = .ok operator)
    (hstored : c.resolveValue ctx = .ok e)
    (hl : SearchRequest.parseSqlValue parseF64 (.number text) = .ok l) :
    (predicate parseF64 column op text >>= fun filter => filter.evaluate ctx) =
      .ok (operator.compare e l) := by
  have hliteral : SearchRequest.parseSqlExpression parseF64 (.value (.number text)) =
      .ok (.literal l) := by
    unfold SearchRequest.parseSqlExpression
    rw [hl]; rfl
  have hparsed : predicate parseF64 column op text = .ok (.comparison c operator (.literal l)) := by
    unfold predicate SearchRequest.parseSqlExpression
    rw [hcolumn, hliteral]
    cases op <;> cases hop <;> rfl
  rw [hparsed]
  show (do return operator.compare (← c.resolveValue ctx) (← SearchExpression.resolveValue ctx _)) = _
  rw [hstored]
  rfl

/-- **An integer filter** is true on a row exactly when the comparison of the numbers is, if and
    only if the places of the variants do not disturb it. -/
theorem integer_predicate_iff (hcolumn : SearchRequest.parseSqlExpression parseF64 column = .ok c)
    (hop : SearchOperator.fromSqlOperator op = .ok operator)
    (hcoerce : coerceToType v T = .ok e) (hx : e.toInteger = some x)
    (hstored : c.resolveValue ctx = .ok e)
    (hl : SearchRequest.parseSqlValue parseF64 (.number text) = .ok l) (hy : l.toInteger = some y) :
    ((predicate parseF64 column op text >>= fun filter => filter.evaluate ctx) = .ok true ↔
      operator.Holds x y) ↔ operator.Undisturbed T (literalType y) x y := by
  have htype : e.dataType = T := (dataType_of_coerce hcoerce).resolve_right fun h => by
    rw [h] at hx; cases hx
  rw [evaluate_predicate hcolumn hop hstored hl, Except.ok.injEq, ← htype,
    ← dataType_of_parse hl hy]
  exact SearchOperator.compare_holds_iff hx hy

/-- A float parser for queries without floats. -/
def noFloats : SearchRequest.ParseF64 := fun _ => .error "invalid float literal"

/-- The row of a table with the column `id` that holds `entry`. -/
def idRow (entry : DataBaseDataEntry) : RowEvaluationContext :=
  Table.evaluationContext ((∅ : BTreeMap String ColumnID).insert "id" 1)
    ⟨⟨1, none⟩, (∅ : RowData).insert 1 entry⟩

theorem integer_predicate_iff_int : ((predicate noFloats (.identifier "id") .gt "3" >>=
      fun filter => filter.evaluate (idRow (.integerI32 5))) = .ok true ↔
    SearchOperator.greaterThan.Holds 5 3) ↔
      SearchOperator.greaterThan.Undisturbed .integerI32 (literalType 3) 5 3 :=
  integer_predicate_iff (v := .integerI32 5) (e := .integerI32 5) (l := .integerI32 3)
    (c := .column "id") (by decide +kernel) rfl (by decide) (by decide) (by decide +kernel)
    (by decide +kernel) (by decide)

/-- `5` in a `BIGINT` column is stored as 64 bits, the literal `5` is one of 32 bits, and
    `id = 5` is false on the row. -/
theorem bigint_is_not_itself : coerceToType (.integerI32 5) .integerI64 = .ok (.integerI64 5) ∧
    (DataBaseDataEntry.integerI64 5).toInteger = some 5 ∧
    SearchRequest.parseSqlValue noFloats (.number "5") = .ok (.integerI32 5) ∧
    (DataBaseDataEntry.integerI32 5).toInteger = some 5 ∧
    ¬ ((predicate noFloats (.identifier "id") .eq "5" >>=
      fun filter => filter.evaluate (idRow (.integerI64 5))) = .ok true ↔
        SearchOperator.equal.Holds 5 5) := by
  refine ⟨by decide, by decide, by decide +kernel, by decide, fun h => ?_⟩
  have hfalse : (predicate noFloats (.identifier "id") .eq "5" >>=
      fun filter => filter.evaluate (idRow (.integerI64 5))) = .ok false := by decide +kernel
  rw [hfalse] at h
  exact absurd (h.2 rfl) (by simp)

end

end AntDb
