/-
  Integer literals that an INSERT stores.

  The types that CREATE TABLE makes and the pairs of types that a conversion knows do not fit together:
  four of the six integer types are never converted to.
-/
import AntDb.Coercing

namespace AntDb

/-! ## Types of CREATE TABLE -/

/-- A type as it is written in a `CREATE TABLE`; lengths and precisions are not looked at. -/
inductive DataType where
  | boolean
  | text | character | char | characterVarying | charVarying | varchar | nvarchar
  | characterLargeObject | charLargeObject | clob | uuid
  | binary | varbinary | blob | bytes
  | float | float4 | float32 | float64 | real | float8 | double | doublePrecision
  | int2 | smallInt | int16
  | unsignedInt2 | unsignedSmallInt
  | int4 | integer | int | int8 | int32
  | unsignedInt | unsignedInt4 | unsignedInteger
  | int64 | bigInt | unsignedBigInt | unsignedInt8
  | int128 | uInt8 | uInt16 | uInt32 | uInt64 | uInt128
  | numeric | decimal | bigNumeric | bigDecimal | dec
  | timestamp | datetime
  | other (debug : String)

def parseCreateTableDataType : DataType → Except DataBaseErrors DataBaseDataType
  | .boolean => .ok .boolean
  | .text | .character | .char | .characterVarying | .charVarying | .varchar | .nvarchar
  | .characterLargeObject | .charLargeObject | .clob | .uuid => .ok .string
  | .binary | .varbinary | .blob | .bytes => .ok .bytes
  | .float | .float4 | .float32 | .float64 | .real | .float8 | .double | .doublePrecision =>
    .ok .floatF64
  | .int2 | .smallInt | .int16 => .ok .integerI16
  | .unsignedInt2 | .unsignedSmallInt => .ok .integerU16
  | .int4 | .integer | .int | .int8 | .int32 => .ok .integerI32
  | .unsignedInt | .unsignedInt4 | .unsignedInteger => .ok .integerU32
  | .int64 | .bigInt | .unsignedBigInt | .unsignedInt8 => .ok .integerI64
  | .int128 | .uInt8 | .uInt16 | .uInt32 | .uInt64 | .uInt128 => .ok .integerI128
  | .numeric | .decimal | .bigNumeric | .bigDecimal | .dec => .ok .floatF64
  | .timestamp | .datetime => .ok .timestamp
  | .other debug => .error (.queryError s!"Unsupported column type in CREATE TABLE: {debug}")

/-- The integer types that it makes. -/
def integerColumns : List DataBaseDataType :=
  [.integerI16, .integerU16, .integerU32, .integerI32, .integerI64, .integerI128]

theorem mem_integerColumns {d : DataType} {T : DataBaseDataType} (h : parseCreateTableDataType d = .ok T)
    (hT : T.IsInteger) : T ∈ integerColumns := by
  cases d <;> cases h <;> first | decide | exact hT.elim

namespace Dml

variable {parseF64 : SearchRequest.ParseF64} {now : Int64} {l : IntegerLiteral} {negative : Bool}
  {T : DataBaseDataType} {v e : DataBaseDataEntry} {z : ℤ}

/-! ## The entry of a literal -/

/-- A literal with or without a minus. -/
def literalExpr (l : IntegerLiteral) (negative : Bool) : SqlExpr :=
  l.wrapped (if negative then [.minus] else [])

def literalValue (l : IntegerLiteral) (negative : Bool) : ℤ :=
  if negative then -(l.number : ℤ) else l.number

/-- The type a value of a type has under a minus. -/
def signedType : DataBaseDataType → DataBaseDataType
  | .integerU64 => .integerI64
  | .integerU128 => .integerI128
  | T => T

theorem dataType_negate (h : negate v = .ok e) : e.dataType = signedType v.dataType := by
  cases v <;> simp only [negate, negated] at h <;> (try split_ifs at h) <;> cases h <;> rfl

theorem dataType_literalEntry (n : ℕ) : (literalEntry n).dataType =
    if n < 2 ^ 31 then .integerI32 else if n < 2 ^ 63 then .integerI64
    else if n < 2 ^ 64 then .integerU64 else .integerU128 := by
  unfold literalEntry
  split_ifs <;> rfl

theorem parse_positive (h : l.number < 2 ^ 128) :
    parseSqlExpression parseF64 now (literalExpr l false) = .ok (literalEntry l.number) := by
  change (parseSqlValue parseF64 (.number l.text)).mapError Fault.err = _
  rw [parseSqlValue_literal, if_pos h]
  rfl

theorem parse_negative (parseF64 : SearchRequest.ParseF64) (now : Int64) (h : l.number < 2 ^ 128) (h₆₃ : l.number ≠ 2 ^ 63) (h₁₂₇ : l.number ≠ 2 ^ 127) :
    ∃ e, parseSqlExpression parseF64 now (literalExpr l true) = .ok e ∧
      e.dataType = signedType (literalEntry l.number).dataType ∧
      e.toInteger = some (-castNumber l.number) := by
  obtain ⟨e, hneg, he⟩ := negate_literalEntry h h₆₃ h₁₂₇
  refine ⟨e, ?_, dataType_negate hneg, he.toInteger⟩
  change (parseSqlExpression parseF64 now (literalExpr l false) >>= negate) = _
  rw [parse_positive h]
  exact hneg

/-! ## Columns that take exactly their numbers -/

/-- The literal is stored if and only if it is a number of the column's type, and then as that number. -/
def AcceptsExactly (parseF64 : SearchRequest.ParseF64) (now : Int64) (T : DataBaseDataType)
    (l : IntegerLiteral) (negative : Bool) : Prop :=
  ((∃ e, insertValue parseF64 now (literalExpr l negative) T = .ok e) ↔
      T.Holds (literalValue l negative)) ∧
    ∀ e, insertValue parseF64 now (literalExpr l negative) T = .ok e →
      e.dataType = T ∧ e.toInteger = some (literalValue l negative)

/-- The numbers for which a column of an integer type does that. -/
def Accepted (T : DataBaseDataType) (negative : Bool) (n : ℕ) : Prop :=
  match T with
  | .integerI32 => ¬ (negative = true ∧ 2 ^ 64 - 2 ^ 31 < n ∧ n < 2 ^ 64)
  | .integerI64 => ¬ (negative = true ∧ 2 ^ 63 ≤ n ∧ n < 2 ^ 64)
  | .integerI128 => if negative then 2 ^ 64 ≤ n ∧ n < 2 ^ 127 ∨ 2 ^ 128 ≤ n else 2 ^ 127 ≤ n
  | T => ¬ T.Holds (if negative then -(n : ℤ) else n)

theorem insertValue_of_parsed {expr : SqlExpr} (h : parseSqlExpression parseF64 now expr = .ok v) :
    insertValue parseF64 now expr T = (coerceToType v T).mapError .err := by
  rw [insertValue, h]
  rfl

theorem mapError_ok {r : Except DataBaseErrors DataBaseDataEntry} :
    r.mapError Fault.err = .ok e ↔ r = .ok e := by
  cases r with
  | error => exact iff_of_false (by rintro ⟨⟩) (by rintro ⟨⟩)
  | ok => constructor <;> (rintro ⟨⟩; rfl)

theorem acceptsExactly_of_parsed
    (h : parseSqlExpression parseF64 now (literalExpr l negative) = .ok v) (hv : v.toInteger = some z) :
    AcceptsExactly parseF64 now T l negative ↔
      (v.dataType.Reaches T ∧ T.Holds z ↔ T.Holds (literalValue l negative)) ∧
        (v.dataType.Reaches T ∧ T.Holds z → z = literalValue l negative) := by
  unfold AcceptsExactly
  simp only [insertValue_of_parsed h, mapError_ok, coerceToType_iff hv]
  refine and_congr_right fun _ => ?_
  constructor
  · intro hall hreaches
    obtain ⟨e, he⟩ := (coerceToType_iff hv).2 hreaches
    have hvalue := (hall e he).2
    rw [(coerceToType_ok hv he).2.2] at hvalue
    exact Option.some.inj hvalue
  · intro hz e he
    obtain ⟨hreaches, rfl, hvalue⟩ := coerceToType_ok hv he
    refine ⟨rfl, ?_⟩
    rw [hvalue, hz ⟨hreaches, holds_of_toInteger hvalue⟩]

theorem acceptsExactly_of_failed (h : ∀ v, parseSqlExpression parseF64 now (literalExpr l negative) ≠ .ok v) :
    AcceptsExactly parseF64 now T l negative ↔ ¬ T.Holds (literalValue l negative) := by
  have hnone (e : DataBaseDataEntry) : insertValue parseF64 now (literalExpr l negative) T ≠ .ok e := by
    intro he
    obtain ⟨v, hv, -⟩ := exists_of_bind_ok he
    exact h v hv
  simp [AcceptsExactly, hnone]

theorem reaches_i32 {S : DataBaseDataType} :
    S.Reaches .integerI32 ↔ S = .integerI32 ∨ S = .integerI64 ∨ S = .integerU64 := by
  constructor
  · rintro ⟨⟩ <;> simp
  · rintro (rfl | rfl | rfl) <;> constructor

theorem reaches_i64 {S : DataBaseDataType} :
    S.Reaches .integerI64 ↔ S = .integerI64 ∨ S = .integerI32 ∨ S = .integerU64 := by
  constructor
  · rintro ⟨⟩ <;> simp
  · rintro (rfl | rfl | rfl) <;> constructor

theorem reaches_other {S : DataBaseDataType} (hi32 : T ≠ .integerI32) (hi64 : T ≠ .integerI64) :
    S.Reaches T ↔ S = T := by
  constructor
  · rintro ⟨⟩ <;> first | rfl | exact absurd rfl hi32 | exact absurd rfl hi64
  · rintro rfl
    exact .same S

theorem acceptsExactly_positive (h : l.number < 2 ^ 128) (hT : T ∈ integerColumns) :
    AcceptsExactly parseF64 now T l false ↔ Accepted T false l.number := by
  rw [acceptsExactly_of_parsed (parse_positive h) (literalEntry_toInteger h), dataType_literalEntry]
  have hvalue : literalValue l false = l.number := rfl
  rw [hvalue, and_iff_left fun _ => rfl]
  generalize l.number = n at h
  fin_cases hT
  case «3» =>
    rw [reaches_i32]
    split_ifs <;> simp [Accepted, DataBaseDataType.Holds]
    omega
  case «4» =>
    rw [reaches_i64]
    split_ifs <;> simp [Accepted, DataBaseDataType.Holds]
    omega
  all_goals
    rw [reaches_other (by decide) (by decide)]
    split_ifs <;> simp [Accepted, DataBaseDataType.Holds]

theorem acceptsExactly_negative (h : l.number < 2 ^ 128) (h₆₃ : l.number ≠ 2 ^ 63)
    (h₁₂₇ : l.number ≠ 2 ^ 127) (hT : T ∈ integerColumns) :
    AcceptsExactly parseF64 now T l true ↔ Accepted T true l.number := by
  obtain ⟨e, hparse, htype, hvalue⟩ := parse_negative parseF64 now h h₆₃ h₁₂₇
  rw [acceptsExactly_of_parsed hparse hvalue, htype, dataType_literalEntry]
  have hneg : literalValue l true = -(l.number : ℤ) := rfl
  rw [hneg, castNumber]
  generalize l.number = n at h h₆₃ h₁₂₇
  fin_cases hT
  case «3» =>
    rw [reaches_i32]
    split_ifs <;> simp [signedType, Accepted, DataBaseDataType.Holds] <;> omega
  case «4» =>
    rw [reaches_i64]
    split_ifs <;> simp [signedType, Accepted, DataBaseDataType.Holds] <;> omega
  all_goals
    rw [reaches_other (by decide) (by decide)]
    split_ifs <;> simp [signedType, Accepted, DataBaseDataType.Holds] <;> omega

theorem acceptsExactly_refused (h : 2 ^ 128 ≤ l.number) (hT : T ∈ integerColumns) :
    AcceptsExactly parseF64 now T l negative ↔ Accepted T negative l.number := by
  have hfailed (v : DataBaseDataEntry) :
      parseSqlExpression parseF64 now (literalExpr l negative) ≠ .ok v := by
    obtain ⟨err, herr⟩ := parse_tooLarge parseF64 now h
    rw [literalExpr, herr]
    rintro ⟨⟩
  rw [acceptsExactly_of_failed hfailed, literalValue]
  generalize l.number = n at h
  fin_cases hT <;> cases negative <;> simp [Accepted, DataBaseDataType.Holds] <;> omega

theorem acceptsExactly_overflow (h : l.number = 2 ^ 63 ∨ l.number = 2 ^ 127) (hT : T ∈ integerColumns) :
    AcceptsExactly parseF64 now T l true ↔ Accepted T true l.number := by
  have hfailed (v : DataBaseDataEntry) : parseSqlExpression parseF64 now (literalExpr l true) ≠ .ok v := by
    rw [literalExpr, if_pos rfl, parse_overflow parseF64 now h (by decide)]
    rintro ⟨⟩
  rw [acceptsExactly_of_failed hfailed, literalValue]
  generalize l.number = n at h
  rcases h with rfl | rfl <;> fin_cases hT <;> simp [Accepted, DataBaseDataType.Holds]

/-- A column of an integer type takes exactly its numbers where the conversion knows the literal's type
    and no minus has changed the number. -/
theorem acceptsExactly_iff (parseF64 : SearchRequest.ParseF64) (now : Int64) {d : DataType}
    (hcreate : parseCreateTableDataType d = .ok T) (hT : T.IsInteger) (l : IntegerLiteral)
    (negative : Bool) : AcceptsExactly parseF64 now T l negative ↔ Accepted T negative l.number := by
  have hcolumn := mem_integerColumns hcreate hT
  by_cases hlarge : 2 ^ 128 ≤ l.number
  · exact acceptsExactly_refused hlarge hcolumn
  cases negative with
  | false => exact acceptsExactly_positive (by omega) hcolumn
  | true =>
    by_cases hoverflow : l.number = 2 ^ 63 ∨ l.number = 2 ^ 127
    · exact acceptsExactly_overflow hoverflow hcolumn
    · obtain ⟨h₆₃, h₁₂₇⟩ := not_or.1 hoverflow
      exact acceptsExactly_negative (by omega) h₆₃ h₁₂₇ hcolumn

theorem bigint_accepts_five : AcceptsExactly noFloats 0 .integerI64 (.ofNat 5) false :=
  (acceptsExactly_iff noFloats 0 (d := .bigInt) rfl (by decide) (.ofNat 5) false).2
    (by rw [IntegerLiteral.number_ofNat]; exact fun h => absurd h.1 (by decide))

/-- 5 is not stored in a SMALLINT column. -/
theorem smallint_refuses_five : parseCreateTableDataType .smallInt = .ok .integerI16 ∧
    ¬ AcceptsExactly noFloats 0 .integerI16 (.ofNat 5) false := by
  have hrefused : insertValue noFloats 0 (literalExpr (.ofNat 5) false) .integerI16 =
      .error (.err (.queryError "Cannot coerce value type INTEGER I32 to INTEGER I16")) := by decide +kernel
  refine ⟨rfl, fun h => ?_⟩
  obtain ⟨e, he⟩ := h.1.2 (by decide +kernel)
  rw [hrefused] at he
  cases he

/-! ## The rows of an INSERT -/

section Rows

variable {columns : BTreeMap ColumnID Column} {txn : Transaction} {rowData rowData' : RowData}
  {x : String × SqlExpr} {xs : List (String × SqlExpr)} {columnId : ColumnID}

/-- The entry is the one of an expression for the column's type. -/
def Stored (parseF64 : SearchRequest.ParseF64) (now : Int64) (columns : BTreeMap ColumnID Column)
    (txn : Transaction) (exprs : List SqlExpr) (columnId : ColumnID) (e : DataBaseDataEntry) : Prop :=
  ∃ column version expr, columns[columnId]? = some column ∧ column.getVersionedColumn txn = some version ∧
    expr ∈ exprs ∧ insertValue parseF64 now expr version.dataType = .ok e

theorem elim_ok {α : Type} {a : Option α} {fault : Fault} {b : α}
    (h : a.elim (.error fault : Except Fault α) .ok = .ok b) : a = some b := by
  cases a with
  | none => cases h
  | some a => exact congrArg some (Except.ok.inj h)

theorem insertColumn_ok (h : insertColumn parseF64 now columns txn rowData x = .ok rowData') :
    ∃ id value, rowData' = rowData.insert id value ∧ Stored parseF64 now columns txn [x.2] id value := by
  unfold insertColumn at h
  obtain ⟨id, -, h⟩ := exists_of_bind_ok h
  obtain ⟨column, hcolumn, hrest⟩ := exists_of_bind_ok h
  obtain ⟨columnType, htype, hvalue⟩ := exists_of_bind_ok hrest
  obtain ⟨value, hinsert, hrow⟩ := exists_of_bind_ok hvalue
  obtain ⟨version, hversion, rfl⟩ := Option.map_eq_some_iff.1 (elim_ok htype)
  exact ⟨id, value, (Except.ok.inj hrow).symm, column, version, x.2, elim_ok hcolumn, hversion,
    List.mem_singleton_self _, hinsert⟩

theorem insertColumns_stored {exprs : List SqlExpr}
    (h : xs.foldlM (insertColumn parseF64 now columns txn) rowData = .ok rowData')
    (hxs : ∀ x ∈ xs, x.2 ∈ exprs)
    (hrow : ∀ id e, rowData[id]? = some e → Stored parseF64 now columns txn exprs id e) :
    ∀ id e, rowData'[id]? = some e → Stored parseF64 now columns txn exprs id e := by
  induction xs generalizing rowData with
  | nil =>
    cases h
    exact hrow
  | cons x xs ih =>
    rw [List.foldlM_cons] at h
    obtain ⟨row, hinsert, hrest⟩ := exists_of_bind_ok h
    refine ih hrest (fun y hy => hxs y (List.mem_cons_of_mem x hy)) fun id e he => ?_
    obtain ⟨id', value, rfl, column, version, expr, hcolumn, hversion, hexpr, hvalue⟩ :=
      insertColumn_ok hinsert
    rw [Std.ExtTreeMap.getElem?_insert] at he
    split_ifs at he with hid
    · obtain rfl := Option.some.inj he
      obtain rfl := Std.LawfulEqOrd.eq_of_compare hid
      rw [List.mem_singleton] at hexpr
      exact ⟨column, version, expr, hcolumn, hversion, hexpr ▸ hxs x (List.mem_cons_self ..), hvalue⟩
    · exact hrow id e he

/-- Every entry of a row to insert is the entry of one of its expressions for the type of its column. -/
theorem buildInsertData_stored {requestedColumns : List String} {values : List SqlExpr}
    (h : buildInsertData parseF64 now columns txn requestedColumns values = .ok rowData)
    {e : DataBaseDataEntry} (he : rowData[columnId]? = some e) :
    Stored parseF64 now columns txn values columnId e := by
  unfold buildInsertData at h
  dsimp only at h
  split_ifs at h
  all_goals
    refine insertColumns_stored h (fun x hx => (List.of_mem_zip hx).2) (fun id e he => ?_) columnId e he
    simp at he

end Rows

end Dml

end AntDb
