/-
  The values of INSERT and UPDATE statements.

  An expression becomes an entry, a sum for `SET c = c + d` is computed with 64 bits, and either is
  converted to the type of its column.  A negation that overflows is a panic.
-/
import AntDb.Predicates

namespace AntDb

/-- Change the sign bit. -/
def NotNan.neg {e m : ℕ} (f : NotNan e m) : NotNan e m where
  bits := if f.bits < 2 ^ (e + m) then f.bits + 2 ^ (e + m) else f.bits - 2 ^ (e + m)
  bits_lt := by
    have h := f.bits_lt
    rw [pow_succ] at h ⊢
    split_ifs <;> omega
  notNan := by
    have h := f.notNan
    split_ifs with hsign
    · rwa [Nat.add_mod_right]
    · rwa [← Nat.mod_eq_sub_mod (Nat.le_of_not_lt hsign)]

namespace Dml

theorem exists_of_bind_ok {ε α β : Type} {x : Except ε α} {f : α → Except ε β} {b : β}
    (h : (x >>= f) = .ok b) : ∃ a, x = .ok a ∧ f a = .ok b := by
  cases x with
  | error e => cases h
  | ok a => exact ⟨a, rfl, h⟩

/-! ## Expressions -/

/-- An expression of an INSERT or UPDATE. -/
inductive SqlExpr where
  | value (value : SqlValue)
  /-- a call; arguments are not looked at -/
  | function (name : List String) (hasArguments : Bool)
  | unaryMinus (expr : SqlExpr)
  | nested (expr : SqlExpr)
  | other

variable (parseF64 : SearchRequest.ParseF64) (now : Int64)

/-- `parse_sql_value` differs from the one for filters in a message. -/
def parseSqlValue : SqlValue → Except DataBaseErrors DataBaseDataEntry
  | .other debug =>
    .error (.queryError s!"Unsupported literal value in INSERT/UPDATE statement: {debug}")
  | value => SearchRequest.parseSqlValue parseF64 value

def functionName (name : List String) : String := ".".intercalate (name.map normalizeIdentifier)

def parseTimestampFunction (name : String) : Except DataBaseErrors DataBaseDataEntry :=
  if name ∈ ["current_timestamp", "now", "localtimestamp", "transaction_timestamp"] then
    .ok (.timestamp now)
  else .error (.queryError s!"Unsupported function in INSERT/UPDATE expression: {name}")

def negateOverflow : Fault := .panic "attempt to negate with overflow"

/-- The negation of a value of a signed type with the least value `lo`. -/
def negated (lo value : ℤ) (entry : ℤ → DataBaseDataEntry) : Except Fault DataBaseDataEntry :=
  if value = lo then .error negateOverflow else .ok (entry (-value))

/-- The unary minus; the unsigned values are cast to the signed type of their width before. -/
def negate : DataBaseDataEntry → Except Fault DataBaseDataEntry
  | .integerI8 value => negated (-2 ^ 7) value.toInt fun z => .integerI8 (Int8.ofInt z)
  | .integerI16 value => negated (-2 ^ 15) value.toInt fun z => .integerI16 (Int16.ofInt z)
  | .integerI32 value => negated (-2 ^ 31) value.toInt fun z => .integerI32 (Int32.ofInt z)
  | .integerU64 value => negated (-2 ^ 63) value.toInt64.toInt fun z => .integerI64 (Int64.ofInt z)
  | .integerI64 value => negated (-2 ^ 63) value.toInt fun z => .integerI64 (Int64.ofInt z)
  | .integerU128 value => negated (-2 ^ 127) value.toInt fun z => .integerI128 (BitVec.ofInt 128 z)
  | .integerI128 value => negated (-2 ^ 127) value.toInt fun z => .integerI128 (BitVec.ofInt 128 z)
  | .floatF64 value => .ok (.floatF64 value.neg)
  | _ => .error (.err (.queryError "Only numeric literals support unary minus in INSERT/UPDATE."))

def parseSqlExpression : SqlExpr → Except Fault DataBaseDataEntry
  | .value value => (parseSqlValue parseF64 value).mapError .err
  | .function name hasArguments =>
    if hasArguments then
      .error (.err (.queryError "Function arguments are unsupported in INSERT/UPDATE expressions"))
    else (parseTimestampFunction now (functionName name)).mapError .err
  | .unaryMinus expr => do negate (← parseSqlExpression expr)
  | .nested expr => parseSqlExpression expr
  | .other => .error (.err (.queryError "Unsupported expression in INSERT/UPDATE values"))

/-! ## Assignments -/

inductive UpdateAssignment where
  | set (value : DataBaseDataEntry)
  | addColumn (column : String) (delta : DataBaseDataEntry)

def outOfRangeForArithmetic : DataBaseErrors :=
  .queryError "Integer value is out of range for arithmetic"

/-- `i64::try_from`. -/
def arithmeticValue (value : ℤ) : Except DataBaseErrors ℤ :=
  if -2 ^ 63 ≤ value ∧ value < 2 ^ 63 then .ok value else .error outOfRangeForArithmetic

/-- `entry_as_i64`. -/
def entryAsI64 : DataBaseDataEntry → Except DataBaseErrors ℤ
  | .null => .ok 0
  | .integerI8 v => .ok v.toInt
  | .integerI16 v => .ok v.toInt
  | .integerI32 v => .ok v.toInt
  | .integerI64 v => .ok v.toInt
  | .integerI128 v => arithmeticValue v.toInt
  | .integerU8 v => .ok v.toNat
  | .integerU16 v => .ok v.toNat
  | .integerU32 v => .ok v.toNat
  | .integerU64 v => arithmeticValue v.toNat
  | .integerU128 v => arithmeticValue v.toNat
  | _ => .error (.queryError "Only integer values support additive UPDATE expressions")

/-- `i64::saturating_add`. -/
def saturatingAdd (a b : ℤ) : ℤ := max (-2 ^ 63) (min (2 ^ 63 - 1) (a + b))

def addNumericEntries (left right : DataBaseDataEntry) : Except DataBaseErrors DataBaseDataEntry := do
  let left ← entryAsI64 left
  let right ← entryAsI64 right
  return .integerI64 (Int64.ofInt (saturatingAdd left right))

def applyUpdateAssignment (assignment : UpdateAssignment) (rowValues : RowData) (columnId : ColumnID)
    (expectedType : DataBaseDataType) : Except DataBaseErrors DataBaseDataEntry := do
  let value ← match assignment with
    | .set value => .ok value
    | .addColumn _ delta => addNumericEntries (rowValues[columnId]?.getD .null) delta
  coerceToType value expectedType

/-! ## Rows to insert -/

/-- The entry stored for an expression in a column of the type. -/
def insertValue (expr : SqlExpr) (columnType : DataBaseDataType) : Except Fault DataBaseDataEntry := do
  (coerceToType (← parseSqlExpression parseF64 now expr) columnType).mapError .err

def columnNotFound (columnName : String) : Fault := .err (.queryError s!"Column '{columnName}' not found")

/-- One column of `build_insert_data`. -/
def insertColumn (columns : BTreeMap ColumnID Column) (txn : Transaction) (rowData : RowData)
    (x : String × SqlExpr) : Except Fault RowData := do
  let columnId ← ((Table.visibleColumns columns txn)[x.1]?).elim (.error (columnNotFound x.1)) .ok
  let column ← (columns[columnId]?).elim
    (.error (.err (.queryError s!"Column {columnId} not found"))) .ok
  let columnType ← ((column.getVersionedColumn txn).map (·.dataType)).elim
    (.error (columnNotFound x.1)) .ok
  return rowData.insert columnId (← insertValue parseF64 now x.2 columnType)

/-- The names of the columns that an INSERT without a list of columns is about. -/
def allColumnNames (columns : BTreeMap ColumnID Column) (txn : Transaction) : List String :=
  ((Table.visibleColumns columns txn).toList.insertionSort fun x y => x.2 ≤ y.2).map Prod.fst

def buildInsertData (columns : BTreeMap ColumnID Column) (txn : Transaction)
    (requestedColumns : List String) (values : List SqlExpr) : Except Fault RowData :=
  let insertColumnNames :=
    if requestedColumns ≠ [] then requestedColumns.map normalizeIdentifier else allColumnNames columns txn
  if insertColumnNames.length ≠ values.length then
    .error (.err (.queryError s!"INSERT column count {insertColumnNames.length} does not match value count {values.length}"))
  else (insertColumnNames.zip values).foldlM (insertColumn parseF64 now columns txn) ∅

end Dml

end AntDb
