/-
  Search requests and the evaluation of their filters on a row.
-/
import AntDb.Column

namespace AntDb

inductive SearchOperator where
  | equal | notEqual | greaterThan | lessThan | greaterThanOrEqual | lessThanOrEqual
deriving DecidableEq

inductive OrderBy where
  | asc | desc
deriving DecidableEq

inductive SearchExpression where
  | column (name : String)
  | qualifiedColumn (table column : String)
  | literal (value : DataBaseDataEntry)
  | comparison (left : SearchExpression) (operator : SearchOperator) (right : SearchExpression)
  | and (left right : SearchExpression)
  | or (left right : SearchExpression)
  | not (inner : SearchExpression)
deriving DecidableEq

structure ProjectionColumn where
  outputName : String
  tableAlias : Option String
  columnName : String
deriving DecidableEq

structure SortBy where
  tableAlias : Option String
  columnName : String
  orderBy : OrderBy
deriving DecidableEq

inductive AggregateProjection where
  | countStar (outputName : String)
deriving DecidableEq

/-- What `Table::search` reads of a request. -/
structure SearchRequest where
  projection : Option (List ProjectionColumn)
  aggregate : Option AggregateProjection
  filter : Option SearchExpression
  orderBy : List SortBy
  limit : Option ℕ
  offset : Option ℕ
deriving DecidableEq

inductive AccessPath where
  | seqScan
  | indexEquality (columnName : String) (value : DataBaseDataEntry)
deriving DecidableEq

structure SearchResult where
  rowId : RowID
  values : BTreeMap String DataBaseDataEntry
deriving DecidableEq

/-- Column values by `alias.column` and, when unambiguous, by bare column name. -/
abbrev RowEvaluationContext := BTreeMap String DataBaseDataEntry

/-- `to_ascii_lowercase`. -/
def normalizeIdentifier (identifier : String) : String := identifier.map Char.toLower

theorem normalizeIdentifier_normalize (identifier : String) :
    normalizeIdentifier (normalizeIdentifier identifier) = normalizeIdentifier identifier := by
  rw [normalizeIdentifier, normalizeIdentifier, String.map_map]
  refine congrArg (identifier.map ·) (funext fun c => ?_)
  exact Char.toLower_toLower_eq_toLower c

def RowEvaluationContext.resolve (ctx : RowEvaluationContext) (table : Option String)
    (column : String) : Except DataBaseErrors DataBaseDataEntry :=
  let column := normalizeIdentifier column
  match table with
  | some table =>
    let table := normalizeIdentifier table
    match ctx[table ++ "." ++ column]? with
    | some value => .ok value
    | none => .error (.queryError ("Column '" ++ table ++ "." ++ column ++ "' not found in joined row"))
  | none =>
    match ctx[column]? with
    | some value => .ok value
    | none =>
      .error (.queryError ("Column '" ++ column ++ "' is ambiguous or not found in joined row"))

def SearchOperator.compare (operator : SearchOperator) (left right : DataBaseDataEntry) : Bool :=
  match operator with
  | .equal => left.eq right
  | .notEqual => !left.eq right
  | .greaterThan => left.cmp right = .gt
  | .lessThan => left.cmp right = .lt
  | .greaterThanOrEqual => left.cmp right ≠ .lt
  | .lessThanOrEqual => left.cmp right ≠ .gt

namespace SearchExpression

def resolveValue (ctx : RowEvaluationContext) :
    SearchExpression → Except DataBaseErrors DataBaseDataEntry
  | literal value => .ok value
  | column name => ctx.resolve none name
  | qualifiedColumn table name => ctx.resolve (some table) name
  | comparison _ _ _ => .error
    (.queryError "Comparison expressions cannot be resolved to a scalar value directly")
  | and _ _ | or _ _ | not _ => .error
    (.queryError "Logical expressions cannot be resolved to a scalar value directly")

def toBoolean : DataBaseDataEntry → Except DataBaseErrors Bool
  | .boolean flag => .ok flag
  | _ => .error (.queryError "Expected boolean expression in WHERE clause")

def evaluate (ctx : RowEvaluationContext) : SearchExpression → Except DataBaseErrors Bool
  | literal value => toBoolean value
  | column name => do toBoolean (← resolveValue ctx (column name))
  | qualifiedColumn table name => do toBoolean (← resolveValue ctx (qualifiedColumn table name))
  | comparison left operator right => do
    return operator.compare (← resolveValue ctx left) (← resolveValue ctx right)
  | and left right => do
    if ← evaluate ctx left then evaluate ctx right else return false
  | or left right => do
    if ← evaluate ctx left then return true else evaluate ctx right
  | not inner => do return !(← evaluate ctx inner)

/-- A filter that is a single `column = literal`, either way round. -/
def equalityLookup : SearchExpression → Option (String × DataBaseDataEntry)
  | comparison (column name) .equal (literal value) => some (name, value)
  | comparison (literal value) .equal (column name) => some (name, value)
  | _ => none

end SearchExpression

end AntDb
