/-
  Statements as they come from the parser, and what the binder and the optimizer make of them.

  The binder folds names to lower case, refuses what the engine has no meaning for, and passes over
  the clauses it does not read (`DISTINCT`, `GROUP BY`, `HAVING`, `WITH`, `UPDATE ... FROM`).  The
  optimizer chooses how the rows to read, update or delete are found.
-/
import AntDb.Counting
import AntDb.Inserting
import AntDb.ShowTables

namespace AntDb

namespace Sql

/-! ## Syntax -/

abbrev Ident := String

inductive UnaryOperator where
  | not | minus | other
deriving DecidableEq

inductive FunctionArg where
  /-- an unnamed `*` -/
  | wildcard
  | other
deriving DecidableEq

inductive FunctionArguments where
  | none
  | subquery
  | list (args : List FunctionArg)
deriving DecidableEq

inductive Expr where
  | value (value : SqlValue)
  | identifier (name : Ident)
  | compoundIdentifier (first : Ident) (rest : List Ident)
  | binaryOp (left : Expr) (op : BinaryOperator) (right : Expr)
  | unaryOp (op : UnaryOperator) (expr : Expr)
  | nested (expr : Expr)
  | isNull (expr : Expr)
  | isNotNull (expr : Expr)
  | function (name : ObjectName) (args : FunctionArguments)
  /-- casts, subqueries, `IN`, `BETWEEN`, `LIKE` and the rest -/
  | other (text : String)
deriving DecidableEq

inductive TableFactor where
  | table (name : ObjectName) (tableAlias : Option Ident)
  /-- a subquery, a function or a join in parentheses -/
  | other

inductive JoinConstraint where
  | on (expr : Expr)
  | usingColumns (columns : List Ident)
  | natural
  | none

inductive JoinOperator where
  | inner (constraint : JoinConstraint)
  | leftOuter (constraint : JoinConstraint)
  | rightOuter (constraint : JoinConstraint)
  | fullOuter (constraint : JoinConstraint)
  | crossJoin
  | other (debug : String)

structure Join where
  relation : TableFactor
  joinOperator : JoinOperator

structure TableWithJoins where
  relation : TableFactor
  joins : List Join

inductive SelectItem where
  | unnamedExpr (expr : Expr)
  | exprWithAlias (expr : Expr) (itemAlias : Ident)
  | wildcard
  | qualifiedWildcard (name : ObjectName)

structure Select where
  projection : List SelectItem
  fromTables : List TableWithJoins
  selection : Option Expr

inductive SetExpr where
  | select (select : Select)
  | values (rows : List (List Expr))
  | other

structure OrderByExpr where
  expr : Expr
  asc : Option Bool

structure Query where
  body : SetExpr
  orderBy : Option (List OrderByExpr)
  limit : Option Expr
  offset : Option Expr

structure Delete where
  tables : List ObjectName
  /-- with the keyword `FROM` or without -/
  fromTables : List TableWithJoins
  usingTables : Option (List TableWithJoins)
  selection : Option Expr
  orderBy : List OrderByExpr
  limit : Option Expr

inductive AssignmentTarget where
  | columnName (name : ObjectName)
  | tuple (names : List ObjectName)

structure Assignment where
  target : AssignmentTarget
  value : Expr

structure Insert where
  tableName : ObjectName
  columns : List Ident
  source : Option Query

inductive Statement where
  | query (query : Query)
  | delete (delete : Delete)
  | update (table : TableWithJoins) (assignments : List Assignment) (selection : Option Expr)
  | insert (insert : Insert)
  | showTables (filter : Option ShowStatementFilter)
  | other

/-! ## Plans -/

inductive LogicalPlan where
  /-- a request is split into its FROM clause and the rest -/
  | select (fromClause : FromClause) (request : SearchRequest)
  | delete (tableName : String) (filter : Option SearchExpression)
  | update (tableName : String) (assignments : List (String × Dml.UpdateAssignment))
      (filter : Option SearchExpression)
  | insert (tableName : String) (rows : List RowData)
  | showTables (filter : Option ShowStatementFilter)
  | passthrough (statement : Statement)

inductive PhysicalPlan where
  | select (plan : PhysicalSelectPlan)
  | delete (tableName : String) (filter : Option SearchExpression) (accessPath : AccessPath)
  | update (tableName : String) (assignments : List (String × Dml.UpdateAssignment))
      (filter : Option SearchExpression) (accessPath : AccessPath)
  | insert (tableName : String) (rows : List RowData)

variable (std : SqlStd)

/-! ## Expressions -/

namespace Expr

end Expr

def plus : BinaryOperator := .other "Plus"

end Sql

end AntDb
