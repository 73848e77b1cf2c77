/-
  What the statements of a connection do to the database, once their transaction is known.

  Plans are the physical plans of single-table DML; `CREATE TABLE` and `DROP TABLE` work on
  the database itself.
-/
import AntDb.Database
import AntDb.Framing

namespace AntDb

open Call

abbrev ObjectName := List String

/-- `parse_table_name`, for which the last part of the name counts. -/
def parseTableName (name : ObjectName) : Except DataBaseErrors String :=
  match name.getLast? with
  | some ident => .ok (normalizeIdentifier ident)
  | none => .error (.queryError "Missing table name in SQL statement")

/-! ## Plans -/

/-- A row to write comes with what the other tables answer to its foreign keys. -/
inductive PhysicalPlan where
  | insert (tableName : String) (rows : List (RowData × ForeignTables))
  | delete (tableName : String) (filter : Option SearchExpression) (accessPath : AccessPath)
  /-- `image` is what the assignments make of a row -/
  | update (tableName : String) (filter : Option SearchExpression) (accessPath : AccessPath)
      (image : SearchResult → Except DataBaseErrors RowData) (others : RowID → ForeignTables)

namespace Database

/-- The search for the rows to update or delete. -/
def targetRequest (filter : Option SearchExpression) : SearchRequest where
  projection := none
  aggregate := none
  filter := filter
  orderBy := []
  limit := none
  offset := none

/-- The table of a statement. -/
def requireTable (tableName : String) : DbM String := do
  match (← get).getTable tableName with
  | some name => return name
  | none => throw (.tableNotFound tableName)

theorem requireTable_run (db : Database) (name : String) : requireTable name () db =
    match db.getTable name with
    | some found => (.ok found, db)
    | none => (.error (.err (.tableNotFound name)), db) := by
  unfold requireTable
  rw [get_bind]
  cases db.getTable name <;> rfl

/-- Run `x` on the table called `name` for the transaction `id`. -/
def asTransaction {α : Type} (name : String) (id : TransactionID) (x : Transaction → TableM α) :
    DbM α := do
  inTable name (x ((← get).txn id))

theorem asTransaction_run {α : Type} {db : Database} {name : String} {t : Table}
    {id : TransactionID} {x : Transaction → TableM α} (ht : db.tables[name]? = some t) :
    asTransaction name id x () db =
      ((x (db.txn id) none t).1, { db with tables := db.tables.insert name (x (db.txn id) none t).2 }) := by
  show inTable name (x (db.txn id)) () db = _
  rw [inTable, ht]

def insertRows (name : String) (rows : List (RowData × ForeignTables)) (id : TransactionID) :
    DbM Unit :=
  rows.forM fun row => do
    let _ ← asTransaction name id (Table.insertRow row.1 · row.2)

def execute (plan : PhysicalPlan) (id : TransactionID) : DbM String :=
  match plan with
  | .insert tableName rows => do
    let name ← requireTable tableName
    insertRows name rows id
    return "INSERT"
  | .delete tableName filter accessPath => do
    let name ← requireTable tableName
    let rows ← asTransaction name id (Table.search (targetRequest filter) · (some accessPath))
    rows.forM fun row => asTransaction name id (Table.deleteRow row.rowId)
    return "DELETE"
  | .update tableName filter accessPath image others => do
    let name ← requireTable tableName
    let rows ← asTransaction name id (Table.search (targetRequest filter) · (some accessPath))
    rows.forM fun row => do
      let data ← ofResult (image row)
      asTransaction name id (Table.updateRow row.rowId data · (others row.rowId))
    return "UPDATE"

end Database

/-! ## CREATE TABLE -/

inductive ColumnOption where
  | notNull
  | null
  | unique (isPrimary : Bool)
  | dialectSpecific (tokens : List String)
  | default
  | foreignKey (foreignTable : ObjectName) (referredColumns : List String)
  | check
  | generated
  /-- comments, character sets and `ON UPDATE`, which are ignored -/
  | comment
  | other (debug : String)

/-- The data type is an error if it is unsupported. -/
structure ColumnDef where
  name : String
  dataType : Except String DataBaseDataType
  options : List ColumnOption

inductive TableConstraint where
  | unique (columns : List String)
  | primaryKey (columns : List String)
  | foreignKey (columns : List String) (foreignTable : ObjectName) (referredColumns : List String)
  | check
  | other

structure CreateTable where
  name : ObjectName
  columns : List ColumnDef
  constraints : List TableConstraint
  ifNotExists : Bool
  asQuery : Bool

namespace Database

/-- Ask for the read lock of a table while holding the write lock of the table `created`. -/
def lockTable (created name : String) : DbM Unit :=
  if name = created then fail .blocked else pure ()

def resolveForeignKeyReference (created : String) (foreignTable : ObjectName)
    (referredColumns : List String) (id : TransactionID) : DbM (TableID × ColumnID) := do
  match referredColumns with
  | [referred] =>
    let tableName ← ofResult (match foreignTable.getLast? with
      | some ident => .ok (normalizeIdentifier ident)
      | none => .error (.queryError "Missing table name in foreign key"))
    let name ← requireTable tableName
    lockTable created name
    let db ← get
    match db.tables[name]? with
    | none => throw (.tableNotFound tableName)
    | some t =>
      match (Table.visibleColumns t.columns (db.txn id))[normalizeIdentifier referred]? with
      | some columnId => return (t.tableId, columnId)
      | none => throw (.queryError
          s!"Foreign key references unknown column '{normalizeIdentifier referred}'")
  | _ => throw (.queryError "Composite foreign keys are not supported")

def parseColumnOption (created : String) (id : TransactionID) (constraints : BTreeSet Constraint) :
    ColumnOption → DbM (BTreeSet Constraint)
  | .notNull => return constraints.insert .notNull
  | .null | .comment => return constraints
  | .unique isPrimary => return constraints.insert (if isPrimary then .primaryKey else .unique)
  | .dialectSpecific tokens =>
    let text := " ".intercalate (tokens.map normalizeIdentifier)
    if text = "auto_increment" ∨ text = "autoincrement" then return constraints.insert .autoIncrement
    else throw (.queryError s!"Unsupported dialect-specific column option: {text}")
  | .default => throw (.queryError "DEFAULT expressions are unsupported in CREATE TABLE")
  | .foreignKey foreignTable referredColumns => do
    let (table, column) ← resolveForeignKeyReference created foreignTable referredColumns id
    return constraints.insert (.foreignKey table column)
  | .check => return constraints.insert .check
  | .generated => throw (.queryError "GENERATED columns are unsupported")
  | .other debug => throw (.queryError s!"Unsupported column option in CREATE TABLE: {debug}")

def parseColumnConstraints (created : String) (options : List ColumnOption) (id : TransactionID) :
    DbM (BTreeSet Constraint) :=
  options.foldlM (parseColumnOption created id) ∅

/-- The columns of a table constraint get the constraint `c`. -/
def constrainColumns (kind : String) (c : Constraint) (columnNames : BTreeMap String ColumnID)
    (map : BTreeMap ColumnID (BTreeSet Constraint)) (columns : List String) :
    DbM (BTreeMap ColumnID (BTreeSet Constraint)) :=
  columns.foldlM (fun map column => do
    let columnName := normalizeIdentifier column
    match columnNames[columnName]? with
    | none => throw (.queryError s!"Unknown column '{columnName}' in {kind} table constraint")
    | some columnId => return map.insert columnId ((map[columnId]?.getD ∅).insert c)) map

def buildTableConstraint (created : String) (columnNames : BTreeMap String ColumnID)
    (id : TransactionID) (map : BTreeMap ColumnID (BTreeSet Constraint)) :
    TableConstraint → DbM (BTreeMap ColumnID (BTreeSet Constraint))
  | .unique columns => constrainColumns "UNIQUE" .unique columnNames map columns
  | .primaryKey columns => constrainColumns "PRIMARY KEY" .primaryKey columnNames map columns
  | .foreignKey [column] foreignTable referredColumns => do
    let columnName := normalizeIdentifier column
    match columnNames[columnName]? with
    | none => throw (.queryError s!"Unknown column '{columnName}' in FOREIGN KEY table constraint")
    | some columnId =>
      let (table, referred) ← resolveForeignKeyReference created foreignTable referredColumns id
      return map.insert columnId ((map[columnId]?.getD ∅).insert (.foreignKey table referred))
  | .foreignKey _ _ _ => throw (.queryError "Composite foreign keys are not supported")
  | .check => throw (.queryError
      "Table-level CHECK constraints are not supported; use a column CHECK")
  | .other => throw (.queryError "Unsupported table constraint in CREATE TABLE")

/-- One column of a `CREATE TABLE`. -/
def defineColumn (created : String) (id : TransactionID) (columnNames : BTreeMap String ColumnID)
    (column : ColumnDef) : DbM (BTreeMap String ColumnID) := do
  let columnName := normalizeIdentifier column.name
  let dataType ← ofResult (column.dataType.mapError fun debug =>
    .queryError s!"Unsupported column type in CREATE TABLE: {debug}")
  let constraints ← parseColumnConstraints created column.options id
  let columnId ← asTransaction created id (Table.createColumn columnName dataType constraints)
  return columnNames.insert columnName columnId

/-- The columns and table constraints of a `CREATE TABLE`, on the table just registered. -/
def defineTable (created : String) (stmt : CreateTable) (id : TransactionID) : DbM Unit := do
  let columnNames ← stmt.columns.foldlM (defineColumn created id) ∅
  let constraints ← stmt.constraints.foldlM (buildTableConstraint created columnNames id) ∅
  constraints.toList.forM fun x =>
    asTransaction created id (Table.addColumnConstraints x.1 x.2)

/-- The body of `CREATE TABLE`, for which the table is registered before its columns are read. -/
def executeCreateTable (tableName : String) (stmt : CreateTable) (id : TransactionID) : DbM Unit :=
  if stmt.asQuery then throw (.queryError "CREATE TABLE AS SELECT is unsupported")
  else do
    if ((← get).getTable tableName).isSome then
      if stmt.ifNotExists then return () else throw (.tableAlreadyExists tableName)
    else
      let _ ← createTable tableName
      defineTable tableName stmt id

/-! ## DROP TABLE -/

def executeDropTable (ifExists : Bool) (names : List ObjectName) : DbM Unit := do
  match names with
  | [name] =>
    let tableName ← ofResult (parseTableName name)
    if ((← get).getTable tableName).isSome then modify (·.dropTable tableName)
    else if ifExists then return () else throw (.tableNotFound tableName)
  | _ => throw (.queryError "DROP TABLE supports only one table name")

end Database

end AntDb
