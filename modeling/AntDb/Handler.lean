/-
  Connections: their transactions, their statements and their COPY messages.

  A connection has at most one explicit transaction, begun by `BEGIN`.  A statement outside
  one runs in a transaction of its own, which the statement ends; a COPY outside one runs in
  a transaction of its own, which its last message ends.
-/
import AntDb.Copy
import AntDb.RowFree

namespace AntDb

abbrev SocketAddr := ℕ

structure CopySession where
  tableName : String
  columns : List CopyColumnSpec
  options : CopyOptions
  buffer : List UInt8
  transaction : TransactionID
  autoCommit : Bool
deriving DecidableEq

structure PgWireHandler where
  db : Database
  activeTransactions : BTreeMap SocketAddr TransactionID
  copySessions : BTreeMap SocketAddr CopySession
deriving DecidableEq

abbrev HandlerM (α : Type) : Type := Call Unit PgWireHandler Fault α

/-- A statement with its parameters evaluated; a statement that is refused before it touches
    anything comes with its error. -/
inductive Statement where
  | createTable (stmt : CreateTable)
  | dropTable (ifExists : Bool) (names : List ObjectName)
  | startTransaction
  | commit
  | rollback (savepoint : Bool)
  /-- `INSERT`, `UPDATE` and `DELETE`, bound and planned on the database as it is then -/
  | dml (plan : Database → TransactionID → Except DataBaseErrors PhysicalPlan)
  | rowFree (body : RowFreeBody)
  | copyFromStdin (tableName : ObjectName) (requestedColumns : List String) (options : CopyOptions)
  | refused (error : DataBaseErrors)

inductive Response where
  | execution (tag : String)
  | transactionStart
  | transactionEnd (tag : String)
  | copyIn (columnCount : ℕ)
deriving DecidableEq

namespace PgWireHandler

open Call

def new (config : Config) : PgWireHandler where
  db := .new config
  activeTransactions := ∅
  copySessions := ∅

def onDb {α : Type} (x : DbM α) : HandlerM α := fun _ s =>
  ((x () s.db).1, { s with db := (x () s.db).2 })

def endTransaction (id : TransactionID) (success : Bool) : HandlerM Unit :=
  modify fun s => { s with
    db := if success then s.db.commitTransaction id else s.db.rollbackTransaction id }

/-! ## Transactions of a connection -/

def createConnectionTransactionAt (addr : SocketAddr) : HandlerM TransactionID := do
  if ((← get).activeTransactions[addr]?).isSome then
    throw (.queryError "Transaction already in progress")
  else
    let id ← onDb Database.createTransaction
    modify fun s => { s with activeTransactions := s.activeTransactions.insert addr id }
    return id

/-- Take the transaction of the connection out of the table, to end it. -/
def removeConnectionTransactionAt (addr : SocketAddr) (message : String) : HandlerM TransactionID := do
  match (← get).activeTransactions[addr]? with
  | none => throw (.queryError message)
  | some id =>
    modify fun s => { s with activeTransactions := s.activeTransactions.erase addr }
    return id

def commitConnectionTransactionAt (addr : SocketAddr) : HandlerM Unit := do
  endTransaction (← removeConnectionTransactionAt addr "No active transaction to commit") true

def rollbackConnectionTransactionAt (addr : SocketAddr) : HandlerM Unit := do
  endTransaction (← removeConnectionTransactionAt addr "No active transaction to rollback") false

/-- The transaction of the connection, or a new one that the statement has to end. -/
def transactionForQueryAt (addr : SocketAddr) : HandlerM (TransactionID × Bool) := do
  match (← get).activeTransactions[addr]? with
  | some id => return (id, false)
  | none => return (← onDb Database.createTransaction, true)

/-- The end of a statement's own transaction. -/
def settle {α : Type} (id : TransactionID) (result : Except DataBaseErrors α) : HandlerM Unit :=
  endTransaction id result.isOk

/-- An error rolls the transaction of the connection back. -/
def abandonOnError {α : Type} (addr : SocketAddr) (id : TransactionID)
    (result : Except DataBaseErrors α) : HandlerM Unit := do
  if result.isOk then return ()
  else
    modify fun s => { s with activeTransactions := s.activeTransactions.erase addr }
    endTransaction id false

/-- Run `action` in the connection's transaction, which an error ends, or in its own. -/
def executeTransactionalAt {α : Type} (addr : SocketAddr) (action : TransactionID → DbM α) :
    HandlerM α := do
  let x ← transactionForQueryAt addr
  let result ← attempt (onDb (action x.1))
  if x.2 then settle x.1 result else abandonOnError addr x.1 result
  ofResult result

/-- A panic of a task on the blocking pool is an error for the caller. -/
def runOnBlockingPool {α : Type} (task : HandlerM α) : HandlerM α :=
  task.handling fun
    | .panic message => throw (.queryError s!"database worker failed: {message}")
    | e => fail e

/-! ## COPY -/

/-- `resolve_copy_columns`: the requested columns of a table, or all it has for `txn`. -/
def resolveCopyColumns (t : Table) (txn : Transaction) (requestedColumns : List String) :
    Except DataBaseErrors (List CopyColumnSpec) :=
  let visible := Table.visibleColumns t.columns txn
  let names :=
    if requestedColumns = [] then
      t.columns.toList.filterMap fun x =>
        (x.2.getVersionedColumn txn).map fun version => normalizeIdentifier version.name
    else requestedColumns.map normalizeIdentifier
  names.mapM fun name =>
    match visible[name]?.bind fun columnId => (t.columns[columnId]?.bind
      (·.getVersionedColumn txn)).map fun version => (columnId, version.dataType) with
    | some (columnId, dataType) => .ok ⟨name, columnId, dataType⟩
    | none => .error (.queryError s!"Column '{name}' not found")

/-- The columns of a COPY into the table called `tableName`. -/
def copyColumns (db : Database) (tableName : String) (id : TransactionID)
    (requestedColumns : List String) : Except DataBaseErrors (List CopyColumnSpec) :=
  match (db.getTable tableName).bind (db.tables[·]?) with
  | none => .error (.queryError s!"Table '{tableName}' not found")
  | some t => resolveCopyColumns t (db.txn id) requestedColumns

/-- `COPY ... FROM STDIN`: the session that its messages go to. -/
def copyFromStdin (addr : SocketAddr) (table : ObjectName) (requestedColumns : List String)
    (options : CopyOptions) : HandlerM Response :=
  if options.binary then throw (.queryError "COPY binary format is not supported")
  else do
    let tableName ← ofResult (parseTableName table)
    -- `begin_copy_transaction`
    let x ← transactionForQueryAt addr
    let columns ← ofResult (copyColumns (← get).db tableName x.1 requestedColumns)
    modify fun s => { s with
      copySessions := s.copySessions.insert addr
        { tableName := tableName, columns := columns, options := options, buffer := [],
          transaction := x.1, autoCommit := x.2 } }
    return .copyIn columns.length

/-- Take the COPY session of the connection. -/
def removeCopySession (addr : SocketAddr) : HandlerM (Option CopySession) := do
  let session := (← get).copySessions[addr]?
  modify fun s => { s with copySessions := s.copySessions.erase addr }
  return session

def noCopySession : DataBaseErrors := .queryError "No active COPY session"

def onCopyData (addr : SocketAddr) (data : List UInt8) : HandlerM Unit := do
  match (← get).copySessions[addr]? with
  | none => throw noCopySession
  | some session =>
    modify fun s => { s with
      copySessions := s.copySessions.insert addr { session with buffer := session.buffer ++ data } }

/-- The rows of a COPY, inserted one by one. -/
def insertCopyRows (std : StdParsing) (others : ℕ → ForeignTables) (session : CopySession) :
    DbM ℕ := do
  let rows ← ofExcept (Copy.parseCopyRows std session.buffer session.columns session.options)
  let name ← Database.requireTable session.tableName
  Database.insertRows name (rows.mapIdx fun i row => (row, others i)) session.transaction
  return rows.length

def finishCopyTransaction (session : CopySession) (success : Bool) : HandlerM Unit :=
  if session.autoCommit then endTransaction session.transaction success else pure ()

/-- `others` are the answers of the other tables to the foreign keys of each row. -/
def onCopyDone (std : StdParsing) (others : ℕ → ForeignTables) (addr : SocketAddr) :
    HandlerM ℕ := do
  match ← removeCopySession addr with
  | none => throw noCopySession
  | some session =>
    let result ← attempt (onDb (insertCopyRows std others session))
    finishCopyTransaction session result.isOk
    ofResult result

/-- The message always ends in an error. -/
def onCopyFail (addr : SocketAddr) (message : String) : HandlerM Unit := do
  match ← removeCopySession addr with
  | none => pure ()
  | some session => finishCopyTransaction session false
  throw (.queryError s!"COPY FROM STDIN terminated: {message}")

/-! ## Statements -/

/-- `plan_and_execute`, the planning being part of the action that may fail. -/
def executeDml (plan : Database → TransactionID → Except DataBaseErrors PhysicalPlan)
    (id : TransactionID) : DbM String := do
  Database.execute (← ofResult (plan (← get) id)) id

def executeSimpleStatement (addr : SocketAddr) : Statement → HandlerM Response
  | .createTable stmt => do
    let tableName ← ofResult (parseTableName stmt.name)
    let x ← transactionForQueryAt addr
    let result ← attempt (onDb (Database.executeCreateTable tableName stmt x.1))
    -- an error leaves the transaction of the connection open
    if x.2 then settle x.1 result else pure ()
    ofResult result
    return .execution "CREATE TABLE"
  | .dropTable ifExists names => do
    onDb (Database.executeDropTable ifExists names)
    return .execution "DROP TABLE"
  | .startTransaction => do
    let _ ← createConnectionTransactionAt addr
    return .transactionStart
  | .commit => do
    commitConnectionTransactionAt addr
    return .transactionEnd "COMMIT"
  | .rollback savepoint =>
    if savepoint then throw (.queryError "SAVEPOINT rollback is unsupported")
    else do
      rollbackConnectionTransactionAt addr
      return .transactionEnd "ROLLBACK"
  | .dml plan => do
    let tag ← runOnBlockingPool (executeTransactionalAt addr (executeDml plan))
    return .execution tag
  | .rowFree body => do
    let tag ← runOnBlockingPool (executeTransactionalAt addr body.run)
    return .execution tag
  | .copyFromStdin table requestedColumns options =>
    copyFromStdin addr table requestedColumns options
  | .refused error => throw error

/-- The statements of a query, up to the first that fails; a query that does not parse, or has
    no statement, is an error. -/
def doQuery (addr : SocketAddr) (query : Except DataBaseErrors (List Statement)) :
    HandlerM (List Response) := do
  match ← ofResult query with
  | [] => throw (.queryError "Empty SQL statement")
  | statements => statements.foldlM (fun responses statement => do
      return responses ++ [← executeSimpleStatement addr statement]) []

/-- The background task: a vacuum, and then a snapshot that is written or not. -/
def vacuumTask : HandlerM Unit := do
  modify fun s => { s with db := s.db.autoVacuum }
  let _ ← attempt (onDb Database.saveSnapshot)

end PgWireHandler

/-! ## Steps -/

/-- The messages of connections, statement by statement, and the ticks of the background task. -/
inductive HandlerOp where
  | statement (addr : SocketAddr) (stmt : Statement)
  | copyData (addr : SocketAddr) (data : List UInt8)
  | copyDone (addr : SocketAddr) (others : ℕ → ForeignTables)
  | copyFail (addr : SocketAddr) (message : String)
  | vacuum

namespace HandlerOp

open PgWireHandler

def run (std : StdParsing) : HandlerOp → HandlerM Unit
  | statement addr stmt => do let _ ← executeSimpleStatement addr stmt
  | copyData addr data => onCopyData addr data
  | copyDone addr others => do let _ ← onCopyDone std others addr
  | copyFail addr message => onCopyFail addr message
  | vacuum => vacuumTask

def step (std : StdParsing) (s : PgWireHandler) (op : HandlerOp) : PgWireHandler := (op.run std () s).2

def outcome (std : StdParsing) (s : PgWireHandler) (op : HandlerOp) : Except Fault Unit :=
  (op.run std () s).1

end HandlerOp

end AntDb
