/-
  Databases: named tables, the transactions they share, and the page files on disk.

  Every table has a page file of its own, named after it.  Dropping a table leaves the file
  behind, and a table created later under the same name works on it.
-/
import AntDb.Lifecycle
import AntDb.Search
import AntDb.Vacuum

namespace AntDb

structure Config where
  pageSizeBytes : ℕ
  tableMemoryLimitBytes : ℕ
deriving DecidableEq

/-- `pageFiles` are the page files under names that have no table (an entry under the name of a
    table is not used). -/
structure Database where
  config : Config
  tables : BTreeMap String Table
  nextTableId : TableID
  txns : TxnState
  pageFiles : BTreeMap String PageStore
deriving DecidableEq

abbrev DbM (α : Type) : Type := Call Unit Database Fault α

/-- Calls of the database and of the connections. -/
instance {σ : Type} : MonadExceptOf DataBaseErrors (Call Unit σ Fault) where
  throw e := Call.fail (.err e)
  tryCatch x handle := x.handling fun | .err e => handle e | e => Call.fail e

/-- The `Result` of a call; a panic is not one. -/
def attempt {σ α : Type} (x : Call Unit σ Fault α) : Call Unit σ Fault (Except DataBaseErrors α) :=
  (x >>= fun a => pure (.ok a)).handling fun | .err e => pure (.error e) | e => Call.fail e

def ofResult {σ α : Type} (x : Except DataBaseErrors α) : Call Unit σ Fault α :=
  Call.ofExcept (x.mapError .err)

namespace Database

open Call

def new (config : Config) : Database where
  config := config
  tables := ∅
  nextTableId := 0
  txns := .new
  pageFiles := ∅

/-- The transaction `id` as it sees the database now. -/
abbrev txn (db : Database) (id : TransactionID) : Transaction := db.txns.txn id

/-! ## Tables -/

/-- Run `x` on the table called `name`. -/
def inTable {α : Type} (name : String) (x : TableM α) : DbM α := fun _ db =>
  match db.tables[name]? with
  | none => (.error (.err (.tableNotFound name)), db)
  | some t => ((x none t).1, { db with tables := db.tables.insert name (x none t).2 })

/-- The table `get_table` finds: the one of this name, or the first one whose name differs in
    upper and lower case only. -/
def getTable (db : Database) (tableName : String) : Option String :=
  if tableName ∈ db.tables then some tableName
  else db.tables.keys.find? fun key => normalizeIdentifier key = normalizeIdentifier tableName

/-- The page file a table called `tableName` works on. -/
def pageFile (db : Database) (tableName : String) : PageStore :=
  ((db.tables[tableName]?.map (·.pageStore)).or db.pageFiles[tableName]?).getD .empty

def createTable (tableName : String) : DbM TableID := do
  let db ← get
  if tableName ∈ db.tables then throw (.tableAlreadyExists tableName)
  else
    modify fun db => { db with
      nextTableId := db.nextTableId + 1
      tables := db.tables.insert tableName
        (.new db.nextTableId db.config.pageSizeBytes db.config.tableMemoryLimitBytes
          (db.pageFile tableName)) }
    return db.nextTableId

/-- The page file stays where it is. -/
def dropTable (db : Database) (tableName : String) : Database :=
  match db.tables[tableName]? with
  | none => db
  | some t => { db with
      tables := db.tables.erase tableName
      pageFiles := db.pageFiles.insert tableName t.pageStore }

/-! ## Transactions -/

def createTransaction : DbM TransactionID := fun _ db =>
  (.ok db.txns.createTransaction.1, { db with txns := db.txns.createTransaction.2 })

def commitTransaction (db : Database) (id : TransactionID) : Database :=
  { db with txns := db.txns.commitTransaction id }

def rollbackTransaction (db : Database) (id : TransactionID) : Database :=
  { db with
    txns := db.txns.rollbackTransaction id
    tables := db.tables.map fun _ t => t.rollbackTransaction (db.txn id) }

/-! ## Vacuum -/

/-- `remove_stray_tables`, which prunes the tables. -/
def removeStrayTables (db : Database) : Database :=
  { db with tables := db.tables.map fun _ t => (Table.prune db.txns.smallest none t).2 }

/-- `auto_vacuum`: an error while a table is flushed is logged only. -/
def autoVacuum (db : Database) : Database :=
  let db := db.removeStrayTables
  { db with tables := db.tables.map fun _ t => (Table.flushAllPages none t).2 }

/-! ## Snapshots -/

/-- What `save_snapshot` serializes of a database: the tables without their pages, and the
    counters. -/
structure Snapshot where
  tables : BTreeMap String Table
  nextTableId : TableID
  nextTransactionId : TransactionID
deriving DecidableEq

def serialize (db : Database) : Snapshot where
  tables := db.tables.map fun _ t => t.reopened
  nextTableId := db.nextTableId
  nextTransactionId := db.txns.nextTransactionId

/-- `save_snapshot`: every table is flushed before anything is serialized. -/
def saveSnapshot : DbM Snapshot := do
  (← get).tables.keys.forM fun name => inTable name Table.flushAllPages
  return (← get).serialize

/-- The page files on disk by table name. -/
def filesOnDisk (db : Database) : BTreeMap String PageStore :=
  db.pageFiles ∪ db.tables.map fun _ t => t.pageStore

/-- `load_from_snapshot`, over the page files on disk.  Every transaction begun before counts as
    committed. -/
def loadFromSnapshot (config : Config) (snapshot : Snapshot) (files : BTreeMap String PageStore) :
    Database where
  config := config
  tables := snapshot.tables.map fun name t =>
    (Table.bindPageStore none { t with
      pageStore := (files[name]?).getD .empty
      memoryLimit := config.tableMemoryLimitBytes }).2
  nextTableId := snapshot.nextTableId
  txns :=
    { nextTransactionId := snapshot.nextTransactionId
      snapshot :=
        { smallestActiveTransactionId := snapshot.nextTransactionId - 1
          lastPossibleTransactionId := snapshot.nextTransactionId - 1
          activeTransaction := ∅ } }
  pageFiles := files

end Database

end AntDb
