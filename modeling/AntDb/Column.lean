/-
  Columns, their constraints and their hash indexes.

  A unique or primary-key column files the id of every row written to it under the key
  of its value, together with the transaction that filed it last; a rollback removes what
  its transaction filed.
-/
import AntDb.Row

namespace AntDb

abbrev TableID := ℕ

inductive DataBaseErrors where
  | columnAlreadyExists (name : String)
  | columnNotFound (id : ℕ)
  | indexNotFound (name : String)
  | indexExist (name : String)
  | nullValue
  | uniqueConstraint (name : String)
  | foreignKeyViolation (name : String)
  | checkConstraintUnsupported (name : String)
  | rowNotFound (id : ℕ)
  | rowColumnDuplicate (row column : ℕ)
  | dataTypeMismatch (column : ℕ) (expected got : String)
  | tableAlreadyExists (name : String)
  | tableNotFound (name : String)
  | tableIDNotFound (id : ℕ)
  | serializationError (message : String)
  | deserializationError (message : String)
  | queryError (message : String)
  | ioError (message : String)
deriving DecidableEq

inductive Constraint where
  | notNull
  | unique
  | primaryKey
  | foreignKey (referedTableId : TableID) (referedColumnId : ColumnID)
  | check
  | autoIncrement
deriving DecidableEq

namespace Constraint

/-- The derived order compares the variants first. -/
def ordKey : Constraint → List ℕ
  | notNull => [0]
  | unique => [1]
  | primaryKey => [2]
  | foreignKey table column => [3, table, column]
  | check => [4]
  | autoIncrement => [5]

instance : Ord Constraint := ⟨compareOn ordKey⟩

instance : Std.TransOrd Constraint := inferInstanceAs (Std.TransCmp (compareOn ordKey))

instance : Std.LawfulEqOrd Constraint where
  eq_of_compare {a b} h := by
    have h : a.ordKey = b.ordKey := Std.LawfulEqOrd.eq_of_compare h
    cases a <;> cases b <;> simp_all [ordKey]

end Constraint

/-- The key of `index_added_by`. -/
structure IndexEntry where
  key : HashType
  rowId : RowID
deriving DecidableEq

namespace IndexEntry

def ordKey (e : IndexEntry) : List ℕ := [e.key, e.rowId]

instance : Ord IndexEntry := ⟨compareOn ordKey⟩

instance : Std.TransOrd IndexEntry := inferInstanceAs (Std.TransCmp (compareOn ordKey))

instance : Std.LawfulEqOrd IndexEntry where
  eq_of_compare {a b} h := by
    have h : a.ordKey = b.ordKey := Std.LawfulEqOrd.eq_of_compare h
    cases a; cases b; simpa [ordKey] using h

end IndexEntry

abbrev HashIndex := BTreeMap HashType (BTreeSet RowID)

structure InternalColumn where
  transactionHeader : TransactionHeader
  columnId : ColumnID
  name : String
  dataType : DataBaseDataType
  constraints : BTreeSet Constraint
  index : Option HashIndex
  indexAddedBy : BTreeMap IndexEntry TransactionID
  isNullable : Bool
deriving DecidableEq

namespace HashIndex

/-- The row ids filed under `key`. -/
def filed (index : HashIndex) (key : HashType) : BTreeSet RowID := (index[key]?).getD ∅

def insert (index : HashIndex) (key : HashType) (rowId : RowID) : HashIndex :=
  index.alter key fun rowIds => some ((rowIds.getD ∅).insert rowId)

/-- Remove the row id, and the key with its last one. -/
def remove (index : HashIndex) (key : HashType) (rowId : RowID) : HashIndex :=
  index.alter key fun rowIds => rowIds.bind fun rowIds =>
    if (rowIds.erase rowId).isEmpty then none else some (rowIds.erase rowId)

end HashIndex

namespace InternalColumn

def isVisible (v : InternalColumn) (txn : Transaction) : Bool := v.transactionHeader.isVisible txn

def mark (v : InternalColumn) (txn : Transaction) : InternalColumn :=
  { v with transactionHeader := v.transactionHeader.mark txn }

def new (columnId : ColumnID) (name : String) (dataType : DataBaseDataType)
    (constraints : BTreeSet Constraint) (txn : Transaction) : InternalColumn where
  transactionHeader := .created txn
  columnId := columnId
  name := name
  dataType := dataType
  constraints := constraints
  index := if .primaryKey ∈ constraints ∨ .unique ∈ constraints then some ∅ else none
  indexAddedBy := ∅
  isNullable := .notNull ∉ constraints

def isIndexed (v : InternalColumn) : Bool := v.index.isSome

def indexLookup (v : InternalColumn) (value : DataBaseDataEntry) : Option (BTreeSet RowID) :=
  v.index.bind fun index => index[value.key v.columnId]?

/-- The index with the row as its transaction sees it; `true` if an entry was filed. -/
def indexRow (v : InternalColumn) (rowId : RowID) (row : Row) (txn : Transaction) :
    InternalColumn × Bool :=
  match v.index, (row.getVersionedRow txn).bind (·.data[v.columnId]?) with
  | some index, some value =>
    ({ v with index := some (index.insert (value.key v.columnId) rowId) }, true)
  | _, _ => (v, false)

def ensureIndexEmpty (v : InternalColumn) : Except DataBaseErrors InternalColumn :=
  match v.index with
  | some index => if index.isEmpty then .ok v else .error (.indexExist v.name)
  | none => .ok { v with index := some ∅ }

def updateIndex (v : InternalColumn) (columnId : ColumnID) (value : DataBaseDataEntry)
    (rowId : RowID) (transactionId : TransactionID) : InternalColumn :=
  match v.index with
  | none => v
  | some index =>
    let key := value.key columnId
    { v with
      index := some (index.insert key rowId)
      indexAddedBy := v.indexAddedBy.insert ⟨key, rowId⟩ transactionId }

def rollbackIndexTransaction (v : InternalColumn) (transactionId : TransactionID) :
    InternalColumn :=
  let added := v.indexAddedBy.filter fun _ addedBy => addedBy = transactionId
  { v with
    index := v.index.map fun index => added.keys.foldl (fun index e => index.remove e.key e.rowId) index
    indexAddedBy := v.indexAddedBy.filter fun _ addedBy => addedBy ≠ transactionId }

/-- Drop the row ids that are not alive, the keys left without any, and their entries in
    `index_added_by`. -/
def prune {m : Type → Type} [Monad m] (v : InternalColumn) (isAlive : RowID → m Bool) :
    m InternalColumn := do
  match v.index with
  | none => pure v
  | some index =>
    let dead ← index.toList.foldlM (fun dead x => x.2.toList.foldlM (fun dead rowId => do
      if ← isAlive rowId then pure dead else pure (⟨x.1, rowId⟩ :: dead)) dead) []
    pure { v with
      index := some (dead.foldl (fun index e => index.remove e.key e.rowId) index)
      indexAddedBy := dead.foldl (fun addedBy e => addedBy.erase e) v.indexAddedBy }

/-- `schema_validation`: the constraints in their order.  `lookup` reads the column's entry of
    another row and `fkLookup` looks for a value in a referenced column. -/
def schemaValidation {m : Type → Type} [Monad m] [MonadExceptOf DataBaseErrors m]
    (v : InternalColumn) (value : DataBaseDataEntry)
    (lookup : RowID → m (Option DataBaseDataEntry))
    (fkLookup : TableID → ColumnID → DataBaseDataEntry → m Bool)
    (excludeRowId : Option RowID) : m Unit :=
  v.constraints.toList.forM fun
    | .notNull => if value.isNull then throw .nullValue else pure ()
    | .unique | .primaryKey =>
      match v.index with
      | none => throw (.indexNotFound v.name)
      | some index =>
        (index.filed (value.key v.columnId)).toList.forM fun rowId =>
          if some rowId = excludeRowId then pure ()
          else do
            match ← lookup rowId with
            | some lookupValue =>
              if lookupValue.eq value then throw (.uniqueConstraint v.name) else pure ()
            | none => pure ()
    | .foreignKey table column =>
      if value.isNull then pure ()
      else do
        if ← fkLookup table column value then pure () else throw (.foreignKeyViolation v.name)
    | .check => if value.isNull then pure () else throw (.checkConstraintUnsupported v.name)
    | .autoIncrement => pure ()

end InternalColumn

structure Column where
  versions : List InternalColumn
deriving DecidableEq

namespace Column

open LastMatch

def new (columnId : ColumnID) (name : String) (dataType : DataBaseDataType)
    (constraints : BTreeSet Constraint) (txn : Transaction) : Column :=
  ⟨[.new columnId name dataType constraints txn]⟩

def getVersionedColumn (column : Column) (txn : Transaction) : Option InternalColumn :=
  findLast (·.isVisible txn) column.versions

def getVersionedConstraints (column : Column) (txn : Transaction) : Option (BTreeSet Constraint) :=
  (column.getVersionedColumn txn).map (·.constraints)

def update (column : Column) (name : Option String) (dataType : Option DataBaseDataType)
    (constraints : Option (BTreeSet Constraint)) (txn : Transaction) : Column :=
  match column.getVersionedColumn txn with
  | none => column
  | some current =>
    let newConstraints := constraints.getD current.constraints
    let index :=
      if .primaryKey ∈ newConstraints ∨ .unique ∈ newConstraints then some (current.index.getD ∅)
      else none
    ⟨updateLast (·.isVisible txn) (·.mark txn) column.versions ++
      [{ current with
        transactionHeader := .created txn
        name := name.getD current.name
        dataType := dataType.getD current.dataType
        constraints := newConstraints
        index := index
        isNullable := .notNull ∉ newConstraints }]⟩

def prune {m : Type → Type} [Monad m] (column : Column) (oldestActiveTxn : TransactionID)
    (isAlive : RowID → m Bool) : m Column := do
  let versions := column.versions.filter (·.transactionHeader.survives oldestActiveTxn)
  return ⟨← versions.foldlM (fun versions v => do return versions ++ [← v.prune isAlive]) []⟩

def rollbackTransaction (column : Column) (txn : Transaction) : Column :=
  ⟨column.versions.map fun v =>
    { v.rollbackIndexTransaction txn.transactionId with
      transactionHeader := v.transactionHeader.rollback txn }⟩

def ensureIndexReady (column : Column) (txn : Transaction) : Except DataBaseErrors Column :=
  match column.getVersionedColumn txn with
  | none => .error (.queryError "No visible column version found while building index")
  | some v => v.ensureIndexEmpty.map fun v =>
    ⟨updateLast (·.isVisible txn) (fun _ => v) column.versions⟩

def indexRow (column : Column) (rowId : RowID) (row : Row) (txn : Transaction) : Column × Bool :=
  (⟨updateLast (·.isVisible txn) (fun v => (v.indexRow rowId row txn).1) column.versions⟩,
    ((column.getVersionedColumn txn).map fun v => (v.indexRow rowId row txn).2).getD false)

def updateIndex (column : Column) (columnId : ColumnID) (value : DataBaseDataEntry)
    (rowId : RowID) (txn : Transaction) : Column :=
  ⟨updateLast (·.isVisible txn) (·.updateIndex columnId value rowId txn.transactionId)
    column.versions⟩

def schemaValidation {m : Type → Type} [Monad m] [MonadExceptOf DataBaseErrors m]
    (column : Column) (value : DataBaseDataEntry)
    (lookup : RowID → m (Option DataBaseDataEntry))
    (fkLookup : TableID → ColumnID → DataBaseDataEntry → m Bool)
    (txn : Transaction) (excludeRowId : Option RowID) : m Unit :=
  match column.getVersionedColumn txn with
  | none => pure ()
  | some v => v.schemaValidation value lookup fkLookup excludeRowId

def isIndexed (column : Column) (txn : Transaction) : Bool :=
  ((column.getVersionedColumn txn).map (·.isIndexed)).getD false

def indexLookup (column : Column) (value : DataBaseDataEntry) (txn : Transaction) :
    Option (List RowID) :=
  ((column.getVersionedColumn txn).bind (·.indexLookup value)).map (·.toList)

end Column

end AntDb
