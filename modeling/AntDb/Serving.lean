/-
  Statements stay within every frame that the calls they make stay within.
-/
import AntDb.Handler

namespace AntDb

open Call

namespace Database

variable {F : Frame Unit Database Fault} {id : TransactionID} {α : Type} {created name : String}

/-- A frame that the table calls of the transaction `id` stay within. -/
structure Serves (F : Frame Unit Database Fault) (id : TransactionID) : Prop where
  search : ∀ name request accessPath,
    Follows F (asTransaction name id (Table.search request · accessPath))
  insertRow : ∀ name data others, Follows F (asTransaction name id (Table.insertRow data · others))
  deleteRow : ∀ name rowId, Follows F (asTransaction name id (Table.deleteRow rowId))
  updateRow : ∀ name rowId data others,
    Follows F (asTransaction name id (Table.updateRow rowId data · others))

/-- A frame that the calls of `CREATE TABLE` stay within. -/
structure Defines (F : Frame Unit Database Fault) (id : TransactionID) : Prop where
  createTable : ∀ name, Follows F (createTable name)
  createColumn : ∀ name columnName dataType constraints,
    Follows F (asTransaction name id (Table.createColumn columnName dataType constraints))
  addColumnConstraints : ∀ name columnId extraConstraints,
    Follows F (asTransaction name id (Table.addColumnConstraints columnId extraConstraints))

theorem follows_throw {e : DataBaseErrors} : Follows F (throw e : DbM α) := Follows.fail

theorem follows_ofResult {r : Except DataBaseErrors α} : Follows F (ofResult r : DbM α) :=
  Follows.ofExcept

theorem follows_requireTable : Follows F (requireTable name) := by
  refine Follows.get fun db _ => ?_
  cases db.getTable name with
  | none => exact follows_throw
  | some name => exact Follows.pure

/-! ## Plans -/

theorem follows_insertRows (h : Serves F id) {rows : List (RowData × ForeignTables)} :
    Follows F (insertRows name rows id) :=
  Follows.forM fun row _ => (h.insertRow name row.1 row.2).bind fun _ => Follows.pure

theorem follows_execute (h : Serves F id) {plan : PhysicalPlan} : Follows F (execute plan id) := by
  cases plan with
  | insert tableName rows =>
    exact follows_requireTable.bind fun name => (follows_insertRows h).bind fun _ => Follows.pure
  | delete tableName filter accessPath =>
    refine follows_requireTable.bind fun name => (h.search name _ _).bind fun rows =>
      Follows.bind ?_ fun _ => Follows.pure
    exact Follows.forM fun row _ => h.deleteRow name row.rowId
  | update tableName filter accessPath image others =>
    refine follows_requireTable.bind fun name => (h.search name _ _).bind fun rows =>
      Follows.bind ?_ fun _ => Follows.pure
    exact Follows.forM fun row _ => follows_ofResult.bind fun data =>
      h.updateRow name row.rowId data (others row.rowId)

theorem follows_insertCopyRows {std : StdParsing} {others : ℕ → ForeignTables} {session : CopySession}
    (h : Serves F session.transaction) :
    Follows F (PgWireHandler.insertCopyRows std others session) :=
  Follows.ofExcept.bind fun _ => follows_requireTable.bind fun _ => (follows_insertRows h).bind
    fun _ => Follows.pure

/-! ## CREATE TABLE -/

theorem follows_resolveForeignKeyReference {foreignTable : ObjectName} {referred : List String} :
    Follows F (resolveForeignKeyReference created foreignTable referred id) := by
  unfold resolveForeignKeyReference
  split
  · refine follows_ofResult.bind fun tableName => follows_requireTable.bind fun name =>
      Follows.bind ?_ fun _ => Follows.get fun db _ => ?_
    · unfold lockTable
      split_ifs
      · exact Follows.fail
      · exact Follows.pure
    · cases db.tables[name]? with
      | none => exact follows_throw
      | some t =>
        dsimp only
        split
        · exact Follows.pure
        · exact follows_throw
  · exact follows_throw

theorem follows_parseColumnConstraints {options : List ColumnOption} :
    Follows F (parseColumnConstraints created options id) := by
  refine Follows.foldlM fun constraints option _ => ?_
  cases option with
  | dialectSpecific tokens =>
    unfold parseColumnOption
    dsimp only
    split_ifs
    · exact Follows.pure
    · exact follows_throw
  | foreignKey foreignTable referred =>
    exact follows_resolveForeignKeyReference.bind fun _ => Follows.pure
  | default => exact follows_throw
  | generated => exact follows_throw
  | other => exact follows_throw
  | _ => exact Follows.pure

theorem follows_buildTableConstraint {columnNames : BTreeMap String ColumnID}
    {map : BTreeMap ColumnID (BTreeSet Constraint)} {c : TableConstraint} :
    Follows F (buildTableConstraint created columnNames id map c) := by
  have hcolumns : ∀ kind c columns, Follows F (constrainColumns kind c columnNames map columns) := by
    intro kind c columns
    refine Follows.foldlM fun map column _ => ?_
    dsimp only
    split
    · exact follows_throw
    · exact Follows.pure
  unfold buildTableConstraint
  split
  · exact hcolumns _ _ _
  · exact hcolumns _ _ _
  · dsimp only
    split
    · exact follows_throw
    · exact follows_resolveForeignKeyReference.bind fun _ => Follows.pure
  · exact follows_throw
  · exact follows_throw
  · exact follows_throw

theorem follows_defineTable (h : Defines F id) {stmt : CreateTable} :
    Follows F (defineTable created stmt id) := by
  refine Follows.bind (Follows.foldlM fun columnNames column _ => ?_) fun columnNames =>
    Follows.bind (Follows.foldlM fun _ _ _ => follows_buildTableConstraint) fun constraints =>
      Follows.forM fun x _ => h.addColumnConstraints created x.1 x.2
  exact follows_ofResult.bind fun dataType => follows_parseColumnConstraints.bind fun constraints =>
    (h.createColumn created _ dataType constraints).bind fun _ => Follows.pure

theorem follows_executeCreateTable (h : Defines F id) {stmt : CreateTable} :
    Follows F (executeCreateTable name stmt id) := by
  unfold executeCreateTable
  split
  · exact follows_throw
  · refine Follows.get fun db _ => ?_
    split
    · split
      · exact Follows.pure
      · exact follows_throw
    · exact (h.createTable name).bind fun _ => follows_defineTable h

end Database

end AntDb
