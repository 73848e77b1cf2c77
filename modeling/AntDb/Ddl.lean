/-
  `CREATE TABLE` and `DROP TABLE` and the transactions they run in.

  The map of the tables is not versioned: a table is registered before its columns are read
  and stays registered whatever becomes of the statement, and a dropped table is gone
  whatever becomes of the transaction.
-/
import AntDb.Definitions
import AntDb.Leaks

namespace AntDb

open Call

/-! ## What a transaction sees of the tables -/

/-- `txn` sees the same columns and rows in both tables. -/
structure Table.SameFor (txn : Transaction) (t t' : Table) : Prop where
  columns : ∀ c : ColumnID, (t'.columns[c]?).bind (·.getVersionedColumn txn) =
    (t.columns[c]?).bind (·.getVersionedColumn txn)
  rows : ∀ r : RowID, (t'.rowIn t'.rowLocations r).bind (·.getVersionedRow txn) =
    (t.rowIn t.rowLocations r).bind (·.getVersionedRow txn)

/-- The tables have the same names and, for every transaction, the same columns and rows. -/
def Database.SameTables (db db' : Database) : Prop := ∀ name : String,
  Option.Rel (fun t t' => ∀ txn, Table.SameFor txn t t') db.tables[name]? db'.tables[name]?

/-- Nothing the table has in memory bears the stamp of the transaction `id`. -/
structure Table.Unused (t : Table) (id : TransactionID) : Prop where
  rows : ∀ p page, t.rowSpace.get? p = some page →
    page.All fun v => v.createdBy ≠ id ∧ v.deletedBy ≠ some id
  columns : ∀ (c : ColumnID) column, t.columns[c]? = some column → ∀ v ∈ column.versions,
    v.transactionHeader.createdBy ≠ id ∧ v.transactionHeader.deletedBy ≠ some id ∧
      ∀ e : IndexEntry, v.indexAddedBy[e]? ≠ some id

/-- `id` is the id of no transaction that has written. -/
def Database.Unused (db : Database) (id : TransactionID) : Prop :=
  ∀ (name : String) t, db.tables[name]? = some t → t.Unused id

namespace Database

variable {db db' : Database} {id : TransactionID} {tableName created : String} {stmt : CreateTable}

theorem SameTables.of_eq (h : db'.tables = db.tables) : db.SameTables db' := by
  intro name
  rw [h]
  cases db.tables[name]? with
  | none => exact .none
  | some t => exact .some fun txn => ⟨fun _ => rfl, fun _ => rfl⟩

theorem SameTables.mem (h : db.SameTables db') (name : String) :
    name ∈ db'.tables ↔ name ∈ db.tables := by
  have h := h name
  rw [BTreeMap.mem_iff_get, BTreeMap.mem_iff_get]
  generalize db.tables[name]? = o, db'.tables[name]? = o' at h
  cases h with
  | none => simp
  | some => simp

end Database

/-! ## Rolling back a transaction that has not written -/

theorem InternalColumn.rollbackIndexTransaction_unused {v : InternalColumn} {id : TransactionID}
    (h : ∀ e : IndexEntry, v.indexAddedBy[e]? ≠ some id) : v.rollbackIndexTransaction id = v := by
  have hnone : (v.indexAddedBy.filter fun _ addedBy => addedBy = id) = ∅ := by
    refine Std.ExtTreeMap.ext_getElem? fun e => ?_
    have he := h e
    rw [Std.ExtTreeMap.getElem?_filter']
    cases hv : v.indexAddedBy[e]? with
    | none => simp
    | some a => rw [hv] at he; simpa using he
  have hall : (v.indexAddedBy.filter fun _ addedBy => addedBy ≠ id) = v.indexAddedBy := by
    refine Std.ExtTreeMap.ext_getElem? fun e => ?_
    have he := h e
    rw [Std.ExtTreeMap.getElem?_filter']
    cases hv : v.indexAddedBy[e]? with
    | none => simp
    | some a => rw [hv] at he; simpa using he
  have hindex : v.index.map (fun index =>
      (∅ : BTreeMap IndexEntry TransactionID).keys.foldl (fun index e => index.remove e.key e.rowId) index) =
        v.index := by
    rw [Std.ExtTreeMap.keys_eq_nil_iff.2 rfl]
    cases v.index <;> rfl
  unfold rollbackIndexTransaction
  rw [hnone, hall]
  dsimp only
  rw [hindex]

theorem Table.Unused.rollback {t : Table} {txn : Transaction} (h : t.Unused txn.transactionId) :
    t.rollbackTransaction txn = t := by
  have hcolumns : (t.columns.map fun _ column => column.rollbackTransaction txn) = t.columns := by
    refine Std.ExtTreeMap.ext_getElem? fun c => ?_
    rw [Std.ExtTreeMap.getElem?_map]
    cases hc : t.columns[c]? with
    | none => rfl
    | some column =>
      have hversion : ∀ v ∈ column.versions, { v.rollbackIndexTransaction txn.transactionId with
          transactionHeader := v.transactionHeader.rollback txn } = v := fun v hv => by
        obtain ⟨hcreated, hdeleted, hadded⟩ := h.columns c column hc v hv
        rw [InternalColumn.rollbackIndexTransaction_unused hadded,
          TransactionHeader.rollback_eq hcreated hdeleted]
      exact congrArg (fun versions => some (Column.mk versions))
        ((List.map_congr_left hversion).trans (List.map_id' _))
  have hrows : (t.rowSpace.map fun page =>
      { page with rows := page.rows.map fun _ row => row.rollbackTransaction txn }) = t.rowSpace := by
    refine PageMap.ext_get fun p => ?_
    rw [PageMap.get?_map]
    cases hp : t.rowSpace.get? p with
    | none => rfl
    | some page =>
      have hun : page.UntouchedBy txn := fun r row hr =>
        congrArg Row.mk ((List.map_congr_left fun v hv => by
          obtain ⟨hcreated, hdeleted⟩ := h.rows p page hp r row hr v hv
          exact InternalRow.rollback_eq hcreated hdeleted).trans (List.map_id' _))
      exact congrArg (fun rows => some { page with rows := rows }) (rolledBack_untouched hun)
  unfold rollbackTransaction
  rw [hcolumns, hrows]

/-! ## The bodies -/

namespace Database

variable {db db' : Database} {id : TransactionID} {tableName created : String} {stmt : CreateTable}

/-- The database once `CREATE TABLE` has registered its table. -/
def registered (db : Database) (tableName : String) : Database := (createTable tableName () db).2

/-- The statement gets as far as registering its table. -/
def Registers (db : Database) (tableName : String) (stmt : CreateTable) : Prop :=
  stmt.asQuery = false ∧ db.getTable tableName = none

theorem not_mem_of_getTable (h : db.getTable tableName = none) : tableName ∉ db.tables := by
  intro hmem
  rw [getTable, if_pos hmem] at h
  cases h

/-- Before it registers the table, the statement changes nothing. -/
theorem executeCreateTable_early (id : TransactionID) (h : ¬ db.Registers tableName stmt) :
    (executeCreateTable tableName stmt id () db).2 = db ∧
      (executeCreateTable tableName stmt id () db).1 ≠ .error .blocked := by
  unfold executeCreateTable
  unfold Registers at h
  cases hquery : stmt.asQuery with
  | true => exact ⟨rfl, nofun⟩
  | false =>
    rw [if_neg Bool.false_ne_true, get_bind]
    cases hget : db.getTable tableName with
    | none => exact absurd ⟨hquery, hget⟩ h
    | some name =>
      rw [if_pos (Option.isSome_some)]
      cases stmt.ifNotExists
      · exact ⟨rfl, nofun⟩
      · exact ⟨rfl, nofun⟩

theorem createTable_run (h : tableName ∉ db.tables) :
    createTable tableName () db = (.ok db.nextTableId, { db with
      nextTableId := db.nextTableId + 1
      tables := db.tables.insert tableName
        (.new db.nextTableId db.config.pageSizeBytes db.config.tableMemoryLimitBytes
          (db.pageFile tableName)) }) := by
  unfold createTable
  rw [get_bind, if_neg h]
  rfl

theorem defining_registered (h : tableName ∉ db.tables) :
    Defining tableName (db.registered tableName) (fun _ => False) (db.registered tableName) := by
  have hget : (db.registered tableName).tables[tableName]? = some (.new db.nextTableId
      db.config.pageSizeBytes db.config.tableMemoryLimitBytes (db.pageFile tableName)) := by
    rw [registered, createTable_run h]
    exact (BTreeMap.get_insert _ _ _ _).trans (if_pos rfl)
  refine ⟨rfl, rfl, fun _ _ => rfl, _, hget, ⟨rfl, fun c column hc => ?_⟩, fun _ => False.elim⟩
  simp [Table.new] at hc

theorem executeCreateTable_run (h : db.Registers tableName stmt) :
    executeCreateTable tableName stmt id () db =
      defineTable tableName stmt id () (db.registered tableName) := by
  have hcreate := createTable_run (not_mem_of_getTable h.2)
  unfold executeCreateTable
  rw [if_neg (by rw [h.1]; exact Bool.false_ne_true), get_bind, h.2, if_neg (by simp), registered, hcreate]
  exact bind_ok hcreate

/-- Once it has registered the table, the statement comes to the verdict on its items. -/
theorem yields_executeCreateTable (id : TransactionID) (h : db.Registers tableName stmt) :
    Yields db ((db.registered tableName).verdicts tableName id stmt)
      (executeCreateTable tableName stmt id) fun _ _ => True := by
  have hdefine : Yields (db.registered tableName) _ (defineTable tableName stmt id) _ :=
    yields_defineTable (defining_registered (not_mem_of_getTable h.2)) stmt
  unfold Yields at hdefine ⊢
  rwa [executeCreateTable_run h]

/-- Tables that are there stay there. -/
def listing : Frame Unit Database Fault where
  env := ()
  inv _ := True
  rel db db' := ∀ name : String, name ∈ db.tables → name ∈ db'.tables
  exempt _ := False
  refl _ _ h := h
  trans h h' name hname := h' name (h name hname)
  keep _ _ := trivial

theorem listing_asTransaction {α : Type} {name : String} {x : Transaction → TableM α} :
    Follows listing (asTransaction name id x) := by
  refine Follows.get fun db _ => fun _ db' _ => Or.inr ⟨trivial, fun name' hname' => ?_⟩
  unfold inTable
  cases db'.tables[name]? with
  | none => exact hname'
  | some t => exact Std.ExtTreeMap.mem_insert.2 (Or.inr hname')

theorem defines_listing : Defines listing id := by
  refine ⟨fun name => Follows.get fun db _ => ?_, fun _ _ _ _ => listing_asTransaction,
    fun _ _ _ => listing_asTransaction⟩
  split
  · exact follows_throw
  · refine Follows.bind (Follows.modify fun db _ name' hname' => ?_) fun _ => Follows.pure
    exact Std.ExtTreeMap.mem_insert.2 (Or.inr hname')

/-- A table that was registered stays registered. -/
theorem mem_executeCreateTable (id : TransactionID) (h : db.Registers tableName stmt) :
    tableName ∈ (executeCreateTable tableName stmt id () db).2.tables := by
  have hlisting : Follows listing (defineTable tableName stmt id) := follows_defineTable defines_listing
  obtain ⟨t, ht, -⟩ := (defining_registered (not_mem_of_getTable h.2)).blank
  rw [executeCreateTable_run h]
  rcases hlisting () (db.registered tableName) trivial with ⟨e, -, hfalse⟩ | ⟨-, hnames⟩
  · exact hfalse.elim
  · exact hnames tableName (BTreeMap.mem_of_get ht)

end Database

/-! ## The statements -/

inductive Ddl where
  | createTable (stmt : CreateTable)
  | dropTable (ifExists : Bool) (names : List ObjectName)

def Ddl.statement : Ddl → Statement
  | createTable stmt => .createTable stmt
  | dropTable ifExists names => .dropTable ifExists names

namespace PgWireHandler

open HandlerOp Database

variable {std : StdParsing} {s : PgWireHandler} {addr : SocketAddr} {id : TransactionID} {d : Ddl}
  {stmt : CreateTable} {tableName : String}

/-- `ROLLBACK` -/
abbrev rollbackOp (addr : SocketAddr) : HandlerOp := .statement addr (.rollback false)

/-- If the statement is an error, the tables are as before; and if it runs in the transaction of the
    connection, they are after a later `ROLLBACK` what they would be without the statement. -/
def Undone (std : StdParsing) (s : PgWireHandler) (addr : SocketAddr) (d : Ddl) : Prop :=
  let op := HandlerOp.statement addr d.statement
  (∀ e, op.outcome std s = .error (.err e) → s.db.SameTables (op.step std s).db) ∧
    ∀ id, s.activeTransactions[addr]? = some id → op.Returns std s → ∀ ops : List HandlerOp,
      (Runs.exec (step std) s (ops ++ [rollbackOp addr])).db.SameTables
        (Runs.exec (step std) (op.step std s) (ops ++ [rollbackOp addr])).db

/-- `CREATE TABLE` does not get as far as registering its table, or does so in a transaction of its
    own with all its items accepted, or never returns; `DROP TABLE` drops nothing, or in a
    transaction of its own. -/
def Undoable (s : PgWireHandler) (addr : SocketAddr) : Ddl → Prop
  | .createTable stmt => ∀ tableName, parseTableName stmt.name = .ok tableName →
      s.db.Registers tableName stmt →
        match s.activeTransactions[addr]? with
        | some id => Verdict.first ((s.db.registered tableName).verdicts tableName id stmt) = .waits
        | none => Verdict.first ((s.db.begun.registered tableName).verdicts tableName
            s.db.txns.nextTransactionId stmt) ≠ .refused
  | .dropTable _ names => ∀ name tableName, names = [name] → parseTableName name = .ok tableName →
      tableName ∈ s.db.tables → s.activeTransactions[addr]? = none

theorem step_statement {stmt : Statement} :
    (HandlerOp.statement addr stmt).step std s = (executeSimpleStatement addr stmt () s).2 :=
  congrArg Prod.snd discarded_run

theorem outcome_statement {stmt : Statement} : (HandlerOp.statement addr stmt).outcome std s =
    (executeSimpleStatement addr stmt () s).1.map fun _ => () :=
  congrArg Prod.fst discarded_run

theorem outcome_eq_error {stmt : Statement} {e : Fault} :
    (HandlerOp.statement addr stmt).outcome std s = .error e ↔
      (executeSimpleStatement addr stmt () s).1 = .error e := by
  rw [outcome_statement]
  cases (executeSimpleStatement addr stmt () s).1 <;> simp [Except.map]

/-- `ROLLBACK` drops no table. -/
theorem mem_rollbackOp (name : String) :
    name ∈ ((rollbackOp addr).step std s).db.tables ↔ name ∈ s.db.tables := by
  have hrun := @removeConnectionTransactionAt_run s addr "No active transaction to rollback"
  rw [step_statement]
  unfold executeSimpleStatement rollbackConnectionTransactionAt
  dsimp only
  rw [if_neg Bool.false_ne_true, bind_run, bind_run, hrun]
  cases s.activeTransactions[addr]? with
  | none => exact Iff.rfl
  | some id =>
    show name ∈ s.db.tables.map _ ↔ _
    exact Std.ExtTreeMap.mem_map

/-- A table that only the statement adds or drops is not undone. -/
theorem Undone.mem (h : Undone std s addr d) (hid : s.activeTransactions[addr]? = some id)
    (hreturns : (HandlerOp.statement addr d.statement).Returns std s) (name : String) :
    name ∈ ((HandlerOp.statement addr d.statement).step std s).db.tables ↔ name ∈ s.db.tables := by
  have hmem := (h.2 id hid hreturns []).mem name
  rwa [List.nil_append, Runs.exec_cons, Runs.exec_nil, Runs.exec_cons, Runs.exec_nil, mem_rollbackOp,
    mem_rollbackOp] at hmem

/-- A statement that changes nothing is undone. -/
theorem undone_of_step_eq (h : (HandlerOp.statement addr d.statement).step std s = s) :
    Undone std s addr d := by
  refine ⟨fun e _ => ?_, fun id _ _ ops => ?_⟩
  · rw [h]; exact .of_eq rfl
  · rw [h]; exact .of_eq rfl

/-! ## `CREATE TABLE` -/

theorem rollback_tables (db : Database) (h : db.Unused id) :
    (db.rollbackTransaction id).tables = db.tables := by
  refine Std.ExtTreeMap.ext_getElem? fun name => ?_
  show (db.tables.map _)[name]? = _
  rw [Std.ExtTreeMap.getElem?_map]
  cases ht : db.tables[name]? with
  | none => rfl
  | some t =>
    have hunused : t.Unused (db.txn id).transactionId := h name t ht
    rw [Option.map_some, hunused.rollback]

/-- Before it registers the table, a `CREATE TABLE` is undone. -/
theorem undone_early (hunused : s.db.Unused s.db.txns.nextTransactionId)
    (hname : parseTableName stmt.name = .ok tableName) (h : ¬ s.db.Registers tableName stmt) :
    Undone std s addr (.createTable stmt) := by
  cases hid : s.activeTransactions[addr]? with
  | some id =>
    refine undone_of_step_eq ?_
    obtain ⟨hstate, -⟩ := executeCreateTable_early id h
    rw [step_statement, Ddl.statement, createTable_explicit hname hid]
    rcases hrun : executeCreateTable tableName stmt id () s.db with ⟨error | _, db⟩
    · rw [hrun] at hstate; obtain rfl : db = s.db := hstate; rfl
    · rw [hrun] at hstate; obtain rfl : db = s.db := hstate; rfl
  | none =>
    refine ⟨fun e _ => .of_eq ?_, fun id hid' => absurd (hid.symm.trans hid') nofun⟩
    have hbegun : ¬ s.db.begun.Registers tableName stmt := h
    obtain ⟨hstate, -⟩ := executeCreateTable_early s.db.txns.nextTransactionId hbegun
    rw [step_statement, Ddl.statement, createTable_own hname hid]
    rcases hrun : executeCreateTable tableName stmt s.db.txns.nextTransactionId () s.db.begun with
      ⟨(error | blocked | message) | _, db⟩
    · rw [hrun] at hstate
      obtain rfl : db = s.db.begun := hstate
      exact rollback_tables s.db.begun hunused
    · rw [hrun] at hstate; obtain rfl : db = s.db.begun := hstate; rfl
    · rw [hrun] at hstate; obtain rfl : db = s.db.begun := hstate; rfl
    · rw [hrun] at hstate; obtain rfl : db = s.db.begun := hstate; rfl

/-- In the transaction of the connection, a table that is registered stays. -/
theorem undone_explicit_iff (hname : parseTableName stmt.name = .ok tableName)
    (hreg : s.db.Registers tableName stmt) (hid : s.activeTransactions[addr]? = some id) :
    Undone std s addr (.createTable stmt) ↔
      Verdict.first ((s.db.registered tableName).verdicts tableName id stmt) = .waits := by
  have hyields := yields_executeCreateTable id hreg
  have hmem := mem_executeCreateTable id hreg
  have hrun := createTable_explicit hname hid
  unfold Yields at hyields
  have hnot : (executeSimpleStatement addr (.createTable stmt) () s).1 ≠ .error .blocked →
      tableName ∈ (executeSimpleStatement addr (.createTable stmt) () s).2.db.tables →
      ¬ Undone std s addr (.createTable stmt) := fun hreturns hin hundone => by
    have hreturns : (HandlerOp.statement addr (Ddl.createTable stmt).statement).Returns std s :=
      fun he => hreturns (outcome_eq_error.1 he)
    have hiff := hundone.mem hid hreturns tableName
    rw [step_statement] at hiff
    exact not_mem_of_getTable hreg.2 (hiff.1 hin)
  cases hverdict : Verdict.first ((s.db.registered tableName).verdicts tableName id stmt) with
  | accepted =>
    rw [hverdict] at hyields
    obtain ⟨_, db', hbody, -⟩ := hyields
    rw [hbody] at hrun hmem
    exact iff_of_false (hnot (by rw [hrun]; nofun) (by rw [hrun]; exact hmem)) nofun
  | refused =>
    rw [hverdict] at hyields
    obtain ⟨e, db', hbody⟩ := hyields
    rw [hbody] at hrun hmem
    exact iff_of_false (hnot (by rw [hrun]; nofun) (by rw [hrun]; exact hmem)) nofun
  | waits =>
    rw [hverdict] at hyields
    obtain ⟨db', hbody⟩ := hyields
    rw [hbody] at hrun
    have hblocked : (HandlerOp.statement addr (Ddl.createTable stmt).statement).outcome std s =
        .error .blocked := outcome_eq_error.2 (congrArg Prod.fst hrun)
    refine iff_of_true ⟨fun e he => ?_, fun _ _ hreturns => absurd hblocked hreturns⟩ rfl
    rw [hblocked] at he; cases he

/-- In a transaction of its own, a table stays that is registered and then refused. -/
theorem undone_own_iff (hname : parseTableName stmt.name = .ok tableName)
    (hreg : s.db.Registers tableName stmt) (hid : s.activeTransactions[addr]? = none) :
    Undone std s addr (.createTable stmt) ↔ Verdict.first ((s.db.begun.registered tableName).verdicts
      tableName s.db.txns.nextTransactionId stmt) ≠ .refused := by
  have hregBegun : s.db.begun.Registers tableName stmt := hreg
  have hyields := yields_executeCreateTable s.db.txns.nextTransactionId hregBegun
  have hmem := mem_executeCreateTable s.db.txns.nextTransactionId hregBegun
  have hrun := createTable_own hname hid
  have hexplicit : ∀ id, s.activeTransactions[addr]? = some id → ∀ P : Prop, P := fun id hid' =>
    absurd (hid.symm.trans hid') nofun
  unfold Yields at hyields
  cases hverdict : Verdict.first ((s.db.begun.registered tableName).verdicts tableName
      s.db.txns.nextTransactionId stmt) with
  | accepted =>
    rw [hverdict] at hyields
    obtain ⟨_, db', hbody, -⟩ := hyields
    rw [hbody] at hrun
    refine iff_of_true ⟨fun e he => ?_, fun id hid' => hexplicit id hid' _⟩ nofun
    have he := outcome_eq_error.1 he
    rw [Ddl.statement, hrun] at he; cases he
  | refused =>
    rw [hverdict] at hyields
    obtain ⟨e, db', hbody⟩ := hyields
    rw [hbody] at hrun hmem
    refine iff_of_false (fun hundone => ?_) fun h => h rfl
    have hsame := hundone.1 e (outcome_eq_error.2 (congrArg Prod.fst hrun))
    rw [step_statement, Ddl.statement, hrun] at hsame
    have hin : tableName ∈ (db'.rollbackTransaction s.db.txns.nextTransactionId).tables :=
      Std.ExtTreeMap.mem_map.2 hmem
    exact not_mem_of_getTable hreg.2 ((hsame.mem tableName).1 hin)
  | waits =>
    rw [hverdict] at hyields
    obtain ⟨db', hbody⟩ := hyields
    rw [hbody] at hrun
    refine iff_of_true ⟨fun e he => ?_, fun id hid' => hexplicit id hid' _⟩ nofun
    have he := outcome_eq_error.1 he
    rw [Ddl.statement, hrun] at he; cases he

theorem create_table_undone_iff (hunused : s.db.Unused s.db.txns.nextTransactionId) :
    Undone std s addr (.createTable stmt) ↔ s.Undoable addr (.createTable stmt) := by
  unfold Undoable
  cases hname : parseTableName stmt.name with
  | error e =>
    refine iff_of_true (undone_of_step_eq ?_) fun tableName hok => absurd (hname.symm.trans hok) nofun
    rw [step_statement, Ddl.statement, createTable_unnamed hname]
  | ok tableName =>
    have hsame : ∀ name, parseTableName stmt.name = .ok name → tableName = name := fun _ h =>
      Except.ok.inj (hname.symm.trans h)
    by_cases hreg : s.db.Registers tableName stmt
    · cases hid : s.activeTransactions[addr]? with
      | some id =>
        rw [undone_explicit_iff hname hreg hid]
        exact ⟨fun h name hok _ => hsame name hok ▸ h, fun h => h tableName hname hreg⟩
      | none =>
        rw [undone_own_iff hname hreg hid]
        exact ⟨fun h name hok _ => hsame name hok ▸ h, fun h => h tableName hname hreg⟩
    · exact iff_of_true (undone_early hunused hname hreg) fun name hok hreg' =>
        absurd (hsame name hok ▸ hreg') hreg

/-! ## `DROP TABLE` -/

theorem dropTable_run {ifExists : Bool} {names : List ObjectName} :
    executeSimpleStatement addr (.dropTable ifExists names) () s =
      match executeDropTable ifExists names () s.db with
      | (.ok _, db) => (.ok (.execution "DROP TABLE"), { s with db := db })
      | (.error e, db) => (.error e, { s with db := db }) := by
  unfold executeSimpleStatement
  dsimp only
  rw [bind_run, onDb]
  rcases executeDropTable ifExists names () s.db with ⟨error | _, db⟩ <;> rfl

theorem executeDropTable_run {db : Database} {ifExists : Bool} {name : ObjectName}
    (hname : parseTableName name = .ok tableName) : executeDropTable ifExists [name] () db =
      if (db.getTable tableName).isSome then (.ok (), db.dropTable tableName)
      else if ifExists then (.ok (), db) else (.error (.err (.tableNotFound tableName)), db) := by
  have hparse : (ofResult (Except.ok tableName) : DbM String) () db = (.ok tableName, db) := rfl
  unfold executeDropTable
  dsimp only
  rw [hname, bind_ok hparse, get_bind]
  split_ifs <;> rfl

theorem dropTable_eq {db : Database} (h : tableName ∉ db.tables) : db.dropTable tableName = db := by
  have hget : db.tables[tableName]? = none := by simpa using h
  rw [dropTable, hget]

theorem not_mem_dropTable (db : Database) : tableName ∉ (db.dropTable tableName).tables := by
  cases ht : db.tables[tableName]? with
  | none => rw [dropTable, ht]; simpa using ht
  | some t => rw [dropTable, ht]; simp

theorem drop_table_undone_iff {ifExists : Bool} {names : List ObjectName} :
    Undone std s addr (.dropTable ifExists names) ↔ s.Undoable addr (.dropTable ifExists names) := by
  have hstep : ∀ r db', executeDropTable ifExists names () s.db = (r, db') →
      (executeSimpleStatement addr (.dropTable ifExists names) () s).2 = { s with db := db' } := by
    intro r db' hrun
    rw [dropTable_run, hrun]
    cases r <;> rfl
  have hsame : (executeDropTable ifExists names () s.db).2 = s.db →
      Undone std s addr (.dropTable ifExists names) := fun hdb =>
    undone_of_step_eq (step_statement.trans
      (hstep (executeDropTable ifExists names () s.db).1 s.db (Prod.ext rfl hdb)))
  rcases names with _ | ⟨name, _ | ⟨_, _⟩⟩
  · exact iff_of_true (hsame rfl) nofun
  · cases hname : parseTableName name with
    | error e =>
      refine iff_of_true (hsame ?_) ?_
      · unfold executeDropTable; dsimp only; rw [hname]; rfl
      · rintro _ tableName ⟨⟩ hok
        exact absurd (hname.symm.trans hok) nofun
    | ok tableName =>
      have hrun := @executeDropTable_run tableName s.db ifExists name hname
      by_cases hin : tableName ∈ s.db.tables
      · have hget : (s.db.getTable tableName).isSome = true := by rw [getTable, if_pos hin]; rfl
        rw [if_pos hget] at hrun
        have hok : (executeSimpleStatement addr (.dropTable ifExists [name]) () s).1 ≠ .error .blocked ∧
            ∀ e, (executeSimpleStatement addr (.dropTable ifExists [name]) () s).1 ≠ .error (.err e) := by
          rw [dropTable_run, hrun]
          exact ⟨nofun, fun e => nofun⟩
        cases hid : s.activeTransactions[addr]? with
        | some id =>
          refine iff_of_false (fun hundone => ?_) fun h => ?_
          · have hmem := hundone.mem hid (fun he => hok.1 (outcome_eq_error.1 he)) tableName
            rw [step_statement, Ddl.statement, hstep _ _ hrun] at hmem
            exact not_mem_dropTable s.db (hmem.2 hin)
          · exact absurd (hid.symm.trans (h name tableName rfl hname hin)) nofun
        | none =>
          refine iff_of_true ⟨fun e he => absurd (outcome_eq_error.1 he) (hok.2 e), fun id hid' => ?_⟩
            fun _ _ _ _ _ => hid
          exact absurd (hid.symm.trans hid') nofun
      · refine iff_of_true (hsame ?_) ?_
        · rw [hrun]
          split_ifs
          · exact dropTable_eq hin
          · rfl
          · rfl
        · rintro _ tableName' ⟨⟩ hok' hin'
          obtain rfl : tableName = tableName' := Except.ok.inj (hname.symm.trans hok')
          exact absurd hin' hin
  · exact iff_of_true (hsame rfl) nofun

/-- **DDL is undone** exactly when it has not changed the map of the tables, or in a transaction of
    its own and without an error. -/
theorem ddl_undone_iff (std : StdParsing) (s : PgWireHandler) (addr : SocketAddr) (d : Ddl)
    (hunused : s.db.Unused s.db.txns.nextTransactionId) : Undone std s addr d ↔ s.Undoable addr d := by
  cases d with
  | createTable stmt => exact create_table_undone_iff hunused
  | dropTable ifExists names => exact drop_table_undone_iff

/-- Connection 0 is in a transaction; there are no tables. -/
abbrev inTransaction : PgWireHandler :=
  (HandlerOp.statement 0 .startTransaction).step .floatless (idle (.new ⟨100, 0⟩))

theorem ddl_undone_iff_if_exists :
    Undone .floatless inTransaction 0 (.dropTable true [["t"]]) := by
  refine (ddl_undone_iff .floatless inTransaction 0 (.dropTable true [["t"]]) fun name t ht => ?_).2 ?_
  · exact absurd (BTreeMap.mem_of_get ht) Std.ExtTreeMap.not_mem_empty
  · intro name tableName _ _ hin
    exact absurd hin Std.ExtTreeMap.not_mem_empty

/-- `CREATE TABLE t (a JSON)`, whose column type is unsupported, leaves a table `t` behind. -/
theorem create_table_leaves_table : ¬ Undone .floatless (idle (.new ⟨100, 0⟩)) 0 (.createTable
    { tableT with columns := [⟨"a", .error "JSON", []⟩] }) := by
  intro h
  have hsame := h.1 (.queryError "Unsupported column type in CREATE TABLE: JSON") (by decide +kernel)
  exact absurd ((hsame.mem "t").1 (by decide +kernel)) Std.ExtTreeMap.not_mem_empty

end PgWireHandler

end AntDb
