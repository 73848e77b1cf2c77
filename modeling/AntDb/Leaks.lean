/-
  No transaction leaks.

  Every message leaves the transactions in progress to their owners, as long as nothing
  panics in a transaction that only its own message ends, and a COPY is begun with columns
  that resolve and with no other COPY of its own transaction open.
-/
import AntDb.Connections
import AntDb.Lib.Runs
import AntDb.Serving

namespace AntDb

open Call

namespace Database

/-- The database after a transaction has begun. -/
def begun (db : Database) : Database := { db with txns := db.txns.createTransaction.2 }

/-- Calls that begin and end no transaction. -/
def steady : Frame Unit Database Fault where
  env := ()
  inv _ := True
  rel db db' := db'.txns = db.txns
  exempt e := e = .blocked
  refl _ := rfl
  trans h h' := h'.trans h
  keep _ _ := trivial

variable {id : TransactionID} {name : String}

theorem txns_of_steady {α : Type} {x : DbM α} (h : Follows steady x) (db : Database) :
    (x () db).1 = .error .blocked ∨ (x () db).2.txns = db.txns := by
  rcases h () db trivial with ⟨e, he, rfl⟩ | ⟨-, htxns⟩
  · exact Or.inl he
  · exact Or.inr htxns

theorem steady_asTransaction {α : Type} {x : Transaction → TableM α} :
    Follows steady (asTransaction name id x) := by
  refine Follows.get fun db _ => fun _ db' _ => Or.inr ⟨trivial, ?_⟩
  unfold inTable
  cases db'.tables[name]? <;> rfl

theorem serves_steady : Serves steady id :=
  ⟨fun _ _ _ => steady_asTransaction, fun _ _ _ => steady_asTransaction,
    fun _ _ => steady_asTransaction, fun _ _ _ _ => steady_asTransaction⟩

theorem steady_createTable : Follows steady (createTable name) := by
  refine Follows.get fun db _ => ?_
  split
  · exact follows_throw
  · exact (Follows.modify fun _ _ => rfl).bind fun _ => Follows.pure

theorem defines_steady : Defines steady id :=
  ⟨fun _ => steady_createTable, fun _ _ _ _ => steady_asTransaction, fun _ _ _ => steady_asTransaction⟩

theorem steady_saveSnapshot : Follows steady saveSnapshot := by
  refine Follows.get fun db _ => Follows.bind (Follows.forM fun name _ => ?_) fun _ =>
    Follows.get fun _ _ => Follows.pure
  refine fun _ db' _ => Or.inr ⟨trivial, ?_⟩
  unfold inTable
  cases db'.tables[name]? <;> rfl

theorem steady_executeDropTable {ifExists : Bool} {names : List ObjectName} :
    Follows steady (executeDropTable ifExists names) := by
  unfold executeDropTable
  split
  · refine follows_ofResult.bind fun tableName => Follows.get fun db _ => ?_
    split_ifs
    · refine Follows.modify fun db _ => ?_
      show (db.dropTable tableName).txns = db.txns
      unfold dropTable
      cases db.tables[tableName]? <;> rfl
    · exact Follows.pure
    · exact follows_throw
  · exact follows_throw

theorem steady_rowFree {body : RowFreeBody} : Follows steady (body.run id) := fun _ db _ =>
  (body.rowFree id () db trivial).imp_right fun h => ⟨trivial, h.2.txns⟩

theorem steady_executeDml {plan : Database → TransactionID → Except DataBaseErrors PhysicalPlan} :
    Follows steady (PgWireHandler.executeDml plan id) :=
  Follows.get fun _ _ => follows_ofResult.bind fun _ => follows_execute serves_steady

end Database

namespace PgWireHandler

variable {s : PgWireHandler} {addr : SocketAddr} {id : TransactionID} {α β : Type}
  {action : TransactionID → DbM α}

/-! ## Running a statement in a transaction -/

theorem attempt_onDb {x : DbM α} : attempt (onDb x) () s =
    match x () s.db with
    | (.ok a, db) => (.ok (.ok a), { s with db := db })
    | (.error (.err e), db) => (.ok (.error e), { s with db := db })
    | (.error e, db) => (.error e, { s with db := db }) := by
  show (onDb x >>= _ : HandlerM _).handling _ () s = _
  rw [handling, bind_run, onDb]
  rcases x () s.db with ⟨(error | blocked | message) | a, db⟩ <;> rfl

theorem transactionForQueryAt_run : transactionForQueryAt addr () s =
    match s.activeTransactions[addr]? with
    | some id => (.ok (id, false), s)
    | none => (.ok (s.db.txns.nextTransactionId, true), { s with db := s.db.begun }) := by
  unfold transactionForQueryAt
  rw [get_bind]
  cases s.activeTransactions[addr]? <;> rfl

/-- A statement in the transaction of the connection. -/
theorem executeTransactionalAt_explicit (h : s.activeTransactions[addr]? = some id) :
    executeTransactionalAt addr action () s =
      match action id () s.db with
      | (.ok a, db) => (.ok a, { s with db := db })
      | (.error (.err e), db) => (.error (.err e),
          { s with activeTransactions := s.activeTransactions.erase addr,
                   db := db.rollbackTransaction id })
      | (.error e, db) => (.error e, { s with db := db }) := by
  have hbegin := @transactionForQueryAt_run s addr
  rw [h] at hbegin
  unfold executeTransactionalAt
  rw [bind_ok hbegin, bind_run, attempt_onDb]
  rcases action id () s.db with ⟨(error | blocked | message) | a, db⟩ <;> rfl

/-- A statement in a transaction of its own. -/
theorem executeTransactionalAt_own (h : s.activeTransactions[addr]? = none) :
    executeTransactionalAt addr action () s =
      match action s.db.txns.nextTransactionId () s.db.begun with
      | (.ok a, db) => (.ok a, { s with db := db.commitTransaction s.db.txns.nextTransactionId })
      | (.error (.err e), db) => (.error (.err e),
          { s with db := db.rollbackTransaction s.db.txns.nextTransactionId })
      | (.error e, db) => (.error e, { s with db := db }) := by
  have hbegin := @transactionForQueryAt_run s addr
  rw [h] at hbegin
  unfold executeTransactionalAt
  rw [bind_ok hbegin, bind_run, attempt_onDb]
  rcases action s.db.txns.nextTransactionId () s.db.begun with
    ⟨(error | blocked | message) | a, db⟩ <;> rfl

/-! ## Sound states -/

theorem Sound.of_same (h : s.Sound) {db : Database} (hdb : db.txns = s.db.txns) :
    Sound { s with db := db } := by
  show db.txns.Sound s.owned
  rw [hdb]; exact h

/-- The transaction of the connection ends. -/
theorem Sound.closed_connection (h : s.Sound) (hid : s.activeTransactions[addr]? = some id)
    (db : Database) (success : Bool) (hdb : db.txns = s.db.txns.endTransaction id success) :
    Sound { s with activeTransactions := s.activeTransactions.erase addr, db := db } := by
  show db.txns.Sound (owned { s with activeTransactions := s.activeTransactions.erase addr })
  rw [hdb, owned_erase_connection]
  exact TxnState.Sound.closed h hid

/-- A panic in `x` leaves the transaction it runs in to nobody. -/
def Calm (x : DbM α) (db : Database) : Prop := ∀ message, (x () db).1 ≠ .error (.panic message)

instance {x : DbM α} {db : Database} : Decidable (Calm x db) :=
  match h : (x () db).1 with
  | .error (.panic message) => isFalse fun hcalm => hcalm message h
  | .error (.err _) | .error .blocked | .ok _ => isTrue fun _ => by rw [h]; exact nofun

theorem sound_executeTransactionalAt (h : s.Sound) (hsteady : ∀ id, Follows Database.steady (action id))
    (hcalm : s.activeTransactions[addr]? = none →
      Calm (action s.db.txns.nextTransactionId) s.db.begun)
    (hreturns : (executeTransactionalAt addr action () s).1 ≠ .error .blocked) :
    (executeTransactionalAt addr action () s).2.Sound := by
  cases hid : s.activeTransactions[addr]? with
  | some id =>
    rw [executeTransactionalAt_explicit hid] at hreturns ⊢
    have hst := Database.txns_of_steady (hsteady id) s.db
    generalize action id () s.db = outcome at hst hreturns ⊢
    obtain ⟨(error | blocked | message) | a, db⟩ := outcome
    · have htxns : db.txns = s.db.txns := hst.resolve_left nofun
      have hend : (db.rollbackTransaction id).txns = s.db.txns.endTransaction id false :=
        congrArg (·.rollbackTransaction id) htxns
      exact h.closed_connection hid _ false hend
    · exact absurd rfl hreturns
    · exact h.of_same (hst.resolve_left nofun)
    · exact h.of_same (hst.resolve_left nofun)
  | none =>
    have hcalm := hcalm hid
    rw [executeTransactionalAt_own hid] at hreturns ⊢
    have hst := Database.txns_of_steady (hsteady s.db.txns.nextTransactionId) s.db.begun
    unfold Calm at hcalm
    generalize action s.db.txns.nextTransactionId () s.db.begun = outcome at hst hreturns hcalm ⊢
    obtain ⟨(error | blocked | message) | a, db⟩ := outcome
    · have htxns : db.txns = s.db.txns.createTransaction.2 := hst.resolve_left nofun
      show TxnState.Sound (db.txns.endTransaction _ false) s.owned
      rw [htxns]; exact TxnState.Sound.passed h
    · exact absurd rfl hreturns
    · exact absurd rfl (hcalm message)
    · have htxns : db.txns = s.db.txns.createTransaction.2 := hst.resolve_left nofun
      show TxnState.Sound (db.txns.endTransaction _ true) s.owned
      rw [htxns]; exact TxnState.Sound.passed h

/-- `CREATE TABLE` in the transaction of the connection. -/
theorem createTable_explicit {stmt : CreateTable} {tableName : String}
    (hname : parseTableName stmt.name = .ok tableName) (hid : s.activeTransactions[addr]? = some id) :
    executeSimpleStatement addr (.createTable stmt) () s =
      match Database.executeCreateTable tableName stmt id () s.db with
      | (.ok _, db) => (.ok (.execution "CREATE TABLE"), { s with db := db })
      | (.error e, db) => (.error e, { s with db := db }) := by
  have hparse : (ofResult (Except.ok tableName) : HandlerM String) () s = (.ok tableName, s) := rfl
  have hbegin := @transactionForQueryAt_run s addr
  rw [hid] at hbegin
  unfold executeSimpleStatement
  dsimp only
  rw [hname, bind_ok hparse, bind_ok hbegin, bind_run, attempt_onDb]
  rcases Database.executeCreateTable tableName stmt id () s.db with
    ⟨(error | blocked | message) | _, db⟩ <;> rfl

/-- `CREATE TABLE` in a transaction of its own. -/
theorem createTable_own {stmt : CreateTable} {tableName : String}
    (hname : parseTableName stmt.name = .ok tableName) (hid : s.activeTransactions[addr]? = none) :
    executeSimpleStatement addr (.createTable stmt) () s =
      match Database.executeCreateTable tableName stmt s.db.txns.nextTransactionId () s.db.begun with
      | (.ok _, db) => (.ok (.execution "CREATE TABLE"),
          { s with db := db.commitTransaction s.db.txns.nextTransactionId })
      | (.error (.err e), db) => (.error (.err e),
          { s with db := db.rollbackTransaction s.db.txns.nextTransactionId })
      | (.error e, db) => (.error e, { s with db := db }) := by
  have hparse : (ofResult (Except.ok tableName) : HandlerM String) () s = (.ok tableName, s) := rfl
  have hbegin := @transactionForQueryAt_run s addr
  rw [hid] at hbegin
  unfold executeSimpleStatement
  dsimp only
  rw [hname, bind_ok hparse, bind_ok hbegin, bind_run, attempt_onDb]
  rcases Database.executeCreateTable tableName stmt s.db.txns.nextTransactionId () s.db.begun with
    ⟨(error | blocked | message) | _, db⟩ <;> rfl

theorem createTable_unnamed {stmt : CreateTable} {e : DataBaseErrors}
    (hname : parseTableName stmt.name = .error e) :
    executeSimpleStatement addr (.createTable stmt) () s = (.error (.err e), s) := by
  unfold executeSimpleStatement
  dsimp only
  rw [hname]
  rfl

/-- `CREATE TABLE` ends only its own transaction. -/
theorem sound_createTable {stmt : CreateTable} (h : s.Sound)
    (hcalm : ∀ tableName, parseTableName stmt.name = .ok tableName →
      s.activeTransactions[addr]? = none →
        Calm (Database.executeCreateTable tableName stmt s.db.txns.nextTransactionId) s.db.begun)
    (hreturns : (executeSimpleStatement addr (.createTable stmt) () s).1 ≠ .error .blocked) :
    (executeSimpleStatement addr (.createTable stmt) () s).2.Sound := by
  cases hname : parseTableName stmt.name with
  | error e =>
    rw [createTable_unnamed hname]
    exact h
  | ok tableName =>
    have hsteady : ∀ id, Follows Database.steady (Database.executeCreateTable tableName stmt id) :=
      fun _ => Database.follows_executeCreateTable Database.defines_steady
    cases hid : s.activeTransactions[addr]? with
    | some id =>
      rw [createTable_explicit hname hid] at hreturns ⊢
      have hst := Database.txns_of_steady (hsteady id) s.db
      generalize Database.executeCreateTable tableName stmt id () s.db = outcome at hst hreturns ⊢
      obtain ⟨(error | blocked | message) | _, db⟩ := outcome
      · exact h.of_same (hst.resolve_left nofun)
      · exact absurd rfl hreturns
      · exact h.of_same (hst.resolve_left nofun)
      · exact h.of_same (hst.resolve_left nofun)
    | none =>
      have hcalm := hcalm tableName hname hid
      have hst := Database.txns_of_steady (hsteady s.db.txns.nextTransactionId) s.db.begun
      unfold Calm at hcalm
      rw [createTable_own hname hid] at hreturns ⊢
      generalize Database.executeCreateTable tableName stmt s.db.txns.nextTransactionId () s.db.begun =
        outcome at hst hreturns hcalm ⊢
      obtain ⟨(error | blocked | message) | _, db⟩ := outcome
      · have htxns : db.txns = s.db.txns.createTransaction.2 := hst.resolve_left nofun
        show TxnState.Sound (db.txns.endTransaction _ false) s.owned
        rw [htxns]; exact TxnState.Sound.passed h
      · exact absurd rfl hreturns
      · exact absurd rfl (hcalm message)
      · have htxns : db.txns = s.db.txns.createTransaction.2 := hst.resolve_left nofun
        show TxnState.Sound (db.txns.endTransaction _ true) s.owned
        rw [htxns]; exact TxnState.Sound.passed h

/-! ## The other messages -/

theorem createConnectionTransactionAt_run : createConnectionTransactionAt addr () s =
    match s.activeTransactions[addr]? with
    | some _ => (.error (.err (.queryError "Transaction already in progress")), s)
    | none => (.ok s.db.txns.nextTransactionId, { s with
        activeTransactions := s.activeTransactions.insert addr s.db.txns.nextTransactionId,
        db := s.db.begun }) := by
  unfold createConnectionTransactionAt
  rw [get_bind]
  cases s.activeTransactions[addr]? <;> rfl

theorem removeConnectionTransactionAt_run {message : String} :
    removeConnectionTransactionAt addr message () s =
      match s.activeTransactions[addr]? with
      | none => (.error (.err (.queryError message)), s)
      | some id => (.ok id, { s with activeTransactions := s.activeTransactions.erase addr }) := by
  unfold removeConnectionTransactionAt
  rw [get_bind]
  cases s.activeTransactions[addr]? <;> rfl

theorem sound_startTransaction (h : s.Sound) :
    (executeSimpleStatement addr .startTransaction () s).2.Sound := by
  have hrun := @createConnectionTransactionAt_run s addr
  unfold executeSimpleStatement
  dsimp only
  cases hid : s.activeTransactions[addr]? with
  | some id =>
    rw [hid] at hrun
    rw [bind_error hrun]
    exact h
  | none =>
    rw [hid] at hrun
    rw [bind_ok hrun]
    show s.db.txns.createTransaction.2.Sound (owned { s with
      activeTransactions := s.activeTransactions.insert addr s.db.txns.nextTransactionId })
    rw [owned_insert_connection]
    exact TxnState.Sound.opened h hid

/-- The end of the connection's transaction, by `COMMIT` or `ROLLBACK`. -/
theorem sound_endConnectionTransactionAt (h : s.Sound) (addr : SocketAddr) (message : String)
    (success : Bool) :
    ((removeConnectionTransactionAt addr message >>= (endTransaction · success)) () s).2.Sound := by
  have hrun := @removeConnectionTransactionAt_run s addr message
  cases hid : s.activeTransactions[addr]? with
  | none =>
    rw [hid] at hrun
    rw [bind_error hrun]
    exact h
  | some id =>
    rw [hid] at hrun
    rw [bind_ok hrun]
    refine h.closed_connection hid _ success ?_
    cases success <;> rfl

theorem sound_commit (h : s.Sound) : (executeSimpleStatement addr .commit () s).2.Sound := by
  have h := sound_endConnectionTransactionAt h addr "No active transaction to commit" true
  unfold executeSimpleStatement commitConnectionTransactionAt
  dsimp only
  rw [bind_run]
  generalize (removeConnectionTransactionAt addr "No active transaction to commit" >>=
    (endTransaction · true)) () s = outcome at h ⊢
  obtain ⟨error | _, s'⟩ := outcome
  · exact h
  · exact h

theorem sound_rollback (h : s.Sound) {savepoint : Bool} :
    (executeSimpleStatement addr (.rollback savepoint) () s).2.Sound := by
  have hend := sound_endConnectionTransactionAt h addr "No active transaction to rollback" false
  unfold executeSimpleStatement rollbackConnectionTransactionAt
  cases savepoint with
  | true => exact h
  | false =>
    dsimp only
    rw [if_neg Bool.false_ne_true, bind_run]
    generalize (removeConnectionTransactionAt addr "No active transaction to rollback" >>=
      (endTransaction · false)) () s = outcome at hend ⊢
    obtain ⟨error | _, s'⟩ := outcome
    · exact hend
    · exact hend

theorem sound_dropTable (h : s.Sound) {ifExists : Bool} {names : List ObjectName}
    (hreturns : (executeSimpleStatement addr (.dropTable ifExists names) () s).1 ≠ .error .blocked) :
    (executeSimpleStatement addr (.dropTable ifExists names) () s).2.Sound := by
  have hsteady : Follows Database.steady (Database.executeDropTable ifExists names) :=
    Database.steady_executeDropTable
  have hst := Database.txns_of_steady hsteady s.db
  unfold executeSimpleStatement at hreturns ⊢
  dsimp only at hreturns ⊢
  rw [bind_run, onDb] at hreturns ⊢
  generalize Database.executeDropTable ifExists names () s.db = outcome at hst hreturns ⊢
  obtain ⟨(error | blocked | message) | _, db⟩ := outcome
  · exact h.of_same (hst.resolve_left nofun)
  · exact absurd rfl hreturns
  · exact h.of_same (hst.resolve_left nofun)
  · exact h.of_same (hst.resolve_left nofun)

/-- A panic on the blocking pool changes only the answer. -/
theorem runOnBlockingPool_state {task : HandlerM α} :
    (runOnBlockingPool task () s).2 = (task () s).2 := by
  unfold runOnBlockingPool handling
  rcases task () s with ⟨(error | blocked | message) | a, s'⟩ <;> rfl

theorem runOnBlockingPool_blocked {task : HandlerM α} (h : (task () s).1 = .error .blocked) :
    (runOnBlockingPool task () s).1 = .error .blocked := by
  unfold runOnBlockingPool handling
  generalize task () s = outcome at h ⊢
  obtain ⟨r, s'⟩ := outcome
  obtain rfl : r = _ := h
  rfl

/-- `INSERT`, `UPDATE`, `DELETE`, or a statement that writes no rows. -/
theorem sound_runOnBlockingPool {action : TransactionID → DbM String} {f : String → Response}
    (h : s.Sound) (hsteady : ∀ id, Follows Database.steady (action id))
    (hcalm : s.activeTransactions[addr]? = none →
      Calm (action s.db.txns.nextTransactionId) s.db.begun)
    (hreturns : ((runOnBlockingPool (executeTransactionalAt addr action) >>= fun tag =>
      pure (f tag) : HandlerM Response) () s).1 ≠ .error .blocked) :
    ((runOnBlockingPool (executeTransactionalAt addr action) >>= fun tag =>
      pure (f tag) : HandlerM Response) () s).2.Sound := by
  have hsound := sound_executeTransactionalAt h hsteady hcalm
  rw [← runOnBlockingPool_state] at hsound
  have hblocked := @runOnBlockingPool_blocked s _ (executeTransactionalAt addr action)
  rw [bind_run] at hreturns ⊢
  generalize runOnBlockingPool (executeTransactionalAt addr action) () s = outcome at *
  obtain ⟨e | tag, s'⟩ := outcome
  · exact hsound fun he => hreturns (congrArg Except.error (Except.error.inj (hblocked he)))
  · exact hsound fun he => nomatch hblocked he

/-! ## COPY messages -/

/-- The columns of a COPY of the connection resolve if the COPY gets a transaction of its own, and
    no open COPY of the connection has one that the new session would forget. -/
def CopyFits (s : PgWireHandler) (addr : SocketAddr) (tableName : String)
    (requested : List String) : Prop :=
  match s.activeTransactions[addr]? with
  | some id => (copyColumns s.db tableName id requested).isOk → s.owned (.copy addr) = none
  | none =>
    (copyColumns s.db.begun tableName s.db.txns.nextTransactionId requested).isOk ∧
      s.owned (.copy addr) = none

instance {tableName : String} {requested : List String} :
    Decidable (s.CopyFits addr tableName requested) :=
  match h : s.activeTransactions[addr]? with
  | some id => decidable_of_iff
      ((copyColumns s.db tableName id requested).isOk = true → s.owned (.copy addr) = none)
      (by rw [CopyFits, h])
  | none => decidable_of_iff
      ((copyColumns s.db.begun tableName s.db.txns.nextTransactionId requested).isOk = true ∧
        s.owned (.copy addr) = none) (by rw [CopyFits, h])

theorem sound_copyFromStdin (h : s.Sound) {table : ObjectName} {requested : List String}
    {options : CopyOptions} (hfits : options.binary = false → ∀ tableName,
      parseTableName table = .ok tableName → s.CopyFits addr tableName requested) :
    (copyFromStdin addr table requested options () s).2.Sound := by
  have hbegin := @transactionForQueryAt_run s addr
  unfold copyFromStdin
  cases hbinary : options.binary with
  | true => exact h
  | false =>
    rw [if_neg Bool.false_ne_true]
    cases hname : parseTableName table with
    | error e => exact h
    | ok tableName =>
      have hparse : (ofResult (Except.ok tableName) : HandlerM String) () s = (.ok tableName, s) := rfl
      have hfits := hfits hbinary tableName hname
      unfold CopyFits at hfits
      rw [bind_ok hparse]
      cases hid : s.activeTransactions[addr]? with
      | some id =>
        rw [hid] at hbegin hfits
        rw [bind_ok hbegin, get_bind]
        cases hcolumns : copyColumns s.db tableName id requested with
        | error e => exact h
        | ok columns =>
          have hnone := hfits (by rw [hcolumns]; rfl)
          show s.db.txns.Sound (owned { s with copySessions := s.copySessions.insert addr _ })
          rw [owned_insert_copy, ← hnone]
          exact (Function.update_eq_self (Owner.copy addr) s.owned).symm ▸ h
      | none =>
        rw [hid] at hbegin hfits
        rw [bind_ok hbegin, get_bind]
        cases hcolumns : copyColumns s.db.begun tableName s.db.txns.nextTransactionId requested with
        | error e => rw [hcolumns] at hfits; exact absurd hfits.1 Bool.false_ne_true
        | ok columns =>
          show s.db.txns.createTransaction.2.Sound (owned { s with
            copySessions := s.copySessions.insert addr _ })
          rw [owned_insert_copy]
          exact TxnState.Sound.opened h hfits.2

theorem sound_copyData (h : s.Sound) {data : List UInt8} : (onCopyData addr data () s).2.Sound := by
  unfold onCopyData
  rw [get_bind]
  cases hsession : s.copySessions[addr]? with
  | none => exact h
  | some session =>
    show s.db.txns.Sound (owned { s with copySessions := s.copySessions.insert addr _ })
    rw [owned_insert_copy]
    have hown : s.owned (.copy addr) = if session.autoCommit then some session.transaction else none := by
      rw [owned, hsession, Option.filter_some]
      split_ifs <;> rfl
    rw [← hown, Function.update_eq_self]
    exact h

/-- The COPY session of the connection is over, and its own transaction with it. -/
theorem Sound.closed_copy (h : s.Sound) {session : CopySession}
    (hsession : s.copySessions[addr]? = some session) (db : Database) (success : Bool)
    (hdb : db.txns = if session.autoCommit then s.db.txns.endTransaction session.transaction success
      else s.db.txns) :
    Sound { s with copySessions := s.copySessions.erase addr, db := db } := by
  show db.txns.Sound (owned { s with copySessions := s.copySessions.erase addr })
  rw [hdb, owned_erase_copy]
  have hown : s.owned (.copy addr) = if session.autoCommit then some session.transaction else none := by
    rw [owned, hsession, Option.filter_some]
    split_ifs <;> rfl
  cases hauto : session.autoCommit with
  | true =>
    rw [hauto, if_pos rfl] at hown
    rw [if_pos rfl]
    exact TxnState.Sound.closed h hown
  | false =>
    rw [hauto, if_neg Bool.false_ne_true] at hown
    rw [if_neg Bool.false_ne_true, ← hown, Function.update_eq_self]
    exact h

theorem removeCopySession_run : removeCopySession addr () s =
    (.ok s.copySessions[addr]?, { s with copySessions := s.copySessions.erase addr }) := rfl

theorem sound_copyDone {std : StdParsing} {others : ℕ → ForeignTables} (h : s.Sound)
    (hcalm : ∀ session, s.copySessions[addr]? = some session → session.autoCommit = true →
      Calm (insertCopyRows std others session) s.db)
    (hreturns : (onCopyDone std others addr () s).1 ≠ .error .blocked) :
    (onCopyDone std others addr () s).2.Sound := by
  unfold onCopyDone at hreturns ⊢
  rw [bind_ok removeCopySession_run] at hreturns ⊢
  cases hsession : s.copySessions[addr]? with
  | none =>
    show s.db.txns.Sound (owned { s with copySessions := s.copySessions.erase addr })
    have hown : s.owned (.copy addr) = none := by rw [owned, hsession]; rfl
    rw [owned_erase_copy, ← hown, Function.update_eq_self]
    exact h
  | some session =>
    have hcalm := hcalm session hsession
    have hsteady : Follows Database.steady (insertCopyRows std others session) :=
      Database.follows_insertCopyRows Database.serves_steady
    have hst := Database.txns_of_steady hsteady s.db
    rw [hsession] at hreturns
    dsimp only at hreturns ⊢
    rw [bind_run, attempt_onDb] at hreturns ⊢
    unfold Calm at hcalm
    unfold finishCopyTransaction at hreturns ⊢
    dsimp only at hreturns ⊢
    generalize insertCopyRows std others session () s.db = outcome at hst hcalm hreturns ⊢
    have hclosed := h.closed_copy hsession
    cases hauto : session.autoCommit with
    | true =>
      rw [hauto] at hreturns hclosed
      obtain ⟨(error | blocked | message) | n, db⟩ := outcome
      · have htxns : db.txns = s.db.txns := hst.resolve_left (by simp)
        exact hclosed (db.rollbackTransaction session.transaction) false
          (congrArg (·.rollbackTransaction session.transaction) htxns)
      · exact absurd rfl hreturns
      · exact absurd rfl (hcalm hauto message)
      · have htxns : db.txns = s.db.txns := hst.resolve_left (by simp)
        exact hclosed (db.commitTransaction session.transaction) true
          (congrArg (·.commitTransaction session.transaction) htxns)
    | false =>
      rw [hauto] at hreturns hclosed
      obtain ⟨(error | blocked | message) | n, db⟩ := outcome
      · exact hclosed db false (hst.resolve_left (by simp))
      · exact absurd rfl hreturns
      · exact hclosed db false (hst.resolve_left (by simp))
      · exact hclosed db true (hst.resolve_left (by simp))

theorem sound_copyFail (h : s.Sound) {message : String} : (onCopyFail addr message () s).2.Sound := by
  unfold onCopyFail
  rw [bind_ok removeCopySession_run]
  cases hsession : s.copySessions[addr]? with
  | none =>
    show s.db.txns.Sound (owned { s with copySessions := s.copySessions.erase addr })
    have hown : s.owned (.copy addr) = none := by rw [owned, hsession]; rfl
    rw [owned_erase_copy, ← hown, Function.update_eq_self]
    exact h
  | some session =>
    have hclosed := h.closed_copy hsession
    unfold finishCopyTransaction
    dsimp only
    cases hauto : session.autoCommit with
    | true =>
      rw [hauto] at hclosed
      exact hclosed (s.db.rollbackTransaction session.transaction) false rfl
    | false =>
      rw [hauto] at hclosed
      exact hclosed s.db false rfl

theorem sound_vacuum (h : s.Sound) (hreturns : (vacuumTask () s).1 ≠ .error .blocked) :
    (vacuumTask () s).2.Sound := by
  have hst := Database.txns_of_steady Database.steady_saveSnapshot s.db.autoVacuum
  have htxns : s.db.autoVacuum.txns = s.db.txns := rfl
  unfold vacuumTask at hreturns ⊢
  rw [modify_bind, bind_run, attempt_onDb] at hreturns ⊢
  dsimp only at hreturns ⊢
  generalize Database.saveSnapshot () s.db.autoVacuum = outcome at hst hreturns ⊢
  obtain ⟨(error | blocked | message) | snapshot, db⟩ := outcome
  · exact h.of_same (hst.resolve_left nofun)
  · exact absurd rfl hreturns
  · exact h.of_same (hst.resolve_left nofun)
  · exact h.of_same (hst.resolve_left nofun)

end PgWireHandler

/-! ## Runs -/

namespace HandlerOp

open PgWireHandler

variable {std : StdParsing} {s : PgWireHandler} {op : HandlerOp}

/-- No panic of a statement or of a COPY in a transaction that only they end, and COPY sessions
    that begin on columns that resolve, each in place of none. -/
def Tidy (std : StdParsing) (s : PgWireHandler) : HandlerOp → Prop
  | statement addr (.dml plan) => s.activeTransactions[addr]? = none →
      Calm (executeDml plan s.db.txns.nextTransactionId) s.db.begun
  | statement addr (.rowFree body) => s.activeTransactions[addr]? = none →
      Calm (body.run s.db.txns.nextTransactionId) s.db.begun
  | statement addr (.createTable stmt) => ∀ tableName, parseTableName stmt.name = .ok tableName →
      s.activeTransactions[addr]? = none →
        Calm (Database.executeCreateTable tableName stmt s.db.txns.nextTransactionId) s.db.begun
  | statement addr (.copyFromStdin table requested options) => options.binary = false →
      ∀ tableName, parseTableName table = .ok tableName → s.CopyFits addr tableName requested
  | copyDone addr others => ∀ session, s.copySessions[addr]? = some session →
      session.autoCommit = true → Calm (insertCopyRows std others session) s.db
  | _ => True

/-- The message is answered. -/
def Returns (std : StdParsing) (s : PgWireHandler) (op : HandlerOp) : Prop :=
  op.outcome std s ≠ .error .blocked

theorem discarded_run {α : Type} {x : HandlerM α} :
    (do let _ ← x : HandlerM Unit) () s = ((x () s).1.map fun _ => (), (x () s).2) := by
  rw [bind_run]
  rcases x () s with ⟨error | a, s'⟩ <;> rfl

/-- What a message does to the transactions in progress. -/
theorem sound_step (h : s.Sound) (htidy : op.Tidy std s) (hreturns : op.Returns std s) :
    (op.step std s).Sound := by
  unfold Returns outcome run at hreturns
  unfold step run
  have hdiscarded : ∀ {α : Type} {x : HandlerM α},
      ((do let _ ← x : HandlerM Unit) () s).1 ≠ .error .blocked → (x () s).1 ≠ .error .blocked := by
    intro α x hx hblocked
    rw [discarded_run, hblocked] at hx
    exact hx rfl
  cases op with
  | statement addr stmt =>
    have hreturns := hdiscarded hreturns
    dsimp only
    rw [discarded_run]
    cases stmt with
    | createTable stmt => exact sound_createTable h htidy hreturns
    | dropTable ifExists names => exact sound_dropTable h hreturns
    | startTransaction => exact sound_startTransaction h
    | commit => exact sound_commit h
    | rollback savepoint => exact sound_rollback h
    | dml plan =>
      exact sound_runOnBlockingPool h (fun _ => Database.steady_executeDml) htidy hreturns
    | rowFree body => exact sound_runOnBlockingPool h (fun _ => Database.steady_rowFree) htidy hreturns
    | copyFromStdin table requested options => exact sound_copyFromStdin h htidy
    | refused error => exact h
  | copyData addr data => exact sound_copyData h
  | copyDone addr others =>
    dsimp only
    rw [discarded_run]
    exact sound_copyDone h htidy (hdiscarded hreturns)
  | copyFail addr message => exact sound_copyFail h
  | vacuum => exact sound_vacuum h hreturns

end HandlerOp

namespace PgWireHandler

/-- A handler over `db`, to which nobody has connected. -/
def idle (db : Database) : PgWireHandler where
  db := db
  activeTransactions := ∅
  copySessions := ∅

theorem sound_idle {db : Database} (hwf : db.txns.Wf) (hidle : db.txns.active = ∅) :
    (idle db).Sound where
  wf := hwf
  live id := by
    rw [show (idle db).db.txns.active = ∅ from hidle]
    constructor
    · intro h; exact absurd h Std.ExtTreeSet.not_mem_empty
    · rintro ⟨addr | addr, ho⟩
      · simp [owned, idle] at ho
      · simp [owned, idle] at ho
  distinct o o' id ho := by
    rcases o with addr | addr <;> simp [owned, idle] at ho

end PgWireHandler

/-- A database as `Database::new` or `load_from_snapshot` makes it; ids are handed out from 1. -/
inductive Database.Fresh : Database → Prop where
  | new (config : Config) : Fresh (.new config)
  | loadFromSnapshot (config : Config) (snapshot : Database.Snapshot)
      (files : BTreeMap String PageStore) (hsaved : 0 < snapshot.nextTransactionId) :
      Fresh (.loadFromSnapshot config snapshot files)

namespace HandlerOp

open PgWireHandler

variable {std : StdParsing} {db : Database}

theorem sound_fresh (h : db.Fresh) : (idle db).Sound := by
  cases h with
  | new config => exact sound_idle TxnState.wf_new rfl
  | loadFromSnapshot config snapshot files hsaved =>
    have hpred : snapshot.nextTransactionId - 1 < snapshot.nextTransactionId :=
      Nat.sub_lt hsaved one_pos
    refine sound_idle ⟨?_, ?_, hpred, hpred, Std.ExtTreeSet.not_mem_empty⟩ rfl
    · exact fun _ ha => absurd ha Std.ExtTreeSet.not_mem_empty
    · exact fun _ ha => absurd ha Std.ExtTreeSet.not_mem_empty

/-- **No transaction leaks.**  In every run of tidy messages the transactions in progress are
    those of the connections and of their open COPYs. -/
theorem no_transaction_leaks (h : db.Fresh) {ops : List HandlerOp}
    (hops : Runs.Each (step std) (fun s op => op.Tidy std s ∧ op.Returns std s) (idle db) ops) :
    (Runs.exec (step std) (idle db) ops).NoLeak :=
  (hops.invariant (I := PgWireHandler.Sound) (sound_fresh h) fun _ _ hs hop =>
    sound_step hs hop.1 hop.2).noLeak

/-- `CREATE TABLE t (a BIGINT)` -/
abbrev tableT : CreateTable where
  name := ["t"]
  columns := [⟨"a", .ok .integerI64, []⟩]
  constraints := []
  ifNotExists := false
  asQuery := false

/-- Connection 0 creates the table and copies the row 1 into it. -/
abbrev copyOneRow : List HandlerOp :=
  [.statement 0 (.createTable tableT), .statement 0 (.copyFromStdin ["t"] [] .default),
    .copyData 0 [0x31, 0x0a], .copyDone 0 fun _ _ => none]

theorem no_transaction_leaks_copy :
    (Runs.exec (step .floatless) (idle (.new ⟨100, 0⟩)) copyOneRow).NoLeak := by
  refine no_transaction_leaks (.new _) ⟨⟨?_, ?_⟩, ⟨?_, ?_⟩, ⟨trivial, ?_⟩, ⟨?_, ?_⟩, trivial⟩
  · rintro tableName ⟨⟩
    decide +kernel
  · show outcome _ _ _ ≠ _
    decide +kernel
  · rintro - tableName ⟨⟩
    decide +kernel
  · show outcome _ _ _ ≠ _
    decide +kernel
  · show outcome _ _ _ ≠ _
    decide +kernel
  · show ∀ session ∈ (_ : Option CopySession), session.autoCommit = true → Calm _ _
    decide +kernel
  · show outcome _ _ _ ≠ _
    decide +kernel

/-- `COPY` from the client into a table that is not there, outside a transaction. -/
theorem copy_leaks_transaction :
    ¬ (Runs.exec (step .floatless) (idle (.new ⟨100, 0⟩))
      [.statement 0 (.copyFromStdin ["missing"] [] .default)]).NoLeak := by
  intro h
  rcases (h 1).1 (by decide +kernel) with ⟨addr, ho⟩ | ⟨addr, session, ho, -⟩
  · cases ho
  · cases ho

end HandlerOp

end AntDb
