/-
  What the messages of connections do to the rows that their transactions read.

  A statement outside a transaction is applied as a whole and shows to everybody, or not at all;
  inside one it goes on the layer of the transaction, and if it fails, the layer is gone.  COPY
  works like an `INSERT` that its last message runs.
-/
import AntDb.Ddl
import AntDb.Effects

namespace AntDb

open Call Runs

/-! ## Statements that write no rows -/

theorem Table.Surveyed.shows {t t' : Table} (h : t.Surveyed t') (hg : t.Good) :
    t'.Good ∧ t'.view.rows = t.view.rows := by
  obtain ⟨columns, n, hm⟩ := h
  have hg₁ : ({ t with columns := columns, nextColumnId := n } : Table).Good :=
    ⟨hg.readable, hg.writable, hg.filed, hg.settled, hg.homed, hg.located, hg.unmapped, hg.resident_lt, hg.mapped_lt,
      hg.rowId_le⟩
  obtain ⟨hgood, -, hview⟩ := (Table.Shows.of_good hg₁).moved hm
  exact ⟨hgood, (congrArg View.rows hview).trans rfl⟩

namespace Database

/-- Tables without a memory limit keep their pages in memory. -/
def abiding : Frame Unit Database Fault where
  env := ()
  inv db := ∀ (name : String) t, db.tables[name]? = some t → t.memoryLimit = 0
  rel db db' := ∀ name : String, Option.Rel Table.Abides db.tables[name]? db'.tables[name]?
  exempt _ := False
  refl db name := by
    cases db.tables[name]? with
    | none => exact .none
    | some t => exact .some (.refl t)
  trans {db db' db''} h h' name := by
    have h := h name
    have h' := h' name
    generalize db.tables[name]? = o, db'.tables[name]? = o', db''.tables[name]? = o'' at h h' ⊢
    cases h with
    | none => exact h'
    | some h =>
      cases h' with
      | some h' => exact .some (h.trans h')
  keep {db db'} hinv h name t' ht' := by
    have h := h name
    rw [ht'] at h
    cases ho : db.tables[name]? with
    | none => rw [ho] at h; cases h
    | some t =>
      rw [ho] at h
      cases h with
      | some h => exact h.memoryLimit.trans (hinv name t ho)

end Database

/-- In tables without a memory limit, the statement keeps all pages in memory. -/
def RowFreeBody.Abides (body : RowFreeBody) : Prop := ∀ id, Follows Database.abiding (body.run id)

namespace SessionOp

open SharedRows

variable {m : SharedRows} {db : Database} {T : TransactionID} {name tableName : String} {α : Type}

namespace Coherent

/-- An insert writes to no row that is there. -/
theorem undisputed_insert {rows : List (RowData × ForeignTables)} (h : Coherent (db, m)) :
    (PhysicalPlan.insert tableName rows).Undisputed (db, m) T := by
  intro x hx t ht r hr hsome
  obtain ⟨name, -, hx⟩ := Option.bind_eq_some_iff.1 hx
  obtain ⟨t', ht', rfl⟩ := Option.map_eq_some_iff.1 hx
  obtain rfl : t' = t := Option.some.inj (ht'.symm.trans ht)
  have hle := (h.tables name t' ht').good.rowId_le r (Std.ExtTreeMap.mem_keys.1 hr)
  have hnone : (PhysicalPlan.insert tableName rows).effect t' (db.txn T) (fun r => m.rows.seen T (name, r)) r = none :=
    if_neg (not_lt.2 hle)
  have hsome : ((PhysicalPlan.insert tableName rows).effect t' (db.txn T) (fun r => m.rows.seen T (name, r)) r).isSome :=
    hsome
  rw [hnone] at hsome
  cases hsome

/-- Databases that are read as `m` says. -/
def sharing (m : SharedRows) : Frame Unit Database Fault where
  env := ()
  inv db := Coherent (db, m)
  rel db db' := Coherent (db, m) → Coherent (db', m)
  exempt e := e = .blocked
  refl _ := id
  trans h h' := h' ∘ h
  keep hinv h := h hinv

/-- A call that changes columns and where pages are. -/
theorem sharing_asTransaction {x : Transaction → TableM α} (hs : ∀ txn ρ, Follows (Table.surveying ρ) (x txn))
    (ha : ∀ txn ρ, Follows (Table.abiding ρ) (x txn)) : Follows (sharing m) (Database.asTransaction name T x) := by
  intro _ db hdb
  have hrun : Database.asTransaction name T x () db = Database.inTable name (x (db.txn T)) () db := rfl
  show (∃ e, (Database.asTransaction name T x () db).1 = .error e ∧ e = .blocked) ∨
    True ∧ (Coherent (db, m) → Coherent ((Database.asTransaction name T x () db).2, m))
  rw [hrun]
  cases ht : db.tables[name]? with
  | none =>
    rw [@inTable_missing (db, m) name _ _ ht]
    exact Or.inr ⟨trivial, id⟩
  | some t =>
    rw [@inTable_run (db, m) name t _ _ ht]
    by_cases hblocked : (x (db.txn T) none t).1 = .error .blocked
    · exact Or.inl ⟨.blocked, hblocked, rfl⟩
    have hbears := hdb.tables name t ht
    obtain ⟨hgood, hview, -⟩ := Table.run_surveying hbears.good (hs (db.txn T) t.rowLocations) hblocked
    have habides := Table.run_abiding (ha (db.txn T) t.rowLocations) hbears.unlimited
    exact Or.inr ⟨trivial, fun h => h.kept (hbears.abided hgood habides ((congrArg View.rows hview).trans rfl))⟩

theorem defines_sharing : Database.Defines (sharing m) T where
  createTable _ := fun _ _ hdb => Or.inr ⟨trivial, fun _ => hdb.createTable⟩
  createColumn _ _ _ _ := sharing_asTransaction
    (fun _ _ => Table.follows_createColumn Table.loads_surveying Table.surveying_withColumns)
    fun _ _ => Table.follows_createColumn Table.loads_abiding fun _ _ _ _ => Table.abides_columns
  addColumnConstraints _ _ _ := sharing_asTransaction
    (fun _ _ => Table.follows_addColumnConstraints Table.loads_surveying Table.surveying_withColumns)
    fun _ _ => Table.follows_addColumnConstraints Table.loads_abiding fun _ _ _ _ => Table.abides_columns

theorem follows_sharing {x : DbM α} (h : Coherent (db, m)) (hx : Follows (sharing m) x) :
    (x () db).1 = .error .blocked ∨ Coherent ((x () db).2, m) := by
  rcases hx () db h with ⟨e, he, rfl⟩ | ⟨-, hkept⟩
  · exact Or.inl he
  · exact Or.inr (hkept h)

/-- A statement that writes no rows. -/
theorem rowFree {body : RowFreeBody} (h : Coherent (db, m)) (habides : body.Abides) :
    (body.run T () db).1 = .error .blocked ∨ Coherent ((body.run T () db).2, m) := by
  have hkept : Database.abiding.rel db (body.run T () db).2 := by
    rcases habides T () db fun name t ht => (h.tables name t ht).unlimited with ⟨-, -, ⟨⟩⟩ | ⟨-, hrel⟩
    exact hrel
  refine (body.rowFree T () db trivial).imp (fun ⟨e, he, hblocked⟩ => ?_) fun ⟨_, hsurveyed⟩ => ?_
  · obtain rfl : e = .blocked := hblocked
    exact he
  generalize (body.run T () db).2 = db' at hkept hsurveyed
  refine ⟨hsurveyed.config ▸ h.unlimited, hsurveyed.txns.symm ▸ h.wf, hsurveyed.pageFiles.symm ▸ h.pageFiles,
    fun name t' ht' => ?_, fun name hnot => h.untabled name fun hmem => hnot ?_, h.writers,
    hsurveyed.txns.symm ▸ h.recent⟩
  · have hmoved := hsurveyed.tables name
    have habides := hkept name
    rw [show db'.tables[name]? = some t' from ht'] at hmoved habides
    cases ht : db.tables[name]? with
    | none => rw [ht] at hmoved; cases hmoved
    | some t =>
      rw [ht] at hmoved habides
      cases hmoved with
      | some hmoved =>
        cases habides with
        | some habides =>
          have hbears := h.tables name t ht
          obtain ⟨hgood, hrows⟩ := hmoved.shows hbears.good
          show t'.Bears db'.txns _ _
          rw [hsurveyed.txns]
          exact hbears.abided hgood habides hrows
  · obtain ⟨t, ht⟩ := BTreeMap.mem_iff_get.1 hmem
    have habides := hkept name
    rw [ht] at habides
    cases ht' : db'.tables[name]? with
    | none => rw [ht'] at habides; cases habides
    | some t' => exact BTreeMap.mem_of_get ht'

end Coherent

end SessionOp

/-! ## What a message does to the map -/

namespace PgWireHandler

/-- The transaction that a statement of the connection runs in, and the database that it starts on. -/
def transactionAt (s : PgWireHandler) (addr : SocketAddr) : TransactionID × Database :=
  match s.activeTransactions[addr]? with
  | some id => (id, s.db)
  | none => (s.db.txns.nextTransactionId, s.db.begun)

end PgWireHandler

/-- The `INSERT` that a COPY amounts to. -/
def CopySession.plan (std : StdParsing) (others : ℕ → ForeignTables) (session : CopySession) :
    Except Fault PhysicalPlan :=
  (Copy.parseCopyRows std session.buffer session.columns session.options).map fun rows =>
    .insert session.tableName (rows.mapIdx fun i row => (row, others i))

namespace SharedRows

/-- The map after a statement of the connection, which makes it `m` if it succeeds.  A statement in a
    transaction of its own ends the transaction; a failing one ends whatever transaction it is in. -/
def settled (s : PgWireHandler × SharedRows) (addr : SocketAddr) (success : Bool) (m : SharedRows) : SharedRows :=
  if success then
    if (s.1.activeTransactions[addr]?).isSome then m else m.commit (s.1.transactionAt addr).1
  else s.2.rollback (s.1.transactionAt addr).1

/-- The map after the transaction of the connection, if it has one, has ended. -/
def ended (s : PgWireHandler × SharedRows) (addr : SocketAddr) (success : Bool) : SharedRows :=
  match s.1.activeTransactions[addr]? with
  | some T => if success then s.2.commit T else s.2.rollback T
  | none => s.2

/-- The map after the COPY of the connection. -/
def copied (s : PgWireHandler × SharedRows) (session : CopySession) (success : Bool) (m : SharedRows) : SharedRows :=
  if session.autoCommit then
    if success then m.commit session.transaction else s.2.rollback session.transaction
  else if success then m else s.2

end SharedRows

open PgWireHandler

/-- The map of rows after a message. -/
def HandlerOp.rowsAfter (std : StdParsing) (s : PgWireHandler × SharedRows) : HandlerOp → SharedRows
  | statement addr (.dml plan) =>
    match plan (s.1.transactionAt addr).2 (s.1.transactionAt addr).1 with
    | .error _ => .settled s addr false s.2
    | .ok p => .settled s addr (executeDml plan (s.1.transactionAt addr).1 () (s.1.transactionAt addr).2).1.isOk
        (p.executed ((s.1.transactionAt addr).2, s.2) (s.1.transactionAt addr).1)
  | statement addr (.rowFree body) =>
    .settled s addr (body.run (s.1.transactionAt addr).1 () (s.1.transactionAt addr).2).1.isOk s.2
  | statement addr (.createTable stmt) =>
    match parseTableName stmt.name with
    | .error _ => s.2
    | .ok tableName =>
      -- in the transaction of the connection, an error leaves the transaction open
      if (s.1.activeTransactions[addr]?).isSome then s.2
      else .settled s addr (Database.executeCreateTable tableName stmt (s.1.transactionAt addr).1 ()
        (s.1.transactionAt addr).2).1.isOk s.2
  | statement _ (.dropTable ifExists [name]) =>
    match parseTableName name with
    | .error _ => s.2
    | .ok tableName =>
      if (Database.executeDropTable ifExists [name] () s.1.db).1.isOk then s.2.drop tableName else s.2
  | statement addr .commit => .ended s addr true
  | statement addr (.rollback false) => .ended s addr false
  | copyDone addr others =>
    match s.1.copySessions[addr]? with
    | none => s.2
    | some session =>
      match session.plan std others with
      | .error _ => .copied s session false s.2
      | .ok p => .copied s session (insertCopyRows std others session () s.1.db).1.isOk
          (p.executed (s.1.db, s.2) session.transaction)
  | copyFail addr _ =>
    match s.1.copySessions[addr]? with
    | none => s.2
    | some session => .copied s session false s.2
  | _ => s.2

/-- A message of a connection, a tick of the background task, or a restart of the server. -/
inductive ServerOp where
  | message (op : HandlerOp)
  | restart (config : Config)

namespace ServerOp

/-- A restart saves a snapshot and loads it, and nobody is connected. -/
def step (std : StdParsing) (s : PgWireHandler × SharedRows) : ServerOp → PgWireHandler × SharedRows
  | message op => (op.step std s.1, op.rowsAfter std s)
  | restart config =>
    match Database.saveSnapshot () s.1.db with
    | (.ok snapshot, db) => (idle (.loadFromSnapshot config snapshot db.filesOnDisk), s.2.settle s.1.db.txns)
    | (.error _, db) => ({ s.1 with db := db }, s.2)

/-- What is asked of a message: statements scan, write to no row that another transaction in progress has
    written to and do not panic; transactions that end later than they began commit in the order of their ids;
    COPY in a transaction of the connection does not fail. -/
def Fits (std : StdParsing) (s : PgWireHandler × SharedRows) : HandlerOp → Prop
  | .statement addr (.dml plan) =>
    Calm (executeDml plan (s.1.transactionAt addr).1) (s.1.transactionAt addr).2 ∧
      ∀ p, plan (s.1.transactionAt addr).2 (s.1.transactionAt addr).1 = .ok p →
        p.Scans ∧ p.Undisputed ((s.1.transactionAt addr).2, s.2) (s.1.transactionAt addr).1
  | .statement addr (.rowFree body) =>
    Calm (body.run (s.1.transactionAt addr).1) (s.1.transactionAt addr).2 ∧ body.Abides
  | .statement addr .commit => ∀ T ∈ s.1.activeTransactions[addr]?, s.2.watermark ≤ T
  | .copyDone addr others => ∀ session ∈ s.1.copySessions[addr]?, session.transaction ∈ s.1.db.txns.active ∧
      if session.autoCommit then s.2.watermark ≤ session.transaction
      else (insertCopyRows std others session () s.1.db).1.isOk
  | _ => True

def Allowed (std : StdParsing) (s : PgWireHandler × SharedRows) : ServerOp → Prop
  | message op => op.Tidy std s.1 ∧ op.Returns std s.1 ∧ Fits std s op
  | restart config => SessionOp.Allowed (s.1.db, s.2) (.restart config)

/-- The tables are read as the map says, and the transactions in progress have owners. -/
structure Served (s : PgWireHandler × SharedRows) : Prop where
  coherent : SessionOp.Coherent (s.1.db, s.2)
  sound : s.1.Sound

variable {std : StdParsing} {s : PgWireHandler × SharedRows} {addr : SocketAddr} {α : Type} {m : SharedRows}
  {op : HandlerOp} {name : String}

open SessionOp (Coherent Wrote)

theorem transactionAt_explicit {id : TransactionID} (hid : s.1.activeTransactions[addr]? = some id) :
    s.1.transactionAt addr = (id, s.1.db) := by rw [transactionAt, hid]

theorem transactionAt_own (hid : s.1.activeTransactions[addr]? = none) :
    s.1.transactionAt addr = (s.1.db.txns.nextTransactionId, s.1.db.begun) := by rw [transactionAt, hid]

namespace Served

/-- The transaction of a statement is in progress on the database that the statement starts on. -/
theorem transactionAt (h : Served s) (addr : SocketAddr) :
    Coherent ((s.1.transactionAt addr).2, s.2) ∧
      (s.1.transactionAt addr).1 ∈ (s.1.transactionAt addr).2.txns.active := by
  cases hid : s.1.activeTransactions[addr]? with
  | some id =>
    rw [transactionAt_explicit hid]
    exact ⟨h.coherent, (h.sound.live id).2 ⟨.connection addr, hid⟩⟩
  | none =>
    rw [transactionAt_own hid]
    exact ⟨h.coherent.createTransaction, TxnState.mem_active_create.2 (Or.inl rfl)⟩

/-- A statement that runs in the transaction of its connection, or else in its own. -/
theorem executeTransactionalAt {action : TransactionID → DbM α} (h : Served s)
    (hsteady : ∀ id, Follows Database.steady (action id))
    (hwrote : Wrote s.2 (s.1.transactionAt addr).1 name (action (s.1.transactionAt addr).1)
      (fun _ db => Coherent (db, m)) (s.1.transactionAt addr).2)
    (hwatermark : m.watermark = s.2.watermark)
    (hcalm : Calm (action (s.1.transactionAt addr).1) (s.1.transactionAt addr).2)
    (hreturns : (PgWireHandler.executeTransactionalAt addr action () s.1).1 ≠ .error .blocked) :
    Coherent ((PgWireHandler.executeTransactionalAt addr action () s.1).2.db, .settled s addr
      (action (s.1.transactionAt addr).1 () (s.1.transactionAt addr).2).1.isOk m) := by
  obtain ⟨-, hT⟩ := h.transactionAt addr
  have htxns := Database.txns_of_steady (hsteady (s.1.transactionAt addr).1) (s.1.transactionAt addr).2
  unfold Calm at hcalm
  unfold Wrote at hwrote
  unfold SharedRows.settled
  cases hid : s.1.activeTransactions[addr]? with
  | some id =>
    rw [executeTransactionalAt_explicit hid] at hreturns ⊢
    rw [transactionAt_explicit hid] at *
    dsimp only at *
    generalize action id () s.1.db = outcome at *
    obtain ⟨(error | blocked | message) | a, db⟩ := outcome
    · have htxns := htxns.resolve_left nofun
      rcases hwrote with ⟨⟨⟩⟩ | ⟨e, l, ⟨⟩, hcoherent⟩ | ⟨a, ⟨⟩, -⟩
      exact hcoherent.rolledBack h.coherent.writers (htxns.symm ▸ hT)
    · exact absurd rfl hreturns
    · exact absurd rfl (hcalm message)
    · rcases hwrote with ⟨⟨⟩⟩ | ⟨e, l, ⟨⟩, -⟩ | ⟨a, ⟨⟩, hcoherent⟩
      exact hcoherent
  | none =>
    rw [executeTransactionalAt_own hid] at hreturns ⊢
    rw [transactionAt_own hid] at *
    dsimp only at *
    generalize action s.1.db.txns.nextTransactionId () s.1.db.begun = outcome at *
    obtain ⟨(error | blocked | message) | a, db⟩ := outcome
    · have htxns := htxns.resolve_left nofun
      rcases hwrote with ⟨⟨⟩⟩ | ⟨e, l, ⟨⟩, hcoherent⟩ | ⟨a, ⟨⟩, -⟩
      exact hcoherent.rolledBack h.coherent.writers (htxns.symm ▸ hT)
    · exact absurd rfl hreturns
    · exact absurd rfl (hcalm message)
    · have htxns := htxns.resolve_left nofun
      rcases hwrote with ⟨⟨⟩⟩ | ⟨e, l, ⟨⟩, -⟩ | ⟨a, ⟨⟩, hcoherent⟩
      exact hcoherent.commitTransaction ⟨htxns.symm ▸ hT, hwatermark.trans_le h.coherent.recent.le⟩

/-! ### Statements -/

theorem pooled_run {task : HandlerM String} {f : String → Response} {h : PgWireHandler} :
    ((runOnBlockingPool task >>= fun tag => pure (f tag) : HandlerM Response) () h).2 = (task () h).2 ∧
      (((runOnBlockingPool task >>= fun tag => pure (f tag) : HandlerM Response) () h).1 ≠ .error .blocked →
        (task () h).1 ≠ .error .blocked) := by
  rw [bind_run]
  unfold runOnBlockingPool handling
  rcases task () h with ⟨(error | blocked | message) | tag, h'⟩
  · exact ⟨rfl, fun _ => nofun⟩
  · exact ⟨rfl, fun hreturns _ => hreturns rfl⟩
  · exact ⟨rfl, fun _ => nofun⟩
  · exact ⟨rfl, fun _ => nofun⟩

theorem statement_run {stmt : Statement} : (HandlerOp.statement addr stmt).step std s.1 =
    (executeSimpleStatement addr stmt () s.1).2 ∧ ((HandlerOp.statement addr stmt).Returns std s.1 →
      (executeSimpleStatement addr stmt () s.1).1 ≠ .error .blocked) := by
  unfold HandlerOp.Returns HandlerOp.outcome HandlerOp.step HandlerOp.run
  dsimp only
  rw [HandlerOp.discarded_run]
  refine ⟨rfl, fun h hblocked => h ?_⟩
  rw [hblocked]
  rfl

theorem wrote_of_kept {x : DbM α} {db : Database} {T : TransactionID}
    (h : (x () db).1 = .error .blocked ∨ Coherent ((x () db).2, m)) :
    Wrote m T name x (fun _ db' => Coherent (db', m)) db := by
  unfold Wrote
  generalize x () db = outcome at h ⊢
  obtain ⟨e | a, db'⟩ := outcome
  · exact h.imp id fun h => Or.inl ⟨e, [], rfl, h⟩
  · exact Or.inr (Or.inr ⟨a, rfl, h.resolve_left nofun⟩)

theorem dml {plan : Database → TransactionID → Except DataBaseErrors PhysicalPlan} (h : Served s)
    (hreturns : (HandlerOp.statement addr (.dml plan)).Returns std s.1)
    (hfits : Fits std s (.statement addr (.dml plan))) :
    Coherent (((HandlerOp.statement addr (.dml plan)).step std s.1).db,
      (HandlerOp.statement addr (.dml plan)).rowsAfter std s) := by
  obtain ⟨hcalm, hplan⟩ := hfits
  obtain ⟨hcoherent, hT⟩ := h.transactionAt addr
  obtain ⟨hstep, hpooled⟩ := @statement_run std s addr (.dml plan)
  have hreturns := hpooled hreturns
  unfold executeSimpleStatement at hstep hreturns
  rw [hstep, pooled_run.1]
  have hreturns := pooled_run.2 hreturns
  rw [HandlerOp.rowsAfter]
  have hsteady : ∀ id, Follows Database.steady (executeDml plan id) := fun _ => Database.steady_executeDml
  cases hp : plan (s.1.transactionAt addr).2 (s.1.transactionAt addr).1 with
  | error e =>
    have hrun : executeDml plan (s.1.transactionAt addr).1 () (s.1.transactionAt addr).2 =
        (.error (.err e), (s.1.transactionAt addr).2) := by
      unfold executeDml
      rw [get_bind, hp]
      rfl
    have hsettled := @executeTransactionalAt s addr _ s.2 "" _ h hsteady
      (Or.inr (Or.inl ⟨.err e, [], congrArg Prod.fst hrun, by rw [hrun]; exact hcoherent⟩)) rfl hcalm hreturns
    rw [hrun] at hsettled
    exact hsettled
  | ok p =>
    have hrun : executeDml plan (s.1.transactionAt addr).1 () (s.1.transactionAt addr).2 =
        Database.execute p (s.1.transactionAt addr).1 () (s.1.transactionAt addr).2 := by
      unfold executeDml
      rw [get_bind, hp]
      rfl
    obtain ⟨hscans, hfree⟩ := hplan p hp
    obtain ⟨name, hwrote⟩ := hcoherent.wrote_execute hT hscans hfree
    refine @executeTransactionalAt s addr _ _ name _ h hsteady ?_ ?_ hcalm hreturns
    · unfold Wrote at hwrote ⊢
      rw [hrun]
      exact hwrote
    · unfold PhysicalPlan.executed
      split <;> rfl

theorem rowFree {body : RowFreeBody} (h : Served s)
    (hreturns : (HandlerOp.statement addr (.rowFree body)).Returns std s.1)
    (hfits : Fits std s (.statement addr (.rowFree body))) :
    Coherent (((HandlerOp.statement addr (.rowFree body)).step std s.1).db,
      (HandlerOp.statement addr (.rowFree body)).rowsAfter std s) := by
  obtain ⟨hcalm, habides⟩ := hfits
  obtain ⟨hcoherent, hT⟩ := h.transactionAt addr
  obtain ⟨hstep, hpooled⟩ := @statement_run std s addr (.rowFree body)
  have hreturns := hpooled hreturns
  unfold executeSimpleStatement at hstep hreturns
  rw [hstep, pooled_run.1]
  have hreturns := pooled_run.2 hreturns
  exact @executeTransactionalAt s addr _ s.2 "" _ h (fun _ => Database.steady_rowFree)
    (wrote_of_kept (hcoherent.rowFree habides)) rfl hcalm hreturns

theorem createTable {stmt : CreateTable} (h : Served s)
    (hreturns : (HandlerOp.statement addr (.createTable stmt)).Returns std s.1)
    (htidy : (HandlerOp.statement addr (.createTable stmt)).Tidy std s.1) :
    Coherent (((HandlerOp.statement addr (.createTable stmt)).step std s.1).db,
      (HandlerOp.statement addr (.createTable stmt)).rowsAfter std s) := by
  obtain ⟨hcoherent, hT⟩ := h.transactionAt addr
  obtain ⟨hstep, hanswered⟩ := @statement_run std s addr (.createTable stmt)
  have hreturns := hanswered hreturns
  rw [hstep, HandlerOp.rowsAfter]
  cases hname : parseTableName stmt.name with
  | error e =>
    rw [createTable_unnamed hname]
    exact h.coherent
  | ok tableName =>
    have hsharing : Follows (Coherent.sharing s.2)
        (Database.executeCreateTable tableName stmt (s.1.transactionAt addr).1) :=
      Database.follows_executeCreateTable Coherent.defines_sharing
    have hsteady : Follows Database.steady (Database.executeCreateTable tableName stmt (s.1.transactionAt addr).1) :=
      Database.follows_executeCreateTable Database.defines_steady
    have hkept := hcoherent.follows_sharing hsharing
    have hst := Database.txns_of_steady hsteady (s.1.transactionAt addr).2
    dsimp only
    cases hid : s.1.activeTransactions[addr]? with
    | some id =>
      rw [createTable_explicit hname hid] at hreturns ⊢
      rw [transactionAt_explicit hid] at hkept
      generalize Database.executeCreateTable tableName stmt id () s.1.db = outcome at *
      obtain ⟨(error | blocked | message) | a, db⟩ := outcome
      · exact hkept.resolve_left nofun
      · exact absurd rfl hreturns
      · exact hkept.resolve_left nofun
      · exact hkept.resolve_left nofun
    | none =>
      have hcalm := htidy tableName hname hid
      unfold Calm at hcalm
      rw [createTable_own hname hid] at hreturns ⊢
      unfold SharedRows.settled
      rw [transactionAt_own hid] at *
      rw [hid]
      dsimp only at *
      generalize Database.executeCreateTable tableName stmt s.1.db.txns.nextTransactionId () s.1.db.begun = outcome at *
      obtain ⟨(error | blocked | message) | a, db⟩ := outcome
      · have htxns : db.txns = s.1.db.begun.txns := hst.resolve_left nofun
        exact (hkept.resolve_left nofun).rollbackTransaction (htxns.symm ▸ hT)
      · exact absurd rfl hreturns
      · exact absurd rfl (hcalm message)
      · have htxns : db.txns = s.1.db.begun.txns := hst.resolve_left nofun
        exact (hkept.resolve_left nofun).commitTransaction ⟨htxns.symm ▸ hT, h.coherent.recent.le⟩

theorem dropTable {ifExists : Bool} {names : List ObjectName} (h : Served s) :
    Coherent (((HandlerOp.statement addr (.dropTable ifExists names)).step std s.1).db,
      (HandlerOp.statement addr (.dropTable ifExists names)).rowsAfter std s) := by
  obtain ⟨hstep, -⟩ := @statement_run std s addr (.dropTable ifExists names)
  have hdb : ((HandlerOp.statement addr (.dropTable ifExists names)).step std s.1).db =
      (Database.executeDropTable ifExists names () s.1.db).2 := by
    rw [hstep, dropTable_run]
    rcases Database.executeDropTable ifExists names () s.1.db with ⟨e | a, db⟩ <;> rfl
  rw [hdb]
  rcases names with _ | ⟨name, _ | ⟨name', names⟩⟩
  · exact h.coherent
  · rw [HandlerOp.rowsAfter]
    cases hname : parseTableName name with
    | error e =>
      have hrun : Database.executeDropTable ifExists [name] () s.1.db = (.error (.err e), s.1.db) := by
        unfold Database.executeDropTable
        dsimp only
        rw [hname]
        rfl
      rw [hrun]
      exact h.coherent
    | ok tableName =>
      have hdropped := @SessionOp.Coherent.dropTable (s.1.db, s.2) tableName h.coherent
      dsimp only
      rw [executeDropTable_run hname]
      by_cases hget : (s.1.db.getTable tableName).isSome = true
      · rw [if_pos hget]
        exact hdropped
      rw [if_neg hget]
      cases ifExists with
      | true =>
        have hmissing : tableName ∉ s.1.db.tables :=
          Database.not_mem_of_getTable (Option.not_isSome_iff_eq_none.1 hget)
        rw [SessionOp.step, dropTable_eq hmissing] at hdropped
        exact hdropped
      | false => exact h.coherent
  · exact h.coherent

theorem startTransaction (h : Served s) :
    Coherent (((HandlerOp.statement addr .startTransaction).step std s.1).db, s.2) := by
  obtain ⟨hstep, -⟩ := @statement_run std s addr .startTransaction
  have hrun := @createConnectionTransactionAt_run s.1 addr
  rw [hstep]
  unfold executeSimpleStatement
  dsimp only
  cases hid : s.1.activeTransactions[addr]? with
  | some id =>
    rw [hid] at hrun
    rw [bind_error hrun]
    exact h.coherent
  | none =>
    rw [hid] at hrun
    rw [bind_ok hrun]
    exact h.coherent.createTransaction

/-- The end of the connection's transaction. -/
theorem ended {message : String} {success : Bool} (h : Served s)
    (hle : success = true → ∀ T ∈ s.1.activeTransactions[addr]?, s.2.watermark ≤ T) :
    Coherent (((removeConnectionTransactionAt addr message >>= (endTransaction · success)) () s.1).2.db,
      .ended s addr success) := by
  have hrun := @removeConnectionTransactionAt_run s.1 addr message
  unfold SharedRows.ended
  cases hid : s.1.activeTransactions[addr]? with
  | none =>
    rw [hid] at hrun
    rw [bind_error hrun]
    exact h.coherent
  | some T =>
    rw [hid] at hrun hle
    rw [bind_ok hrun]
    have hT : T ∈ s.1.db.txns.active := (h.sound.live T).2 ⟨.connection addr, hid⟩
    cases success with
    | true => exact h.coherent.commitTransaction ⟨hT, hle rfl T rfl⟩
    | false => exact h.coherent.rollbackTransaction hT

theorem commit (h : Served s) (hfits : Fits std s (.statement addr .commit)) :
    Coherent (((HandlerOp.statement addr .commit).step std s.1).db, .ended s addr true) := by
  obtain ⟨hstep, -⟩ := @statement_run std s addr .commit
  have hended := @ended s addr "No active transaction to commit" true h fun _ => hfits
  rw [hstep]
  unfold executeSimpleStatement commitConnectionTransactionAt
  dsimp only
  rw [bind_run]
  generalize (removeConnectionTransactionAt addr "No active transaction to commit" >>=
    (endTransaction · true)) () s.1 = outcome at hended ⊢
  obtain ⟨error | _, h'⟩ := outcome
  · exact hended
  · exact hended

theorem rollback (h : Served s) {savepoint : Bool} :
    Coherent (((HandlerOp.statement addr (.rollback savepoint)).step std s.1).db,
      (HandlerOp.statement addr (.rollback savepoint)).rowsAfter std s) := by
  obtain ⟨hstep, -⟩ := @statement_run std s addr (.rollback savepoint)
  have hended := @ended s addr "No active transaction to rollback" false h nofun
  rw [hstep]
  unfold executeSimpleStatement rollbackConnectionTransactionAt
  cases savepoint with
  | true => exact h.coherent
  | false =>
    dsimp only
    rw [if_neg Bool.false_ne_true, bind_run]
    generalize (removeConnectionTransactionAt addr "No active transaction to rollback" >>=
      (endTransaction · false)) () s.1 = outcome at hended ⊢
    obtain ⟨error | _, h'⟩ := outcome
    · exact hended
    · exact hended

/-! ### COPY -/

theorem copyFromStdin_db {h : PgWireHandler} {table : ObjectName} {requested : List String} {options : CopyOptions} :
    (PgWireHandler.copyFromStdin addr table requested options () h).2.db = h.db ∨
      (PgWireHandler.copyFromStdin addr table requested options () h).2.db = h.db.begun := by
  have hbegin := @transactionForQueryAt_run h addr
  unfold PgWireHandler.copyFromStdin
  cases options.binary with
  | true => exact Or.inl rfl
  | false =>
    rw [if_neg Bool.false_ne_true]
    cases parseTableName table with
    | error e => exact Or.inl rfl
    | ok tableName =>
      have hparse : (ofResult (Except.ok tableName) : HandlerM String) () h = (.ok tableName, h) := rfl
      rw [bind_ok hparse]
      cases hid : h.activeTransactions[addr]? with
      | some id =>
        rw [hid] at hbegin
        rw [bind_ok hbegin, get_bind]
        cases copyColumns h.db tableName id requested <;> exact Or.inl rfl
      | none =>
        rw [hid] at hbegin
        rw [bind_ok hbegin, get_bind]
        cases copyColumns h.db.begun tableName h.db.txns.nextTransactionId requested <;> exact Or.inr rfl

theorem copyFromStdin {table : ObjectName} {requested : List String} {options : CopyOptions} (h : Served s) :
    Coherent (((HandlerOp.statement addr (.copyFromStdin table requested options)).step std s.1).db, s.2) := by
  obtain ⟨hstep, -⟩ := @statement_run std s addr (.copyFromStdin table requested options)
  rw [hstep]
  unfold executeSimpleStatement
  dsimp only
  rcases @copyFromStdin_db addr s.1 table requested options with hdb | hdb
  · rw [hdb]
    exact h.coherent
  · rw [hdb]
    exact h.coherent.createTransaction

theorem copyData {data : List UInt8} (h : Served s) :
    Coherent (((HandlerOp.copyData addr data).step std s.1).db, s.2) := by
  have hdb : (onCopyData addr data () s.1).2.db = s.1.db := by
    unfold onCopyData
    rw [get_bind]
    cases s.1.copySessions[addr]? <;> rfl
  unfold HandlerOp.step HandlerOp.run
  dsimp only
  rw [hdb]
  exact h.coherent

/-- The rows of a COPY are inserted as by the `INSERT` that it amounts to. -/
theorem insertCopyRows_run {others : ℕ → ForeignTables} {session : CopySession} {p : PhysicalPlan} {db : Database}
    (hp : session.plan std others = .ok p) :
    p.Scans ∧ (∃ rows, p = .insert session.tableName rows) ∧ ∃ n : ℕ, insertCopyRows std others session () db =
      ((Database.execute p session.transaction () db).1.map fun _ => n,
        (Database.execute p session.transaction () db).2) := by
  unfold CopySession.plan at hp
  unfold insertCopyRows
  cases hrows : Copy.parseCopyRows std session.buffer session.columns session.options with
  | error e => rw [hrows] at hp; cases hp
  | ok rows =>
    rw [hrows] at hp
    have hp : .insert session.tableName (rows.mapIdx fun i row => (row, others i)) = p := Except.ok.inj hp
    subst hp
    refine ⟨trivial, ⟨_, rfl⟩, rows.length, ?_⟩
    have hparsed : (Call.ofExcept (.ok rows) : DbM _) () db = (.ok rows, db) := rfl
    rw [bind_ok hparsed]
    generalize rows.mapIdx (fun i row => (row, others i)) = copied
    have hexecute : Database.execute (.insert session.tableName copied) session.transaction =
      (Database.requireTable session.tableName >>= fun name =>
        Database.insertRows name copied session.transaction >>= fun _ => pure "INSERT") := rfl
    rw [hexecute, bind_run, bind_run]
    rcases Database.requireTable session.tableName () db with ⟨e | name, db'⟩
    · rfl
    · dsimp only
      rw [bind_run, bind_run]
      rcases Database.insertRows name copied session.transaction () db' with ⟨e | a, db''⟩ <;> rfl

theorem insertCopyRows_unparsed {others : ℕ → ForeignTables} {session : CopySession} {e : Fault} {db : Database}
    (hp : session.plan std others = .error e) : insertCopyRows std others session () db = (.error e, db) := by
  unfold CopySession.plan at hp
  unfold insertCopyRows
  cases hrows : Copy.parseCopyRows std session.buffer session.columns session.options with
  | error e' => rw [hrows] at hp; cases hp; rfl
  | ok rows => rw [hrows] at hp; cases hp

/-- The rows of a COPY go to the map as `m` has it, if it succeeds. -/
theorem wrote_insertCopyRows {others : ℕ → ForeignTables} {session : CopySession} (h : Served s)
    (hT : session.transaction ∈ s.1.db.txns.active) : ∃ m name,
      (match session.plan std others with
        | .error _ => .copied s session false s.2
        | .ok p => .copied s session (insertCopyRows std others session () s.1.db).1.isOk
            (p.executed (s.1.db, s.2) session.transaction)) =
          SharedRows.copied s session (insertCopyRows std others session () s.1.db).1.isOk m ∧
        m.watermark = s.2.watermark ∧ Wrote s.2 session.transaction name (insertCopyRows std others session)
          (fun _ db => Coherent (db, m)) s.1.db := by
  cases hp : session.plan std others with
  | error e =>
    have hrun := @insertCopyRows_unparsed std others session e s.1.db hp
    refine ⟨s.2, "", by rw [hrun]; rfl, rfl, Or.inr (Or.inl ⟨e, [], by rw [hrun], ?_⟩)⟩
    rw [hrun]
    exact h.coherent
  | ok p =>
    obtain ⟨hscans, ⟨rows, hinsert⟩, n, hrun⟩ := @insertCopyRows_run std others session p s.1.db hp
    have hfree : p.Undisputed (s.1.db, s.2) session.transaction := hinsert ▸ h.coherent.undisputed_insert
    obtain ⟨name, hwrote⟩ := h.coherent.wrote_execute hT hscans hfree
    refine ⟨p.executed (s.1.db, s.2) session.transaction, name, rfl, ?_, ?_⟩
    · unfold PhysicalPlan.executed
      split <;> rfl
    · unfold Wrote at hwrote ⊢
      rw [hrun]
      rcases hwrote with hblocked | ⟨e, l, he, hcoherent⟩ | ⟨a, ha, hcoherent⟩
      · exact Or.inl (by rw [hblocked]; rfl)
      · exact Or.inr (Or.inl ⟨e, l, by rw [he]; rfl, hcoherent⟩)
      · exact Or.inr (Or.inr ⟨n, by rw [ha]; rfl, hcoherent⟩)

theorem copyDone {others : ℕ → ForeignTables} (h : Served s)
    (hreturns : (HandlerOp.copyDone addr others).Returns std s.1)
    (htidy : (HandlerOp.copyDone addr others).Tidy std s.1) (hfits : Fits std s (.copyDone addr others)) :
    Coherent (((HandlerOp.copyDone addr others).step std s.1).db,
      (HandlerOp.copyDone addr others).rowsAfter std s) := by
  have hrun : (HandlerOp.copyDone addr others).step std s.1 = (onCopyDone std others addr () s.1).2 ∧
      (onCopyDone std others addr () s.1).1 ≠ .error .blocked := by
    unfold HandlerOp.Returns HandlerOp.outcome HandlerOp.run at hreturns
    unfold HandlerOp.step HandlerOp.run
    dsimp only at hreturns ⊢
    rw [HandlerOp.discarded_run] at hreturns ⊢
    refine ⟨rfl, fun hblocked => hreturns ?_⟩
    rw [hblocked]
    rfl
  obtain ⟨hstep, hreturns⟩ := hrun
  rw [hstep, HandlerOp.rowsAfter]
  unfold onCopyDone at hreturns ⊢
  rw [bind_ok removeCopySession_run] at hreturns ⊢
  cases hsession : s.1.copySessions[addr]? with
  | none => exact h.coherent
  | some session =>
    obtain ⟨hT, hown⟩ := hfits session hsession
    have hcalm := htidy session hsession
    obtain ⟨m, name, hm, hwatermark, hwrote⟩ := @wrote_insertCopyRows std s others session h hT
    have hsteady : Follows Database.steady (insertCopyRows std others session) :=
      Database.follows_insertCopyRows Database.serves_steady
    have hst := Database.txns_of_steady hsteady s.1.db
    rw [hsession] at hreturns
    dsimp only at hreturns ⊢
    rw [hm]
    rw [bind_run, attempt_onDb] at hreturns ⊢
    unfold finishCopyTransaction at hreturns ⊢
    unfold Calm at hcalm
    unfold Wrote at hwrote
    unfold SharedRows.copied
    dsimp only at hreturns ⊢
    generalize insertCopyRows std others session () s.1.db = outcome at hst hcalm hreturns hwrote hown ⊢
    obtain ⟨(error | blocked | message) | n, db⟩ := outcome
    · have htxns : db.txns = s.1.db.txns := hst.resolve_left (by simp)
      rcases hwrote with ⟨⟨⟩⟩ | ⟨e, l, ⟨⟩, hcoherent⟩ | ⟨a, ⟨⟩, -⟩
      cases hauto : session.autoCommit with
      | true => exact hcoherent.rolledBack h.coherent.writers (htxns.symm ▸ hT)
      | false =>
        rw [hauto] at hown
        cases hown
    · exact absurd rfl hreturns
    · cases hauto : session.autoCommit with
      | true => exact absurd rfl (hcalm hauto message)
      | false =>
        rw [hauto] at hown
        cases hown
    · have htxns : db.txns = s.1.db.txns := hst.resolve_left (by simp)
      rcases hwrote with ⟨⟨⟩⟩ | ⟨e, l, ⟨⟩, -⟩ | ⟨a, ⟨⟩, hcoherent⟩
      cases hauto : session.autoCommit with
      | true =>
        rw [hauto] at hown
        exact hcoherent.commitTransaction ⟨htxns.symm ▸ hT, hwatermark.trans_le hown⟩
      | false => exact hcoherent

theorem copyFail {message : String} (h : Served s) : Coherent (((HandlerOp.copyFail addr message).step std s.1).db,
    (HandlerOp.copyFail addr message).rowsAfter std s) := by
  rw [HandlerOp.rowsAfter]
  unfold HandlerOp.step HandlerOp.run
  dsimp only
  unfold onCopyFail
  rw [bind_ok removeCopySession_run]
  cases hsession : s.1.copySessions[addr]? with
  | none => exact h.coherent
  | some session =>
    unfold finishCopyTransaction SharedRows.copied
    dsimp only
    cases hauto : session.autoCommit with
    | true =>
      have hown : s.1.owned (.copy addr) = some session.transaction := by
        rw [owned, hsession, Option.filter_some, if_pos hauto]
        rfl
      exact h.coherent.rollbackTransaction ((h.sound.live _).2 ⟨_, hown⟩)
    | false => exact h.coherent

/-! ### The background task, and restarts -/

theorem vacuum (h : Served s) : Coherent ((HandlerOp.vacuum.step std s.1).db, s.2) := by
  have hvacuumed := h.coherent.autoVacuum
  have hfaults : ∀ (name : String) t, s.1.db.autoVacuum.tables[name]? = some t →
      t.pageStore.readFault = none ∧ t.pageStore.writeFault = none := fun name t ht =>
    ⟨(hvacuumed.tables name t ht).good.readable, (hvacuumed.tables name t ht).good.writable⟩
  have hflushed : Coherent (s.1.db.autoVacuum.flushed, s.2) :=
    hvacuumed.mapped hvacuumed.wf (fun name t ht => ((hvacuumed.tables name t ht).flushAllPages).2) (fun _ => id)
      hvacuumed.writers hvacuumed.recent
  have hdb : (HandlerOp.vacuum.step std s.1).db = s.1.db.autoVacuum.flushed := by
    unfold HandlerOp.step HandlerOp.run vacuumTask
    dsimp only
    rw [modify_bind, bind_run, attempt_onDb, Database.saveSnapshot_run hfaults]
    rfl
  rw [hdb]
  exact hflushed

theorem message (h : Served s) (htidy : op.Tidy std s.1) (hreturns : op.Returns std s.1) (hfits : Fits std s op) :
    Coherent ((op.step std s.1).db, op.rowsAfter std s) := by
  cases op with
  | statement addr stmt =>
    cases stmt with
    | createTable stmt => exact h.createTable hreturns htidy
    | dropTable ifExists names => exact h.dropTable
    | startTransaction => exact h.startTransaction
    | commit => exact h.commit hfits
    | rollback savepoint => exact h.rollback
    | dml plan => exact h.dml hreturns hfits
    | rowFree body => exact h.rowFree hreturns hfits
    | copyFromStdin table requested options => exact h.copyFromStdin
    | refused error => exact h.coherent
  | copyData addr data => exact h.copyData
  | copyDone addr others => exact h.copyDone hreturns htidy hfits
  | copyFail addr message => exact h.copyFail
  | vacuum => exact h.vacuum

theorem restart {config : Config} (h : Served s) (ho : SessionOp.Allowed (s.1.db, s.2) (.restart config)) :
    Served (step std s (.restart config)) := by
  have hrestarted := h.coherent.restart ho
  have hfaults : ∀ (name : String) t, s.1.db.tables[name]? = some t →
      t.pageStore.readFault = none ∧ t.pageStore.writeFault = none := fun name t ht =>
    ⟨(h.coherent.tables name t ht).good.readable, (h.coherent.tables name t ht).good.writable⟩
  rw [SessionOp.step, Database.saveSnapshot_run hfaults] at hrestarted
  rw [ServerOp.step, Database.saveSnapshot_run hfaults]
  exact ⟨hrestarted, sound_idle hrestarted.wf rfl⟩

/-- **A step** of an allowed history. -/
theorem step {op : ServerOp} (h : Served s) (ho : Allowed std s op) : Served (op.step std s) := by
  cases op with
  | message op =>
    obtain ⟨htidy, hreturns, hfits⟩ := ho
    exact ⟨h.message htidy hreturns hfits, HandlerOp.sound_step h.sound htidy hreturns⟩
  | restart config => exact h.restart ho

end Served

open HandlerOp (tableT)

end ServerOp

end AntDb
