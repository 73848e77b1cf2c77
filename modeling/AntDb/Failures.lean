/-
  What a message that fails leaves behind for the transactions of others: nothing they can read.

  Failing in a transaction takes the whole transaction back, and what it has written with it; nobody
  reads with that transaction afterwards.
-/
import AntDb.Requests

namespace AntDb

open Call Runs

namespace ServerOp

open PgWireHandler

open SessionOp (Coherent Wrote Shown)

open HandlerOp (tableT)

variable {std : StdParsing} {s : PgWireHandler × SharedRows} {addr : SocketAddr} {α : Type} {m : SharedRows}
  {op : HandlerOp} {name : String}

/-- The map that readers who have not written what `T` has see. -/
theorem shown_of_rollback {db : Database} {T : TransactionID} (h : Shown (db, m.rollback T))
    (hT : ¬ db.txns.Reader T) : Shown (db, m) := by
  intro V hV name hname
  obtain ⟨found, hrun, hnodup, hfound⟩ := h V hV name hname
  refine ⟨found, hrun, hnodup, fun r data => (hfound r data).trans (Eq.congr_left ?_)⟩
  exact Overlays.seen_rollback fun hVT => hT (hVT ▸ hV)

theorem not_reader_rollback {db : Database} {T : TransactionID} (hwf : db.txns.Wf) (hT : T ∈ db.txns.active) :
    ¬ (db.rollbackTransaction T).txns.Reader T := by
  rintro (hactive | hnext)
  · exact (TxnState.mem_active_rollback.1 hactive).1 rfl
  · exact (hwf.active_lt T hT).ne hnext

/-- The message leaves the map alone, or takes a transaction out of it that nobody reads with any more. -/
def TakenBack (s : PgWireHandler × SharedRows) (db : Database) (m : SharedRows) : Prop :=
  m = s.2 ∨ ∃ T, m = s.2.rollback T ∧ ¬ db.txns.Reader T

theorem TakenBack.shown {db : Database} (h : TakenBack s db m) (hshown : Shown (db, m)) : Shown (db, s.2) := by
  rcases h with rfl | ⟨T, rfl, hT⟩
  · exact hshown
  · exact shown_of_rollback hshown hT

namespace Served

/-- A statement of a connection that fails takes its transaction back. -/
theorem executeTransactionalAt_failed {action : TransactionID → DbM α} {e : Fault} (h : Served s)
    (hsteady : ∀ id, Follows Database.steady (action id))
    (hcalm : Calm (action (s.1.transactionAt addr).1) (s.1.transactionAt addr).2)
    (hfail : (PgWireHandler.executeTransactionalAt addr action () s.1).1 = .error e) (he : e ≠ .blocked) :
    TakenBack s (PgWireHandler.executeTransactionalAt addr action () s.1).2.db (.settled s addr
      (action (s.1.transactionAt addr).1 () (s.1.transactionAt addr).2).1.isOk m) := by
  obtain ⟨hcoherent, hT⟩ := h.transactionAt addr
  have htxns := Database.txns_of_steady (hsteady (s.1.transactionAt addr).1) (s.1.transactionAt addr).2
  have hwf : (s.1.transactionAt addr).2.txns.Wf := hcoherent.wf
  unfold Calm at hcalm
  unfold SharedRows.settled
  cases hid : s.1.activeTransactions[addr]? with
  | some id =>
    rw [executeTransactionalAt_explicit hid] at hfail ⊢
    rw [transactionAt_explicit hid] at *
    dsimp only at *
    generalize action id () s.1.db = outcome at *
    obtain ⟨(error | blocked | message) | a, db⟩ := outcome
    · have htxns : db.txns = s.1.db.txns := htxns.resolve_left nofun
      exact Or.inr ⟨id, rfl, not_reader_rollback (htxns.symm ▸ hwf) (htxns.symm ▸ hT)⟩
    · exact absurd (Except.error.inj hfail).symm he
    · exact absurd rfl (hcalm message)
    · cases hfail
  | none =>
    rw [executeTransactionalAt_own hid] at hfail ⊢
    rw [transactionAt_own hid] at *
    dsimp only at *
    generalize action s.1.db.txns.nextTransactionId () s.1.db.begun = outcome at *
    obtain ⟨(error | blocked | message) | a, db⟩ := outcome
    · have htxns : db.txns = s.1.db.begun.txns := htxns.resolve_left nofun
      exact Or.inr ⟨_, rfl, not_reader_rollback (htxns.symm ▸ hwf) (htxns.symm ▸ hT)⟩
    · exact absurd (Except.error.inj hfail).symm he
    · exact absurd rfl (hcalm message)
    · cases hfail

end Served

/-- The pool hands on what a task answers, and makes a panic an error. -/
theorem pooled_failed {task : HandlerM String} {f : String → Response} {h : PgWireHandler} {e : Fault}
    (hfail : ((runOnBlockingPool task >>= fun tag => pure (f tag) : HandlerM Response) () h).1 = .error e)
    (he : e ≠ .blocked) : ∃ e', (task () h).1 = .error e' ∧ e' ≠ .blocked := by
  rw [bind_run] at hfail
  unfold runOnBlockingPool handling at hfail
  generalize task () h = outcome at hfail ⊢
  obtain ⟨(error | blocked | message) | tag, h'⟩ := outcome
  · exact ⟨_, rfl, nofun⟩
  · exact absurd (Except.error.inj hfail).symm he
  · exact ⟨_, rfl, nofun⟩
  · cases hfail

theorem discarded_failed {x : HandlerM α} {h : PgWireHandler} {e : Fault}
    (hfail : ((do let _ ← x : HandlerM Unit) () h).1 = .error e) : (x () h).1 = .error e := by
  rw [HandlerOp.discarded_run] at hfail
  generalize x () h = outcome at hfail ⊢
  obtain ⟨e' | a, h'⟩ := outcome
  · exact congrArg Except.error (Except.error.inj hfail)
  · cases hfail

/-- The transaction of a connection can be ended if there is one. -/
theorem ended_failed {message : String} {success : Bool} {db : Database} {response : Response} {e : Fault}
    (hfail : (((removeConnectionTransactionAt addr message >>= (endTransaction · success)) >>= fun _ =>
      pure response : HandlerM Response) () s.1).1 = .error e) : TakenBack s db (.ended s addr success) := by
  have hrun := @removeConnectionTransactionAt_run s.1 addr message
  unfold SharedRows.ended
  cases hid : s.1.activeTransactions[addr]? with
  | none => exact Or.inl rfl
  | some T =>
    rw [hid] at hrun
    rw [bind_run, bind_ok hrun] at hfail
    cases hfail

namespace Served

theorem createTable_failed {stmt : CreateTable} {e : Fault} (h : Served s)
    (htidy : (HandlerOp.statement addr (.createTable stmt)).Tidy std s.1) (he : e ≠ .blocked)
    (hfail : (executeSimpleStatement addr (.createTable stmt) () s.1).1 = .error e) :
    TakenBack s (executeSimpleStatement addr (.createTable stmt) () s.1).2.db
      ((HandlerOp.statement addr (.createTable stmt)).rowsAfter std s) := by
  obtain ⟨hcoherent, hT⟩ := h.transactionAt addr
  have hwf : (s.1.transactionAt addr).2.txns.Wf := hcoherent.wf
  rw [HandlerOp.rowsAfter]
  cases hname : parseTableName stmt.name with
  | error e => exact Or.inl rfl
  | ok tableName =>
    dsimp only
    cases hid : s.1.activeTransactions[addr]? with
    | some id => exact Or.inl rfl
    | none =>
      have hsteady : Follows Database.steady (Database.executeCreateTable tableName stmt (s.1.transactionAt addr).1) :=
        Database.follows_executeCreateTable Database.defines_steady
      have hst := Database.txns_of_steady hsteady (s.1.transactionAt addr).2
      have hcalm := htidy tableName hname hid
      unfold Calm at hcalm
      rw [createTable_own hname hid] at hfail ⊢
      unfold SharedRows.settled
      rw [transactionAt_own hid] at hwf hT hst ⊢
      rcases hrun : Database.executeCreateTable tableName stmt s.1.db.txns.nextTransactionId () s.1.db.begun with
        ⟨(error | blocked | message) | a, db⟩
      · rw [hrun] at hst
        have htxns : db.txns = s.1.db.begun.txns := hst.resolve_left (by simp)
        exact Or.inr ⟨_, rfl, not_reader_rollback (htxns.symm ▸ hwf) (htxns.symm ▸ hT)⟩
      · rw [hrun] at hfail
        exact absurd (Except.error.inj hfail).symm he
      · rw [hrun] at hcalm
        exact absurd rfl (hcalm message)
      · rw [hrun] at hfail
        cases hfail

theorem dropTable_failed {ifExists : Bool} {names : List ObjectName} {e : Fault} {db : Database}
    (hfail : (executeSimpleStatement addr (.dropTable ifExists names) () s.1).1 = .error e) :
    TakenBack s db ((HandlerOp.statement addr (.dropTable ifExists names)).rowsAfter std s) := by
  rcases names with _ | ⟨name, _ | ⟨name', names⟩⟩
  · exact Or.inl rfl
  · rw [dropTable_run] at hfail
    rw [HandlerOp.rowsAfter]
    cases parseTableName name with
    | error e => exact Or.inl rfl
    | ok tableName =>
      dsimp only
      generalize Database.executeDropTable ifExists [name] () s.1.db = outcome at hfail ⊢
      obtain ⟨e | a, db⟩ := outcome
      · exact Or.inl rfl
      · cases hfail
  · exact Or.inl rfl

theorem copyDone_failed {others : ℕ → ForeignTables} {e : Fault} (h : Served s)
    (htidy : (HandlerOp.copyDone addr others).Tidy std s.1) (hfits : Fits std s (.copyDone addr others))
    (hfail : (onCopyDone std others addr () s.1).1 = .error e) (he : e ≠ .blocked) :
    TakenBack s (onCopyDone std others addr () s.1).2.db ((HandlerOp.copyDone addr others).rowsAfter std s) := by
  rw [HandlerOp.rowsAfter]
  unfold onCopyDone at hfail ⊢
  rw [bind_ok removeCopySession_run] at hfail ⊢
  cases hsession : s.1.copySessions[addr]? with
  | none => exact Or.inl rfl
  | some session =>
    obtain ⟨hT, hown⟩ := hfits session hsession
    have hcalm := htidy session hsession
    obtain ⟨m, -, hm, -⟩ := @wrote_insertCopyRows std s others session h hT
    have hsteady : Follows Database.steady (insertCopyRows std others session) :=
      Database.follows_insertCopyRows Database.serves_steady
    have hst := Database.txns_of_steady hsteady s.1.db
    have hwf : s.1.db.txns.Wf := h.coherent.wf
    rw [hsession] at hfail
    dsimp only at hfail ⊢
    rw [hm]
    rw [bind_run, attempt_onDb] at hfail ⊢
    unfold finishCopyTransaction at hfail ⊢
    unfold Calm at hcalm
    unfold SharedRows.copied
    dsimp only at hfail ⊢
    generalize insertCopyRows std others session () s.1.db = outcome at *
    cases hauto : session.autoCommit with
    | true =>
      rw [hauto] at hfail
      obtain ⟨(error | blocked | message) | n, db⟩ := outcome
      · have htxns : db.txns = s.1.db.txns := hst.resolve_left (by simp)
        exact Or.inr ⟨_, rfl, not_reader_rollback (htxns.symm ▸ hwf) (htxns.symm ▸ hT)⟩
      · exact absurd (Except.error.inj hfail).symm he
      · exact absurd rfl (hcalm hauto message)
      · cases hfail
    | false =>
      rw [hauto] at hfail hown
      obtain ⟨error | n, db⟩ := outcome
      · cases hown
      · cases hfail

theorem copyFail_takenBack {message : String} (h : Served s) :
    TakenBack s (onCopyFail addr message () s.1).2.db ((HandlerOp.copyFail addr message).rowsAfter std s) := by
  rw [HandlerOp.rowsAfter]
  unfold onCopyFail
  rw [bind_ok removeCopySession_run]
  cases hsession : s.1.copySessions[addr]? with
  | none => exact Or.inl rfl
  | some session =>
    unfold finishCopyTransaction SharedRows.copied
    dsimp only
    cases hauto : session.autoCommit with
    | true =>
      have hown : s.1.owned (.copy addr) = some session.transaction := by
        rw [owned, hsession, Option.filter_some, if_pos hauto]
        rfl
      exact Or.inr ⟨_, rfl, not_reader_rollback h.coherent.wf ((h.sound.live _).2 ⟨_, hown⟩)⟩
    | false => exact Or.inl rfl

/-- **A failing message** takes at most its own transaction out of the map. -/
theorem failed {e : Fault} (h : Served s) (htidy : op.Tidy std s.1) (hfits : Fits std s op)
    (hfail : op.outcome std s.1 = .error e) (he : e ≠ .blocked) :
    TakenBack s (op.step std s.1).db (op.rowsAfter std s) := by
  cases op with
  | statement addr stmt =>
    have hrun : (executeSimpleStatement addr stmt () s.1).1 = .error e := discarded_failed hfail
    have hstep : (HandlerOp.statement addr stmt).step std s.1 = (executeSimpleStatement addr stmt () s.1).2 :=
      (@statement_run std s addr stmt).1
    rw [hstep]
    cases stmt with
    | createTable stmt => exact h.createTable_failed htidy he hrun
    | dropTable ifExists names => exact dropTable_failed hrun
    | startTransaction => exact Or.inl rfl
    | commit => exact ended_failed hrun
    | rollback savepoint =>
      cases savepoint with
      | true => exact Or.inl rfl
      | false => exact ended_failed hrun
    | dml plan =>
      obtain ⟨hcalm, -⟩ := hfits
      unfold executeSimpleStatement at hrun ⊢
      dsimp only at hrun ⊢
      obtain ⟨e', hfail', he'⟩ := pooled_failed hrun he
      rw [pooled_run.1, HandlerOp.rowsAfter]
      have hfailed := fun m => @executeTransactionalAt_failed s addr _ m (executeDml plan) e' h
        (fun _ => Database.steady_executeDml) hcalm hfail' he'
      cases hp : plan (s.1.transactionAt addr).2 (s.1.transactionAt addr).1 with
      | error e =>
        have hrefused : (executeDml plan (s.1.transactionAt addr).1 () (s.1.transactionAt addr).2).1.isOk = false := by
          unfold executeDml
          rw [get_bind, hp]
          rfl
        have hfailed := hfailed s.2
        rw [hrefused] at hfailed
        exact hfailed
      | ok p => exact hfailed _
    | rowFree body =>
      obtain ⟨hcalm, -⟩ := hfits
      unfold executeSimpleStatement at hrun ⊢
      dsimp only at hrun ⊢
      obtain ⟨e', hfail', he'⟩ := pooled_failed hrun he
      rw [pooled_run.1]
      exact h.executeTransactionalAt_failed (fun _ => Database.steady_rowFree) hcalm hfail' he'
    | copyFromStdin table requested options => exact Or.inl rfl
    | refused error => exact Or.inl rfl
  | copyData addr data => exact Or.inl rfl
  | copyDone addr others =>
    have hrun : (onCopyDone std others addr () s.1).1 = .error e := discarded_failed hfail
    have hstep : (HandlerOp.copyDone addr others).step std s.1 = (onCopyDone std others addr () s.1).2 := by
      unfold HandlerOp.step HandlerOp.run
      dsimp only
      rw [HandlerOp.discarded_run]
    rw [hstep]
    exact h.copyDone_failed htidy hfits hrun he
  | copyFail addr message => exact h.copyFail_takenBack
  | vacuum => exact Or.inl rfl

end Served

end ServerOp

end AntDb
