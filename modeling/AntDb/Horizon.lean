/-
  The horizon of the vacuum.

  Pruning drops the versions marked below `smallest_active_transaction_id`.  A mark below the
  horizon is one of an ended transaction, and the version stays hidden as long as that
  transaction counts as committed; it does not if the watermark has fallen below it.
-/
import AntDb.RowStore

namespace AntDb.RowStore

open LastMatch Runs

variable {s s' : RowStore} {r rowId : RowID} {id T V C d b : TransactionID} {op : RowOp} {t : TxnOp}
  {o : StoreOp} {ops : List StoreOp} {v : InternalRow}

/-- The version of the row that `V` sees. -/
def versionOf (s : RowStore) (V : TransactionID) (r : RowID) : Option InternalRow :=
  s.rows[r]?.bind (·.getVersionedRow (s.txns.txn V))

theorem versionOf_eq : s.versionOf V r = findLast (·.isVisible (s.txns.txn V)) (s.versions r) := by
  rw [versionOf, versions]
  cases s.rows[r]? <;> rfl

/-- The store with one row pruned at the horizon. -/
def prunedRow (s : RowStore) (r : RowID) : RowStore :=
  { s with rows := s.rows.modify r (·.prune s.txns.smallest) }

theorem versions_prunedRow : (s.prunedRow r).versions r =
    (s.versions r).filter (·.transactionHeader.survives s.txns.smallest) := by
  rw [versions, prunedRow, BTreeMap.get_modify, if_pos rfl, versions]
  cases s.rows[r]? <;> rfl

/-! ## Marks that have been committed -/

/-- Every ended transaction that marked a version of the row, other than one of its own, has an
    id of at most `b`. -/
def MarksBelow (s : RowStore) (r : RowID) (b : TransactionID) : Prop :=
  ∀ v ∈ s.versions r, ∀ d ∈ v.deletedBy, d ≠ v.createdBy → d ∉ s.txns.active → d ≤ b

/-- Whoever commits has a larger id than those whose marks on the row are committed. -/
def MarksInOrder (r : RowID) (s : RowStore) : StoreOp → Prop
  | .txn (.commitTransaction C) => s.MarksBelow r C
  | _ => True

instance : Decidable (s.MarksBelow r b) :=
  inferInstanceAs (Decidable (∀ v ∈ s.versions r, ∀ d ∈ v.deletedBy, d ≠ v.createdBy →
    d ∉ s.txns.active → d ≤ b))

instance (r : RowID) (s : RowStore) : (o : StoreOp) → Decidable (MarksInOrder r s o)
  | .txn (.commitTransaction C) => inferInstanceAs (Decidable (s.MarksBelow r C))
  | .txn .createTransaction | .txn (.rollbackTransaction _) | .row _ _ _ => isTrue trivial

/-- Committed in order, the marks stay below the watermark. -/
theorem MarksBelow.step (hs : s.Inv) (h : s.MarksBelow r s.txns.last) (ho : s.Enabled o)
    (horder : MarksInOrder r s o) : (s.step o).MarksBelow r (s.step o).txns.last := by
  intro v hv d hd hne hact
  cases o with
  | row id rowId op =>
    rcases mem_versions_row hv with hv | ⟨-, hv⟩ | ⟨-, u, -, -, rfl⟩
    · exact h v hv d hd hne hact
    · rw [InternalRow.deletedBy, hv] at hd; cases hd
    · obtain rfl := Option.some.inj hd
      exact absurd (enabled_active ho) hact
  | txn t =>
    cases t with
    | createTransaction => exact h v hv d hd hne fun hd => hact (TxnState.mem_active_create.2 (Or.inr hd))
    | commitTransaction C =>
      by_cases hC : d = C
      · exact le_of_eq hC
      · exact horder v hv d hd hne fun hd => hact (TxnState.mem_active_commit.2 ⟨hC, hd⟩)
    | rollbackTransaction T =>
      rw [versions_rollback] at hv
      obtain ⟨u, hu, rfl⟩ := List.mem_map.1 hv
      rw [InternalRow.rollback_createdBy] at hne
      rw [InternalRow.rollback_deletedBy] at hd
      by_cases hT : u.createdBy = T
      · -- what `T` created has its own mark
        have hown : u.deletedBy.or (some T) = some d := (if_pos hT).symm.trans hd
        rcases hs.own r u hu (hT ▸ ho) with hnone | hself
        · rw [hnone] at hown
          exact absurd ((Option.some.inj hown).symm.trans hT.symm) hne
        · rw [hself] at hown
          exact absurd (Option.some.inj hown).symm hne
      · have hmark : (if u.deletedBy = some T then none else u.deletedBy) = some d :=
          (if_neg hT).symm.trans hd
        split_ifs at hmark with hdT
        refine h u hu d hmark hne fun hd => hact (TxnState.mem_active_rollback.2 ⟨?_, hd⟩)
        rintro rfl
        exact hdT hmark

theorem Run.marksBelow (h : Run ops) (horder : Each step (MarksInOrder r) new ops) :
    (after ops).MarksBelow r (after ops).txns.last := by
  have hnew : new.MarksBelow r new.txns.last := fun v hv => by simp [versions, new] at hv
  have hall : (after ops).Inv ∧ (after ops).MarksBelow r (after ops).txns.last :=
    (h.and horder).invariant (I := fun s => s.Inv ∧ s.MarksBelow r s.txns.last) ⟨inv_new, hnew⟩
      fun s o hs ho => ⟨hs.1.step ho.1, hs.2.step hs.1 ho.1 ho.2⟩
  exact hall.2

/-! ## Versions nobody sees again -/

/-- The version was marked by a transaction that has ended, and no transaction in progress can
    take the watermark below its mark. -/
structure Lost (s : TxnState) (v : InternalRow) : Prop where
  created_ended : v.createdBy ∉ s.active
  marked : ∃ d, v.deletedBy = some d ∧ s.Ended d ∧ (d = v.createdBy ∨ d ≤ s.last) ∧ ∀ a ∈ s.active, d < a
  created_lt : v.createdBy < s.nextTransactionId

namespace Lost

variable {s : TxnState}

theorem unseen (h : Lost s v) (hV : V ∈ s.active) : v.isVisible (s.txn V) = false := by
  obtain ⟨d, hd, hended, hbelow, -⟩ := h.marked
  have hc : v.createdBy ≠ V := fun hc => h.created_ended (hc ▸ hV)
  rw [Bool.eq_false_iff, ne_eq, InternalRow.isVisible_other hc]
  rintro ⟨hreads, hhides⟩
  refine hhides d hd (Or.inr (Or.inr ⟨?_, hended.2⟩))
  rcases hbelow with rfl | hle
  · exact hreads.2.1
  · exact hle

/-- Begins and commits leave a lost version lost. -/
theorem step (h : Lost s v) (ho : s.Enabled t) (hroll : ∀ id, t ≠ .rollbackTransaction id) :
    Lost (s.step t) v := by
  obtain ⟨d, hd, hended, hbelow, hlt⟩ := h.marked
  cases t with
  | createTransaction =>
    refine ⟨fun hc => ?_, ⟨d, hd, hended.step _, hbelow, fun a ha => ?_⟩, Nat.lt_succ_of_lt h.created_lt⟩
    · rcases TxnState.mem_active_create.1 hc with he | hc
      · exact ne_of_lt h.created_lt he
      · exact h.created_ended hc
    · rcases TxnState.mem_active_create.1 ha with rfl | ha
      · exact hended.1
      · exact hlt a ha
  | commitTransaction C =>
    refine ⟨fun hc => h.created_ended (TxnState.mem_active_commit.1 hc).2,
      ⟨d, hd, hended.step _, Or.inr (le_of_lt (hlt C ho)),
        fun a ha => hlt a (TxnState.mem_active_commit.1 ha).2⟩, h.created_lt⟩
  | rollbackTransaction T => exact absurd rfl (hroll T)

/-- A rollback does not touch it. -/
theorem rollback (h : Lost s v) (hT : T ∈ s.active) :
    v.rollback (s.txn T) = v ∧ Lost (s.rollbackTransaction T) v := by
  obtain ⟨d, hd, hended, hbelow, hlt⟩ := h.marked
  constructor
  · refine InternalRow.rollback_eq (fun hc => h.created_ended (hc ▸ hT)) fun hdT => ?_
    have hdT : v.deletedBy = some T := hdT
    obtain rfl := Option.some.inj (hd.symm.trans hdT)
    exact hended.2 hT
  · exact ⟨fun hc => h.created_ended (TxnState.mem_active_rollback.1 hc).2,
      ⟨d, hd, hended.step (.rollbackTransaction T), hbelow,
        fun a ha => hlt a (TxnState.mem_active_rollback.1 ha).2⟩, h.created_lt⟩

end Lost

/-- What the vacuum drops is lost. -/
theorem Inv.lost (hs : s.Inv) (h : s.MarksBelow r s.txns.last) (hv : v ∈ s.versions r)
    (hdropped : v.transactionHeader.survives s.txns.smallest = false) : Lost s.txns v := by
  unfold TransactionHeader.survives at hdropped
  cases hd : v.transactionHeader.deletedBy with
  | none => rw [hd] at hdropped; cases hdropped
  | some d =>
    rw [hd] at hdropped
    have hlt : d < s.txns.smallest := by simpa using hdropped
    have hended : s.txns.Ended d :=
      ⟨hs.deleted_lt r v hv d hd, fun hact => absurd (hs.wf.smallest_le d hact) (not_le_of_gt hlt)⟩
    refine ⟨fun hc => ?_, ⟨d, hd, hended, ?_, fun a ha => lt_of_lt_of_le hlt (hs.wf.smallest_le a ha)⟩,
      hs.created_lt r v hv⟩
    · rcases hs.own r v hv hc with hnone | hself
      · exact absurd (hd.symm.trans hnone) (by simp)
      · exact hended.2 ((Option.some.inj (hd.symm.trans hself)) ▸ hc)
    · by_cases hne : d = v.createdBy
      · exact Or.inl hne
      · exact Or.inr (h v hv d hd hne hended.2)

/-! ## Going on without them -/

/-- `s'` is `s` without versions of the row `r` that are lost, and these are the ones below the
    horizon `b`. -/
structure Thinned (r : RowID) (b : TransactionID) (s s' : RowStore) : Prop where
  txns : s'.txns = s.txns
  versions : s'.versions r = (s.versions r).filter (·.transactionHeader.survives b)
  lost : ∀ v ∈ s.versions r, v.transactionHeader.survives b = false → Lost s.txns v
  horizon : ∀ a ∈ s.txns.active, b ≤ a
  horizon_lt : b < s.txns.nextTransactionId

/-- The transactions in progress see the same. -/
theorem Thinned.versionOf (h : Thinned r b s s') (hV : V ∈ s.txns.active) :
    s'.versionOf V r = s.versionOf V r := by
  rw [versionOf_eq, versionOf_eq, h.versions, h.txns]
  refine findLast_filter fun v hv hvisible => ?_
  by_contra hdropped
  rw [(h.lost v hv (Bool.eq_false_iff.2 hdropped)).unseen hV] at hvisible
  cases hvisible

/-- A rollback keeps every version on its side of the horizon. -/
theorem survives_rollback {txn : Transaction} (hT : b ≤ txn.transactionId)
    (hlost : v.transactionHeader.survives b = false → v.rollback txn = v) :
    (v.rollback txn).transactionHeader.survives b = v.transactionHeader.survives b := by
  cases hv : v.transactionHeader.survives b with
  | false => rw [hlost hv, hv]
  | true =>
    have hd : (v.rollback txn).transactionHeader.deletedBy =
        if v.createdBy = txn.transactionId then v.deletedBy.or (some txn.transactionId)
        else if v.deletedBy = some txn.transactionId then none else v.deletedBy :=
      InternalRow.rollback_deletedBy
    unfold TransactionHeader.survives at hv ⊢
    rw [hd]
    cases hmark : v.deletedBy with
    | none => split_ifs <;> simp_all
    | some d =>
      have hmark : v.transactionHeader.deletedBy = some d := hmark
      rw [hmark] at hv
      split_ifs <;> simp_all

/-- Begins, commits and rollbacks take both stores along. -/
theorem Thinned.stepped (h : Thinned r b s s') (ho : s.txns.Enabled t) :
    Thinned r b (s.step (.txn t)) (s'.step (.txn t)) := by
  have htxns : (s'.step (.txn t)).txns = (s.step (.txn t)).txns := by
    rw [step_txns, step_txns, h.txns]
  by_cases hroll : ∃ T, t = .rollbackTransaction T
  · obtain ⟨T, rfl⟩ := hroll
    have hT : T ∈ s.txns.active := ho
    have hlost : ∀ v ∈ s.versions r, v.transactionHeader.survives b = false →
        v.rollback (s.txns.txn T) = v := fun v hv hd => ((h.lost v hv hd).rollback hT).1
    have hsame : ∀ v ∈ s.versions r, (v.rollback (s.txns.txn T)).transactionHeader.survives b =
        v.transactionHeader.survives b := fun v hv => survives_rollback (h.horizon T hT) (hlost v hv)
    refine ⟨htxns, ?_, fun v hv hd => ?_, fun a ha => ?_, h.horizon_lt⟩
    · rw [versions_rollback, versions_rollback, h.versions, h.txns, List.filter_map]
      exact congrArg _ (List.filter_congr fun v hv => (hsame v hv).symm)
    · rw [versions_rollback] at hv
      obtain ⟨u, hu, rfl⟩ := List.mem_map.1 hv
      rw [hsame u hu] at hd
      rw [hlost u hu hd]
      exact ((h.lost u hu hd).rollback hT).2
    · exact h.horizon a (TxnState.mem_active_rollback.1 ha).2
  · have hroll : ∀ T, t ≠ .rollbackTransaction T := fun T hT => hroll ⟨T, hT⟩
    refine ⟨htxns, ?_, fun v hv hd => ?_, fun a ha => ?_, ?_⟩
    · rw [versions_txn hroll, versions_txn hroll, h.versions]
    · rw [versions_txn hroll] at hv
      rw [step_txns]
      exact (h.lost v hv hd).step ho hroll
    · rw [step_txns] at ha
      cases t with
      | createTransaction =>
        rcases TxnState.mem_active_create.1 ha with rfl | ha
        · exact le_of_lt h.horizon_lt
        · exact h.horizon a ha
      | commitTransaction C => exact h.horizon a (TxnState.mem_active_commit.1 ha).2
      | rollbackTransaction T => exact absurd rfl (hroll T)
    · rw [step_txns]
      cases t with
      | createTransaction => exact Nat.lt_succ_of_lt h.horizon_lt
      | commitTransaction C => exact h.horizon_lt
      | rollbackTransaction T => exact absurd rfl (hroll T)

theorem Thinned.ran {q : List TxnOp} (h : Thinned r b s s') (hq : Each step Enabled s (q.map .txn)) :
    Thinned r b (exec step s (q.map .txn)) (exec step s' (q.map .txn)) := by
  induction q generalizing s s' with
  | nil => exact h
  | cons t q ih => exact ih (h.stepped hq.1) hq.2

/-- Pruning thins a row out. -/
theorem Inv.thinned (hs : s.Inv) (h : s.MarksBelow r s.txns.last) :
    Thinned r s.txns.smallest s (s.prunedRow r) where
  txns := rfl
  versions := versions_prunedRow
  lost _ hv hd := hs.lost h hv hd
  horizon := hs.wf.smallest_le
  horizon_lt := hs.wf.smallest_lt

/-- **The horizon is safe** where marks are committed in the order of the ids: it is below every
    transaction in progress, and pruning a row at it changes for no transaction what it sees of
    the row, then or after further begins, commits and rollbacks. -/
theorem horizon_safe (h : Run ops) (horder : Each step (MarksInOrder r) new ops) :
    (∀ a ∈ (after ops).txns.active, (after ops).txns.smallest ≤ a) ∧
    ∀ q : List TxnOp, Run (ops ++ q.map .txn) → ∀ V ∈ (after (ops ++ q.map .txn)).txns.active,
      (exec step ((after ops).prunedRow r) (q.map .txn)).versionOf V r =
        (after (ops ++ q.map .txn)).versionOf V r := by
  refine ⟨h.inv.wf.smallest_le, fun q hq V hV => ?_⟩
  have hrun : after (ops ++ q.map .txn) = exec step (after ops) (q.map .txn) := exec_append
  have hthinned := (h.inv.thinned (h.marksBelow horder)).ran (each_append.1 hq).2
  rw [hrun] at hV ⊢
  exact hthinned.versionOf hV

/-- Transaction 2 updates the row and commits; transaction 3 still reads. -/
theorem horizon_safe_update :
    let ops : List StoreOp := [.txn .createTransaction, .row 1 0 (.new ∅),
      .txn (.commitTransaction 1), .txn .createTransaction, .txn .createTransaction,
      .row 2 0 (.update ∅), .txn (.commitTransaction 2)]
    (∀ a ∈ (after ops).txns.active, (after ops).txns.smallest ≤ a) ∧
    ∀ q : List TxnOp, Run (ops ++ q.map .txn) → ∀ V ∈ (after (ops ++ q.map .txn)).txns.active,
      (exec step ((after ops).prunedRow 0) (q.map .txn)).versionOf V 0 =
        (after (ops ++ q.map .txn)).versionOf V 0 :=
  horizon_safe (by decide) (by decide)

/-- Transaction 3 removes the row and commits before transaction 2 does; with transaction 4 in
    progress the horizon is past the mark of 3, and when 4 rolls back the watermark is below it.
    Transaction 5 sees the row, unless the vacuum has come in between. -/
theorem horizon_moves_back :
    let ops : List StoreOp := [.txn .createTransaction, .row 1 0 (.new ∅),
      .txn (.commitTransaction 1), .txn .createTransaction, .txn .createTransaction,
      .txn .createTransaction, .row 3 0 .remove, .txn (.commitTransaction 3),
      .txn (.commitTransaction 2)]
    let q : List TxnOp := [.rollbackTransaction 4, .createTransaction]
    Run (ops ++ q.map .txn) ∧ 5 ∈ (after (ops ++ q.map .txn)).txns.active ∧
      (exec step ((after ops).prunedRow 0) (q.map .txn)).versionOf 5 0 ≠
        (after (ops ++ q.map .txn)).versionOf 5 0 := by
  intro ops q
  refine ⟨by decide, by decide, fun h => ?_⟩
  have hmin : (after ops).txns.active.min? = some 4 := by
    have hall : ∀ a ∈ (after ops).txns.active.toList, (compare 4 a).isLE = true := by decide +kernel
    exact Std.ExtTreeSet.min?_eq_some_iff_mem_and_forall.2
      ⟨by decide +kernel, fun a ha => hall a (Std.ExtTreeSet.mem_toList.2 ha)⟩
  have hsmallest : (after ops).txns.smallest = 4 := by
    show (if (after ops).txns.active.isEmpty then 2 else (after ops).txns.active.min?.getD 2) = 4
    rw [hmin]
    decide +kernel
  rw [prunedRow, hsmallest] at h
  exact absurd h (by decide +kernel)

end AntDb.RowStore
