/-
  What a transaction reads between its begin and its end.

  The snapshot of a transaction is the one all transactions share, so a commit shows at once.
  The view of a row is stable for `V` as long as nobody who commits has left anything on the
  row, the commits that did write it come in the order of their ids, and nobody replaces a
  mark of `V`.
-/
import AntDb.Horizon
import AntDb.Interference

namespace AntDb.RowStore

open LastMatch Runs

variable {s s' : RowStore} {r rowId : RowID} {id T V C b : TransactionID} {op : RowOp} {t : TxnOp}
  {o : StoreOp} {ops p q : List StoreOp} {v : InternalRow}

/-! ## Creators that have committed -/

/-- Every ended transaction that created a version of the row, other than one it has taken back,
    has an id of at most `b`. -/
def CreatorsBelow (s : RowStore) (r : RowID) (b : TransactionID) : Prop :=
  ∀ v ∈ s.versions r, v.deletedBy ≠ some v.createdBy → v.createdBy ∉ s.txns.active → v.createdBy ≤ b

/-- Whoever commits has a larger id than those whose work on the row is committed. -/
def InOrder (r : RowID) (s : RowStore) : StoreOp → Prop
  | .txn (.commitTransaction C) => s.MarksBelow r C ∧ s.CreatorsBelow r C
  | _ => True

instance : Decidable (s.CreatorsBelow r b) :=
  inferInstanceAs (Decidable (∀ v ∈ s.versions r, v.deletedBy ≠ some v.createdBy →
    v.createdBy ∉ s.txns.active → v.createdBy ≤ b))

instance (r : RowID) (s : RowStore) : (o : StoreOp) → Decidable (InOrder r s o)
  | .txn (.commitTransaction C) =>
    inferInstanceAs (Decidable (s.MarksBelow r C ∧ s.CreatorsBelow r C))
  | .txn .createTransaction | .txn (.rollbackTransaction _) | .row _ _ _ => isTrue trivial

theorem InOrder.marksInOrder (h : InOrder r s o) : MarksInOrder r s o := by
  cases o with
  | row id rowId op => trivial
  | txn t =>
    cases t with
    | commitTransaction C => exact h.1
    | createTransaction => trivial
    | rollbackTransaction T => trivial

/-- The stamps of ended transactions on the row are below the watermark. -/
structure Orderly (r : RowID) (s : RowStore) : Prop where
  inv : s.Inv
  marks : s.MarksBelow r s.txns.last
  creators : s.CreatorsBelow r s.txns.last

/-- What `V` sees of an orderly row: its own versions that it has not removed, and the committed
    versions that nobody has removed for good. -/
theorem Orderly.visible_iff (h : Orderly r s) (hV : V ∈ s.txns.active) (hv : v ∈ s.versions r) :
    v.isVisible (s.txns.txn V) = true ↔ (v.createdBy = V ∧ v.deletedBy ≠ some V) ∨
      (v.createdBy ∉ s.txns.active ∧ v.deletedBy ≠ some v.createdBy ∧
        ∀ d, v.deletedBy = some d → d ≠ V ∧ d ∈ s.txns.active) := by
  by_cases hc : v.createdBy = V
  · rw [InternalRow.isVisible_own hc, or_iff_left fun h => h.1 (hc ▸ hV), and_iff_right hc]
    rfl
  · rw [InternalRow.isVisible_other hc, or_iff_right fun h => hc h.1]
    constructor
    · rintro ⟨⟨-, hle, hended⟩, hmarks⟩
      have hself : v.deletedBy ≠ some v.createdBy := fun hd =>
        hmarks _ hd (Or.inr (Or.inr ⟨hle, hended⟩))
      refine ⟨hended, hself, fun d hd => ⟨fun hdV => hmarks d hd (Or.inl hdV), ?_⟩⟩
      by_contra hact
      have hne : d ≠ v.createdBy := fun he => hself (he ▸ hd)
      exact hmarks d hd (Or.inr (Or.inr ⟨h.marks v hv d hd hne hact, hact⟩))
    · rintro ⟨hended, hself, hmarks⟩
      refine ⟨⟨hc, h.creators v hv hself hended, hended⟩, fun d hd hhides => ?_⟩
      obtain ⟨hdV, hact⟩ := hmarks d hd
      exact h.inv.wf.not_hides hact hdV.symm hhides

/-- What somebody sees has not been taken back. -/
theorem not_taken_back (hvisible : v.isVisible (s.txns.txn T) = true) :
    v.deletedBy ≠ some v.createdBy := by
  intro hd
  by_cases hc : v.createdBy = T
  · exact (InternalRow.isVisible_own hc).1 hvisible (hc ▸ hd)
  · obtain ⟨hreads, hmarks⟩ := (InternalRow.isVisible_other hc).1 hvisible
    exact hmarks _ hd (Or.inr (Or.inr hreads.2))

/-- What a transaction in progress sees was created by itself or by an ended transaction. -/
theorem created_of_visible (hvisible : v.isVisible (s.txns.txn T) = true) :
    v.createdBy = T ∨ v.createdBy ≤ s.txns.last ∧ v.createdBy ∉ s.txns.active := by
  by_cases hc : v.createdBy = T
  · exact Or.inl hc
  · exact Or.inr ((InternalRow.isVisible_other hc).1 hvisible).1.2

/-- Committed in order, the creators stay below the watermark. -/
theorem CreatorsBelow.step (hs : s.Inv) (h : s.CreatorsBelow r s.txns.last) (ho : s.Enabled o)
    (horder : InOrder r s o) : (s.step o).CreatorsBelow r (s.step o).txns.last := by
  intro v hv hne hact
  cases o with
  | row id rowId op =>
    rcases mem_versions_row hv with hv | ⟨-, hv⟩ | ⟨rfl, u, hu, hvisible, rfl⟩
    · exact h v hv hne hact
    · rw [InternalRow.createdBy, hv] at hact
      exact absurd (enabled_active ho) hact
    · rcases created_of_visible hvisible with hc | ⟨hle, -⟩
      · have hc : u.createdBy ∈ s.txns.active := hc ▸ enabled_active ho
        exact absurd hc hact
      · exact hle
  | txn t =>
    cases t with
    | createTransaction =>
      exact h v hv hne fun hc => hact (TxnState.mem_active_create.2 (Or.inr hc))
    | commitTransaction C =>
      by_cases hC : v.createdBy = C
      · exact le_of_eq hC
      · exact horder.2 v hv hne fun hc => hact (TxnState.mem_active_commit.2 ⟨hC, hc⟩)
    | rollbackTransaction T =>
      rw [versions_rollback] at hv
      obtain ⟨u, hu, rfl⟩ := List.mem_map.1 hv
      rw [InternalRow.rollback_createdBy] at hne hact ⊢
      rw [InternalRow.rollback_deletedBy] at hne
      have hT : u.createdBy ≠ T := by
        intro hT
        rw [if_pos (show u.createdBy = (s.txns.txn T).transactionId from hT)] at hne
        rcases hs.own r u hu (hT ▸ ho) with hnone | hself
        · rw [hnone] at hne
          exact hne (congrArg some hT.symm)
        · rw [hself] at hne
          exact hne rfl
      rw [if_neg (show u.createdBy ≠ (s.txns.txn T).transactionId from hT)] at hne
      refine h u hu (fun hself => ?_) fun hc => hact (TxnState.mem_active_rollback.2 ⟨hT, hc⟩)
      rw [hself, if_neg (show some u.createdBy ≠ some (s.txns.txn T).transactionId from
        fun h => hT (Option.some.inj h))] at hne
      exact hne rfl

theorem Orderly.stepped (h : Orderly r s) (ho : s.Enabled o) (horder : InOrder r s o) :
    Orderly r (s.step o) :=
  ⟨h.inv.step ho, h.marks.step h.inv ho horder.marksInOrder, h.creators.step h.inv ho horder⟩

theorem orderly_new : Orderly r new where
  inv := inv_new
  marks v hv := by simp [versions, new] at hv
  creators v hv := by simp [versions, new] at hv

theorem Orderly.ran (h : Orderly r s) (hrun : Each step Enabled s ops)
    (horder : Each step (InOrder r) s ops) : Orderly r (exec step s ops) :=
  (hrun.and horder).invariant h fun _ _ hs ho => hs.stepped ho.1 ho.2

/-! ## Steps that leave a view alone -/

/-- The step is not meant for `V` to notice: a commit of a transaction that left nothing on the
    row, or a row operation that replaces no mark of `V`. -/
def Quiet (V : TransactionID) (r : RowID) (s : RowStore) : StoreOp → Prop
  | .txn (.commitTransaction C) =>
    (∀ v ∈ s.versions r, v.createdBy = C → v.deletedBy = some C) ∧
      ∀ pre v post, IsLast (·.isVisible (s.txns.txn V)) (s.versions r) pre v post →
        v.deletedBy = some C → v.createdBy = V
  | .txn _ => True
  | .row T r' _ => T ≠ V → r' = r →
    ∀ pre v post, IsLast (·.isVisible (s.txns.txn T)) (s.versions r) pre v post →
      v.createdBy ≠ T → v.deletedBy = some V → s.Unnoticed r V v post

/-- The view of `V` after a step that changes neither the versions nor who sees them. -/
theorem visibleData_congr (hversions : s'.versions r = s.versions r)
    (hsame : ∀ v ∈ s.versions r, v.isVisible (s'.txns.txn V) = v.isVisible (s.txns.txn V)) :
    s'.visibleData V r = s.visibleData V r := by
  have hmap := @findLast_map _ (·.isVisible (s.txns.txn V)) (·.isVisible (s'.txns.txn V)) id
    (s.versions r) hsame
  rw [visibleData_eq, visibleData_eq, hversions]
  rw [List.map_id, Option.map_id] at hmap
  exact congrArg _ hmap

theorem Orderly.stable_create (h : Orderly r s) (hV : V ∈ s.txns.active) :
    (s.step (.txn .createTransaction)).visibleData V r = s.visibleData V r := by
  have hnext : Orderly r (s.step (.txn .createTransaction)) := h.stepped trivial trivial
  refine visibleData_congr rfl fun v hv => ?_
  have hV' : V ∈ (s.step (.txn .createTransaction)).txns.active :=
    TxnState.mem_active_create.2 (Or.inr hV)
  have hactive : ∀ c, c < s.txns.nextTransactionId →
      (c ∈ (s.step (.txn .createTransaction)).txns.active ↔ c ∈ s.txns.active) := fun c hc =>
    TxnState.mem_active_create.trans (or_iff_right (ne_of_lt hc))
  rw [Bool.eq_iff_iff, hnext.visible_iff hV' hv, h.visible_iff hV hv,
    hactive _ (h.inv.created_lt r v hv)]
  refine or_congr_right (and_congr_right fun _ => and_congr_right fun _ =>
    forall_congr' fun d => imp_congr_right fun hd => and_congr_right fun _ => ?_)
  exact hactive d (h.inv.deleted_lt r v hv d hd)

/-- A commit shows what its transaction has left on the row, and nothing else. -/
theorem Orderly.stable_commit (h : Orderly r s) (hC : C ∈ s.txns.active) (hV : V ∈ s.txns.active)
    (hne : V ≠ C) (horder : InOrder r s (.txn (.commitTransaction C)))
    (hquiet : Quiet V r s (.txn (.commitTransaction C))) :
    (s.step (.txn (.commitTransaction C))).visibleData V r = s.visibleData V r := by
  have hnext : Orderly r (s.step (.txn (.commitTransaction C))) := h.stepped hC horder
  have hV' : V ∈ (s.step (.txn (.commitTransaction C))).txns.active :=
    TxnState.mem_active_commit.2 ⟨hne, hV⟩
  have hactive : ∀ c, c ∈ (s.step (.txn (.commitTransaction C))).txns.active ↔
      c ≠ C ∧ c ∈ s.txns.active := fun c => TxnState.mem_active_commit
  have hversions : (s.step (.txn (.commitTransaction C))).versions r = s.versions r := rfl
  rw [visibleData_eq, visibleData_eq, hversions]
  congr 1
  refine findLast_below (fun v hv hvisible => ?_) fun v hlast => ?_
  · rw [h.visible_iff hV hv]
    rcases (hnext.visible_iff hV' hv).1 hvisible with hown | ⟨hended, hself, hmarks⟩
    · exact Or.inl hown
    · refine Or.inr ⟨fun hact => hended ((hactive _).2 ⟨fun hcC => ?_, hact⟩), hself, fun d hd =>
        ⟨(hmarks d hd).1, ((hactive d).1 (hmarks d hd).2).2⟩⟩
      exact hself (by rw [hquiet.1 v hv hcC, hcC])
  · obtain ⟨pre, post, hv⟩ := findLast_some.1 hlast
    rw [hnext.visible_iff hV' hv.mem]
    rcases (h.visible_iff hV hv.mem).1 hv.holds with hown | ⟨hended, hself, hmarks⟩
    · exact Or.inl hown
    · refine Or.inr ⟨fun hact => hended ((hactive _).1 hact).2, hself, fun d hd =>
        ⟨(hmarks d hd).1, (hactive d).2 ⟨fun hdC => ?_, (hmarks d hd).2⟩⟩⟩
      have hcV := hquiet.2 pre v post hv (hdC ▸ hd)
      exact hended (hcV ▸ hV)

/-- A rollback takes back what nobody else could see. -/
theorem Orderly.stable_rollback (h : Orderly r s) (hT : T ∈ s.txns.active) (hV : V ∈ s.txns.active)
    (hne : V ≠ T) :
    (s.step (.txn (.rollbackTransaction T))).visibleData V r = s.visibleData V r := by
  have hnext : Orderly r (s.step (.txn (.rollbackTransaction T))) := h.stepped hT trivial
  have hV' : V ∈ (s.step (.txn (.rollbackTransaction T))).txns.active :=
    TxnState.mem_active_rollback.2 ⟨hne, hV⟩
  have hactive : ∀ c, c ∈ (s.step (.txn (.rollbackTransaction T))).txns.active ↔
      c ≠ T ∧ c ∈ s.txns.active := fun c => TxnState.mem_active_rollback
  have hsame : ∀ v ∈ s.versions r,
      (v.rollback (s.txns.txn T)).isVisible ((s.step (.txn (.rollbackTransaction T))).txns.txn V) =
        v.isVisible (s.txns.txn V) := by
    intro v hv
    have hv' : v.rollback (s.txns.txn T) ∈ (s.step (.txn (.rollbackTransaction T))).versions r := by
      rw [versions_rollback]
      exact List.mem_map_of_mem hv
    rw [Bool.eq_iff_iff, hnext.visible_iff hV' hv', h.visible_iff hV hv, InternalRow.rollback_createdBy,
      InternalRow.rollback_deletedBy, hactive]
    by_cases hcT : v.createdBy = T
    · -- a version of `T` is invisible while `T` is in progress, and taken back afterwards
      have hmark : v.deletedBy.or (some T) = some v.createdBy := by
        rcases h.inv.own r v hv (hcT ▸ hT) with hd | hd <;> rw [hd, hcT] <;> rfl
      rw [if_pos (show v.createdBy = (s.txns.txn T).transactionId from hcT)]
      refine iff_of_false ?_ ?_
      · rintro (⟨hc, -⟩ | ⟨-, hself, -⟩)
        · exact hne (hc.symm.trans hcT)
        · exact hself hmark
      · rintro (⟨hc, -⟩ | ⟨hended, -⟩)
        · exact hne (hc.symm.trans hcT)
        · exact hended (hcT ▸ hT)
    · rw [if_neg (show v.createdBy ≠ (s.txns.txn T).transactionId from hcT)]
      by_cases hdT : v.deletedBy = some T
      · have hTV : (some T : Option TransactionID) ≠ some V := fun he => hne (Option.some.inj he).symm
        have hTc : (some T : Option TransactionID) ≠ some v.createdBy := fun he =>
          hcT (Option.some.inj he).symm
        rw [if_pos (show v.deletedBy = some (s.txns.txn T).transactionId from hdT), hdT]
        simp [hcT, hTV, hTc, hne.symm, hT]
      · rw [if_neg (show v.deletedBy ≠ some (s.txns.txn T).transactionId from hdT)]
        refine or_congr_right (and_congr (by simp [hcT]) (and_congr_right fun _ =>
          forall_congr' fun d => imp_congr_right fun hd => and_congr_right fun _ => ?_))
        exact (hactive d).trans (and_iff_right fun he => hdT (he ▸ hd))
  rw [visibleData_eq, visibleData_eq, versions_rollback, findLast_map hsame, Option.map_map]
  rfl

/-- **A quiet step** leaves the view of the row. -/
theorem Orderly.stable_step (h : Orderly r s) (ho : s.Enabled o) (horder : InOrder r s o)
    (hquiet : Quiet V r s o) (hV : V ∈ (s.step o).txns.active) (hold : V ∈ s.txns.active)
    (hother : ∀ op, o ≠ .row V r op) : (s.step o).visibleData V r = s.visibleData V r := by
  cases o with
  | row T r' op =>
    by_cases hr : r' = r
    · subst hr
      have hne : V ≠ T := by rintro rfl; exact hother op rfl
      exact visibleData_unnoticed h.inv ho hne (hquiet (Ne.symm hne) rfl)
    · rw [visibleData_eq, visibleData_eq, versions_other hr]; rfl
  | txn t =>
    cases t with
    | createTransaction => exact h.stable_create hold
    | commitTransaction C =>
      exact h.stable_commit ho hold (TxnState.mem_active_commit.1 hV).1 horder hquiet
    | rollbackTransaction T =>
      exact h.stable_rollback ho hold (TxnState.mem_active_rollback.1 hV).1

/-- An id in use that is in progress has been so before. -/
theorem active_before (hlt : V < s.txns.nextTransactionId) (hV : V ∈ (s.step o).txns.active) :
    V ∈ s.txns.active := by
  by_contra hact
  cases o with
  | row T r' op => exact hact hV
  | txn t => rw [step_txns] at hV; exact (TxnState.Ended.step ⟨hlt, hact⟩ t).2 hV

theorem next_le_step : s.txns.nextTransactionId ≤ (s.step o).txns.nextTransactionId := by
  cases o with
  | row T r' op => exact le_rfl
  | txn t =>
    rw [step_txns]
    cases t with
    | createTransaction => exact Nat.le_succ _
    | commitTransaction C => exact le_rfl
    | rollbackTransaction T => exact le_rfl

theorem active_before_run (hlt : V < s.txns.nextTransactionId) (hV : V ∈ (exec step s ops).txns.active) :
    V ∈ s.txns.active := by
  induction ops generalizing s with
  | nil => exact hV
  | cons o ops ih => exact active_before hlt (ih (lt_of_lt_of_le hlt next_le_step) hV)

theorem next_le_run : s.txns.nextTransactionId ≤ (exec step s ops).txns.nextTransactionId := by
  induction ops generalizing s with
  | nil => exact le_rfl
  | cons o ops ih => exact next_le_step.trans ih

/-- Quiet steps leave the view of the row. -/
theorem Orderly.stable_run (h : Orderly r s) (hrun : Each step Enabled s ops)
    (horder : Each step (InOrder r) s ops) (hquiet : Each step (Quiet V r) s ops)
    (hlt : V < s.txns.nextTransactionId) (hV : V ∈ (exec step s ops).txns.active)
    (hother : ∀ op, .row V r op ∉ ops) : (exec step s ops).visibleData V r = s.visibleData V r := by
  induction ops generalizing s with
  | nil => rfl
  | cons o ops ih =>
    have hlt' : V < (s.step o).txns.nextTransactionId := lt_of_lt_of_le hlt next_le_step
    have hV' : V ∈ (s.step o).txns.active := active_before_run hlt' hV
    have hstep := h.stable_step hrun.1 horder.1 hquiet.1 hV' (active_before hlt hV')
      fun op he => hother op (by rw [he]; simp)
    rw [exec_cons, ih (h.stepped hrun.1 horder.1) hrun.2 horder.2 hquiet.2 hlt' hV
      fun op hmem => hother op (List.mem_cons_of_mem _ hmem), hstep]

/-! ## Versions of those who commit -/

/-- `C` has ended and taken back every version of the row that it created. -/
structure Withheld (r : RowID) (C : TransactionID) (s : RowStore) : Prop where
  ended : s.txns.Ended C
  back : ∀ v ∈ s.versions r, v.createdBy = C → v.deletedBy = some C

theorem Withheld.stepped (h : Withheld r C s) (ho : s.Enabled o) : Withheld r C (s.step o) := by
  cases o with
  | row T r' op =>
    refine ⟨h.ended, fun v hv hc => ?_⟩
    have hT := enabled_active ho
    rcases mem_versions_row hv with hv | ⟨-, hv⟩ | ⟨rfl, u, hu, hvisible, rfl⟩
    · exact h.back v hv hc
    · rw [InternalRow.createdBy, hv] at hc
      have hc : T = C := hc
      exact absurd (hc ▸ hT) h.ended.2
    · exact absurd ((h.back u hu hc).trans (congrArg some hc.symm)) (not_taken_back hvisible)
  | txn t =>
    have hended : (s.step (.txn t)).txns.Ended C := step_txns ▸ h.ended.step t
    refine ⟨hended, fun v hv hc => ?_⟩
    by_cases hroll : ∃ T, t = .rollbackTransaction T
    · obtain ⟨T, rfl⟩ := hroll
      have hne : C ≠ T := by rintro rfl; exact h.ended.2 ho
      rw [versions_rollback] at hv
      obtain ⟨u, hu, rfl⟩ := List.mem_map.1 hv
      rw [InternalRow.rollback_createdBy] at hc
      have hback := h.back u hu hc
      rw [InternalRow.rollback_eq (fun he => hne (hc.symm.trans he)) fun he =>
        hne (Option.some.inj (hback.symm.trans he))]
      exact hback
    · rw [versions_txn fun T hT => hroll ⟨T, hT⟩] at hv
      exact h.back v hv hc

theorem Withheld.run (h : Withheld r C s) (hrun : Each step Enabled s ops) :
    Withheld r C (exec step s ops) :=
  hrun.invariant h fun _ _ hs ho => hs.stepped ho

/-- Who commits quietly has nothing to show. -/
theorem Orderly.withheld (h : Orderly r s) (hC : C ∈ s.txns.active)
    (hquiet : Quiet V r s (.txn (.commitTransaction C))) :
    Withheld r C (s.step (.txn (.commitTransaction C))) :=
  ⟨h.inv.wf.ended_commit hC, hquiet.1⟩

/-! ## Stable reads -/

/-- **Reads are stable** in a run all of whose commits come in order for the row and whose steps
    since `V` began are quiet: two reads of `V` with no operation of its own on the row in
    between give the same data, and `V` sees no version of a transaction that has committed
    since it began. -/
theorem reads_stable (h : Run (p ++ .txn .createTransaction :: q))
    (hV : V = (after p).txns.nextTransactionId)
    (hactive : V ∈ (after (p ++ .txn .createTransaction :: q)).txns.active)
    (horder : Each step (InOrder r) new (p ++ .txn .createTransaction :: q))
    (hquiet : Each step (Quiet V r) (after (p ++ [.txn .createTransaction])) q) :
    (∀ q₁ q₂, q = q₁ ++ q₂ → (∀ op, .row V r op ∉ q₂) →
      (after (p ++ .txn .createTransaction :: q)).visibleData V r =
        (after (p ++ .txn .createTransaction :: q₁)).visibleData V r) ∧
    ∀ C, .txn (.commitTransaction C) ∈ q →
      ∀ v ∈ (after (p ++ .txn .createTransaction :: q)).versions r, v.createdBy = C →
        v.isVisible ((after (p ++ .txn .createTransaction :: q)).txns.txn V) = false := by
  have hsplit : ∀ q, p ++ .txn .createTransaction :: q = (p ++ [.txn .createTransaction]) ++ q :=
    fun q => by simp
  have hafter : ∀ q, after (p ++ .txn .createTransaction :: q) =
      exec step (after (p ++ [.txn .createTransaction])) q := fun q => by
    rw [hsplit, after, exec_append]
  have hbegun : Run (p ++ [.txn .createTransaction]) := by rw [hsplit] at h; exact (each_append.1 h).1
  have hrun : Each step Enabled (after (p ++ [.txn .createTransaction])) q := by
    rw [hsplit] at h; exact (each_append.1 h).2
  rw [hsplit] at horder
  obtain ⟨horder₀, horder⟩ := each_append.1 horder
  have hstart : Orderly r (after (p ++ [.txn .createTransaction])) := orderly_new.ran hbegun horder₀
  have hlt : V < (after (p ++ [.txn .createTransaction])).txns.nextTransactionId := by
    have hstep : after (p ++ [.txn .createTransaction]) = (after p).step (.txn .createTransaction) :=
      exec_snoc
    rw [hV, hstep]
    exact Nat.lt_succ_self _
  rw [hafter] at hactive
  refine ⟨fun q₁ q₂ hq hother => ?_, fun C hC v hv hc => ?_⟩
  · subst hq
    rw [exec_append] at hactive
    rw [hafter (q₁ ++ q₂), hafter q₁, exec_append]
    exact (hstart.ran (each_append.1 hrun).1 (each_append.1 horder).1).stable_run
      (each_append.1 hrun).2 (each_append.1 horder).2 (each_append.1 hquiet).2
      (lt_of_lt_of_le hlt next_le_run) hactive hother
  · obtain ⟨q₁, q₂, rfl⟩ := List.append_of_mem hC
    have hmid := hstart.ran (each_append.1 hrun).1 (each_append.1 horder).1
    have hthen := (each_append.1 hrun).2
    have hwithheld := (hmid.withheld hthen.1 (each_append.1 hquiet).2.1).run hthen.2
    have hend := hstart.ran hrun horder
    rw [hafter] at hv ⊢
    rw [exec_append] at hactive hv hend ⊢
    have hback := hwithheld.back v hv hc
    rw [Bool.eq_false_iff, ne_eq, hend.visible_iff hactive hv]
    rintro (⟨hown, -⟩ | ⟨-, hself, -⟩)
    · rw [show V = C from hown.symm.trans hc] at hactive
      exact hwithheld.ended.2 hactive
    · exact hself (hback.trans (congrArg some hc.symm))

/-- Transaction 3 updates the row that transaction 2 reads, and takes it back; transaction 4
    commits a row of its own. -/
theorem reads_stable_rollback :
    let p : List StoreOp := [.txn .createTransaction, .row 1 0 (.new ∅),
      .txn (.commitTransaction 1)]
    let q : List StoreOp := [.txn .createTransaction, .row 3 0 (.update ∅),
      .txn (.rollbackTransaction 3), .txn .createTransaction, .row 4 1 (.new ∅),
      .txn (.commitTransaction 4)]
    (∀ q₁ q₂, q = q₁ ++ q₂ → (∀ op, .row 2 0 op ∉ q₂) →
      (after (p ++ .txn .createTransaction :: q)).visibleData 2 0 =
        (after (p ++ .txn .createTransaction :: q₁)).visibleData 2 0) ∧
    ∀ C, .txn (.commitTransaction C) ∈ q →
      ∀ v ∈ (after (p ++ .txn .createTransaction :: q)).versions 0, v.createdBy = C →
        v.isVisible ((after (p ++ .txn .createTransaction :: q)).txns.txn 2) = false := by
  intro p q
  refine reads_stable (by decide) (by decide) (by decide) (by decide)
    ⟨trivial, fun _ _ pre v post hv _ hd => ?_, trivial, trivial, fun _ h => absurd h (by decide),
      ⟨by decide, fun pre v post hv hd => ?_⟩, trivial⟩
  · have hmem : v ∈ [(⟨⟨1, none⟩, ∅⟩ : InternalRow)] := hv.mem
    rw [List.mem_singleton.1 hmem] at hd
    cases hd
  · have hmarks : ∀ v ∈ (after (p ++ .txn .createTransaction :: q)).versions 0,
        v.deletedBy ≠ some 4 := by decide
    exact absurd hd (hmarks v hv.mem)

/-- Transaction 3 updates the row between two reads of transaction 2 and commits; transaction 2
    reads what transaction 3 has written. -/
theorem reads_change :
    let changed : RowData := Std.ExtTreeMap.insert ∅ 0 (.boolean true)
    let p : List StoreOp := [.txn .createTransaction, .row 1 0 (.new ∅),
      .txn (.commitTransaction 1)]
    let q : List StoreOp := [.txn .createTransaction, .row 3 0 (.update changed),
      .txn (.commitTransaction 3)]
    let begun := after (p ++ [.txn .createTransaction])
    let ended := after (p ++ .txn .createTransaction :: q)
    Run (p ++ .txn .createTransaction :: q) ∧ 2 ∈ ended.txns.active ∧ (∀ op, .row 2 0 op ∉ q) ∧
      ended.visibleData 2 0 ≠ begun.visibleData 2 0 ∧
      ∃ v ∈ ended.versions 0, v.createdBy = 3 ∧ v.isVisible (ended.txns.txn 2) = true :=
  ⟨by decide, by decide, by simp, by decide +kernel, by decide +kernel⟩

end AntDb.RowStore
