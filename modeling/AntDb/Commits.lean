/-
  Runs of begins, commits and rollbacks, and how long committed work stays
  visible in them.
-/
import AntDb.Lifecycle

namespace AntDb

open Runs

inductive TxnOp where
  | createTransaction
  | commitTransaction (id : TransactionID)
  | rollbackTransaction (id : TransactionID)
deriving DecidableEq

namespace TxnState

def step (s : TxnState) : TxnOp → TxnState
  | .createTransaction => s.createTransaction.2
  | .commitTransaction id => s.commitTransaction id
  | .rollbackTransaction id => s.rollbackTransaction id

/-- Only an active transaction ends. -/
def Enabled (s : TxnState) : TxnOp → Prop
  | .createTransaction => True
  | .commitTransaction id => id ∈ s.active
  | .rollbackTransaction id => id ∈ s.active

instance (s : TxnState) (op : TxnOp) : Decidable (s.Enabled op) := by
  cases op <;> unfold Enabled <;> infer_instance

theorem Wf.step {s : TxnState} {op : TxnOp} (h : s.Wf) (ho : s.Enabled op) : (s.step op).Wf := by
  cases op with
  | createTransaction => exact h.create
  | commitTransaction id => exact h.commit ho
  | rollbackTransaction id => exact h.rollback

/-- The state after the operations `ops` on a new database. -/
abbrev after (ops : List TxnOp) : TxnState := exec step new ops

/-- Every operation of `ops` is enabled when it comes. -/
abbrev Run (ops : List TxnOp) : Prop := Each step Enabled new ops

/-- The committed transactions, in the order they committed. -/
def commits (ops : List TxnOp) : List TransactionID :=
  ops.filterMap fun | .commitTransaction id => some id | _ => none

variable {ops p q : List TxnOp} {op : TxnOp} {C V c : TransactionID}

theorem Run.wf (h : Run ops) : (after ops).Wf :=
  h.invariant wf_new fun _ _ => Wf.step

theorem run_append : Run (p ++ q) ↔ Run p ∧ Each step Enabled (after p) q := each_append

theorem run_snoc : Run (ops ++ [op]) ↔ Run ops ∧ (after ops).Enabled op := each_snoc

theorem after_snoc : after (ops ++ [op]) = (after ops).step op := exec_snoc

theorem commits_append : commits (p ++ q) = commits p ++ commits q := List.filterMap_append

/-! ## Ended transactions -/

/-- `id` has been handed out and is no longer active. -/
def Ended (s : TxnState) (id : TransactionID) : Prop := id < s.nextTransactionId ∧ id ∉ s.active

variable {s : TxnState} {id : TransactionID}

/-- An id is never handed out again. -/
theorem Ended.step (h : s.Ended id) (op : TxnOp) : (s.step op).Ended id := by
  obtain ⟨hlt, hact⟩ := h
  cases op with
  | createTransaction =>
    refine ⟨Nat.lt_succ_of_lt hlt, fun ha => ?_⟩
    rcases mem_active_create.1 ha with he | ha
    · exact absurd he (ne_of_lt hlt)
    · exact hact ha
  | commitTransaction id => exact ⟨hlt, fun ha => hact (mem_active_commit.1 ha).2⟩
  | rollbackTransaction id => exact ⟨hlt, fun ha => hact (mem_active_rollback.1 ha).2⟩

theorem Wf.ended_commit (h : s.Wf) (hid : id ∈ s.active) : (s.commitTransaction id).Ended id :=
  ⟨h.active_lt id hid, fun ha => (mem_active_commit.1 ha).1 rfl⟩

theorem Wf.ended_rollback (h : s.Wf) (hid : id ∈ s.active) : (s.rollbackTransaction id).Ended id :=
  ⟨h.active_lt id hid, fun ha => (mem_active_rollback.1 ha).1 rfl⟩

theorem Run.committed (h : Run ops) : ∀ C ∈ commits ops, (after ops).Ended C := by
  induction ops using List.reverseRecOn with
  | nil => simp [commits]
  | append_singleton ops op ih =>
    obtain ⟨hr, ho⟩ := run_snoc.1 h
    intro C hC
    rw [commits_append, List.mem_append] at hC
    rw [after_snoc]
    rcases hC with hC | hC
    · exact (ih hr C hC).step op
    · cases op with
      | commitTransaction id =>
        obtain rfl : C = id := by simpa [commits] using hC
        exact hr.wf.ended_commit ho
      | createTransaction => simp [commits] at hC
      | rollbackTransaction id => simp [commits] at hC

/-- `last_possible_transaction_id` is the last commit of the run. -/
theorem last_after (ops : List TxnOp) : (after ops).last = (commits ops).getLast?.getD 0 := by
  induction ops using List.reverseRecOn with
  | nil => rfl
  | append_singleton ops op ih =>
    rw [after_snoc, commits_append]
    cases op with
    | createTransaction => rw [show commits [.createTransaction] = [] from rfl, List.append_nil]; exact ih
    | commitTransaction id => simp [commits, step, commitTransaction]
    | rollbackTransaction id =>
      rw [show commits [.rollbackTransaction id] = [] from rfl, List.append_nil]; exact ih

/-- When the commits come in the order of the ids, none is above the last one. -/
theorem commits_le_last (h : (commits ops).Pairwise (· < ·)) (hC : C ∈ commits ops) :
    C ≤ (after ops).last := by
  rw [last_after]
  obtain ⟨l, b, hl⟩ : ∃ l b, commits ops = l ++ [b] :=
    ⟨_, _, (List.dropLast_append_getLast (List.ne_nil_of_mem hC)).symm⟩
  rw [hl] at hC h ⊢
  rw [List.getLast?_concat, Option.getD_some]
  rcases List.mem_append.1 hC with hC | hC
  · exact le_of_lt ((List.pairwise_append.1 h).2.2 C hC b (by simp))
  · exact le_of_eq (List.mem_singleton.1 hC)

/-! ## Committed work stays visible -/

/-- Committed work stays committed and visible in every state of the run `ops`: once
    `commit_transaction(C)` has returned, every transaction `V` begun later sees the versions
    `C` created and none of the versions `C` deleted.  (`V` began after `C` ended, so `C` left
    no mark on a version of `V` itself.) -/
def CommitsDurable (ops : List TxnOp) : Prop :=
  ∀ p C q, p ++ .commitTransaction C :: q <+: ops →
    ∀ V, (after (p ++ [.commitTransaction C])).nextTransactionId ≤ V →
      let txn := (after (p ++ .commitTransaction C :: q)).txn V
      (⟨C, none⟩ : TransactionHeader).isVisible txn = true ∧
        ∀ c, c ≠ V → (⟨c, some C⟩ : TransactionHeader).isVisible txn = false

/-- What `CommitsDurable` comes down to: the snapshot takes `C` for an ended transaction. -/
theorem ended_visible (hC : C < V) (hlast : C ≤ s.last) (hact : C ∉ s.active) :
    (⟨C, none⟩ : TransactionHeader).isVisible (s.txn V) = true ∧
      ∀ c, c ≠ V → (⟨c, some C⟩ : TransactionHeader).isVisible (s.txn V) = false := by
  constructor
  · exact (TransactionHeader.isVisible_other (ne_of_lt hC)).2 ⟨⟨ne_of_lt hC, hlast, hact⟩, by simp⟩
  · intro c hc
    rw [Bool.eq_false_iff, ne_eq, TransactionHeader.isVisible_other hc]
    rintro ⟨-, h⟩
    exact h C rfl (Or.inr (Or.inr ⟨hlast, hact⟩))

/-- **Durability of commits.**  The shared snapshot keeps every commit visible exactly when the
    transactions commit in the order of their ids. -/
theorem commitsDurable_iff (h : Run ops) : CommitsDurable ops ↔ (commits ops).Pairwise (· < ·) := by
  constructor
  · intro hd
    induction ops using List.reverseRecOn with
    | nil => exact List.Pairwise.nil
    | append_singleton ops op ih =>
      obtain ⟨hr, ho⟩ := run_snoc.1 h
      have hd' : CommitsDurable ops := fun p C q hp => hd p C q (hp.trans (List.prefix_append _ _))
      rw [commits_append, List.pairwise_append]
      refine ⟨ih hr hd', by cases op <;> simp [commits], fun C hC D hD => ?_⟩
      obtain rfl : op = .commitTransaction D := by cases op <;> simp_all [commits]
      obtain ⟨hlt, hact⟩ := hr.committed C hC
      have hne : C ≠ D := fun e => hact (e ▸ ho)
      -- `C` committed earlier in the run; the last state must still show it
      obtain ⟨o, hmem, ho'⟩ := List.mem_filterMap.1 hC
      obtain rfl : o = .commitTransaction C := by cases o <;> simp_all
      obtain ⟨p, q, rfl⟩ := List.append_of_mem hmem
      have hrun : Run (p ++ [.commitTransaction C]) := by
        rw [List.append_cons] at hr; exact (run_append.1 hr).1
      have hV := (hrun.committed C (by simp [commits])).1
      have hvis := (hd p C (q ++ [.commitTransaction D]) (by simp) _ le_rfl).1
      have hle : C ≤ (after (p ++ .commitTransaction C :: (q ++ [.commitTransaction D]))).last :=
        ((TransactionHeader.isVisible_other (ne_of_lt hV)).1 hvis).1.2.1
      rw [← List.cons_append, ← List.append_assoc, after_snoc] at hle
      exact lt_of_le_of_ne hle hne
  · intro hp p C q hpre V hV
    obtain ⟨rest, rfl⟩ := hpre
    have hrun := (run_append.1 h).1
    have hmem : C ∈ commits (p ++ .commitTransaction C :: q) := by simp [commits]
    obtain ⟨-, hact⟩ := hrun.committed C hmem
    have hC : C < V := by
      have h' : Run (p ++ [.commitTransaction C]) := by
        rw [List.append_cons] at hrun; exact (run_append.1 hrun).1
      exact lt_of_lt_of_le (h'.committed C (by simp [commits])).1 hV
    rw [commits_append, List.pairwise_append] at hp
    exact ended_visible hC (commits_le_last hp.1 hmem) hact

theorem commitsDurable_in_order : CommitsDurable
    [.createTransaction, .createTransaction, .commitTransaction 1, .rollbackTransaction 2,
      .createTransaction, .commitTransaction 3] :=
  (commitsDurable_iff (by decide)).2 (by decide)

/-- Transaction 2 commits, then transaction 1: what 2 wrote is taken for "created after
    snapshot" again. -/
theorem commitsDurable_out_of_order :
    Run [.createTransaction, .createTransaction, .commitTransaction 2, .commitTransaction 1] ∧
      ¬ CommitsDurable
        [.createTransaction, .createTransaction, .commitTransaction 2, .commitTransaction 1] :=
  ⟨by decide, fun h => absurd (h [.createTransaction, .createTransaction] 2 [.commitTransaction 1]
    (List.prefix_refl _) 3 (by decide)).1 (by decide)⟩

end TxnState

end AntDb
