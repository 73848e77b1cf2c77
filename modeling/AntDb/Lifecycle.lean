/-
  Beginning, committing and rolling back transactions.

  `TxnState` is the part of `Database` these three functions read and write
  (`next_transaction_id` and `transaction_snapshot`); the rollback of the tables
  themselves is a table operation.
-/
import AntDb.Lib.Runs
import AntDb.Transaction

namespace AntDb

structure TxnState where
  nextTransactionId : TransactionID
  snapshot : TransactionSnapshot
deriving DecidableEq

namespace TxnState

/-- The transactions of `Database::new`. -/
def new : TxnState where
  nextTransactionId := 1
  snapshot := .default

/-- The transaction `id` as it sees the database in state `s`. -/
def txn (s : TxnState) (id : TransactionID) : Transaction := ⟨id, s.snapshot⟩

abbrev active (s : TxnState) : BTreeSet TransactionID := s.snapshot.activeTransaction

abbrev last (s : TxnState) : TransactionID := s.snapshot.lastPossibleTransactionId

abbrev smallest (s : TxnState) : TransactionID := s.snapshot.smallestActiveTransactionId

def createTransaction (s : TxnState) : TransactionID × TxnState :=
  let id := s.nextTransactionId
  (id, { nextTransactionId := id + 1,
         snapshot := { s.snapshot with activeTransaction := s.active.insert id } })

def commitTransaction (s : TxnState) (id : TransactionID) : TxnState :=
  let active := s.active.erase id
  { s with snapshot :=
    { activeTransaction := active
      lastPossibleTransactionId := id
      smallestActiveTransactionId := if active.isEmpty then id else active.min?.getD id } }

def rollbackTransaction (s : TxnState) (id : TransactionID) : TxnState :=
  let active := s.active.erase id
  { s with snapshot :=
    { s.snapshot with
      activeTransaction := active
      smallestActiveTransactionId := if active.isEmpty then s.last else active.min?.getD s.last } }

/-! ## The stamps of the snapshot -/

/-- What every sequence of begins and ends keeps true of the snapshot. -/
structure Wf (s : TxnState) : Prop where
  active_lt : ∀ a ∈ s.active, a < s.nextTransactionId
  smallest_le : ∀ a ∈ s.active, s.smallest ≤ a
  smallest_lt : s.smallest < s.nextTransactionId
  last_lt : s.last < s.nextTransactionId
  last_idle : s.last ∉ s.active

variable {s : TxnState} {id a : TransactionID}

theorem mem_active_create :
    a ∈ s.createTransaction.2.active ↔ a = s.nextTransactionId ∨ a ∈ s.active :=
  BTreeSet.mem_insert

theorem mem_active_commit : a ∈ (s.commitTransaction id).active ↔ a ≠ id ∧ a ∈ s.active :=
  BTreeSet.mem_erase

theorem mem_active_rollback : a ∈ (s.rollbackTransaction id).active ↔ a ≠ id ∧ a ∈ s.active :=
  BTreeSet.mem_erase

/-- The watermark both ends compute: the least active id, or `d` if none is left. -/
theorem watermark (t : BTreeSet TransactionID) (d : TransactionID) :
    let w := if t.isEmpty then d else t.min?.getD d
    (∀ a ∈ t, w ≤ a) ∧ (w ∈ t ∨ w = d) := by
  intro w
  cases hm : t.min? with
  | none =>
    have ht : t = ∅ := Std.ExtTreeSet.min?_eq_none_iff.1 hm
    subst ht; simp [w]
  | some m =>
    obtain ⟨hmem, hle⟩ := Std.ExtTreeSet.min?_eq_some_iff_mem_and_forall.1 hm
    have hne : t.isEmpty = false := by
      rw [Std.ExtTreeSet.isEmpty_eq_false_iff]; rintro rfl; simp at hmem
    have hw : w = m := by simp [w, hne, hm]
    rw [hw]
    exact ⟨fun a ha => Nat.isLE_compare.1 (hle a ha), Or.inl hmem⟩

theorem wf_new : new.Wf := by
  constructor <;> simp [new, TransactionSnapshot.default, active, smallest, last]

theorem Wf.create (h : s.Wf) : s.createTransaction.2.Wf where
  active_lt a ha := by
    rcases mem_active_create.1 ha with rfl | ha
    · exact Nat.lt_succ_self _
    · exact Nat.lt_succ_of_lt (h.active_lt a ha)
  smallest_le a ha := by
    rcases mem_active_create.1 ha with rfl | ha
    · exact le_of_lt h.smallest_lt
    · exact h.smallest_le a ha
  smallest_lt := Nat.lt_succ_of_lt h.smallest_lt
  last_lt := Nat.lt_succ_of_lt h.last_lt
  last_idle ha := by
    rcases mem_active_create.1 ha with he | ha
    · exact absurd he (ne_of_lt h.last_lt)
    · exact h.last_idle ha

theorem Wf.commit (h : s.Wf) (hid : id ∈ s.active) : (s.commitTransaction id).Wf where
  active_lt a ha := h.active_lt a (mem_active_commit.1 ha).2
  smallest_le := (watermark (s.active.erase id) id).1
  smallest_lt := by
    rcases (watermark (s.active.erase id) id).2 with hw | hw
    · exact h.active_lt _ (mem_active_commit.1 hw).2
    · exact lt_of_eq_of_lt hw (h.active_lt id hid)
  last_lt := h.active_lt id hid
  last_idle ha := (mem_active_commit.1 ha).1 rfl

theorem Wf.rollback (h : s.Wf) : (s.rollbackTransaction id).Wf where
  active_lt a ha := h.active_lt a (mem_active_rollback.1 ha).2
  smallest_le := (watermark (s.active.erase id) s.last).1
  smallest_lt := by
    rcases (watermark (s.active.erase id) s.last).2 with hw | hw
    · exact h.active_lt _ (mem_active_rollback.1 hw).2
    · exact lt_of_eq_of_lt hw h.last_lt
  last_lt := h.last_lt
  last_idle ha := h.last_idle (mem_active_rollback.1 ha).2

/-! ## What the others see of a transaction in progress -/

variable {V T d : TransactionID} {h : TransactionHeader}

@[simp] theorem txn_transactionId : (s.txn V).transactionId = V := rfl

/-- The mark of a transaction in progress hides a version from that transaction only. -/
theorem Wf.not_hides (hs : s.Wf) (hT : T ∈ s.active) (hV : V ≠ T) :
    ¬ TransactionHeader.Hides (s.txn V) T := by
  rintro (h | h | h)
  · exact hV h.symm
  · exact absurd (hs.smallest_le T hT) (not_le_of_gt h)
  · exact h.2 hT

theorem not_reads (hT : T ∈ s.active) : ¬ TransactionHeader.Reads (s.txn V) T := fun h => h.2.2 hT

/-- A version of a transaction in progress is visible to nobody else. -/
theorem unseen (hT : h.createdBy ∈ s.active) (hV : h.createdBy ≠ V) :
    h.isVisible (s.txn V) = false := by
  rw [Bool.eq_false_iff, ne_eq, TransactionHeader.isVisible_other hV]
  exact fun h => not_reads hT h.1

/-- A mark that does not hide a version from `T` can hide it from its own author alone. -/
theorem hides_author (hT : ¬ TransactionHeader.Hides (s.txn T) d)
    (hV : TransactionHeader.Hides (s.txn V) d) : d = V := by
  rcases hV with h | h | h
  · exact h
  · exact absurd (Or.inr (Or.inl h)) hT
  · exact absurd (Or.inr (Or.inr h)) hT

end TxnState

end AntDb
