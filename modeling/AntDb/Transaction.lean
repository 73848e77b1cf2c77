/-
  Transactions, the shared snapshot and the visibility of a version header.

  All transactions of a database share one `TransactionSnapshot`: a
  `Transaction` is its id together with the snapshot as it stands when the
  transaction looks at it.
-/
import AntDb.Lib.Collections

namespace AntDb

abbrev TransactionID := ℕ

structure TransactionSnapshot where
  smallestActiveTransactionId : TransactionID
  lastPossibleTransactionId : TransactionID
  activeTransaction : BTreeSet TransactionID
deriving DecidableEq

/-- `TransactionSnapshot::default`. -/
def TransactionSnapshot.default : TransactionSnapshot where
  smallestActiveTransactionId := 0
  lastPossibleTransactionId := 0
  activeTransaction := ∅

structure Transaction where
  transactionId : TransactionID
  snapshot : TransactionSnapshot

structure TransactionHeader where
  createdBy : TransactionID
  deletedBy : Option TransactionID
deriving DecidableEq

namespace TransactionHeader

def isVisible (h : TransactionHeader) (txn : Transaction) : Bool :=
  let snapshot := txn.snapshot
  if h.createdBy = txn.transactionId then
    h.deletedBy ≠ some txn.transactionId
  else if h.createdBy > snapshot.lastPossibleTransactionId then
    false -- created after snapshot
  else if h.createdBy ∈ snapshot.activeTransaction then
    false -- still in progress
  else
    match h.deletedBy with
    | none => true
    | some deletedBy =>
      if deletedBy = txn.transactionId then false
      else if deletedBy < snapshot.smallestActiveTransactionId then false
      else if deletedBy ≤ snapshot.lastPossibleTransactionId ∧
          deletedBy ∉ snapshot.activeTransaction then false
      else true

variable {c d : TransactionID} {h : TransactionHeader} {txn : Transaction}

/-- A mark that takes the version away from `txn`. -/
def Hides (txn : Transaction) (d : TransactionID) : Prop :=
  d = txn.transactionId ∨ d < txn.snapshot.smallestActiveTransactionId ∨
    (d ≤ txn.snapshot.lastPossibleTransactionId ∧ d ∉ txn.snapshot.activeTransaction)

/-- A creator whose versions `txn` reads: not `txn` itself, and committed as far as the
    snapshot tells. -/
def Reads (txn : Transaction) (c : TransactionID) : Prop :=
  c ≠ txn.transactionId ∧ c ≤ txn.snapshot.lastPossibleTransactionId ∧
    c ∉ txn.snapshot.activeTransaction

/-- `isVisible` as a condition on the two stamps. -/
theorem isVisible_iff : h.isVisible txn = true ↔
    (h.createdBy = txn.transactionId ∧ h.deletedBy ≠ some txn.transactionId) ∨
      (Reads txn h.createdBy ∧ ∀ d, h.deletedBy = some d → ¬ Hides txn d) := by
  obtain ⟨c, d⟩ := h
  unfold isVisible Reads Hides
  dsimp only
  split_ifs with h1 h2 h3
  · simp [h1]
  · simp only [h1, false_and, false_or, false_iff, not_and]
    exact fun h => absurd h.2.1 (by lia)
  · simp [h1, h3]
  · cases d with
    | none => simpa [h1, h3] using h2
    | some d =>
      simp only [Option.some.injEq, forall_eq']
      constructor
      · intro h
        split_ifs at h with h4 h5 h6
        exact Or.inr ⟨⟨h1, by lia, h3⟩, by tauto⟩
      · rintro (⟨h, -⟩ | ⟨-, h⟩)
        · exact absurd h h1
        · rw [if_neg (by tauto), if_neg (by tauto), if_neg (by tauto)]

theorem isVisible_own (hc : h.createdBy = txn.transactionId) :
    h.isVisible txn = true ↔ h.deletedBy ≠ some txn.transactionId := by
  rw [isVisible_iff]
  exact ⟨fun h => h.elim (·.2) fun h => absurd hc h.1.1, fun h => Or.inl ⟨hc, h⟩⟩

theorem isVisible_other (hc : h.createdBy ≠ txn.transactionId) : h.isVisible txn = true ↔
    Reads txn h.createdBy ∧ ∀ d, h.deletedBy = some d → ¬ Hides txn d := by
  rw [isVisible_iff]
  exact ⟨fun h => h.elim (fun h => absurd h.1 hc) id, Or.inr⟩

end TransactionHeader

end AntDb
