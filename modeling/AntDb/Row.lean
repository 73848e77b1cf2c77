/-
  Rows as lists of versions, newest last.

  A write marks the newest version its transaction sees and, for an update,
  pushes a new one; a rollback marks what the transaction created and takes its
  marks off everything else.
-/
import AntDb.Entry
import AntDb.Transaction

namespace AntDb

abbrev RowID := ℕ

abbrev RowData := BTreeMap ColumnID DataBaseDataEntry

structure InternalRow where
  transactionHeader : TransactionHeader
  data : RowData
deriving DecidableEq

structure Row where
  versions : List InternalRow
deriving DecidableEq

namespace TransactionHeader

/-- The header a transaction gives to what it writes. -/
def created (txn : Transaction) : TransactionHeader := ⟨txn.transactionId, none⟩

def mark (h : TransactionHeader) (txn : Transaction) : TransactionHeader :=
  { h with deletedBy := some txn.transactionId }

/-- What `rollback_transaction` of rows and of columns does to the header of a version. -/
def rollback (h : TransactionHeader) (txn : Transaction) : TransactionHeader :=
  let h := if h.createdBy = txn.transactionId ∧ h.deletedBy = none then h.mark txn else h
  if h.deletedBy = some txn.transactionId ∧ h.createdBy ≠ txn.transactionId then
    { h with deletedBy := none }
  else h

/-- What `prune` of rows and of columns keeps. -/
def survives (h : TransactionHeader) (oldestActiveTxn : TransactionID) : Bool :=
  match h.deletedBy with
  | none => true
  | some del => del ≥ oldestActiveTxn

end TransactionHeader

namespace InternalRow

def isVisible (v : InternalRow) (txn : Transaction) : Bool := v.transactionHeader.isVisible txn

def mark (v : InternalRow) (txn : Transaction) : InternalRow :=
  { v with transactionHeader := v.transactionHeader.mark txn }

def rollback (v : InternalRow) (txn : Transaction) : InternalRow :=
  { v with transactionHeader := v.transactionHeader.rollback txn }

abbrev createdBy (v : InternalRow) : TransactionID := v.transactionHeader.createdBy

abbrev deletedBy (v : InternalRow) : Option TransactionID := v.transactionHeader.deletedBy

end InternalRow

namespace Row

open LastMatch

def new (txn : Transaction) (data : RowData) : Row := ⟨[⟨.created txn, data⟩]⟩

def remove (row : Row) (txn : Transaction) : Row :=
  ⟨updateLast (·.isVisible txn) (·.mark txn) row.versions⟩

def update (row : Row) (txn : Transaction) (data : RowData) : Row :=
  ⟨updateLast (·.isVisible txn) (·.mark txn) row.versions ++ [⟨.created txn, data⟩]⟩

def prune (row : Row) (oldestActiveTxn : TransactionID) : Row :=
  ⟨row.versions.filter (·.transactionHeader.survives oldestActiveTxn)⟩

def rollbackTransaction (row : Row) (txn : Transaction) : Row :=
  ⟨row.versions.map (·.rollback txn)⟩

def getVersionedRow (row : Row) (txn : Transaction) : Option InternalRow :=
  findLast (·.isVisible txn) row.versions

/-- `bincode::serialized_size`: a length, then for each version its header and its data. -/
def sizeBytes (row : Row) : ℕ :=
  8 + (row.versions.map fun v =>
    8 + (if v.deletedBy.isSome then 9 else 1) + 8 +
      (v.data.toList.map fun x => 2 + x.2.size).sum).sum

end Row

/-! ## Marks and rollbacks -/

namespace TransactionHeader

variable {h : TransactionHeader} {txn : Transaction}

@[simp] theorem mark_createdBy : (h.mark txn).createdBy = h.createdBy := rfl

@[simp] theorem mark_deletedBy : (h.mark txn).deletedBy = some txn.transactionId := rfl

theorem rollback_createdBy : (h.rollback txn).createdBy = h.createdBy := by
  unfold rollback; dsimp only; split_ifs <;> rfl

theorem rollback_deletedBy : (h.rollback txn).deletedBy =
    if h.createdBy = txn.transactionId then h.deletedBy.or (some txn.transactionId)
    else if h.deletedBy = some txn.transactionId then none else h.deletedBy := by
  obtain ⟨c, d⟩ := h
  unfold rollback mark
  by_cases hc : c = txn.transactionId
  · cases d <;> simp [hc]
  · cases d with
    | none => simp [hc]
    | some d => by_cases hd : d = txn.transactionId <;> simp [hc, hd]

/-- A rollback leaves alone what the transaction has no stamp on. -/
theorem rollback_eq (hc : h.createdBy ≠ txn.transactionId)
    (hd : h.deletedBy ≠ some txn.transactionId) : h.rollback txn = h := by
  unfold rollback
  simp [hc, hd]

end TransactionHeader

namespace InternalRow

variable {v : InternalRow} {txn txn' : Transaction}

theorem isVisible_own (hc : v.createdBy = txn.transactionId) :
    v.isVisible txn = true ↔ v.deletedBy ≠ some txn.transactionId :=
  TransactionHeader.isVisible_own hc

theorem isVisible_other (hc : v.createdBy ≠ txn.transactionId) : v.isVisible txn = true ↔
    TransactionHeader.Reads txn v.createdBy ∧
      ∀ d, v.deletedBy = some d → ¬ TransactionHeader.Hides txn d :=
  TransactionHeader.isVisible_other hc

@[simp] theorem mark_createdBy : (v.mark txn).createdBy = v.createdBy := rfl

@[simp] theorem mark_deletedBy : (v.mark txn).deletedBy = some txn.transactionId := rfl

theorem isVisible_mark (hne : txn'.transactionId ≠ txn.transactionId) :
    (v.mark txn').isVisible txn = true ↔ v.createdBy = txn.transactionId ∨
      (TransactionHeader.Reads txn v.createdBy ∧
        ¬ TransactionHeader.Hides txn txn'.transactionId) := by
  by_cases hc : v.createdBy = txn.transactionId
  · rw [isVisible_own (v := v.mark txn') hc]
    exact iff_of_true (fun h => hne (Option.some.inj h)) (Or.inl hc)
  · rw [isVisible_other (v := v.mark txn') hc, or_iff_right hc]
    simp

@[simp] theorem mark_data : (v.mark txn).data = v.data := rfl

@[simp] theorem rollback_createdBy : (v.rollback txn).createdBy = v.createdBy :=
  TransactionHeader.rollback_createdBy

theorem rollback_deletedBy : (v.rollback txn).deletedBy =
    if v.createdBy = txn.transactionId then v.deletedBy.or (some txn.transactionId)
    else if v.deletedBy = some txn.transactionId then none else v.deletedBy :=
  TransactionHeader.rollback_deletedBy

@[simp] theorem rollback_data : (v.rollback txn).data = v.data := rfl

theorem rollback_eq (hc : v.createdBy ≠ txn.transactionId)
    (hd : v.deletedBy ≠ some txn.transactionId) : v.rollback txn = v := by
  rw [rollback, TransactionHeader.rollback_eq hc hd]

end InternalRow

end AntDb
