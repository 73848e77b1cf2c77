/-
  The rows of a database under begins, ends and row operations of its transactions.

  A row operation is named by the transaction that makes it and the id of the row;
  ids of inserted rows are fresh.  `rollback_transaction` undoes a transaction in
  every row.
-/
import AntDb.Commits
import AntDb.Row

namespace AntDb

open Runs

structure RowStore where
  txns : TxnState
  rows : BTreeMap RowID Row
deriving DecidableEq

inductive RowOp where
  | new (data : RowData)
  | update (data : RowData)
  | remove
deriving DecidableEq

/-- The row left under an id by an operation on what was there. -/
def RowOp.apply (op : RowOp) (txn : Transaction) (row : Option Row) : Option Row :=
  match op with
  | .new data => some (Row.new txn data)
  | .update data => row.map (·.update txn data)
  | .remove => row.map (·.remove txn)

def RowOp.isUpdate : RowOp → Bool
  | .update _ => true
  | _ => false

inductive StoreOp where
  | txn (op : TxnOp)
  | row (id : TransactionID) (rowId : RowID) (op : RowOp)
deriving DecidableEq

namespace RowStore

def new : RowStore := ⟨.new, ∅⟩

def rollbackRows (s : RowStore) (id : TransactionID) : BTreeMap RowID Row :=
  s.rows.map fun _ row => row.rollbackTransaction (s.txns.txn id)

def step (s : RowStore) : StoreOp → RowStore
  | .txn (.rollbackTransaction id) =>
    ⟨s.txns.rollbackTransaction id, s.rollbackRows id⟩
  | .txn op => { s with txns := s.txns.step op }
  | .row id rowId op => { s with rows := s.rows.alter rowId (op.apply (s.txns.txn id)) }

/-- Only active transactions act, and a new row gets a fresh id. -/
def Enabled (s : RowStore) : StoreOp → Prop
  | .txn op => s.txns.Enabled op
  | .row id rowId (.new _) => id ∈ s.txns.active ∧ rowId ∉ s.rows
  | .row id _ _ => id ∈ s.txns.active

instance (s : RowStore) (o : StoreOp) : Decidable (s.Enabled o) := by
  cases o with
  | txn op => exact inferInstanceAs (Decidable (s.txns.Enabled op))
  | row id rowId op => cases op <;> unfold Enabled <;> infer_instance

abbrev after (ops : List StoreOp) : RowStore := exec step new ops

abbrev Run (ops : List StoreOp) : Prop := Each step Enabled new ops

/-- The data of row `rowId` that `id` sees. -/
def visibleData (s : RowStore) (id : TransactionID) (rowId : RowID) : Option RowData :=
  (s.rows[rowId]?.bind (·.getVersionedRow (s.txns.txn id))).map (·.data)

/-- The versions stored under `rowId`. -/
def versions (s : RowStore) (rowId : RowID) : List InternalRow :=
  (s.rows[rowId]?.map (·.versions)).getD []

variable {s : RowStore} {id : TransactionID} {rowId r : RowID} {op : RowOp} {t : TxnOp}
  {o : StoreOp} {ops : List StoreOp} {v : InternalRow}

theorem step_txns : (s.step (.txn t)).txns = s.txns.step t := by
  cases t <;> rfl

theorem get_row : (s.step (.row id rowId op)).rows[r]? =
    if rowId = r then op.apply (s.txns.txn id) s.rows[r]? else s.rows[r]? := by
  show (s.rows.alter rowId _)[r]? = _
  rw [Std.ExtTreeMap.getElem?_alter]
  by_cases h : rowId = r
  · subst h; simp
  · simp [h]

theorem get_rollback : (s.rollbackRows id)[r]? =
    s.rows[r]?.map (·.rollbackTransaction (s.txns.txn id)) := by
  simp [rollbackRows]

theorem versions_of_get {row : Row} (h : s.rows[r]? = some row) : s.versions r = row.versions := by
  simp [versions, h]

theorem versions_absent (h : s.rows[r]? = none) : s.versions r = [] := by
  simp [versions, h]

theorem versions_rollback : (s.step (.txn (.rollbackTransaction id))).versions r =
    (s.versions r).map (·.rollback (s.txns.txn id)) := by
  show ((s.rollbackRows id)[r]?.map _).getD [] = _
  rw [get_rollback, versions]
  cases s.rows[r]? <;> rfl

theorem versions_txn (h : ∀ id, t ≠ .rollbackTransaction id) :
    (s.step (.txn t)).versions r = s.versions r := by
  cases t with
  | rollbackTransaction id => exact absurd rfl (h id)
  | createTransaction => rfl
  | commitTransaction id => rfl

theorem versions_other (h : rowId ≠ r) : (s.step (.row id rowId op)).versions r = s.versions r := by
  rw [versions, get_row, if_neg h, versions]

/-- A row operation leaves an old version, a marked one, or the new one. -/
theorem mem_versions_row (h : v ∈ (s.step (.row id rowId op)).versions r) :
    v ∈ s.versions r ∨
      (rowId = r ∧ v.transactionHeader = .created (s.txns.txn id)) ∨
      (rowId = r ∧ ∃ u ∈ s.versions r, u.isVisible (s.txns.txn id) = true ∧
        v = u.mark (s.txns.txn id)) := by
  by_cases hr : rowId = r
  · subst hr
    have hmark : ∀ row : Row, s.rows[rowId]? = some row →
        v ∈ LastMatch.updateLast (·.isVisible (s.txns.txn id)) (·.mark (s.txns.txn id)) row.versions →
        v ∈ s.versions rowId ∨ ∃ u ∈ s.versions rowId, u.isVisible (s.txns.txn id) = true ∧
          v = u.mark (s.txns.txn id) := by
      intro row hrow hv
      rw [versions_of_get hrow]
      exact LastMatch.mem_updateLast hv
    rw [versions, get_row, if_pos rfl] at h
    cases op with
    | new data =>
      obtain rfl := List.mem_singleton.1 h
      exact Or.inr (Or.inl ⟨rfl, rfl⟩)
    | update data =>
      cases hrow : s.rows[rowId]? with
      | none => simp [RowOp.apply, hrow] at h
      | some row =>
        simp only [RowOp.apply, hrow, Option.map_some, Option.getD_some, Row.update,
          List.mem_append, List.mem_singleton] at h
        rcases h with h | rfl
        · exact (hmark row hrow h).imp_right fun h => Or.inr ⟨rfl, h⟩
        · exact Or.inr (Or.inl ⟨rfl, rfl⟩)
    | remove =>
      cases hrow : s.rows[rowId]? with
      | none => simp [RowOp.apply, hrow] at h
      | some row =>
        simp only [RowOp.apply, hrow, Option.map_some, Option.getD_some, Row.remove] at h
        exact (hmark row hrow h).imp_right fun h => Or.inr ⟨rfl, h⟩
  · rw [versions_other hr] at h; exact Or.inl h

theorem enabled_active (h : s.Enabled (.row id rowId op)) : id ∈ s.txns.active := by
  cases op with
  | new data => exact h.1
  | update data => exact h
  | remove => exact h

/-- An enabled row operation marks the newest version its transaction sees and pushes at most
    one new version. -/
theorem versions_row (h : s.Enabled (.row id r op)) : ∃ new : List InternalRow,
    new.length ≤ 1 ∧ (∀ v ∈ new, v.transactionHeader = .created (s.txns.txn id)) ∧
      (s.step (.row id r op)).versions r =
        LastMatch.updateLast (·.isVisible (s.txns.txn id)) (·.mark (s.txns.txn id)) (s.versions r)
          ++ new := by
  have hstep : (s.step (.row id r op)).versions r =
      ((op.apply (s.txns.txn id) s.rows[r]?).map (·.versions)).getD [] := by
    rw [versions, get_row, if_pos rfl]
  rw [hstep]
  cases hrow : s.rows[r]? with
  | none =>
    rw [versions_absent hrow]
    cases op with
    | new data => exact ⟨[⟨.created _, data⟩], le_rfl, by simp, rfl⟩
    | update data => exact ⟨[], by simp, by simp, rfl⟩
    | remove => exact ⟨[], by simp, by simp, rfl⟩
  | some row =>
    rw [versions_of_get hrow]
    cases op with
    | new data => exact absurd (BTreeMap.mem_of_get hrow) h.2
    | update data => exact ⟨[⟨.created _, data⟩], le_rfl, by simp, rfl⟩
    | remove => exact ⟨[], by simp, by simp, by simp [RowOp.apply, Row.remove]⟩

theorem versions_remove : (s.step (.row id r .remove)).versions r =
    LastMatch.updateLast (·.isVisible (s.txns.txn id)) (·.mark (s.txns.txn id)) (s.versions r) := by
  rw [versions, get_row, if_pos rfl, versions]
  cases s.rows[r]? <;> rfl

theorem versions_update {data : RowData} (h : r ∈ s.rows) : (s.step (.row id r (.update data))).versions r =
    LastMatch.updateLast (·.isVisible (s.txns.txn id)) (·.mark (s.txns.txn id)) (s.versions r)
      ++ [⟨.created (s.txns.txn id), data⟩] := by
  obtain ⟨row, hrow⟩ := BTreeMap.mem_iff_get.1 h
  rw [versions, get_row, if_pos rfl, versions, hrow]
  rfl

theorem versions_new {data : RowData} : (s.step (.row id r (.new data))).versions r =
    [⟨.created (s.txns.txn id), data⟩] := by
  rw [versions, get_row, if_pos rfl]
  rfl

/-- A version of a transaction in progress is visible to nobody else. -/
theorem isVisible_active (hc : v.createdBy ∈ s.txns.active) (hne : v.createdBy ≠ id) :
    v.isVisible (s.txns.txn id) = false :=
  TxnState.unseen hc hne

theorem visibleData_eq : s.visibleData id r =
    (LastMatch.findLast (·.isVisible (s.txns.txn id)) (s.versions r)).map (·.data) := by
  rw [visibleData, versions]
  cases s.rows[r]? <;> rfl

/-! ## Invariants of every run -/

/-- What holds of the versions of every row whatever the transactions do: no stamp is from the
    future, and a transaction in progress alone marks what it creates. -/
structure Inv (s : RowStore) : Prop where
  wf : s.txns.Wf
  created_lt : ∀ r, ∀ v ∈ s.versions r, v.createdBy < s.txns.nextTransactionId
  deleted_lt : ∀ r, ∀ v ∈ s.versions r, ∀ d, v.deletedBy = some d → d < s.txns.nextTransactionId
  own : ∀ r, ∀ v ∈ s.versions r, v.createdBy ∈ s.txns.active →
    v.deletedBy = none ∨ v.deletedBy = some v.createdBy

theorem inv_new : Inv new where
  wf := TxnState.wf_new
  created_lt r v hv := by simp [versions, new] at hv
  deleted_lt r v hv := by simp [versions, new] at hv
  own r v hv := by simp [versions, new] at hv

theorem Inv.rollback (h : s.Inv) (hid : id ∈ s.txns.active) :
    (s.step (.txn (.rollbackTransaction id))).Inv where
  wf := h.wf.rollback
  created_lt r v hv := by
    rw [versions_rollback] at hv
    obtain ⟨u, hu, rfl⟩ := List.mem_map.1 hv
    rw [InternalRow.rollback_createdBy]
    exact h.created_lt r u hu
  deleted_lt r v hv d hd := by
    rw [versions_rollback] at hv
    obtain ⟨u, hu, rfl⟩ := List.mem_map.1 hv
    rw [InternalRow.rollback_deletedBy] at hd
    split_ifs at hd with hc hd'
    · rcases Option.or_eq_some_iff.1 hd with hd | ⟨-, hd⟩
      · exact h.deleted_lt r u hu d hd
      · exact Option.some.inj hd ▸ h.wf.active_lt id hid
    · exact h.deleted_lt r u hu d hd
  own r v hv ha := by
    rw [versions_rollback] at hv
    obtain ⟨u, hu, rfl⟩ := List.mem_map.1 hv
    rw [InternalRow.rollback_createdBy] at ha ⊢
    obtain ⟨hne, hact⟩ := TxnState.mem_active_rollback.1 ha
    have hne' : u.createdBy ≠ (s.txns.txn id).transactionId := hne
    rw [InternalRow.rollback_deletedBy, if_neg hne']
    split_ifs
    · exact Or.inl rfl
    · exact h.own r u hu hact

theorem Inv.row (h : s.Inv) (hid : id ∈ s.txns.active) : (s.step (.row id rowId op)).Inv where
  wf := h.wf
  created_lt r v hv := by
    rcases mem_versions_row hv with hv | ⟨-, hv⟩ | ⟨-, u, hu, -, rfl⟩
    · exact h.created_lt r v hv
    · rw [InternalRow.createdBy, hv]; exact h.wf.active_lt id hid
    · exact h.created_lt r u hu
  deleted_lt r v hv d hd := by
    rcases mem_versions_row hv with hv | ⟨-, hv⟩ | ⟨-, u, hu, -, rfl⟩
    · exact h.deleted_lt r v hv d hd
    · rw [InternalRow.deletedBy, hv] at hd; cases hd
    · exact Option.some.inj hd ▸ h.wf.active_lt id hid
  own r v hv ha := by
    rcases mem_versions_row hv with hv | ⟨-, hv⟩ | ⟨-, u, hu, hvis, rfl⟩
    · exact h.own r v hv ha
    · exact Or.inl (by rw [InternalRow.deletedBy, hv]; rfl)
    · have hc : u.createdBy = id := by
        by_contra hc
        exact absurd hvis (Bool.eq_false_iff.1 (TxnState.unseen ha hc))
      exact Or.inr (congrArg some hc.symm)

theorem Inv.step (h : s.Inv) (ho : s.Enabled o) : (s.step o).Inv := by
  cases o with
  | row id rowId op => exact h.row (enabled_active ho)
  | txn t =>
    cases t with
    | rollbackTransaction id => exact h.rollback ho
    | createTransaction =>
      refine ⟨h.wf.create, fun r v hv => Nat.lt_succ_of_lt (h.created_lt r v hv),
        fun r v hv d hd => Nat.lt_succ_of_lt (h.deleted_lt r v hv d hd), fun r v hv ha => ?_⟩
      rcases TxnState.mem_active_create.1 ha with he | ha
      · exact absurd he (ne_of_lt (h.created_lt r v hv))
      · exact h.own r v hv ha
    | commitTransaction id =>
      exact ⟨h.wf.commit ho, h.created_lt, h.deleted_lt,
        fun r v hv ha => h.own r v hv (TxnState.mem_active_commit.1 ha).2⟩

theorem Run.inv (h : Run ops) : (after ops).Inv :=
  h.invariant inv_new fun _ _ => Inv.step

end RowStore

end AntDb
