/-
  Serial histories of a row store, and the map of rows they amount to.

  With at most one transaction in progress a version is seen if and only if it has no mark.  The
  map has the data of these versions, and what it was when the transaction began is in the
  versions that its rollback would leave without a mark.
-/
import AntDb.Snapshots

namespace AntDb

/-- A map of rows with undo: what the rows are, and what they were when the transaction began. -/
structure RowsWithUndo where
  rows : BTreeMap RowID RowData
  saved : BTreeMap RowID RowData

namespace RowsWithUndo

/-- The rows when a transaction begins. -/
def begun (ref : RowsWithUndo) : RowsWithUndo := ⟨ref.rows, ref.rows⟩

def insert (ref : RowsWithUndo) (r : RowID) (data : RowData) : RowsWithUndo :=
  { ref with rows := ref.rows.insert r data }

def erase (ref : RowsWithUndo) (r : RowID) : RowsWithUndo := { ref with rows := ref.rows.erase r }

/-- The changes since the transaction began are discarded. -/
def undone (ref : RowsWithUndo) : RowsWithUndo := ⟨ref.saved, ref.saved⟩

end RowsWithUndo

/-- The version has no mark. -/
def InternalRow.unmarked (v : InternalRow) : Bool := v.deletedBy = none

/-- A rollback of `T` leaves the version without a mark. -/
def InternalRow.restored (T : TransactionID) (v : InternalRow) : Bool :=
  v.createdBy ≠ T ∧ (v.deletedBy = none ∨ v.deletedBy = some T)

namespace RowStore

open LastMatch

variable {s s' : RowStore} {ref : RowsWithUndo} {r : RowID} {T V : TransactionID} {op : RowOp}
  {v : InternalRow} {data : RowData}

theorem findLast_eq_getLast? {α : Type} {p : α → Bool} {l : List α} : findLast p l = (l.filter p).getLast? := by
  rw [findLast, ← List.head?_filter, List.filter_reverse, List.head?_reverse]

/-- Nothing is left of one element that is unlike itself once it has been changed. -/
theorem filter_updateLast {α : Type} {p : α → Bool} {f : α → α} {l : List α} (hf : ∀ a, p (f a) = false)
    (hone : (l.filter p).length ≤ 1) : (updateLast p f l).filter p = [] := by
  rcases LastMatch.cases p l with hnone | ⟨pre, a, post, hlast⟩
  · rw [updateLast_none hnone]
    exact List.filter_eq_nil_iff.2 fun a ha => by simp [hnone a ha]
  · have hpost : post.filter p = [] := List.filter_eq_nil_iff.2 fun b hb => by simp [hlast.after b hb]
    rw [hlast.eq, List.filter_append, List.filter_cons_of_pos hlast.holds, hpost, List.length_append,
      List.length_singleton] at hone
    have hpre : pre.filter p = [] := List.length_eq_zero_iff.1 (by omega)
    rw [hlast.updateLast, List.filter_append, List.filter_cons_of_neg (by simp [hf a]), hpre, hpost]
    rfl

/-- Changing one element keeps what is said of it. -/
theorem map_filter_updateLast {α β : Type} {p q : α → Bool} {f : α → α} {g : α → β} {l : List α}
    (hq : ∀ a ∈ l, p a = true → q (f a) = q a) (hg : ∀ a, g (f a) = g a) :
    ((updateLast p f l).filter q).map g = (l.filter q).map g := by
  rcases LastMatch.cases p l with hnone | ⟨pre, a, post, hlast⟩
  · rw [updateLast_none hnone]
  · have hsame := hq a hlast.mem hlast.holds
    rw [hlast.updateLast, hlast.eq, List.filter_append, List.filter_append, List.map_append, List.map_append]
    congr 1
    rw [List.filter_cons, List.filter_cons, hsame]
    split_ifs
    · rw [List.map_cons, List.map_cons, hg]
    · rfl

theorem updateLast_congr {α : Type} {p q : α → Bool} {f : α → α} {l : List α} (h : ∀ a ∈ l, p a = q a) :
    updateLast p f l = updateLast q f l := by
  rcases LastMatch.cases p l with hnone | ⟨pre, a, post, hlast⟩
  · rw [updateLast_none hnone, updateLast_none fun a ha => (h a ha).symm.trans (hnone a ha)]
  · have hlast' : IsLast q l pre a post := ⟨hlast.eq, (h a hlast.mem).symm.trans hlast.holds, fun b hb => by
      rw [← h b (by rw [hlast.eq]; simp [hb]), hlast.after b hb]⟩
    rw [hlast.updateLast, hlast'.updateLast]

/-- A row with fewer versions is orderly. -/
theorem Orderly.of_subset (h : Orderly r s) (htxns : s'.txns = s.txns)
    (hsub : ∀ r, ∀ v ∈ s'.versions r, v ∈ s.versions r) : Orderly r s' where
  inv := ⟨htxns ▸ h.inv.wf, fun r v hv => htxns ▸ h.inv.created_lt r v (hsub r v hv),
    fun r v hv => htxns ▸ h.inv.deleted_lt r v (hsub r v hv), fun r v hv => htxns ▸ h.inv.own r v (hsub r v hv)⟩
  marks v hv := by rw [htxns]; exact h.marks v (hsub r v hv)
  creators v hv := by rw [htxns]; exact h.creators v (hsub r v hv)

/-- The store of a serial history that amounts to `ref`. -/
structure Mirrors (s : RowStore) (ref : RowsWithUndo) : Prop where
  orderly : ∀ r, Orderly r s
  latest : ∀ a ∈ s.txns.active, a + 1 = s.txns.nextTransactionId
  rows : ∀ r : RowID, ((s.versions r).filter (·.unmarked)).map (·.data) = ref.rows[r]?.toList
  saved : ∀ T ∈ s.txns.active, ∀ r : RowID,
    ((s.versions r).filter (·.restored T)).map (·.data) = ref.saved[r]?.toList

namespace Mirrors

theorem active_eq (h : s.Mirrors ref) (hT : T ∈ s.txns.active) (hV : V ∈ s.txns.active) : T = V :=
  Nat.succ_injective ((h.latest T hT).trans (h.latest V hV).symm)

theorem inv (h : s.Mirrors ref) : s.Inv := (h.orderly 0).inv

/-- The transaction in progress sees the versions without a mark. -/
theorem visible_iff (h : s.Mirrors ref) (hV : V ∈ s.txns.active) (hv : v ∈ s.versions r) :
    v.isVisible (s.txns.txn V) = v.unmarked := by
  rw [Bool.eq_iff_iff, (h.orderly r).visible_iff hV hv, InternalRow.unmarked, decide_eq_true_iff]
  constructor
  · rintro (⟨hc, hkept⟩ | ⟨-, -, hmarks⟩)
    · rcases h.inv.own r v hv (hc ▸ hV) with hnone | hown
      · exact hnone
      · exact absurd (hown.trans (congrArg some hc)) hkept
    · cases hd : v.deletedBy with
      | none => rfl
      | some d => exact absurd (h.active_eq (hmarks d hd).2 hV) (hmarks d hd).1
  · intro hnone
    rw [hnone]
    by_cases hact : v.createdBy ∈ s.txns.active
    · exact Or.inl ⟨h.active_eq hact hV, by simp⟩
    · exact Or.inr ⟨hact, by simp, by simp⟩

/-- **The transaction in progress sees the rows of the map.** -/
theorem visibleData (h : s.Mirrors ref) (hV : V ∈ s.txns.active) : s.visibleData V r = ref.rows[r]? := by
  have hsame : (s.versions r).filter (·.isVisible (s.txns.txn V)) = (s.versions r).filter (·.unmarked) :=
    List.filter_congr fun v hv => h.visible_iff hV hv
  rw [visibleData_eq, findLast_eq_getLast?, hsame, ← List.getLast?_map, h.rows r]
  cases ref.rows[r]? <;> rfl

/-! ## Begins and ends -/

theorem create (h : s.Mirrors ref) (hidle : ∀ a, a ∉ s.txns.active) :
    (s.step (.txn .createTransaction)).Mirrors ref.begun where
  orderly r := (h.orderly r).stepped trivial trivial
  latest a ha := by
    rcases TxnState.mem_active_create.1 ha with rfl | ha
    · rfl
    · exact absurd ha (hidle a)
  rows := h.rows
  saved T hT r := by
    have hT : T = s.txns.nextTransactionId := (TxnState.mem_active_create.1 hT).resolve_right (hidle T)
    refine Eq.trans (congrArg _ (List.filter_congr fun v hv => ?_)) (h.rows r)
    have hc : v.createdBy ≠ T := ne_of_lt (hT ▸ h.inv.created_lt r v hv)
    have hd : v.deletedBy ≠ some T := fun hd => ne_of_lt (h.inv.deleted_lt r v hv T hd) hT
    simp [InternalRow.restored, InternalRow.unmarked, hc, hd]

theorem commit (h : s.Mirrors ref) (hT : T ∈ s.txns.active) :
    (s.step (.txn (.commitTransaction T))).Mirrors ref := by
  have hle : ∀ d, d < s.txns.nextTransactionId → d ≤ T := fun d hd => by
    rw [← h.latest T hT] at hd
    exact Nat.lt_succ_iff.1 hd
  have hidle : ∀ a, a ∉ (s.step (.txn (.commitTransaction T))).txns.active := fun a ha => by
    obtain ⟨hne, ha⟩ := TxnState.mem_active_commit.1 ha
    exact hne (h.active_eq ha hT)
  exact ⟨fun r => (h.orderly r).stepped hT ⟨fun v hv d hd _ _ => hle d (h.inv.deleted_lt r v hv d hd),
      fun v hv _ _ => hle _ (h.inv.created_lt r v hv)⟩,
    fun a ha => absurd ha (hidle a), h.rows, fun a ha => absurd ha (hidle a)⟩

theorem rollback (h : s.Mirrors ref) (hT : T ∈ s.txns.active) :
    (s.step (.txn (.rollbackTransaction T))).Mirrors ref.undone := by
  have hidle : ∀ a, a ∉ (s.step (.txn (.rollbackTransaction T))).txns.active := fun a ha => by
    obtain ⟨hne, ha⟩ := TxnState.mem_active_rollback.1 ha
    exact hne (h.active_eq ha hT)
  refine ⟨fun r => (h.orderly r).stepped hT trivial, fun a ha => absurd ha (hidle a), fun r => ?_,
    fun a ha => absurd ha (hidle a)⟩
  have hsame : ∀ v ∈ s.versions r, (v.rollback (s.txns.txn T)).unmarked = v.restored T := by
    intro v hv
    rw [Bool.eq_iff_iff, InternalRow.unmarked, InternalRow.restored, decide_eq_true_iff, decide_eq_true_iff,
      InternalRow.rollback_deletedBy]
    by_cases hc : v.createdBy = T
    · rw [if_pos (show v.createdBy = (s.txns.txn T).transactionId from hc)]
      rcases h.inv.own r v hv (hc ▸ hT) with hd | hd <;> simp [hd, hc]
    · rw [if_neg (show v.createdBy ≠ (s.txns.txn T).transactionId from hc)]
      by_cases hd : v.deletedBy = some T
      · simp [hd, hc]
      · simp [hd, hc]
  rw [versions_rollback, List.filter_map, List.map_map]
  refine Eq.trans ?_ (h.saved T hT r)
  rw [List.filter_congr (q := (·.restored T)) hsame]
  rfl

/-! ## Writes -/

/-- No version without a mark is left of those there were before a write. -/
theorem filter_marked (h : s.Mirrors ref) (hT : T ∈ s.txns.active) :
    (updateLast (·.isVisible (s.txns.txn T)) (·.mark (s.txns.txn T)) (s.versions r)).filter (·.unmarked) = [] := by
  have hsame : updateLast (·.isVisible (s.txns.txn T)) (·.mark (s.txns.txn T)) (s.versions r) =
      updateLast (·.unmarked) (·.mark (s.txns.txn T)) (s.versions r) :=
    updateLast_congr fun v hv => h.visible_iff hT hv
  rw [hsame]
  refine filter_updateLast (fun v => by simp [InternalRow.unmarked]) ?_
  have hlength := congrArg List.length (h.rows r)
  rw [List.length_map] at hlength
  rw [hlength]
  cases ref.rows[r]? <;> simp

/-- A write to a row changes what the map has for it, and nothing that a rollback brings back. -/
theorem row {ref' : RowsWithUndo} (h : s.Mirrors ref) (ho : s.Enabled (.row T r op))
    (hrow : (((s.step (.row T r op)).versions r).filter (·.unmarked)).map (·.data) = ref'.rows[r]?.toList)
    (hother : ∀ r', r ≠ r' → ref'.rows[r']? = ref.rows[r']?) (hsaved : ref'.saved = ref.saved) :
    (s.step (.row T r op)).Mirrors ref' where
  orderly r := (h.orderly r).stepped ho trivial
  latest := h.latest
  rows r' := by
    by_cases hr : r = r'
    · subst hr
      exact hrow
    · rw [versions_other hr, hother r' hr]
      exact h.rows r'
  saved T' hT' r' := by
    rw [hsaved]
    refine Eq.trans ?_ (h.saved T' hT' r')
    by_cases hr : r = r'
    · subst hr
      obtain rfl := h.active_eq hT' (enabled_active ho)
      obtain ⟨new, -, hnew, heq⟩ := versions_row ho
      have hown : new.filter (·.restored T') = [] := List.filter_eq_nil_iff.2 fun w hw => by
        have hc : w.createdBy = T' := by rw [InternalRow.createdBy, hnew w hw]; rfl
        simp [InternalRow.restored, hc]
      rw [heq, List.filter_append, hown, List.append_nil]
      refine map_filter_updateLast (fun v hv hvisible => ?_) fun v => rfl
      rw [h.visible_iff hT' hv, InternalRow.unmarked, decide_eq_true_iff] at hvisible
      simp [InternalRow.restored, hvisible]
    · rw [versions_other hr]

theorem insert (h : s.Mirrors ref) (hT : T ∈ s.txns.active) (hr : r ∉ s.rows) :
    (s.step (.row T r (.new data))).Mirrors (ref.insert r data) := by
  refine h.row ⟨hT, hr⟩ ?_ (fun r' hr' => BTreeMap.get_insert_ne _ hr' _) rfl
  rw [versions_new, RowsWithUndo.insert, BTreeMap.get_insert, if_pos rfl]
  rfl

theorem update (h : s.Mirrors ref) (hT : T ∈ s.txns.active) (hr : r ∈ s.rows) :
    (s.step (.row T r (.update data))).Mirrors (ref.insert r data) := by
  refine h.row hT ?_ (fun r' hr' => BTreeMap.get_insert_ne _ hr' _) rfl
  rw [versions_update hr, List.filter_append, h.filter_marked hT, RowsWithUndo.insert, BTreeMap.get_insert,
    if_pos rfl]
  rfl

theorem remove (h : s.Mirrors ref) (hT : T ∈ s.txns.active) :
    (s.step (.row T r .remove)).Mirrors (ref.erase r) := by
  refine h.row hT ?_ (fun r' hr' => ?_) rfl
  · rw [versions_remove, h.filter_marked hT, RowsWithUndo.erase, BTreeMap.get_erase, if_pos rfl]
    rfl
  · rw [RowsWithUndo.erase, BTreeMap.get_erase, if_neg hr']

/-! ## The vacuum -/

/-- Dropping versions that were marked before any transaction in progress began. -/
theorem pruned (h : s.Mirrors ref) (htxns : s'.txns = s.txns) (hversions : ∀ r, s'.versions r =
    (s.versions r).filter (·.transactionHeader.survives s.txns.smallest)) : s'.Mirrors ref := by
  have hsub : ∀ r, ∀ v ∈ s'.versions r, v ∈ s.versions r := fun r v hv => by
    rw [hversions] at hv
    exact (List.mem_filter.1 hv).1
  have hkeeps : ∀ (p : InternalRow → Bool) r, (∀ v, p v = true →
      v.transactionHeader.survives s.txns.smallest = true) → (s'.versions r).filter p = (s.versions r).filter p := by
    intro p r hp
    rw [hversions, List.filter_filter]
    refine List.filter_congr fun v _ => ?_
    cases hv : p v with
    | false => rfl
    | true => rw [hp v hv]; rfl
  refine ⟨fun r => (h.orderly r).of_subset htxns hsub, by rw [htxns]; exact h.latest, fun r => ?_, fun T hT r => ?_⟩
  · rw [hkeeps _ r fun v hv => ?_]
    · exact h.rows r
    · rw [InternalRow.unmarked, decide_eq_true_iff] at hv
      have hv : v.transactionHeader.deletedBy = none := hv
      simp [TransactionHeader.survives, hv]
  · rw [htxns] at hT
    rw [hkeeps _ r fun v hv => ?_]
    · exact h.saved T hT r
    · rw [InternalRow.restored, decide_eq_true_iff] at hv
      rcases hv.2 with hd | hd
      · have hd : v.transactionHeader.deletedBy = none := hd
        simp [TransactionHeader.survives, hd]
      · have hd : v.transactionHeader.deletedBy = some T := hd
        simp [TransactionHeader.survives, hd, h.inv.wf.smallest_le T hT]

end Mirrors

end RowStore

end AntDb
