/-
  What a rolled-back transaction leaves behind.

  `eraseVersion T` is a version as it would be had `T` never written: gone if `T`
  created it, and without `T`'s mark otherwise.  A run and the same run without the
  row operations of `T` stay related by it, as long as `T` replaces nobody's mark and
  nobody updates a row that exists through `T` alone.
-/
import AntDb.RowStore

namespace AntDb.RowStore

open LastMatch Runs

variable {s s' : RowStore} {T U V r : ℕ} {op : RowOp} {o : StoreOp} {v : InternalRow} {row : Row}
  {ops : List StoreOp}

def unmark (T : TransactionID) (v : InternalRow) : InternalRow :=
  if v.deletedBy = some T then { v with transactionHeader.deletedBy := none } else v

def eraseVersion (T : TransactionID) (v : InternalRow) : Option InternalRow :=
  if v.createdBy = T then none else some (unmark T v)

def eraseRow (T : TransactionID) (row : Row) : Option Row :=
  match row.versions.filterMap (eraseVersion T) with
  | [] => none
  | v :: versions => some ⟨v :: versions⟩

/-- The store `s'` is the store `s` without what `T` wrote. -/
structure Erased (T : TransactionID) (s s' : RowStore) : Prop where
  txns : s'.txns = s.txns
  rows : ∀ r : RowID, s'.rows[r]? = s.rows[r]?.bind (eraseRow T)

/-- The stamps of `T` are undone: its versions are hidden and its marks are gone. -/
def Undone (T : TransactionID) (v : InternalRow) : Prop :=
  (v.createdBy = T → v.deletedBy = some T) ∧ (v.deletedBy = some T → v.createdBy = T)

/-- The operation can be undone: an operation of `T` marks no version that is marked already,
    and another transaction updates no row all of whose versions are `T`'s. -/
def Undoable (T : TransactionID) (s : RowStore) : StoreOp → Prop
  | .txn _ => True
  | .row id r op =>
    if id = T then
      ∀ v ∈ findLast (·.isVisible (s.txns.txn T)) (s.versions r), v.deletedBy = none
    else
      op.isUpdate = true → r ∈ s.rows → ∃ v ∈ s.versions r, v.createdBy ≠ T

instance (T : TransactionID) (s : RowStore) : (o : StoreOp) → Decidable (Undoable T s o)
  | .txn _ => isTrue trivial
  | .row _ _ _ => inferInstanceAs (Decidable (ite _ _ _))

def isRowOpOf (T : TransactionID) : StoreOp → Bool
  | .txn _ => false
  | .row id _ _ => id = T

/-! ## Erasing -/

@[simp] theorem unmark_createdBy : (unmark T v).createdBy = v.createdBy := by
  unfold unmark; split_ifs <;> rfl

@[simp] theorem unmark_data : (unmark T v).data = v.data := by
  unfold unmark; split_ifs <;> rfl

theorem unmark_deletedBy :
    (unmark T v).deletedBy = if v.deletedBy = some T then none else v.deletedBy := by
  unfold unmark; split_ifs <;> rfl

theorem unmark_eq (h : v.deletedBy ≠ some T) : unmark T v = v := if_neg h

theorem eraseVersion_own (h : v.createdBy = T) : eraseVersion T v = none := if_pos h

theorem eraseVersion_other (h : v.createdBy ≠ T) : eraseVersion T v = some (unmark T v) := if_neg h

theorem eraseVersion_some {w : InternalRow} (h : eraseVersion T v = some w) :
    v.createdBy ≠ T ∧ w = unmark T v := by
  unfold eraseVersion at h
  split_ifs at h with hc
  exact ⟨hc, (Option.some.inj h).symm⟩

theorem eraseRow_eq {vs : List InternalRow} :
    eraseRow T ⟨vs⟩ =
      if vs.filterMap (eraseVersion T) = [] then none else some ⟨vs.filterMap (eraseVersion T)⟩ := by
  unfold eraseRow
  dsimp only
  split <;> simp_all

/-- Nobody but `T` sees a version of `T` that is in progress or undone. -/
theorem isVisible_own_other (hU : U ≠ T) (hT : T ∈ s.txns.active ∨ Undone T v)
    (hc : v.createdBy = T) : v.isVisible (s.txns.txn U) = false := by
  rcases hT with hT | hT
  · exact isVisible_active (hc ▸ hT) (hc ▸ hU.symm)
  · rw [Bool.eq_false_iff, ne_eq, InternalRow.isVisible_other (hc ▸ hU.symm)]
    rintro ⟨hr, hd⟩
    exact hd T (hT.1 hc) (Or.inr (Or.inr (hc ▸ hr.2)))

/-- Nobody but `T` sees more or less of a version once `T`'s stamps are erased. -/
theorem erases (hs : s.txns.Wf) (hU : U ≠ T) {vs : List InternalRow}
    (hT : T ∈ s.txns.active ∨ ∀ v ∈ vs, Undone T v) :
    Erases (eraseVersion T) (·.isVisible (s.txns.txn U)) (·.isVisible (s.txns.txn U)) vs := by
  have hown : ∀ v ∈ vs, v.createdBy = T → v.isVisible (s.txns.txn U) = false :=
    fun v hv hc => isVisible_own_other hU (hT.imp_right fun h => h v hv) hc
  have hother : ∀ v ∈ vs, v.createdBy ≠ T →
      (unmark T v).isVisible (s.txns.txn U) = v.isVisible (s.txns.txn U) := by
    intro v hv hc
    by_cases hd : v.deletedBy = some T
    · have hT : T ∈ s.txns.active := hT.resolve_right fun h => hc ((h v hv).2 hd)
      have hnone : (unmark T v).deletedBy = none := by rw [unmark_deletedBy, if_pos hd]
      rw [Bool.eq_iff_iff]
      by_cases hcU : v.createdBy = U
      · rw [InternalRow.isVisible_own (unmark_createdBy.trans hcU), InternalRow.isVisible_own hcU,
          hnone, hd]
        exact iff_of_true (by simp) fun h => hU (Option.some.inj h).symm
      · rw [InternalRow.isVisible_other (by rwa [unmark_createdBy]), InternalRow.isVisible_other hcU,
          hnone, hd, unmark_createdBy]
        refine and_congr_right fun _ => iff_of_true (by simp) ?_
        rintro d ⟨⟩; exact hs.not_hides hT hU
    · rw [unmark_eq hd]
  constructor
  · intro v hv hvis
    have hc : v.createdBy ≠ T := fun hc => absurd hvis (Bool.eq_false_iff.1 (hown v hv hc))
    exact ⟨_, eraseVersion_other hc, (hother v hv hc).trans hvis⟩
  · intro v hv hvis w hw
    obtain ⟨hc, rfl⟩ := eraseVersion_some hw
    exact (hother v hv hc).trans hvis

/-- What another transaction sees of the two stores. -/
theorem Erased.visibleData (h : Erased T s s') (hs : s.txns.Wf) (hV : V ≠ T)
    (hT : T ∈ s.txns.active ∨ ∀ v ∈ s.versions r, Undone T v) :
    s'.visibleData V r = s.visibleData V r := by
  have hvers : s'.versions r = (s.versions r).filterMap (eraseVersion T) := by
    rw [versions, h.rows r, versions]
    cases s.rows[r]? with
    | none => rfl
    | some row =>
      obtain ⟨vs⟩ := row
      simp only [Option.bind_some, Option.map_some, Option.getD_some, eraseRow_eq]
      split_ifs with hnil
      · exact hnil.symm
      · rfl
  rw [visibleData_eq, visibleData_eq, h.txns, hvers, (erases hs hV hT).findLast]
  cases hf : findLast (·.isVisible (s.txns.txn V)) (s.versions r) with
  | none => rfl
  | some v =>
    obtain ⟨pre, post, hv⟩ := findLast_some.1 hf
    obtain ⟨w, hw, -⟩ := (erases hs hV hT).keeps v hv.mem hv.holds
    obtain ⟨-, rfl⟩ := eraseVersion_some hw
    rw [Option.bind_some, hw]
    exact congrArg some unmark_data

/-! ## The two runs -/

/-- Marking the newest version that `U` sees, in a row and in its erasure. -/
theorem erase_updateLast (hs : s.txns.Wf) (hU : U ≠ T) {vs : List InternalRow}
    (hT : T ∈ s.txns.active ∨ ∀ v ∈ vs, Undone T v) :
    (updateLast (·.isVisible (s.txns.txn U)) (·.mark (s.txns.txn U)) vs).filterMap
        (eraseVersion T) =
      updateLast (·.isVisible (s.txns.txn U)) (·.mark (s.txns.txn U))
        (vs.filterMap (eraseVersion T)) := by
  refine (erases hs hU hT).updateLast fun v hv _ w hw => ?_
  obtain ⟨hc, rfl⟩ := eraseVersion_some hw
  have hd : (v.mark (s.txns.txn U)).deletedBy ≠ some T := fun h => hU (Option.some.inj h)
  rw [eraseVersion_other (v := v.mark _) hc, unmark_eq hd]
  unfold unmark
  split_ifs <;> rfl

/-- An operation of another transaction does the same to a row and to its erasure. -/
theorem erase_apply (hs : s.txns.Wf) (hU : U ≠ T)
    (hT : T ∈ s.txns.active ∨ ∀ v ∈ s.versions r, Undone T v)
    (ho : s.Enabled (.row U r op)) (hu : Undoable T s (.row U r op)) :
    (op.apply (s.txns.txn U) s.rows[r]?).bind (eraseRow T) =
      op.apply (s.txns.txn U) (s.rows[r]?.bind (eraseRow T)) := by
  have hpush : ∀ data, eraseVersion T ⟨.created (s.txns.txn U), data⟩ =
      some ⟨.created (s.txns.txn U), data⟩ := fun data => by
    rw [eraseVersion_other (v := ⟨.created (s.txns.txn U), data⟩) hU, unmark_eq (by simp [
      TransactionHeader.created])]
  cases hrow : s.rows[r]? with
  | none =>
    cases op with
    | new data => simp [RowOp.apply, Row.new, eraseRow_eq, hpush]
    | update data => rfl
    | remove => rfl
  | some row =>
    rw [versions_of_get hrow] at hT
    have hmark := erase_updateLast hs hU hT
    obtain ⟨vs⟩ := row
    cases op with
    | new data => exact absurd (BTreeMap.mem_of_get hrow) ho.2
    | update data =>
      obtain ⟨v, hv, hc⟩ : ∃ v ∈ vs, v.createdBy ≠ T := by
        rw [Undoable, if_neg hU, versions_of_get hrow] at hu
        exact hu rfl (BTreeMap.mem_of_get hrow)
      have hne : vs.filterMap (eraseVersion T) ≠ [] :=
        List.ne_nil_of_mem (List.mem_filterMap.2 ⟨v, hv, eraseVersion_other hc⟩)
      simp only [RowOp.apply, Option.map_some, Option.bind_some, Row.update, eraseRow_eq,
        List.filterMap_append, hmark, if_neg hne]
      simp [hpush]
    | remove =>
      simp only [RowOp.apply, Option.map_some, Option.bind_some, Row.remove, eraseRow_eq, hmark,
        updateLast_eq_nil]
      split_ifs <;> rfl

/-- A rollback of `U` does the same to a version and to its erasure. -/
theorem eraseVersion_rollback {txn : Transaction}
    (hown : v.createdBy = txn.transactionId →
      v.deletedBy = none ∨ v.deletedBy = some txn.transactionId) :
    eraseVersion T (v.rollback txn) = (eraseVersion T v).map (·.rollback txn) := by
  by_cases hc : v.createdBy = T
  · rw [eraseVersion_own hc, eraseVersion_own (by rwa [InternalRow.rollback_createdBy])]; rfl
  rw [eraseVersion_other hc, eraseVersion_other (by rwa [InternalRow.rollback_createdBy]),
    Option.map_some]
  congr 1
  by_cases hd : v.deletedBy = some T
  · by_cases hU : txn.transactionId = T
    · have hr : (unmark T v).rollback txn = unmark T v :=
        InternalRow.rollback_eq (by rwa [unmark_createdBy, hU])
          (by rw [unmark_deletedBy, if_pos hd]; simp)
      have hr' : v.rollback txn = unmark T v := by
        obtain ⟨⟨c, d⟩, data⟩ := v
        simp only [InternalRow.createdBy, InternalRow.deletedBy] at hc hd
        subst hd
        simp [InternalRow.rollback, TransactionHeader.rollback, unmark, hU, hc]
      rw [hr, hr', unmark_eq (by rw [unmark_deletedBy, if_pos hd]; simp)]
    · have hcU : v.createdBy ≠ txn.transactionId := fun h => by
        rcases hown h with h' | h'
        · rw [h'] at hd; cases hd
        · exact hU (Option.some.inj (h'.symm.trans hd))
      have hr : v.rollback txn = v :=
        InternalRow.rollback_eq hcU fun h => hU (Option.some.inj (h.symm.trans hd))
      rw [hr, InternalRow.rollback_eq (by rwa [unmark_createdBy])
        (by rw [unmark_deletedBy, if_pos hd]; simp)]
  · have hd' : (v.rollback txn).deletedBy ≠ some T := by
      rw [InternalRow.rollback_deletedBy]
      split_ifs with hcU
      · intro h
        rcases Option.or_eq_some_iff.1 h with h | ⟨-, h⟩
        · exact hd h
        · exact hc (hcU.trans (Option.some.inj h))
      · simp
      · exact hd
    rw [unmark_eq hd, unmark_eq hd']

theorem erase_rollback (hs : s.Inv) {id : TransactionID} (hid : id ∈ s.txns.active) (r : RowID) :
    ((s.versions r).map (·.rollback (s.txns.txn id))).filterMap (eraseVersion T) =
      ((s.versions r).filterMap (eraseVersion T)).map (·.rollback (s.txns.txn id)) := by
  rw [List.filterMap_map, List.map_filterMap]
  refine List.filterMap_congr fun v hv => eraseVersion_rollback fun hc => ?_
  have h := hs.own r v hv (by rw [hc]; exact hid)
  rwa [hc] at h

theorem Erased.step (h : Erased T s s') (hs : s.Inv)
    (hT : T ∈ s.txns.active ∨ ∀ r, ∀ v ∈ s.versions r, Undone T v)
    (ho : s.Enabled o) (hu : Undoable T s o) (hrow : isRowOpOf T o = false) :
    Erased T (s.step o) (s'.step o) := by
  cases o with
  | txn t =>
    refine ⟨by rw [step_txns, step_txns, h.txns], fun r => ?_⟩
    cases t with
    | createTransaction => exact h.rows r
    | commitTransaction id => exact h.rows r
    | rollbackTransaction id =>
      show (s'.rollbackRows id)[r]? = (s.rollbackRows id)[r]?.bind _
      rw [get_rollback, get_rollback, h.rows r, h.txns]
      cases hget : s.rows[r]? with
      | none => rfl
      | some row =>
        obtain ⟨vs⟩ := row
        have hback := erase_rollback (T := T) hs ho r
        rw [versions_of_get hget] at hback
        simp only [Option.bind_some, Option.map_some, Row.rollbackTransaction, eraseRow_eq, hback,
          List.map_eq_nil_iff]
        split_ifs <;> rfl
  | row U rowId op =>
    have hU : U ≠ T := fun e => by simp [isRowOpOf, e] at hrow
    refine ⟨h.txns, fun r => ?_⟩
    rw [get_row, get_row]
    split_ifs with hr
    · subst hr
      rw [h.rows rowId, h.txns, erase_apply hs.wf hU (hT.imp_right fun h => h rowId) ho hu]
    · exact h.rows r

/-- The row operations of `T` do not show in the erasure. -/
theorem Erased.own (h : Erased T s s') (ho : s.Enabled (.row T r op))
    (hu : Undoable T s (.row T r op)) : Erased T (s.step (.row T r op)) s' := by
  refine ⟨h.txns, fun r' => ?_⟩
  rw [get_row, h.rows r']
  split_ifs with hr
  · subst hr
    have hpush : ∀ data, eraseVersion T ⟨.created (s.txns.txn T), data⟩ = none := fun data =>
      eraseVersion_own (v := ⟨.created (s.txns.txn T), data⟩) rfl
    have hmark : ∀ vs, s.versions r = vs → (updateLast (·.isVisible (s.txns.txn T))
        (·.mark (s.txns.txn T)) vs).filterMap (eraseVersion T) = vs.filterMap (eraseVersion T) := by
      rintro _ rfl
      rcases LastMatch.cases (·.isVisible (s.txns.txn T)) (s.versions r) with hn | ⟨pre, v, post, hv⟩
      · rw [updateLast_none hn]
      · have hd : v.deletedBy = none := by
          rw [Undoable, if_pos rfl, hv.findLast] at hu
          exact hu v rfl
        have hv' : eraseVersion T (v.mark (s.txns.txn T)) = eraseVersion T v := by
          obtain ⟨⟨c, d⟩, data⟩ := v
          obtain rfl : d = none := hd
          simp [eraseVersion, unmark, InternalRow.mark, TransactionHeader.mark]
        rw [hv.updateLast, hv.eq]
        simp only [List.filterMap_append, List.filterMap_cons, hv']
    cases hget : s.rows[r]? with
    | none =>
      cases op with
      | new data => simp [RowOp.apply, Row.new, eraseRow_eq, hpush]
      | update data => rfl
      | remove => rfl
    | some row =>
      have hm := hmark _ (versions_of_get hget)
      obtain ⟨vs⟩ := row
      cases op with
      | new data => exact absurd (BTreeMap.mem_of_get hget) ho.2
      | update data =>
        simp [RowOp.apply, Row.update, eraseRow_eq, hm, hpush]
      | remove =>
        simp [RowOp.apply, Row.remove, eraseRow_eq, hm]
  · rfl

/-- `T` is in progress or has left nothing. -/
def NoTrace (T : TransactionID) (s : RowStore) : Prop :=
  T ∈ s.txns.active ∨ ∀ r, ∀ v ∈ s.versions r, Undone T v

theorem NoTrace.step (h : NoTrace T s) (hs : s.Inv) (ho : s.Enabled o)
    (hne : o ≠ .txn (.commitTransaction T)) : NoTrace T (s.step o) := by
  by_cases hT : T ∈ s.txns.active
  · cases o with
    | row U r op => exact Or.inl hT
    | txn t =>
      cases t with
      | createTransaction => exact Or.inl (TxnState.mem_active_create.2 (Or.inr hT))
      | commitTransaction id =>
        refine Or.inl (TxnState.mem_active_commit.2 ⟨?_, hT⟩)
        rintro rfl; exact hne rfl
      | rollbackTransaction id =>
        by_cases hid : id = T
        · subst hid
          refine Or.inr fun r v hv => ?_
          rw [versions_rollback] at hv
          obtain ⟨u, hu, rfl⟩ := List.mem_map.1 hv
          rw [Undone, InternalRow.rollback_createdBy, InternalRow.rollback_deletedBy,
            TxnState.txn_transactionId]
          constructor
          · intro hc
            rw [if_pos hc]
            rcases hs.own r u hu (hc ▸ hT) with hd | hd
            · rw [hd]; rfl
            · rw [hd, hc]; rfl
          · intro hd
            split_ifs at hd with hc hd'
            · exact hc
            · exact absurd hd hd'
        · exact Or.inl (TxnState.mem_active_rollback.2 ⟨fun e => hid e.symm, hT⟩)
  · have hund := h.resolve_left hT
    cases o with
    | row U r op =>
      have hU : U ≠ T := fun e => hT (e ▸ enabled_active ho)
      refine Or.inr fun r' v hv => ?_
      rcases mem_versions_row hv with hv | ⟨-, hv⟩ | ⟨rfl, u, hu, hvis, rfl⟩
      · exact hund r' v hv
      · have hc : v.createdBy ≠ T := by rw [InternalRow.createdBy, hv]; exact hU
        have hd : v.deletedBy = none := by rw [InternalRow.deletedBy, hv]; rfl
        exact ⟨fun h => absurd h hc, fun h => by rw [hd] at h; cases h⟩
      · constructor
        · intro hc
          have := isVisible_own_other (s := s) hU (Or.inr (hund r u hu)) hc
          rw [hvis] at this; cases this
        · exact fun hd => absurd (Option.some.inj hd) hU
    | txn t =>
      cases t with
      | createTransaction => exact Or.inr fun r v hv => hund r v hv
      | commitTransaction id => exact Or.inr fun r v hv => hund r v hv
      | rollbackTransaction id =>
        have hid : id ≠ T := fun e => hT (e ▸ ho)
        refine Or.inr fun r v hv => ?_
        rw [versions_rollback] at hv
        obtain ⟨u, hu, rfl⟩ := List.mem_map.1 hv
        rw [Undone, InternalRow.rollback_createdBy, InternalRow.rollback_deletedBy,
          TxnState.txn_transactionId]
        constructor
        · intro hc
          have hd := (hund r u hu).1 hc
          rw [if_neg fun e => hid (e.symm.trans hc), hd, if_neg fun e => hid (Option.some.inj e).symm]
        · intro hd
          split_ifs at hd with hc hd'
          · rcases Option.or_eq_some_iff.1 hd with hd | ⟨-, hd⟩
            · exact (hund r u hu).2 hd
            · exact absurd (Option.some.inj hd) hid
          · exact (hund r u hu).2 hd

/-! ## A rolled-back transaction leaves no trace -/

theorem ended_run (h : Each step Enabled s ops) (hT : s.txns.Ended T) :
    (exec step s ops).txns.Ended T := by
  refine h.invariant (I := fun s => s.txns.Ended T) hT fun s o hs _ => ?_
  cases o with
  | row id r op => exact hs
  | txn t => rw [step_txns]; exact hs.step t

/-- A transaction ends once. -/
theorem ends_once {t t' : TxnOp} {p q q' : List StoreOp}
    (h : Run (p ++ .txn t :: (q ++ .txn t' :: q')))
    (ht : t = .commitTransaction T ∨ t = .rollbackTransaction T)
    (ht' : t' = .commitTransaction T ∨ t' = .rollbackTransaction T) : False := by
  obtain ⟨hp, ho, hq⟩ := each_append.1 h
  obtain ⟨hq, ho', -⟩ := each_append.1 hq
  have hend : ((exec step new p).step (.txn t)).txns.Ended T := by
    rw [step_txns]
    rcases ht with rfl | rfl
    · exact (Run.inv hp).wf.ended_commit ho
    · exact (Run.inv hp).wf.ended_rollback ho
  have hact := (ended_run hq hend).2
  rcases ht' with rfl | rfl
  · exact hact ho'
  · exact hact ho'

theorem Run.not_commit (h : Run ops) (hT : .txn (.rollbackTransaction T) ∈ ops) :
    .txn (.commitTransaction T) ∉ ops := by
  intro hc
  obtain ⟨p, q, rfl⟩ := List.append_of_mem hT
  rcases List.mem_append.1 hc with hc | hc
  · obtain ⟨p, q', rfl⟩ := List.append_of_mem hc
    rw [List.append_assoc, List.cons_append] at h
    exact ends_once h (Or.inl rfl) (Or.inr rfl)
  · obtain ⟨q, q', rfl⟩ := List.append_of_mem ((List.mem_cons.1 hc).resolve_left (by simp))
    exact ends_once h (Or.inr rfl) (Or.inl rfl)

/-- The run without the row operations of `T`. -/
def without (T : TransactionID) (ops : List StoreOp) : List StoreOp :=
  ops.filter fun o => !isRowOpOf T o

theorem erased_run (h : Run ops) (hu : Each step (Undoable T) new ops)
    (hc : .txn (.commitTransaction T) ∉ ops) :
    NoTrace T (after ops) ∧ Erased T (after ops) (after (without T ops)) := by
  induction ops using List.reverseRecOn with
  | nil =>
    refine ⟨Or.inr fun r v hv => by simp [versions, new] at hv, rfl, fun r => ?_⟩
    show new.rows[r]? = new.rows[r]?.bind (eraseRow T)
    simp [new]
  | append_singleton ops o ih =>
    obtain ⟨h, ho⟩ := each_snoc.1 h
    obtain ⟨hu, huo⟩ := each_snoc.1 hu
    have hc' : .txn (.commitTransaction T) ∉ ops ∧ o ≠ .txn (.commitTransaction T) := by
      simpa [eq_comm] using hc
    obtain ⟨hT, hE⟩ := ih h hu hc'.1
    have hs := Run.inv h
    rw [after, exec_snoc]
    refine ⟨hT.step hs ho hc'.2, ?_⟩
    rw [without, List.filter_append]
    cases hrow : isRowOpOf T o with
    | false =>
      rw [List.filter_singleton, hrow]
      show Erased T _ (exec step new (_ ++ [o]))
      rw [exec_snoc]
      exact hE.step hs hT ho huo hrow
    | true =>
      rw [List.filter_singleton, hrow]
      obtain ⟨r, op, rfl⟩ : ∃ r op, o = .row T r op := by
        cases o with
        | txn t => simp [isRowOpOf] at hrow
        | row id r op => exact ⟨r, op, by rw [of_decide_eq_true hrow]⟩
      show Erased T _ (exec step new (_ ++ []))
      rw [List.append_nil]
      exact hE.own ho huo

/-- **A rolled-back transaction leaves no trace.**  If every operation of the run can be undone,
    the others see in the end what they would see had `T` never written a row. -/
theorem rollback_traceless (h : Run ops) (hT : .txn (.rollbackTransaction T) ∈ ops)
    (hu : Each step (Undoable T) new ops) :
    ∀ V, V ≠ T → ∀ r, (after ops).visibleData V r = (after (without T ops)).visibleData V r := by
  intro V hV r
  obtain ⟨hN, hE⟩ := erased_run h hu (Run.not_commit h hT)
  exact (hE.visibleData (Run.inv h).wf hV (hN.imp_right fun h => h r)).symm

/-- Transaction 2 updates a row and rolls back. -/
theorem rollback_traceless_update :
    let ops : List StoreOp := [.txn .createTransaction, .row 1 0 (.new ∅),
      .txn (.commitTransaction 1), .txn .createTransaction, .row 2 0 (.update ∅),
      .txn (.rollbackTransaction 2)]
    ∀ V, V ≠ 2 → ∀ r, (after ops).visibleData V r = (after (without 2 ops)).visibleData V r :=
  rollback_traceless (by decide) (by decide) (by decide)

/-- Transaction 3 removes the row that transaction 2 has removed and rolls back: the row is there
    again, although transaction 2 commits. -/
theorem rollback_undoes_other_remove :
    let ops : List StoreOp := [.txn .createTransaction, .row 1 0 (.new ∅),
      .txn (.commitTransaction 1), .txn .createTransaction, .txn .createTransaction,
      .row 2 0 .remove, .row 3 0 .remove, .txn (.rollbackTransaction 3),
      .txn (.commitTransaction 2)]
    Run ops ∧ .txn (.rollbackTransaction 3) ∈ ops ∧
      ¬ ∀ V, V ≠ 3 → ∀ r, (after ops).visibleData V r = (after (without 3 ops)).visibleData V r :=
  ⟨by decide, by decide, fun h => absurd (h 4 (by decide) 0) (by decide)⟩

end AntDb.RowStore
