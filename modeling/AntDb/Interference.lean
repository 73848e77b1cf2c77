/-
  What one transaction's writes show to the others before it commits.

  A new version stays hidden while its creator is in progress, so the only way a write
  can reach another transaction `U` is through the mark it replaces: if that was `U`'s
  own, `U` sees the version again.
-/
import AntDb.RowStore

namespace AntDb.RowStore

open LastMatch

variable {s : RowStore} {T V r : ℕ} {op : RowOp} {v : InternalRow} {ops : List StoreOp}

/-- No mark that the operation replaces was hiding a version from its author `U`, or `U` does
    not notice: it sees a newer version, or the same data in an older one. -/
def RevealsNothing (s : RowStore) (T r : ℕ) : Prop :=
  ∀ pre v post U, IsLast (·.isVisible (s.txns.txn T)) (s.versions r) pre v post →
    v.createdBy ≠ T → v.deletedBy = some U →
      (∃ w ∈ post, w.isVisible (s.txns.txn U) = true) ∨ s.visibleData U r = some v.data

/-- What a mark of a transaction in progress leaves visible to the others. -/
theorem isVisible_marked (hs : s.txns.Wf) (hT : T ∈ s.txns.active) (hV : V ≠ T) :
    (v.mark (s.txns.txn T)).isVisible (s.txns.txn V) = true ↔
      v.createdBy = V ∨ TransactionHeader.Reads (s.txns.txn V) v.createdBy := by
  have hne : (s.txns.txn T).transactionId ≠ (s.txns.txn V).transactionId := hV.symm
  rw [InternalRow.isVisible_mark hne]
  exact or_congr_right (and_iff_left (hs.not_hides hT hV))

/-- The mark leaves a version as visible as it was to the others, unless it replaces a mark of
    theirs. -/
theorem isVisible_mark_other (hs : s.txns.Wf) (hT : T ∈ s.txns.active) (hV : V ≠ T)
    (hv : v.isVisible (s.txns.txn T) = true) (hd : v.createdBy = T ∨ v.deletedBy ≠ some V) :
    (v.mark (s.txns.txn T)).isVisible (s.txns.txn V) = v.isVisible (s.txns.txn V) := by
  rw [Bool.eq_iff_iff, isVisible_marked hs hT hV]
  by_cases hcT : v.createdBy = T
  · refine iff_of_false ?_ (Bool.eq_false_iff.1 (isVisible_active (hcT ▸ hT) (hcT ▸ hV.symm)))
    rintro (h | h)
    · exact hV (h.symm.trans hcT)
    · exact TxnState.not_reads (hcT ▸ hT) h
  have hd : v.deletedBy ≠ some V := hd.resolve_left hcT
  by_cases hc : v.createdBy = V
  · rw [InternalRow.isVisible_own hc]
    exact iff_of_true (Or.inl hc) hd
  · rw [InternalRow.isVisible_other hc, or_iff_right hc]
    refine (and_iff_left_of_imp fun _ d hd' hV' => ?_).symm
    have hnot := ((InternalRow.isVisible_other hcT).1 hv).2 d hd'
    exact hd (hd'.trans (congrArg some (TxnState.hides_author hnot hV')))

/-- A mark of `V` that another transaction replaces gives the version back to `V`. -/
theorem isVisible_unmarked (hs : s.txns.Wf) (hT : T ∈ s.txns.active) (hV : V ≠ T)
    (hv : v.isVisible (s.txns.txn T) = true) (hc : v.createdBy ≠ T) (hd : v.deletedBy = some V) :
    v.isVisible (s.txns.txn V) = false ∧
      (v.mark (s.txns.txn T)).isVisible (s.txns.txn V) = true := by
  have hr := ((InternalRow.isVisible_other hc).1 hv).1
  constructor
  · rw [Bool.eq_false_iff, ne_eq]
    by_cases hcV : v.createdBy = V
    · rw [InternalRow.isVisible_own hcV]
      exact fun h => h hd
    · rw [InternalRow.isVisible_other hcV]
      exact fun h => h.2 V hd (Or.inl rfl)
  · rw [isVisible_marked hs hT hV]
    by_cases hcV : v.createdBy = V
    · exact Or.inl hcV
    · exact Or.inr ⟨hcV, hr.2⟩

/-- What `V` sees of the row after the operation, before the mark and after it. -/
theorem visibleData_row (ho : s.Enabled (.row T r op)) (hV : V ≠ T) :
    (s.step (.row T r op)).visibleData V r =
      (findLast (·.isVisible (s.txns.txn V)) (updateLast (·.isVisible (s.txns.txn T))
        (·.mark (s.txns.txn T)) (s.versions r))).map (·.data) := by
  obtain ⟨new, -, hnew, heq⟩ := versions_row ho
  have hnone : findLast (·.isVisible (s.txns.txn V)) new = none := by
    refine findLast_none.2 fun w hw => ?_
    have hc : w.createdBy = T := by rw [InternalRow.createdBy, hnew w hw]; rfl
    exact isVisible_active (hc ▸ enabled_active ho) (hc ▸ hV.symm)
  rw [visibleData_eq, heq, findLast_append]
  show Option.map _ (Option.or (findLast (·.isVisible (s.txns.txn V)) new) _) = _
  rw [hnone, Option.none_or]; rfl

/-- Replacing a mark of `V` on the version `v` does not change what `V` sees of the row. -/
def Unnoticed (s : RowStore) (r V : ℕ) (v : InternalRow) (post : List InternalRow) : Prop :=
  (∃ w ∈ post, w.isVisible (s.txns.txn V) = true) ∨ s.visibleData V r = some v.data

/-- An operation that replaces no mark of `V`, or does so unnoticed, leaves the view of `V`. -/
theorem visibleData_unnoticed (hs : s.Inv) (ho : s.Enabled (.row T r op)) (hV : V ≠ T)
    (hrev : ∀ pre v post, IsLast (·.isVisible (s.txns.txn T)) (s.versions r) pre v post →
      v.createdBy ≠ T → v.deletedBy = some V → s.Unnoticed r V v post) :
    (s.step (.row T r op)).visibleData V r = s.visibleData V r := by
  have hT := enabled_active ho
  rw [visibleData_row ho hV]
  rcases LastMatch.cases (·.isVisible (s.txns.txn T)) (s.versions r) with hn | ⟨pre, v, post, hv⟩
  · rw [updateLast_none hn, visibleData_eq]
  · rw [hv.updateLast, findLast_split]
    have hbefore : s.visibleData V r = _ := visibleData_eq
    rw [hv.eq, findLast_split] at hbefore
    by_cases hd : v.createdBy = T ∨ v.deletedBy ≠ some V
    · rw [isVisible_mark_other hs.wf hT hV hv.holds hd, hbefore]
      cases findLast (·.isVisible (s.txns.txn V)) post with
      | some w => rfl
      | none => cases hvis : v.isVisible (s.txns.txn V) <;> simp
    · obtain ⟨hc, hd⟩ := not_or.1 hd
      obtain ⟨hout, hin⟩ := isVisible_unmarked hs.wf hT hV hv.holds hc (not_not.1 hd)
      rw [if_pos hin]
      cases hpost : findLast (·.isVisible (s.txns.txn V)) post with
      | some w => rw [hbefore, hpost]; rfl
      | none =>
        rcases hrev pre v post hv hc (not_not.1 hd) with hw | hdata
        · rw [← findLast_isSome, hpost] at hw; cases hw
        · exact hdata.symm

/-- **Writes of a transaction in progress** leave everybody else's view of every row as it was
    exactly when they replace no mark whose author would notice. -/
theorem uncommitted_unseen_iff (h : Run ops) (ho : (after ops).Enabled (.row T r op)) :
    (∀ V, V ≠ T → ∀ r', ((after ops).step (.row T r op)).visibleData V r' =
      (after ops).visibleData V r') ↔ RevealsNothing (after ops) T r := by
  have hs := h.inv
  have hT := enabled_active ho
  generalize after ops = s at hs hT ho
  constructor
  · intro hsame pre v post U hv hc hd
    have hU : U ≠ T := by
      rintro rfl
      exact ((TransactionHeader.isVisible_other hc).1 hv.holds).2 U hd (Or.inl rfl)
    obtain ⟨hout, hin⟩ := isVisible_unmarked hs.wf hT hU hv.holds hc hd
    have hrow := hsame U hU r
    rw [visibleData_row ho hU, hv.updateLast, findLast_split, if_pos hin] at hrow
    cases hpost : findLast (·.isVisible (s.txns.txn U)) post with
    | some w =>
      exact Or.inl (findLast_isSome.1 (Option.isSome_iff_exists.2 ⟨w, hpost⟩))
    | none =>
      rw [hpost] at hrow
      exact Or.inr hrow.symm
  · intro hrev V hV r'
    by_cases hr : r = r'
    · subst hr
      exact visibleData_unnoticed hs ho hV fun pre v post hv hc hd => hrev pre v post V hv hc hd
    · rw [visibleData_eq, visibleData_eq, versions_other hr]; rfl

/-- Transaction 3 removes a row nobody else has touched. -/
theorem uncommitted_unseen_remove :
    let s := after [.txn .createTransaction, .row 1 0 (.new ∅), .txn (.commitTransaction 1),
      .txn .createTransaction, .txn .createTransaction]
    ∀ V, V ≠ 3 → ∀ r', (s.step (.row 3 0 .remove)).visibleData V r' = s.visibleData V r' :=
  (uncommitted_unseen_iff (by decide) (by decide)).2 fun pre v post U hv _ hd => by
    have hmem : v ∈ [(⟨⟨1, none⟩, ∅⟩ : InternalRow)] := hv.mem
    rw [List.mem_singleton.1 hmem] at hd
    cases hd

/-- Transaction 3 removes a row that transaction 2 has removed, and transaction 2 sees it again. -/
theorem uncommitted_seen_by_author :
    let ops : List StoreOp := [.txn .createTransaction, .row 1 0 (.new ∅),
      .txn (.commitTransaction 1), .txn .createTransaction, .txn .createTransaction,
      .row 2 0 .remove]
    Run ops ∧ (after ops).Enabled (.row 3 0 .remove) ∧
      ¬ ∀ V, V ≠ 3 → ∀ r', ((after ops).step (.row 3 0 .remove)).visibleData V r' =
        (after ops).visibleData V r' :=
  ⟨by decide, by decide, fun h => absurd (h 2 (by decide) 0) (by decide)⟩

end AntDb.RowStore
