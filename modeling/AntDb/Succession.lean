/-
  Versions of a row that follow one another.

  Where nobody writes to a row on which another transaction in progress has left something, every
  version but the newest is marked, by whoever created a later one or by someone who has ended,
  and so nobody sees two of them.
-/
import AntDb.Snapshots

namespace AntDb.RowStore

open LastMatch Runs

variable {s : RowStore} {r : RowID} {T V : TransactionID} {op : RowOp} {o : StoreOp}
  {ops : List StoreOp} {v w : InternalRow} {i : ℕ}

/-! ## Disputes -/

/-- No other transaction in progress has a version on the row that it has not taken back, or a mark
    on one. -/
def Undisputed (r : RowID) (s : RowStore) : StoreOp → Prop
  | .txn _ => True
  | .row T r' _ => r' = r → ∀ v ∈ s.versions r, v.deletedBy ≠ some v.createdBy →
      (v.createdBy ∈ s.txns.active → v.createdBy = T) ∧ ∀ d ∈ v.deletedBy, d ∈ s.txns.active → d = T

instance (r : RowID) (s : RowStore) : (o : StoreOp) → Decidable (Undisputed r s o)
  | .txn _ => isTrue trivial
  | .row T r' _ => inferInstanceAs (Decidable (r' = r → ∀ v ∈ s.versions r,
      v.deletedBy ≠ some v.createdBy → (v.createdBy ∈ s.txns.active → v.createdBy = T) ∧
        ∀ d ∈ v.deletedBy, d ∈ s.txns.active → d = T))

/-! ## Succession -/

/-- Of two versions that have not been taken back the older one is marked, and if the mark is one of
    a transaction in progress, the newer version is its own. -/
def Succeeds (s : TxnState) (v w : InternalRow) : Prop :=
  v.deletedBy ≠ some v.createdBy → w.deletedBy ≠ some w.createdBy →
    ∃ d, v.deletedBy = some d ∧ (d ∈ s.active → w.createdBy = d)

/-- The versions of the row follow one another. -/
def InSuccession (r : RowID) (s : RowStore) : Prop := (s.versions r).Pairwise (Succeeds s.txns)

/-- Nobody sees two versions that follow one another. -/
theorem Orderly.not_both (h : Orderly r s) (hV : V ∈ s.txns.active) (hv : v ∈ s.versions r)
    (hw : w ∈ s.versions r) (hnext : Succeeds s.txns v w) (hvisible : v.isVisible (s.txns.txn V) = true) :
    w.isVisible (s.txns.txn V) = false := by
  rw [Bool.eq_false_iff]
  intro hboth
  obtain ⟨d, hd, hauthor⟩ := hnext (not_taken_back hvisible) (not_taken_back hboth)
  rcases (h.visible_iff hV hv).1 hvisible with ⟨hc, hkept⟩ | ⟨-, -, hmarks⟩
  · -- a version of `V` carries no mark but its own
    rcases h.inv.own r v hv (hc ▸ hV) with hnone | hself
    · rw [hnone] at hd; cases hd
    · exact hkept (hself.trans (congrArg some hc))
  · obtain ⟨hne, hact⟩ := hmarks d hd
    have hc := hauthor hact
    rcases (h.visible_iff hV hw).1 hboth with ⟨hown, -⟩ | ⟨hended, -⟩
    · exact hne (hc.symm.trans hown)
    · exact hended (hc ▸ hact)

/-- An undisputed row has at most one version without a mark of its own that `T` may write to: the
    version `T` sees has no mark. -/
theorem Orderly.unmarked_of_visible (h : Orderly r s) (hT : T ∈ s.txns.active)
    (hfree : Undisputed r s (.row T r op)) (hv : v ∈ s.versions r)
    (hvisible : v.isVisible (s.txns.txn T) = true) : v.deletedBy = none := by
  cases hd : v.deletedBy with
  | none => rfl
  | some d =>
    exfalso
    rcases (h.visible_iff hT hv).1 hvisible with ⟨hc, hkept⟩ | ⟨-, hself, hmarks⟩
    · rcases h.inv.own r v hv (hc ▸ hT) with hnone | hown
      · rw [hnone] at hd; cases hd
      · exact hkept (hown.trans (congrArg some hc))
    · obtain ⟨hne, hact⟩ := hmarks d hd
      exact hne ((hfree rfl v hv hself).2 d hd hact)

/-- What `T` does not see of an undisputed row is marked. -/
theorem Orderly.marked_of_unseen (h : Orderly r s) (hT : T ∈ s.txns.active)
    (hfree : Undisputed r s (.row T r op)) (hv : v ∈ s.versions r)
    (hkept : v.deletedBy ≠ some v.createdBy) (hunseen : v.isVisible (s.txns.txn T) = false) :
    ∃ d, v.deletedBy = some d ∧ (d ∈ s.txns.active → d = T) := by
  cases hd : v.deletedBy with
  | some d => exact ⟨d, rfl, (hfree rfl v hv hkept).2 d hd⟩
  | none =>
    have hvisible : v.isVisible (s.txns.txn T) = true := by
      rw [h.visible_iff hT hv, hd]
      by_cases hact : v.createdBy ∈ s.txns.active
      · exact Or.inl ⟨(hfree rfl v hv hkept).1 hact, by simp⟩
      · exact Or.inr ⟨hact, by simp, by simp⟩
    rw [hvisible] at hunseen
    cases hunseen

/-- **A write** to an undisputed row keeps its versions in succession. -/
theorem InSuccession.row (h : InSuccession r s) (hs : Orderly r s) (ho : s.Enabled (.row T r op))
    (hfree : Undisputed r s (.row T r op)) : InSuccession r (s.step (.row T r op)) := by
  have hT : T ∈ s.txns.active := enabled_active ho
  obtain ⟨new, hlength, hnew, heq⟩ := versions_row ho
  have hauthor : ∀ w ∈ new, w.createdBy = T := fun w hw => by rw [InternalRow.createdBy, hnew w hw]; rfl
  have hsingle : new.Pairwise (Succeeds s.txns) := by
    rcases new with _ | ⟨w, _ | ⟨w', new⟩⟩
    · exact List.Pairwise.nil
    · exact List.pairwise_singleton _ _
    · exact absurd hlength (by simp)
  show ((s.step (.row T r op)).versions r).Pairwise (Succeeds s.txns)
  rw [heq]
  rcases LastMatch.cases (·.isVisible (s.txns.txn T)) (s.versions r) with hnone | ⟨pre, v, post, hlast⟩
  · rw [updateLast_none hnone]
    refine List.pairwise_append.2 ⟨h, hsingle, fun u hu w hw hkept _ => ?_⟩
    obtain ⟨d, hd, hown⟩ := hs.marked_of_unseen hT hfree hu hkept (hnone u hu)
    exact ⟨d, hd, fun hact => (hauthor w hw).trans (hown hact).symm⟩
  · have hplain : v.deletedBy = none := hs.unmarked_of_visible hT hfree hlast.mem hlast.holds
    have hkept : v.deletedBy ≠ some v.createdBy := by simp [hplain]
    have hchain : (pre ++ v :: post).Pairwise (Succeeds s.txns) := hlast.eq ▸ h
    obtain ⟨hpre, hrest, hacross⟩ := List.pairwise_append.1 hchain
    obtain ⟨hthen, hpost⟩ := List.pairwise_cons.1 hrest
    -- what comes after the version `T` sees has been taken back
    have hback : ∀ w ∈ post, w.deletedBy = some w.createdBy := by
      intro w hw
      by_contra hw'
      obtain ⟨d, hd, -⟩ := hthen w hw hkept hw'
      rw [hplain] at hd; cases hd
    rw [hlast.updateLast, List.append_assoc, List.cons_append]
    refine List.pairwise_append.2 ⟨hpre, List.pairwise_cons.2 ⟨fun w hw hmark hw' => ?_, ?_⟩, ?_⟩
    · rcases List.mem_append.1 hw with hw | hw
      · exact absurd (hback w hw) hw'
      · exact ⟨T, rfl, fun _ => hauthor w hw⟩
    · exact List.pairwise_append.2 ⟨hpost, hsingle, fun u hu _ _ hu' => absurd (hback u hu) hu'⟩
    · intro u hu w hw hu' hw'
      have hmem : u ∈ s.versions r := by rw [hlast.eq]; exact List.mem_append_left _ hu
      obtain ⟨d, hd, hcreator⟩ := hacross u hu v (List.mem_cons_self ..) hu' hkept
      rcases List.mem_cons.1 hw with rfl | hw
      · exact ⟨d, hd, hcreator⟩
      · rcases List.mem_append.1 hw with hw | hw
        · exact absurd (hback w hw) hw'
        · exact ⟨d, hd, fun hact => (hauthor w hw).trans ((hfree rfl u hmem hu').2 d hd hact).symm⟩

/-- A rollback takes the marks of a transaction off and its versions back. -/
theorem InSuccession.rollback (h : InSuccession r s) (hs : s.Inv) (hT : T ∈ s.txns.active) :
    InSuccession r (s.step (.txn (.rollbackTransaction T))) := by
  have hother : ∀ v ∈ s.versions r, (v.rollback (s.txns.txn T)).deletedBy ≠
      some (v.rollback (s.txns.txn T)).createdBy → v.createdBy ≠ T ∧ v.deletedBy ≠ some v.createdBy := by
    intro v hv hkept
    rw [InternalRow.rollback_deletedBy, InternalRow.rollback_createdBy] at hkept
    have hc : v.createdBy ≠ T := by
      intro hc
      rw [if_pos (show v.createdBy = (s.txns.txn T).transactionId from hc)] at hkept
      rcases hs.own r v hv (hc ▸ hT) with hnone | hown
      · rw [hnone] at hkept
        exact hkept (congrArg some hc.symm)
      · rw [hown] at hkept
        exact hkept rfl
    refine ⟨hc, fun hself => hkept ?_⟩
    rw [if_neg (show v.createdBy ≠ (s.txns.txn T).transactionId from hc), hself,
      if_neg (show some v.createdBy ≠ some (s.txns.txn T).transactionId from fun he => hc (Option.some.inj he))]
  show ((s.step (.txn (.rollbackTransaction T))).versions r).Pairwise _
  rw [versions_rollback]
  refine List.pairwise_map.2 (List.Pairwise.imp_of_mem (fun {v w} hv hw hnext hkept hkept' => ?_) h)
  obtain ⟨hcv, hv'⟩ := hother v hv hkept
  obtain ⟨hcw, hw'⟩ := hother w hw hkept'
  obtain ⟨d, hd, hcreator⟩ := hnext hv' hw'
  -- a mark of `T` would make the newer version one of `T`
  have hdT : d ≠ T := fun he => hcw ((hcreator (he ▸ hT)).trans he)
  refine ⟨d, ?_, fun hact => ?_⟩
  · rw [InternalRow.rollback_deletedBy, if_neg (show v.createdBy ≠ (s.txns.txn T).transactionId from hcv), hd,
      if_neg (show some d ≠ some (s.txns.txn T).transactionId from fun he => hdT (Option.some.inj he))]
  · rw [InternalRow.rollback_createdBy]
    exact hcreator (TxnState.mem_active_rollback.1 hact).2

theorem InSuccession.step (h : InSuccession r s) (hs : Orderly r s) (ho : s.Enabled o)
    (hfree : Undisputed r s o) : InSuccession r (s.step o) := by
  cases o with
  | row T r' op =>
    by_cases hr : r' = r
    · subst hr
      exact h.row hs ho hfree
    · show ((s.step (.row T r' op)).versions r).Pairwise _
      rw [versions_other hr]
      exact h
  | txn t =>
    cases t with
    | rollbackTransaction T => exact h.rollback hs.inv ho
    | createTransaction =>
      refine List.Pairwise.imp_of_mem (fun {v w} hv _ hnext hkept hkept' => ?_) h
      obtain ⟨d, hd, hcreator⟩ := hnext hkept hkept'
      refine ⟨d, hd, fun hact => hcreator ?_⟩
      exact (TxnState.mem_active_create.1 hact).resolve_left (ne_of_lt (hs.inv.deleted_lt r v hv d hd))
    | commitTransaction C =>
      refine List.Pairwise.imp (fun {v w} hnext hkept hkept' => ?_) h
      obtain ⟨d, hd, hcreator⟩ := hnext hkept hkept'
      exact ⟨d, hd, fun hact => hcreator (TxnState.mem_active_commit.1 hact).2⟩

theorem Orderly.succession_ran (h : Orderly r s) (hchain : InSuccession r s) (hrun : Each step Enabled s ops)
    (horder : Each step (InOrder r) s ops) (hfree : Each step (Undisputed r) s ops) :
    Orderly r (exec step s ops) ∧ InSuccession r (exec step s ops) :=
  ((hrun.and horder).and hfree).invariant (I := fun s => Orderly r s ∧ InSuccession r s) ⟨h, hchain⟩
    fun _ _ hs ho => ⟨hs.1.stepped ho.1.1 ho.1.2, hs.2.step hs.1 ho.1.1 ho.2⟩

/-! ## One visible version -/

theorem countP_le_one {α : Type} {p : α → Bool} {l : List α}
    (h : l.Pairwise fun a b => p a = true → p b = false) : l.countP p ≤ 1 := by
  induction l with
  | nil => exact Nat.zero_le 1
  | cons a l ih =>
    obtain ⟨hfirst, hrest⟩ := List.pairwise_cons.1 h
    cases ha : p a with
    | false =>
      rw [List.countP_cons_of_neg (by simp [ha])]
      exact ih hrest
    | true =>
      have hnone : l.countP p = 0 := List.countP_eq_zero.2 fun b hb => by simp [hfirst b hb ha]
      rw [List.countP_cons_of_pos ha, hnone]

theorem Orderly.count_visible (h : Orderly r s) (hchain : InSuccession r s) (hV : V ∈ s.txns.active) :
    (s.versions r).countP (·.isVisible (s.txns.txn V)) ≤ 1 :=
  countP_le_one (List.Pairwise.imp_of_mem (fun hv hw hnext => h.not_both hV hv hw hnext) hchain)

/-- Once a transaction has removed a row of which it sees one version, it sees none. -/
theorem unseen_of_remove (hcount : (s.versions r).countP (·.isVisible (s.txns.txn V)) ≤ 1) :
    ∀ v ∈ (s.step (.row V r .remove)).versions r, v.isVisible (s.txns.txn V) = false := by
  rw [versions_remove]
  rcases LastMatch.cases (·.isVisible (s.txns.txn V)) (s.versions r) with hnone | ⟨pre, u, post, hlast⟩
  · rw [updateLast_none hnone]
    exact hnone
  · have hone := List.countP_cons_of_pos (p := fun v : InternalRow => v.isVisible (s.txns.txn V)) (l := post)
      hlast.holds
    rw [hlast.eq, List.countP_append, hone] at hcount
    have hpre : pre.countP (·.isVisible (s.txns.txn V)) = 0 := by omega
    intro v hv
    rw [hlast.updateLast, List.mem_append, List.mem_cons] at hv
    rcases hv with hv | rfl | hv
    · exact Bool.eq_false_iff.2 (List.countP_eq_zero.1 hpre v hv)
    · rw [Bool.eq_false_iff]
      by_cases hc : u.createdBy = V
      · exact fun hvisible => (InternalRow.isVisible_own (show (u.mark _).createdBy = V from hc)).1 hvisible rfl
      · exact fun hvisible => ((InternalRow.isVisible_other (show (u.mark _).createdBy ≠ V from hc)).1 hvisible).2
          V rfl (Or.inl rfl)
    · exact hlast.after v hv

/-! ## Versions that are gone for good -/

/-- The version was created and marked by transactions that have ended. -/
structure Gone (s : TxnState) (v : InternalRow) : Prop where
  created : s.Ended v.createdBy
  marked : ∃ d, v.deletedBy = some d ∧ s.Ended d

theorem Gone.unseen (h : Gone s.txns v) (hs : Orderly r s) (hv : v ∈ s.versions r) (hV : V ∈ s.txns.active) :
    v.isVisible (s.txns.txn V) = false := by
  obtain ⟨d, hd, hended⟩ := h.marked
  rw [Bool.eq_false_iff, ne_eq, hs.visible_iff hV hv]
  rintro (⟨hc, -⟩ | ⟨-, -, hmarks⟩)
  · exact h.created.2 (hc ▸ hV)
  · exact hended.2 (hmarks d hd).2

/-- What somebody who begins now does not see of the versions of ended transactions is gone. -/
theorem Orderly.gone (h : Orderly r s) (hv : v ∈ s.versions r) (hc : v.createdBy ∉ s.txns.active)
    (hunseen : v.isVisible ((s.step (.txn .createTransaction)).txns.txn s.txns.nextTransactionId) = false) :
    Gone s.txns v := by
  have hcreated : s.txns.Ended v.createdBy := ⟨h.inv.created_lt r v hv, hc⟩
  refine ⟨hcreated, ?_⟩
  by_contra hmarked
  have hopen : ∀ d, v.deletedBy = some d → d ∈ s.txns.active := by
    intro d hd
    by_contra hact
    exact hmarked ⟨d, hd, h.inv.deleted_lt r v hv d hd, hact⟩
  have hvisible := ((h.stepped (o := .txn .createTransaction) trivial trivial).visible_iff
    (TxnState.mem_active_create.2 (Or.inl rfl)) hv).2 (Or.inr ⟨?_, fun hself => hc (hopen _ hself), ?_⟩)
  · exact Bool.false_ne_true (hunseen.symm.trans hvisible)
  · intro hact
    rcases TxnState.mem_active_create.1 hact with he | hact
    · exact ne_of_lt hcreated.1 he
    · exact hc hact
  · exact fun d hd => ⟨ne_of_lt (h.inv.deleted_lt r v hv d hd), TxnState.mem_active_create.2 (Or.inr (hopen d hd))⟩

/-- A version that is not the one marked stays where it is. -/
theorem getElem_updateLast {α : Type} {p : α → Bool} {f : α → α} {l : List α} {a : α} (ha : l[i]? = some a)
    (hp : p a = false) : (updateLast p f l)[i]? = some a := by
  rcases LastMatch.cases p l with hnone | ⟨pre, b, post, hlast⟩
  · rw [updateLast_none hnone]
    exact ha
  · rw [hlast.updateLast]
    rw [hlast.eq] at ha
    rcases lt_trichotomy i pre.length with hi | rfl | hi
    · rw [List.getElem?_append_left hi] at ha ⊢
      exact ha
    · rw [List.getElem?_append_right le_rfl, Nat.sub_self, List.getElem?_cons_zero] at ha
      obtain rfl := Option.some.inj ha
      rw [hlast.holds] at hp; cases hp
    · rw [List.getElem?_append_right hi.le] at ha ⊢
      obtain ⟨k, hk⟩ : ∃ k, i - pre.length = k + 1 := ⟨i - pre.length - 1, by omega⟩
      rw [hk, List.getElem?_cons_succ] at ha ⊢
      exact ha

/-- A version that is gone stays as it is. -/
theorem Gone.step (h : Gone s.txns v) (hs : Orderly r s) (hv : (s.versions r)[i]? = some v)
    (ho : s.Enabled o) : ((s.step o).versions r)[i]? = some v ∧ Gone (s.step o).txns v := by
  obtain ⟨d, hd, hended⟩ := h.marked
  cases o with
  | row T r' op =>
    refine ⟨?_, h⟩
    by_cases hr : r' = r
    · subst hr
      obtain ⟨new, -, -, heq⟩ := versions_row ho
      have hunseen := h.unseen hs (List.mem_of_getElem? hv) (enabled_active ho)
      have hkept := @getElem_updateLast i _ (·.isVisible (s.txns.txn T)) (·.mark (s.txns.txn T)) _ _ hv hunseen
      rw [heq, List.getElem?_append_left (List.getElem?_eq_some_iff.1 hkept).1]
      exact hkept
    · rw [versions_other hr]
      exact hv
  | txn t =>
    have hgone : Gone (s.step (.txn t)).txns v := by
      rw [step_txns]
      exact ⟨h.created.step t, d, hd, hended.step t⟩
    refine ⟨?_, hgone⟩
    by_cases hroll : ∃ T, t = .rollbackTransaction T
    · obtain ⟨T, rfl⟩ := hroll
      have hsame : v.rollback (s.txns.txn T) = v := InternalRow.rollback_eq (fun hc => h.created.2 (hc ▸ ho))
        fun hdT => by
          obtain rfl := Option.some.inj (hd.symm.trans hdT)
          exact hended.2 ho
      rw [versions_rollback, List.getElem?_map, hv, Option.map_some, hsame]
    · rw [versions_txn fun T hT => hroll ⟨T, hT⟩]
      exact hv

theorem Gone.ran (h : Gone s.txns v) (hs : Orderly r s) (hv : (s.versions r)[i]? = some v)
    (hrun : Each RowStore.step Enabled s ops) (horder : Each RowStore.step (InOrder r) s ops) :
    ((exec RowStore.step s ops).versions r)[i]? = some v ∧ Gone (exec RowStore.step s ops).txns v :=
  ((hrun.and horder).invariant (I := fun s => Orderly r s ∧ (s.versions r)[i]? = some v ∧ Gone s.txns v)
    ⟨hs, hv, h⟩ fun _ _ hs ho => ⟨hs.1.stepped ho.1 ho.2, hs.2.2.step hs.1 hs.2.1 ho.1⟩).2

/-- **One visible version**, where commits come in order for the row and nobody writes to it while
    another transaction in progress has left something there: nobody sees two versions of the row,
    nobody sees any once it has removed the row, and a version of an ended transaction that is hidden
    from those who begin is hidden for good. -/
theorem one_visible (h : Run ops) (horder : Each step (InOrder r) new ops)
    (hfree : Each step (Undisputed r) new ops) :
    (∀ V ∈ (after ops).txns.active, ((after ops).versions r).countP (·.isVisible ((after ops).txns.txn V)) ≤ 1) ∧
    (∀ V ∈ (after ops).txns.active, ∀ v ∈ ((after ops).step (.row V r .remove)).versions r,
      v.isVisible ((after ops).txns.txn V) = false) ∧
    ∀ p q, ops = p ++ q → ∀ (i : ℕ) (v : InternalRow), ((after p).versions r)[i]? = some v → v.createdBy ∉ (after p).txns.active →
      v.isVisible ((after (p ++ [.txn .createTransaction])).txns.txn (after p).txns.nextTransactionId) = false →
        ((after ops).versions r)[i]? = some v ∧
          ∀ V ∈ (after ops).txns.active, v.isVisible ((after ops).txns.txn V) = false := by
  have hnew : InSuccession r new := List.Pairwise.nil
  obtain ⟨hend, hchain⟩ := orderly_new.succession_ran hnew h horder hfree
  refine ⟨fun V hV => hend.count_visible hchain hV, fun V hV => unseen_of_remove (hend.count_visible hchain hV),
    ?_⟩
  rintro p q rfl i v hv hc hunseen
  have hmid : Orderly r (after p) := orderly_new.ran (each_append.1 h).1 (each_append.1 horder).1
  rw [after, exec_snoc] at hunseen
  have hgone := hmid.gone (List.mem_of_getElem? hv) hc hunseen
  obtain ⟨hkept, hgone'⟩ := hgone.ran hmid hv (each_append.1 h).2 (each_append.1 horder).2
  rw [← exec_append] at hkept hgone'
  exact ⟨hkept, fun V hV => hgone'.unseen hend (List.mem_of_getElem? hkept) hV⟩

/-- Transaction 2 updates the row twice and commits, transaction 3 updates it and rolls back, and
    transaction 4 removes it. -/
theorem one_visible_updates :
    let ops : List StoreOp := [.txn .createTransaction, .row 1 0 (.new ∅), .txn (.commitTransaction 1),
      .txn .createTransaction, .txn .createTransaction, .row 2 0 (.update ∅), .row 2 0 (.update ∅),
      .txn (.commitTransaction 2), .row 3 0 (.update ∅), .txn (.rollbackTransaction 3),
      .txn .createTransaction, .row 4 0 .remove]
    (∀ V ∈ (after ops).txns.active, ((after ops).versions 0).countP (·.isVisible ((after ops).txns.txn V)) ≤ 1) ∧
    (∀ V ∈ (after ops).txns.active, ∀ v ∈ ((after ops).step (.row V 0 .remove)).versions 0,
      v.isVisible ((after ops).txns.txn V) = false) ∧
    ∀ p q, ops = p ++ q → ∀ (i : ℕ) (v : InternalRow), ((after p).versions 0)[i]? = some v →
      v.createdBy ∉ (after p).txns.active →
      v.isVisible ((after (p ++ [.txn .createTransaction])).txns.txn (after p).txns.nextTransactionId) = false →
        ((after ops).versions 0)[i]? = some v ∧
          ∀ V ∈ (after ops).txns.active, v.isVisible ((after ops).txns.txn V) = false :=
  one_visible (by decide) (by decide) (by decide)

/-- Transactions 2 and 3 update the row at the same time and commit.  Transaction 4 sees both
    versions, removes the row, and reads the version of transaction 2. -/
theorem two_visible :
    let ops : List StoreOp := [.txn .createTransaction, .row 1 0 (.new ∅), .txn (.commitTransaction 1),
      .txn .createTransaction, .txn .createTransaction, .row 2 0 (.update ∅), .row 3 0 (.update ∅),
      .txn (.commitTransaction 2), .txn (.commitTransaction 3), .txn .createTransaction]
    Run ops ∧ 4 ∈ (after ops).txns.active ∧
      1 < ((after ops).versions 0).countP (·.isVisible ((after ops).txns.txn 4)) ∧
      ((after (ops ++ [.row 4 0 .remove])).visibleData 4 0).isSome :=
  ⟨by decide, by decide, by decide, by decide⟩

end AntDb.RowStore
