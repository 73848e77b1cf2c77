/-
  What transactions that are in progress together read of the rows of a row store.

  A row is read as it is committed, or as the reader has left it itself.  This is so as long as
  nobody writes to a row that another transaction in progress has written to, and nobody commits
  after a transaction with a larger id that has written.
-/
import AntDb.Lib.Overlays
import AntDb.Serial
import AntDb.Succession

namespace AntDb

/-- The rows that are committed, and what the transactions in progress have written over them. -/
abbrev RowOverlays := Overlays TransactionID RowID RowData

/-- `V` is in progress, or the next to begin. -/
def TxnState.Reader (s : TxnState) (V : TransactionID) : Prop := V ∈ s.active ∨ V = s.nextTransactionId

/-- The stamp of `a` on the version stands: `a` created it and has not taken it back, or has marked
    a version of another transaction. -/
def InternalRow.StampedBy (v : InternalRow) (a : TransactionID) : Prop :=
  v.createdBy = a ∧ v.deletedBy ≠ some a ∨ v.createdBy ≠ a ∧ v.deletedBy = some a

namespace RowStore

open LastMatch

variable {s s' : RowStore} {W : RowOverlays} {watermark w' : TransactionID} {r rowId : RowID}
  {T V C a : TransactionID} {op : RowOp} {v : InternalRow} {data : RowData}

/-! ## Readers -/

/-- What a reader sees of an orderly row. -/
theorem Orderly.reader_iff (h : Orderly r s) (hV : s.txns.Reader V) (hv : v ∈ s.versions r) :
    v.isVisible (s.txns.txn V) = true ↔ (v.createdBy = V ∧ v.deletedBy ≠ some V) ∨
      (v.createdBy ∉ s.txns.active ∧ v.deletedBy ≠ some v.createdBy ∧
        ∀ d, v.deletedBy = some d → d ≠ V ∧ d ∈ s.txns.active) := by
  rcases hV with hV | rfl
  · exact h.visible_iff hV hv
  · have hc : v.createdBy ≠ s.txns.nextTransactionId := ne_of_lt (h.inv.created_lt r v hv)
    rw [InternalRow.isVisible_other hc, or_iff_right fun h => hc h.1]
    constructor
    · rintro ⟨⟨-, hle, hended⟩, hmarks⟩
      have hself : v.deletedBy ≠ some v.createdBy := fun hd =>
        hmarks _ hd (Or.inr (Or.inr ⟨hle, hended⟩))
      refine ⟨hended, hself, fun d hd => ⟨ne_of_lt (h.inv.deleted_lt r v hv d hd), ?_⟩⟩
      by_contra hact
      have hne : d ≠ v.createdBy := fun he => hself (he ▸ hd)
      exact hmarks d hd (Or.inr (Or.inr ⟨h.marks v hv d hd hne hact, hact⟩))
    · rintro ⟨hended, hself, hmarks⟩
      refine ⟨⟨hc, h.creators v hv hself hended, hended⟩, fun d hd hhides => ?_⟩
      obtain ⟨hne, hact⟩ := hmarks d hd
      exact h.inv.wf.not_hides hact hne.symm hhides

/-- Rows whose versions two readers see alike are read alike. -/
theorem visibleData_alike (hversions : s'.versions r = s.versions r)
    (h : ∀ v ∈ s.versions r, v.isVisible (s'.txns.txn V) = true ↔ v.isVisible (s.txns.txn T) = true) :
    s'.visibleData V r = s.visibleData T r := by
  rw [visibleData_eq, visibleData_eq, hversions, findLast_eq_getLast?, findLast_eq_getLast?,
    List.filter_congr fun v hv => Bool.eq_iff_iff.2 (h v hv)]

/-! ## Reflection -/

/-- What is read of the rows is what the overlays say.  Stamps of transactions in progress are writes
    of theirs, and the others are at most the watermark. -/
structure Reflects (s : RowStore) (W : RowOverlays) (watermark : TransactionID) : Prop where
  orderly : ∀ r, Orderly r s
  chained : ∀ r, InSuccession r s
  stamps : ∀ r, ∀ v ∈ s.versions r, ∀ a, v.StampedBy a →
    (a ∈ s.txns.active → W.Writes a r) ∧ (a ∉ s.txns.active → a ≤ watermark)
  exclusive : ∀ r T V, W.Writes T r → W.Writes V r → T = V
  idle : ∀ T r, W.Writes T r → T ∈ s.txns.active
  sees : ∀ V, s.txns.Reader V → ∀ r, s.visibleData V r = W.seen V r

namespace Reflects

theorem inv (h : s.Reflects W watermark) : s.Inv := (h.orderly 0).inv

/-- Whoever is not in progress has written nothing. -/
theorem not_writes (h : s.Reflects W watermark) (hV : V ∉ s.txns.active) : ¬ W.Writes V r := fun hw =>
  hV (h.idle V r hw)

theorem next_not_writes (h : s.Reflects W watermark) : ¬ W.Writes s.txns.nextTransactionId r :=
  h.not_writes fun hact => lt_irrefl _ (h.inv.wf.active_lt _ hact)

/-- A row that only `T` has written to is undisputed. -/
theorem undisputed (h : s.Reflects W watermark) (hfree : ∀ V, V ≠ T → ¬ W.Writes V r) :
    Undisputed r s (.row T r op) := by
  intro _ v hv hkept
  have hmine : ∀ a, v.StampedBy a → a ∈ s.txns.active → a = T := fun a ha hact => by
    by_contra hne
    exact hfree a hne ((h.stamps r v hv a ha).1 hact)
  refine ⟨fun hact => hmine _ (Or.inl ⟨rfl, hkept⟩) hact, fun d hd hact => hmine d (Or.inr ⟨?_, hd⟩) hact⟩
  rintro rfl
  exact hkept hd

/-- Who commits at the watermark or above it commits in order. -/
theorem inOrder (h : s.Reflects W watermark) (hle : watermark ≤ C) :
    InOrder r s (.txn (.commitTransaction C)) :=
  ⟨fun v hv d hd hne hact => ((h.stamps r v hv d (Or.inr ⟨Ne.symm hne, hd⟩)).2 hact).trans hle,
    fun v hv hkept hact => ((h.stamps r v hv _ (Or.inl ⟨rfl, hkept⟩)).2 hact).trans hle⟩

/-! ## Begins and ends -/

theorem create (h : s.Reflects W watermark) : (s.step (.txn .createTransaction)).Reflects W watermark where
  orderly r := (h.orderly r).stepped trivial trivial
  chained r := (h.chained r).step (h.orderly r) trivial trivial
  stamps r v hv a ha := by
    have hlt : a < s.txns.nextTransactionId := by
      rcases ha with ⟨rfl, -⟩ | ⟨-, hd⟩
      · exact h.inv.created_lt r v hv
      · exact h.inv.deleted_lt r v hv a hd
    have hactive : a ∈ (s.step (.txn .createTransaction)).txns.active ↔ a ∈ s.txns.active :=
      TxnState.mem_active_create.trans (or_iff_right (ne_of_lt hlt))
    rw [hactive]
    exact h.stamps r v hv a ha
  exclusive := h.exclusive
  idle T r hw := TxnState.mem_active_create.2 (Or.inr (h.idle T r hw))
  sees V hV r := by
    have hnext : Orderly r (s.step (.txn .createTransaction)) := (h.orderly r).stepped trivial trivial
    -- who begins later reads what the next to begin reads
    obtain ⟨U, hU, hseen, hmarks⟩ : ∃ U, s.txns.Reader U ∧ W.seen V r = W.seen U r ∧
        ∀ d, d < s.txns.nextTransactionId → (d = V ↔ d = U) := by
      rcases hV with hV | rfl
      · rcases TxnState.mem_active_create.1 hV with rfl | hV
        · exact ⟨_, Or.inr rfl, rfl, fun d _ => Iff.rfl⟩
        · exact ⟨V, Or.inl hV, rfl, fun d _ => Iff.rfl⟩
      · refine ⟨_, Or.inr rfl, ?_, fun d hd => iff_of_false ?_ (ne_of_lt hd)⟩
        · have hlater : s.txns.nextTransactionId + 1 ∉ s.txns.active := fun hact =>
            Nat.not_succ_lt_self (h.inv.wf.active_lt _ hact)
          exact (Overlays.seen_of_not_writes (h.not_writes hlater)).trans
            (Overlays.seen_of_not_writes h.next_not_writes).symm
        · exact ne_of_lt (Nat.lt_succ_of_lt hd)
    rw [hseen, ← h.sees U hU r]
    refine visibleData_alike rfl fun v hv => ?_
    have hv' : v ∈ (s.step (.txn .createTransaction)).versions r := hv
    have hactive : ∀ c, c < s.txns.nextTransactionId →
        (c ∈ (s.step (.txn .createTransaction)).txns.active ↔ c ∈ s.txns.active) := fun c hc =>
      TxnState.mem_active_create.trans (or_iff_right (ne_of_lt hc))
    have hc := h.inv.created_lt r v hv
    rw [hnext.reader_iff hV hv', (h.orderly r).reader_iff hU hv, hactive _ hc, hmarks _ hc]
    have hown : v.createdBy = U → (v.deletedBy ≠ some V ↔ v.deletedBy ≠ some U) := fun hcU => by
      rw [show V = U from ((hmarks _ hc).2 hcU).symm.trans hcU]
    refine or_congr (and_congr_right hown) (and_congr_right fun _ => and_congr_right fun _ =>
      forall_congr' fun d => imp_congr_right fun hd => ?_)
    have hlt := h.inv.deleted_lt r v hv d hd
    rw [hactive d hlt, ne_eq, ne_eq, hmarks d hlt]

/-- **A commit** shows to everybody what its transaction has written. -/
theorem commit (h : s.Reflects W watermark) (hC : C ∈ s.txns.active) (hle : watermark ≤ C)
    (hw : w' = C ∨ w' = watermark ∧ ∀ r, ¬ W.Writes C r) :
    (s.step (.txn (.commitTransaction C))).Reflects (W.commit C) w' where
  orderly r := (h.orderly r).stepped hC (h.inOrder hle)
  chained r := (h.chained r).step (h.orderly r) hC trivial
  stamps r v hv a ha := by
    have hactive : a ∈ (s.step (.txn (.commitTransaction C))).txns.active ↔ a ≠ C ∧ a ∈ s.txns.active :=
      TxnState.mem_active_commit
    obtain ⟨hact, hended⟩ := h.stamps r v hv a ha
    rw [hactive, Overlays.writes_commit]
    refine ⟨fun h => ⟨h.1, hact h.2⟩, fun hnot => ?_⟩
    by_cases haC : a = C
    · subst haC
      rcases hw with rfl | ⟨-, hnone⟩
      · exact le_rfl
      · exact absurd (hact hC) (hnone r)
    · have hle' := hended fun hact => hnot ⟨haC, hact⟩
      rcases hw with rfl | ⟨rfl, -⟩
      · exact hle'.trans hle
      · exact hle'
  exclusive r T V hT hV := h.exclusive r T V (Overlays.writes_commit.1 hT).2 (Overlays.writes_commit.1 hV).2
  idle T r hT := by
    obtain ⟨hne, hT⟩ := Overlays.writes_commit.1 hT
    exact TxnState.mem_active_commit.2 ⟨hne, h.idle T r hT⟩
  sees V hV r := by
    have hnext : Orderly r (s.step (.txn (.commitTransaction C))) := (h.orderly r).stepped hC (h.inOrder hle)
    have hactive : ∀ c, c ∈ (s.step (.txn (.commitTransaction C))).txns.active ↔
      c ≠ C ∧ c ∈ s.txns.active := fun c => TxnState.mem_active_commit
    have hV₀ : s.txns.Reader V := hV.imp_left fun hV => (TxnState.mem_active_commit.1 hV).2
    have hVC : V ≠ C := by
      rcases hV with hV | rfl
      · exact (TxnState.mem_active_commit.1 hV).1
      · exact (ne_of_lt (h.inv.wf.active_lt C hC)).symm
    have hstamp : ∀ v ∈ s.versions r, ∀ a, v.StampedBy a → a ∈ s.txns.active → W.Writes a r :=
      fun v hv a ha => (h.stamps r v hv a ha).1
    rw [Overlays.seen_commit]
    split_ifs with hwrites
    · -- `C` has left nothing on a row that `V` has written to
      have hnoC : ¬ W.Writes C r := fun hwC => hVC (h.exclusive r V C hwrites.2 hwC)
      have hclear : ∀ v ∈ s.versions r, ¬ v.StampedBy C := fun v hv ha => hnoC (hstamp v hv C ha hC)
      rw [← h.sees V hV₀ r]
      refine visibleData_alike rfl fun v hv => ?_
      have hv' : v ∈ (s.step (.txn (.commitTransaction C))).versions r := hv
      rw [hnext.reader_iff hV hv', (h.orderly r).reader_iff hV₀ hv, hactive]
      have hcreator : v.deletedBy ≠ some v.createdBy → v.createdBy ≠ C := fun hkept hc =>
        hclear v hv (Or.inl ⟨hc, hc ▸ hkept⟩)
      refine or_congr_right ⟨fun ⟨hended, hkept, hmarks⟩ => ⟨fun hact => hended ⟨hcreator hkept, hact⟩, hkept,
        fun d hd => ⟨(hmarks d hd).1, ((hactive d).1 (hmarks d hd).2).2⟩⟩, fun ⟨hended, hkept, hmarks⟩ =>
        ⟨fun hact => hended hact.2, hkept,
          fun d hd => ⟨(hmarks d hd).1, (hactive d).2 ⟨?_, (hmarks d hd).2⟩⟩⟩⟩
      rintro rfl
      exact hclear v hv (Or.inr ⟨hcreator hkept, hd⟩)
    · -- elsewhere `V` reads what `C` has read
      have hnoV : ¬ W.Writes V r := fun hwV => hwrites ⟨hVC, hwV⟩
      rw [← h.sees C (Or.inl hC) r]
      refine visibleData_alike rfl fun v hv => ?_
      have hv' : v ∈ (s.step (.txn (.commitTransaction C))).versions r := hv
      have hclear : ¬ v.StampedBy V := fun ha => by
        rcases hV₀ with hact | rfl
        · exact hnoV (hstamp v hv V ha hact)
        · rcases ha with ⟨hc, -⟩ | ⟨-, hd⟩
          · exact ne_of_lt (h.inv.created_lt r v hv) hc
          · exact ne_of_lt (h.inv.deleted_lt r v hv _ hd) rfl
      rw [hnext.reader_iff hV hv', (h.orderly r).reader_iff (Or.inl hC) hv, hactive,
        or_iff_right fun hown => hclear (Or.inl hown)]
      by_cases hc : v.createdBy = C
      · rw [or_iff_left fun hother => hother.1 (hc ▸ hC)]
        have hmark : v.deletedBy = none ∨ v.deletedBy = some C := hc ▸ h.inv.own r v hv (hc ▸ hC)
        rcases hmark with hd | hd <;> simp [hd, hc]
      · rw [or_iff_right fun hown => hc hown.1, and_iff_right hc]
        refine and_congr_right fun _ => and_congr_right fun _ => forall_congr' fun d =>
          imp_congr_right fun hd => ?_
        rw [hactive]
        refine ⟨fun ⟨_, hne, hact⟩ => ⟨hne, hact⟩, fun ⟨hne, hact⟩ => ⟨?_, hne, hact⟩⟩
        rintro rfl
        by_cases hcV : v.createdBy = d
        · exact absurd (hcV ▸ hact) ‹_›
        · exact hclear (Or.inr ⟨hcV, hd⟩)

/-- **A rollback** shows to nobody. -/
theorem rollback (h : s.Reflects W watermark) (hT : T ∈ s.txns.active) :
    (s.step (.txn (.rollbackTransaction T))).Reflects (W.rollback T) watermark := by
  have hactive : ∀ c, c ∈ (s.step (.txn (.rollbackTransaction T))).txns.active ↔
      c ≠ T ∧ c ∈ s.txns.active := fun c => TxnState.mem_active_rollback
  -- what the rollback makes of the stamps of a version
  have hcreated : ∀ r, ∀ v ∈ s.versions r, v.createdBy = T → (v.rollback (s.txns.txn T)).deletedBy = some T :=
    fun r v hv hc => by
      rw [InternalRow.rollback_deletedBy, if_pos (show v.createdBy = (s.txns.txn T).transactionId from hc)]
      rcases h.inv.own r v hv (hc ▸ hT) with hd | hd <;> rw [hd]
      · rfl
      · rw [hc]; rfl
  have hother : ∀ v : InternalRow, v.createdBy ≠ T → (v.rollback (s.txns.txn T)).deletedBy =
      if v.deletedBy = some T then none else v.deletedBy := fun v hc => by
    rw [InternalRow.rollback_deletedBy, if_neg (show v.createdBy ≠ (s.txns.txn T).transactionId from hc)]
    rfl
  refine ⟨fun r => (h.orderly r).stepped hT trivial, fun r => (h.chained r).step (h.orderly r) hT trivial,
    fun r v hv a ha => ?_, fun r U V hU hV => ?_, fun U r hU => ?_, fun V hV r => ?_⟩
  · rw [versions_rollback] at hv
    obtain ⟨u, hu, rfl⟩ := List.mem_map.1 hv
    rw [InternalRow.StampedBy, InternalRow.rollback_createdBy] at ha
    have hstamp : a ≠ T ∧ u.StampedBy a := by
      by_cases hc : u.createdBy = T
      · rw [hcreated r u hu hc] at ha
        rcases ha with ⟨rfl, hd⟩ | ⟨hne, hd⟩
        · exact absurd (congrArg some hc.symm) hd
        · exact absurd (hc.trans (Option.some.inj hd)) hne
      · rw [hother u hc] at ha
        split_ifs at ha with hd
        · rcases ha with ⟨rfl, -⟩ | ⟨-, hnone⟩
          · exact ⟨hc, Or.inl ⟨rfl, fun h => hc (Option.some.inj (h.symm.trans hd))⟩⟩
          · cases hnone
        · refine ⟨?_, ha⟩
          rintro rfl
          rcases ha with ⟨hc', -⟩ | ⟨-, hd'⟩
          · exact hc hc'
          · exact hd hd'
    obtain ⟨hact, hended⟩ := h.stamps r u hu a hstamp.2
    rw [hactive, Overlays.writes_rollback]
    exact ⟨fun h => ⟨h.1, hact h.2⟩, fun hnot => hended fun hact => hnot ⟨hstamp.1, hact⟩⟩
  · exact h.exclusive r U V (Overlays.writes_rollback.1 hU).2 (Overlays.writes_rollback.1 hV).2
  · obtain ⟨hne, hU⟩ := Overlays.writes_rollback.1 hU
    exact (hactive U).2 ⟨hne, h.idle U r hU⟩
  · have hV₀ : s.txns.Reader V := hV.imp_left fun hV => ((hactive V).1 hV).2
    have hVT : V ≠ T := by
      rcases hV with hV | rfl
      · exact ((hactive V).1 hV).1
      · exact (ne_of_lt (h.inv.wf.active_lt T hT)).symm
    rw [Overlays.seen_rollback hVT, ← h.sees V hV₀ r, visibleData_eq, visibleData_eq, versions_rollback,
      findLast_map fun v hv => ?_, Option.map_map]
    · rfl
    have hv' : v.rollback (s.txns.txn T) ∈ (s.step (.txn (.rollbackTransaction T))).versions r := by
      rw [versions_rollback]
      exact List.mem_map_of_mem hv
    have hnext : Orderly r (s.step (.txn (.rollbackTransaction T))) := (h.orderly r).stepped hT trivial
    rw [Bool.eq_iff_iff, hnext.reader_iff hV hv', (h.orderly r).reader_iff hV₀ hv,
      InternalRow.rollback_createdBy, hactive]
    by_cases hc : v.createdBy = T
    · -- a version of `T` is invisible while `T` is in progress, and taken back afterwards
      refine iff_of_false ?_ ?_
      · rintro (⟨hown, -⟩ | ⟨-, hself, -⟩)
        · exact hVT (hown.symm.trans hc)
        · exact hself ((hcreated r v hv hc).trans (congrArg some hc.symm))
      · rintro (⟨hown, -⟩ | ⟨hended, -⟩)
        · exact hVT (hown.symm.trans hc)
        · exact hended (hc ▸ hT)
    · rw [hother v hc]
      have hcT : ¬ (some T = some v.createdBy) := fun he => hc (Option.some.inj he).symm
      by_cases hd : v.deletedBy = some T
      · rw [if_pos hd, hd]
        simp [hc, hVT.symm, hcT, hT]
      · rw [if_neg hd]
        refine or_congr_right (and_congr (by simp [hc]) (and_congr_right fun _ =>
          forall_congr' fun d => imp_congr_right fun hd' => and_congr_right fun _ => ?_))
        exact (hactive d).trans (and_iff_right fun he => hd (he ▸ hd'))

/-! ## Writes -/

/-- **A write** to a row that no other transaction in progress has written to. -/
theorem row {x : Option RowData} (h : s.Reflects W watermark) (ho : s.Enabled (.row T r op))
    (hfree : ∀ V, V ≠ T → ¬ W.Writes V r) (hseen : (s.step (.row T r op)).visibleData T r = x) :
    (s.step (.row T r op)).Reflects (W.write T r x) watermark where
  orderly r' := (h.orderly r').stepped ho trivial
  chained r' := (h.chained r').step (h.orderly r') ho fun hr => by
    subst hr
    exact (@undisputed _ _ _ _ _ op h hfree) rfl
  stamps r' v hv a ha := by
    have hT : T ∈ s.txns.active := enabled_active ho
    have hold : ∀ u ∈ s.versions r', u.StampedBy a →
        (a ∈ s.txns.active → (W.write T r x).Writes a r') ∧ (a ∉ s.txns.active → a ≤ watermark) :=
      fun u hu ha => (h.stamps r' u hu a ha).imp_left fun hw hact => Overlays.writes_write.2 (Or.inr (hw hact))
    have hnew : r = r' → a = T → (a ∈ s.txns.active → (W.write T r x).Writes a r') ∧
        (a ∉ s.txns.active → a ≤ watermark) := fun hr ha =>
      ⟨fun _ => Overlays.writes_write.2 (Or.inl ⟨ha, hr.symm⟩), fun hnot => absurd (ha ▸ hT) hnot⟩
    rcases mem_versions_row hv with hv | ⟨hr, hheader⟩ | ⟨hr, u, hu, hvisible, rfl⟩
    · exact hold v hv ha
    · have hc : v.createdBy = T := by rw [InternalRow.createdBy, hheader]; rfl
      have hd : v.deletedBy = none := by rw [InternalRow.deletedBy, hheader]; rfl
      rcases ha with ⟨ha, -⟩ | ⟨-, ha⟩
      · exact hnew hr (ha.symm.trans hc)
      · rw [hd] at ha; cases ha
    · rcases ha with ⟨rfl, hd⟩ | ⟨-, hd⟩
      · exact hold u hu (Or.inl ⟨rfl, not_taken_back hvisible⟩)
      · exact hnew hr (Option.some.inj hd).symm
  exclusive r' U V hU hV := by
    rcases Overlays.writes_write.1 hU with ⟨hUT, hr⟩ | hU'
    · rcases Overlays.writes_write.1 hV with ⟨hVT, -⟩ | hV'
      · exact hUT.trans hVT.symm
      · by_contra hne
        exact hfree V (fun hVT => hne (hUT.trans hVT.symm)) (hr ▸ hV')
    · rcases Overlays.writes_write.1 hV with ⟨hVT, hr⟩ | hV'
      · by_contra hne
        exact hfree U (fun hUT => hne (hUT.trans hVT.symm)) (hr ▸ hU')
      · exact h.exclusive r' U V hU' hV'
  idle U r' hU := by
    rcases Overlays.writes_write.1 hU with ⟨hUT, -⟩ | hU
    · have hT : T ∈ s.txns.active := enabled_active ho
      exact hUT ▸ hT
    · exact h.idle U r' hU
  sees V hV r' := by
    rw [Overlays.seen_write]
    split_ifs with hmine
    · obtain ⟨rfl, rfl⟩ := hmine
      exact hseen
    · rw [← h.sees V hV r']
      by_cases hr : r = r'
      · subst hr
        have hVT : V ≠ T := fun he => hmine ⟨he, rfl⟩
        refine visibleData_unnoticed h.inv ho hVT fun pre v post hlast _ hd => ?_
        have hnone := (h.orderly r).unmarked_of_visible (enabled_active ho) (@undisputed _ _ _ _ _ op h hfree)
          hlast.mem hlast.holds
        rw [hnone] at hd; cases hd
      · rw [visibleData_eq, visibleData_eq, versions_other hr]
        rfl

/-- Its author sees a new version. -/
theorem findLast_created : findLast (fun v : InternalRow => v.isVisible (s.txns.txn T))
    [⟨.created (s.txns.txn T), data⟩] = some ⟨.created (s.txns.txn T), data⟩ := by
  have hvisible : (⟨.created (s.txns.txn T), data⟩ : InternalRow).isVisible (s.txns.txn T) = true :=
    (InternalRow.isVisible_own rfl).2 (by simp [TransactionHeader.created])
  simp [findLast, hvisible]

theorem new (h : s.Reflects W watermark) (hT : T ∈ s.txns.active) (hr : r ∉ s.rows)
    (hfree : ∀ V, V ≠ T → ¬ W.Writes V r) :
    (s.step (.row T r (.new data))).Reflects (W.write T r (some data)) watermark := by
  refine h.row ⟨hT, hr⟩ hfree ?_
  rw [visibleData_eq, versions_new]
  exact congrArg (Option.map (·.data)) (findLast_created (s := s))

theorem update (h : s.Reflects W watermark) (hT : T ∈ s.txns.active) (hr : r ∈ s.rows)
    (hfree : ∀ V, V ≠ T → ¬ W.Writes V r) :
    (s.step (.row T r (.update data))).Reflects (W.write T r (some data)) watermark := by
  refine h.row hT hfree ?_
  rw [visibleData_eq, versions_update hr, findLast_append]
  exact congrArg (fun found => Option.map (·.data) (Option.or found _)) (findLast_created (s := s))

theorem remove (h : s.Reflects W watermark) (hT : T ∈ s.txns.active)
    (hfree : ∀ V, V ≠ T → ¬ W.Writes V r) :
    (s.step (.row T r .remove)).Reflects (W.write T r none) watermark := by
  refine h.row hT hfree ?_
  have hunseen := unseen_of_remove ((h.orderly r).count_visible (h.chained r) hT)
  rw [visibleData_eq, Option.map_eq_none_iff]
  exact findLast_none.2 hunseen

/-! ## The vacuum, and a restart -/

/-- Dropping versions that were marked before any transaction in progress began. -/
theorem pruned (h : s.Reflects W watermark) (htxns : s'.txns = s.txns) (hversions : ∀ r, s'.versions r =
    (s.versions r).filter (·.transactionHeader.survives s.txns.smallest)) : s'.Reflects W watermark := by
  have hsub : ∀ r, ∀ v ∈ s'.versions r, v ∈ s.versions r := fun r v hv => by
    rw [hversions] at hv
    exact (List.mem_filter.1 hv).1
  refine ⟨fun r => (h.orderly r).of_subset htxns hsub, fun r => ?_,
    fun r v hv => by rw [htxns]; exact h.stamps r v (hsub r v hv), h.exclusive, by rw [htxns]; exact h.idle,
    fun V hV r => ?_⟩
  · show (s'.versions r).Pairwise (Succeeds s'.txns)
    rw [hversions, htxns]
    exact List.Pairwise.filter _ (h.chained r)
  · rw [htxns] at hV
    rw [← h.sees V hV r, visibleData_eq, visibleData_eq, hversions, htxns]
    refine congrArg _ (findLast_filter fun v hv hvisible => ?_)
    -- a mark below the horizon is that of an ended transaction
    cases hd : v.deletedBy with
    | none =>
      have hd : v.transactionHeader.deletedBy = none := hd
      simp [TransactionHeader.survives, hd]
    | some d =>
      have hact : d ∈ s.txns.active := by
        rcases ((h.orderly r).reader_iff hV hv).1 hvisible with ⟨hc, hkept⟩ | ⟨-, -, hmarks⟩
        · rcases hV with hV | rfl
          · rcases h.inv.own r v hv (hc ▸ hV) with hnone | hself
            · rw [hnone] at hd; cases hd
            · exact absurd (hself.trans (congrArg some hc)) hkept
          · exact absurd hc (ne_of_lt (h.inv.created_lt r v hv))
        · exact (hmarks d hd).2
      have hd : v.transactionHeader.deletedBy = some d := hd
      simp [TransactionHeader.survives, hd, h.inv.wf.smallest_le d hact]

/-- Who alone has written to a row sees the versions without a mark. -/
theorem visible_iff_unmarked (h : s.Reflects W watermark) (hT : s.txns.Reader T) (hone : ∀ V, W.Writes V r → V = T)
    (hv : v ∈ s.versions r) : v.isVisible (s.txns.txn T) = true ↔ v.deletedBy = none := by
  rw [(h.orderly r).reader_iff hT hv]
  have hstamp : ∀ a, v.StampedBy a → a ∈ s.txns.active → a = T := fun a ha hact =>
    hone a ((h.stamps r v hv a ha).1 hact)
  constructor
  · rintro (⟨hc, hkept⟩ | ⟨hended, -, hmarks⟩)
    · rcases hT with hT | rfl
      · refine (h.inv.own r v hv (hc ▸ hT)).resolve_right fun hd => hkept (hd.trans (congrArg some hc))
      · exact absurd hc (ne_of_lt (h.inv.created_lt r v hv))
    · cases hd : v.deletedBy with
      | none => rfl
      | some d =>
        obtain ⟨hne, hact⟩ := hmarks d hd
        have hcd : v.createdBy ≠ d := fun hcd => hended (hcd ▸ hact)
        exact absurd (hstamp d (Or.inr ⟨hcd, hd⟩) hact) hne
  · intro hd
    by_cases hc : v.createdBy = T
    · exact Or.inl ⟨hc, by simp [hd]⟩
    · refine Or.inr ⟨fun hact => hc (hstamp _ (Or.inl ⟨rfl, by simp [hd]⟩) hact), by simp [hd], fun d hd' => ?_⟩
      rw [hd] at hd'
      cases hd'

/-- After a restart every id that was handed out counts as committed. -/
theorem restarted {l : List TransactionID} (h : s.Reflects W watermark) (hl : ∀ a, a ∈ l ↔ a ∈ s.txns.active)
    (hwf : s'.txns.Wf) (hnext : s'.txns.nextTransactionId = s.txns.nextTransactionId)
    (hidle : ∀ a, a ∉ s'.txns.active) (hlast : s'.txns.last + 1 = s.txns.nextTransactionId)
    (hversions : ∀ r, s'.versions r = s.versions r) : s'.Reflects (W.commitAll l) s'.txns.last := by
  have hle : ∀ d, d < s.txns.nextTransactionId → d ≤ s'.txns.last := fun d hd =>
    Nat.lt_succ_iff.1 (hd.trans_eq hlast.symm)
  have hnone : ∀ V r, ¬ (W.commitAll l).Writes V r := fun V r hw => by
    obtain ⟨hV, hw⟩ := Overlays.writes_commitAll.1 hw
    exact hV ((hl V).2 (h.idle V r hw))
  have horderly : ∀ r, Orderly r s' := fun r =>
    ⟨⟨hwf, fun r v hv => hnext ▸ h.inv.created_lt r v (hversions r ▸ hv),
        fun r v hv => hnext ▸ h.inv.deleted_lt r v (hversions r ▸ hv), fun r v _ hact => absurd hact (hidle _)⟩,
      fun v hv d hd _ _ => hle d (h.inv.deleted_lt r v (hversions r ▸ hv) d hd),
      fun v hv _ _ => hle _ (h.inv.created_lt r v (hversions r ▸ hv))⟩
  refine ⟨horderly, fun r => ?_, fun r v hv a ha => ⟨fun hact => absurd hact (hidle a), fun _ => hle a ?_⟩,
    fun r T V hT => absurd hT (hnone T r), fun T r hT => absurd hT (hnone T r), fun V hV r => ?_⟩
  · show (s'.versions r).Pairwise (Succeeds s'.txns)
    rw [hversions]
    refine List.Pairwise.imp (fun {v w} hnext hkept hkept' => ?_) (h.chained r)
    obtain ⟨d, hd, -⟩ := hnext hkept hkept'
    exact ⟨d, hd, fun hact => absurd hact (hidle d)⟩
  · rcases ha with ⟨rfl, -⟩ | ⟨-, hd⟩
    · exact h.inv.created_lt r v (hversions r ▸ hv)
    · exact h.inv.deleted_lt r v (hversions r ▸ hv) a hd
  · -- somebody who alone has written to the row, or nobody has
    obtain ⟨U, hU, hone, hcommitted⟩ : ∃ U, s.txns.Reader U ∧ (∀ V, W.Writes V r → V = U) ∧
        (W.commitAll l).committed r = W.seen U r := by
      by_cases hw : ∃ U, W.Writes U r
      · obtain ⟨U, hU⟩ := hw
        have hone : ∀ V, W.Writes V r → V = U := fun V hV => h.exclusive r V U hV hU
        exact ⟨U, Or.inl (h.idle U r hU), hone, Overlays.committed_commitAll ((hl U).2 (h.idle U r hU)) hone⟩
      · rw [not_exists] at hw
        exact ⟨_, Or.inr rfl, fun V hV => absurd hV (hw V), (Overlays.committed_commitAll_of_not fun V _ => hw V).trans
          (Overlays.seen_of_not_writes (hw _)).symm⟩
    rw [Overlays.seen_of_not_writes (hnone V r), hcommitted, ← h.sees U hU r]
    refine visibleData_alike (hversions r) fun v hv => ?_
    have hv' : v ∈ s'.versions r := (hversions r).symm ▸ hv
    have hV' : V = s.txns.nextTransactionId := hnext ▸ hV.resolve_left (hidle V)
    rw [h.visible_iff_unmarked hU hone hv, (horderly r).reader_iff hV hv',
      or_iff_right fun hown => ne_of_lt (h.inv.created_lt r v hv) (hown.1.trans hV')]
    constructor
    · rintro ⟨-, -, hmarks⟩
      cases hd : v.deletedBy with
      | none => rfl
      | some d => exact absurd (hmarks d hd).2 (hidle d)
    · intro hd
      refine ⟨hidle _, by simp [hd], fun d hd' => ?_⟩
      rw [hd] at hd'
      cases hd'

/-- No rows, and nothing written. -/
theorem start {txns : TxnState} (hwf : txns.Wf) : (⟨txns, ∅⟩ : RowStore).Reflects .empty watermark := by
  have hnone : ∀ r, (⟨txns, ∅⟩ : RowStore).versions r = [] := fun r => by simp [versions]
  have hmem : ∀ r, ∀ v ∈ (⟨txns, ∅⟩ : RowStore).versions r, False := fun r v hv => by
    rw [hnone] at hv
    exact List.not_mem_nil hv
  refine ⟨fun r => ⟨⟨hwf, fun r v hv => (hmem r v hv).elim, fun r v hv => (hmem r v hv).elim,
    fun r v hv => (hmem r v hv).elim⟩, fun v hv => (hmem r v hv).elim, fun v hv => (hmem r v hv).elim⟩,
    fun r => ?_, fun r v hv => (hmem r v hv).elim, fun r T V hw => (Overlays.not_writes_empty hw).elim,
    fun T r hw => (Overlays.not_writes_empty hw).elim, fun V _ r => ?_⟩
  · rw [InSuccession, hnone]
    exact List.Pairwise.nil
  · rw [visibleData_eq, hnone]
    rfl

end Reflects

end RowStore

end AntDb
