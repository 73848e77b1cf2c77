/-
  What a rollback does to the rows of a table.

  `rollback_transaction` rewrites the resident pages and marks none of them dirty, so it
  reaches a row for good only if its page is resident and its copy is not one that eviction
  may drop.
-/
import AntDb.Flushing
import AntDb.Lib.Runs

namespace AntDb

/-- Every version is rolled back. -/
def View.rollbackTransaction (v : View) (txn : Transaction) : View :=
  { v with
    rows := v.rows.map fun _ row => row.rollbackTransaction txn
    columns := v.columns.map fun _ column => column.rollbackTransaction txn }

/-- A rollback of `txn` changes no row of the page. -/
def Page.UntouchedBy (page : Page) (txn : Transaction) : Prop :=
  ∀ (r : RowID) row, page.rows[r]? = some row → row.rollbackTransaction txn = row

/-- Every version in the page satisfies `P`. -/
def Page.All (P : InternalRow → Prop) (page : Page) : Prop :=
  ∀ (r : RowID) row, page.rows[r]? = some row → ∀ v ∈ row.versions, P v

namespace Table

variable {t t' : Table} {ρ : RowMap} {p : PageID} {page page' : Page} {r : RowID} {row : Row}
  {txn : Transaction}

/-- Eviction takes nothing of the rollback back. -/
def RollbackStays (t : Table) (txn : Transaction) : Prop :=
  ∀ p page, t.rowSpace.get? p = some page → t.MayRevert p → page.UntouchedBy txn

/-- The rollback is through with every row: what it cannot reach, it would not change. -/
def RollbackReaches (t : Table) (txn : Transaction) : Prop :=
  ∀ p page, t.Stored p page → t.rowSpace.get? p = some page ∧ ¬ t.MayRevert p ∨ page.UntouchedBy txn

theorem RollbackReaches.stays (h : t.RollbackReaches txn) : t.RollbackStays txn := fun p page hp hm =>
  (h p page (Or.inl hp)).resolve_left fun h => h.2 hm

theorem rollbackStays_unlimited (h : t.memoryLimit = 0) : t.RollbackStays txn := fun _ _ hp hm =>
  absurd h (hm _ hp).1

/-- The rows of a page after the rollback. -/
def rolledBack (page : Page) (txn : Transaction) : Page :=
  { page with rows := page.rows.map fun _ row => row.rollbackTransaction txn }

theorem rolledBack_untouched (h : page.UntouchedBy txn) :
    (rolledBack page txn).rows = page.rows := by
  refine Std.ExtTreeMap.ext_getElem? fun r => ?_
  rw [rolledBack, Std.ExtTreeMap.getElem?_map]
  cases hr : page.rows[r]? with
  | none => rfl
  | some row => rw [Option.map_some, h r row hr]

theorem get_rollback : (t.rollbackTransaction txn).rowSpace.get? p =
    (t.rowSpace.get? p).map (rolledBack · txn) :=
  @PageMap.get?_map _ _ (rolledBack · txn) fun _ => rfl

theorem resident_rollback : (t.rollbackTransaction txn).Resident p ↔ t.Resident p := by
  simp only [Resident, get_rollback, Option.map_eq_some_iff]
  constructor
  · rintro ⟨_, page, h, _⟩
    exact ⟨page, h⟩
  · rintro ⟨page, h⟩
    exact ⟨_, page, h, rfl⟩

theorem mayRevert_rollback : (t.rollbackTransaction txn).MayRevert p ↔ t.MayRevert p := by
  simp only [MayRevert, get_rollback, Option.map_eq_some_iff]
  constructor
  · intro h page hp
    exact h (rolledBack page txn) ⟨page, hp, rfl⟩
  · rintro h _ ⟨page, hp, rfl⟩
    exact h page hp

/-- What a page may hold after the rollback. -/
theorem stored_rollback : (t.rollbackTransaction txn).Stored p page' ↔
    (∃ page, t.rowSpace.get? p = some page ∧ page' = rolledBack page txn) ∨
      (t.pageStore.pages.get? p = some page' ∧ t.MayRevert p) := by
  unfold Stored
  rw [mayRevert_rollback, get_rollback, Option.map_eq_some_iff]
  exact or_congr_left (exists_congr fun page => and_congr_right fun _ => eq_comm)

/-- Whichever copy is looked at, resident pages are rolled back and no others. -/
theorem rows_rollback (hg : t.Good) (hs : t.RollbackStays txn) (hp : t.Resident p ∨ t.Referenced p)
    (h : (t.rollbackTransaction txn).Stored p page') : ∃ page, t.Stored p page ∧
      page'.rows = if p ∈ t.rowSpace.pages then (rolledBack page txn).rows else page.rows := by
  rcases stored_rollback.1 h with ⟨page, hpage, rfl⟩ | ⟨hrecord, hm⟩
  · exact ⟨page, Or.inl hpage, by rw [if_pos (resident_iff_mem.1 ⟨page, hpage⟩)]⟩
  · refine ⟨page', Or.inr ⟨hrecord, hm⟩, ?_⟩
    split_ifs with hres
    · obtain ⟨page, hpage⟩ := resident_iff_mem.2 hres
      have heq := hg.settled p hp not_false _ _ (Or.inl hpage) (Or.inr ⟨hrecord, hm⟩)
      have hun : page'.UntouchedBy txn := fun r row hr => hs p page hpage hm r row (heq ▸ hr)
      rw [rolledBack_untouched hun]
    · rfl

/-- **A rollback** keeps a table good if eviction takes nothing of it back. -/
theorem good_rollback (hg : t.Good) (hs : t.RollbackStays txn) :
    (t.rollbackTransaction txn).Good where
  readable := hg.readable
  writable := hg.writable
  filed := hg.filed
  settled p hp _ page page' h h' := by
    have hp := hp.imp_left resident_rollback.1
    obtain ⟨page₁, h₁, e₁⟩ := rows_rollback hg hs hp h
    obtain ⟨page₂, h₂, e₂⟩ := rows_rollback hg hs hp h'
    have heq := hg.settled p hp not_false _ _ h₁ h₂
    rw [e₁, e₂]
    split_ifs
    · rw [rolledBack, rolledBack, heq]
    · exact heq
  homed p hp _ page h r hr := by
    have hp := hp.imp_left resident_rollback.1
    obtain ⟨page₁, h₁, e₁⟩ := rows_rollback hg hs hp h
    refine hg.homed p hp not_false _ h₁ r ?_
    rw [e₁] at hr
    split_ifs at hr
    · exact Std.ExtTreeMap.mem_map.1 hr
    · exact hr
  located p hp := by
    obtain ⟨page, hpage⟩ := hg.located p hp
    rw [content, get_rollback]
    rw [content] at hpage
    cases hr : t.rowSpace.get? p with
    | some page => exact ⟨_, rfl⟩
    | none => rw [hr] at hpage; exact ⟨page, hpage⟩
  unmapped := hg.unmapped
  resident_lt p hp := hg.resident_lt p (resident_rollback.1 hp)
  mapped_lt := hg.mapped_lt
  rowId_le := hg.rowId_le

/-- **A rollback that reaches every row** does what its view says. -/
theorem view_rollback (hg : t.Good) (hs : t.RollbackReaches txn) :
    (t.rollbackTransaction txn).view = t.view.rollbackTransaction txn := by
  refine view_ext rfl (fun _ => Iff.rfl) (fun r => ?_) rfl rfl
  show (viewIn _ t.rowLocations).rows[r]? = _
  rw [viewIn_get, View.rollbackTransaction, Std.ExtTreeMap.getElem?_map, viewIn_get, rowIn, rowIn]
  cases hr : t.rowLocations[r]? with
  | none => rfl
  | some p =>
    obtain ⟨page, hpage⟩ := hg.located p ⟨r, hr⟩
    obtain ⟨page', hpage'⟩ := (good_rollback hg hs.stays).located p ⟨r, hr⟩
    rw [Option.bind_some, Option.bind_some, hpage, hpage', Option.bind_some, Option.bind_some]
    have hmap : page'.rows = (rolledBack page txn).rows := by
      rcases stored_rollback.1 (stored_content hpage') with ⟨page₁, h₁, rfl⟩ | ⟨hrecord, hm⟩
      · have heq := hg.settled_of_maps ⟨r, hr⟩ (Or.inl h₁) (stored_content hpage)
        rw [rolledBack, rolledBack, heq]
      · have heq := hg.settled_of_maps ⟨r, hr⟩ (Or.inr ⟨hrecord, hm⟩) (stored_content hpage)
        have hun := (hs p page' (Or.inr ⟨hrecord, hm⟩)).resolve_left fun h => h.2 hm
        rw [← rolledBack_untouched hun, rolledBack, rolledBack, heq]
    rw [hmap, rolledBack, Std.ExtTreeMap.getElem?_map]

/-! ## Every page -/

/-- A version that nobody but its author will see and that `T` hides from nobody. -/
def FreeOf (T : TransactionID) (v : InternalRow) : Prop :=
  (v.createdBy = T → ∀ txn : Transaction, txn.transactionId ≠ T →
      T ∉ txn.snapshot.activeTransaction → v.isVisible txn = false) ∧
    (v.deletedBy = some T → v.createdBy = T)

/-- `T` has marked what it created, and nothing else. -/
def Withdrawn (T : TransactionID) (v : InternalRow) : Prop :=
  v.createdBy = T ↔ v.deletedBy = some T

variable {T : TransactionID} {v : InternalRow}

theorem freeOf_iff : FreeOf T v ↔ Withdrawn T v := by
  refine ⟨fun h => ⟨fun hc => ?_, h.2⟩, fun h => ⟨fun hc txn hid hT => ?_, h.2⟩⟩
  · -- a transaction that reads `T` and for which any other mark is still in progress
    by_contra hd
    let U := v.deletedBy.getD T
    let txn : Transaction := ⟨T + U + 1, 0, T, if U = T then ∅ else (∅ : BTreeSet ℕ).insert U⟩
    have hactive : ∀ a, a ∈ txn.snapshot.activeTransaction ↔ U ≠ T ∧ a = U := by
      intro a
      show a ∈ (if U = T then ∅ else (∅ : BTreeSet ℕ).insert U) ↔ _
      split_ifs with hU
      · simp [hU]
      · rw [BTreeSet.mem_insert]; simp [hU]
    have hvisible : v.isVisible txn = true := by
      have hne : v.createdBy ≠ txn.transactionId := by
        rw [hc]; show T ≠ T + U + 1; lia
      refine (InternalRow.isVisible_other hne).2 ⟨⟨hne, hc.le, fun h => ?_⟩, fun d hd' => ?_⟩
      · obtain ⟨hU, heq⟩ := (hactive _).1 h
        exact hU (heq.symm.trans hc)
      · have hUd : U = d := by show v.deletedBy.getD T = d; rw [hd']; rfl
        have hdT : d ≠ T := fun h => hd (h ▸ hd')
        rintro (h | h | h)
        · rw [← hUd] at h; have : U = T + U + 1 := h; lia
        · exact absurd h (Nat.not_lt_zero _)
        · exact h.2 ((hactive d).2 ⟨hUd ▸ hdT, hUd.symm⟩)
    have hfree := h.1 hc txn (by show T + U + 1 ≠ T; lia)
      fun hmem => ((hactive T).1 hmem).1 ((hactive T).1 hmem).2.symm
    rw [hvisible] at hfree; cases hfree
  · rw [Bool.eq_false_iff, ne_eq, InternalRow.isVisible_other (by rw [hc]; exact Ne.symm hid)]
    rintro ⟨⟨-, hle, -⟩, hhides⟩
    exact hhides T (h.1 hc) (Or.inr (Or.inr ⟨hc ▸ hle, hT⟩))

/-- Rolling a version back withdraws it unless another transaction has marked what `T` created. -/
theorem withdrawn_rollback : Withdrawn txn.transactionId (v.rollback txn) ↔
    (v.createdBy = txn.transactionId → v.deletedBy = none ∨ v.deletedBy = some txn.transactionId) := by
  rw [Withdrawn, InternalRow.rollback_createdBy, InternalRow.rollback_deletedBy]
  by_cases hc : v.createdBy = txn.transactionId
  · cases hd : v.deletedBy <;> simp [hc]
  · by_cases hd : v.deletedBy = some txn.transactionId <;> simp [hc, hd]

/-- An eviction, which takes place under a memory limit only, or a load. -/
inductive PageMove where
  | evict (p : PageID)
  | reload (p : PageID)

def PageMove.step (t : Table) : PageMove → Table
  | evict p => if t.memoryLimit = 0 then t else (evictPage p none t).2
  | reload p => (ensurePageResident p none t).2

/-- `T` created no resident version that another transaction has marked, and wherever eviction
    may bring back or leave the record of a page, `T` is not in it. -/
def RollbackComplete (t : Table) (T : TransactionID) : Prop :=
  (∀ p page, t.rowSpace.get? p = some page →
      page.All fun v => v.createdBy = T → v.deletedBy = none ∨ v.deletedBy = some T) ∧
    ∀ p record, t.pageStore.pages.get? p = some record → t.MayRevert p → record.All (Withdrawn T)

theorem all_rolledBack {P : InternalRow → Prop} :
    (rolledBack page txn).All P ↔ page.All fun v => P (v.rollback txn) := by
  constructor
  · intro h r row hr v hv
    refine h r (row.rollbackTransaction txn) ?_ _ (List.mem_map.2 ⟨v, hv, rfl⟩)
    rw [rolledBack, Std.ExtTreeMap.getElem?_map, hr]; rfl
  · intro h r row hr v hv
    rw [rolledBack, Std.ExtTreeMap.getElem?_map] at hr
    obtain ⟨row', hr', rfl⟩ := Option.map_eq_some_iff.1 hr
    obtain ⟨v', hv', rfl⟩ := List.mem_map.1 hv
    exact h r row' hr' v' hv'

/-- Evictions and loads move pages only. -/
theorem moved_step (m : PageMove) : Moved (fun _ => True) t (m.step t) := by
  cases m with
  | evict p =>
    rw [PageMove.step]
    split_ifs with hl
    · exact Moved.refl _ t
    · rcases evictPage_spec (L := fun _ => True) p none t hl with ⟨-, h⟩ | ⟨-, hm, -⟩
      · exact absurd rfl h
      · exact hm
  | reload p =>
    rcases ensurePageResident_spec p none t with ⟨-, h⟩ | ⟨-, -, hm, -⟩
    · exact absurd rfl h
    · exact hm.mono fun _ _ => trivial

theorem moved_moves (ms : List PageMove) : Moved (fun _ => True) t (Runs.exec PageMove.step t ms) := by
  induction ms generalizing t with
  | nil => exact Moved.refl _ t
  | cons m ms ih => exact (moved_step m).trans ih

/-- A page that may revert does. -/
theorem exists_reverting {record : Page} (hm : t.MayRevert p)
    (hrecord : t.pageStore.pages.get? p = some record) :
    ∃ ms, (Runs.exec PageMove.step t ms).content p = some record := by
  cases hp : t.rowSpace.get? p with
  | none =>
    refine ⟨[], ?_⟩
    rw [Runs.exec_nil, content, hp, Option.none_or, hrecord]
  | some page =>
    obtain ⟨hl, hdrop⟩ := hm page hp
    have hid := PageMap.pageId_of_get hp
    refine ⟨[.evict p], ?_⟩
    rw [Runs.exec_cons, Runs.exec_nil, PageMove.step, if_neg hl, evictPage_run, hp]
    dsimp only
    rw [flushAndEvictPage_run, if_neg (by simp)]
    have hcontent : (t.dropped p).content p = some record := by
      rw [content, get_dropped, if_pos rfl, Option.none_or]; exact hrecord
    split_ifs with hwrite
    · cases hw : (t.dropped p).pageStore.writeFault with
      | some message => exact hcontent
      | none =>
        rcases hdrop with ⟨hclean, hon⟩ | hfault
        · rcases hwrite with hdirty | hoff
          · rw [hdirty] at hclean; cases hclean
          · exact absurd hon (hid ▸ hoff)
        · exact absurd hw hfault
    · exact hcontent

/-- **A rollback reaches every page** if and only if it is complete. -/
theorem rollback_reaches_iff (t : Table) (txn : Transaction) :
    (∀ ms : List PageMove, let t' := Runs.exec PageMove.step (t.rollbackTransaction txn) ms
      ∀ p page, t'.content p = some page → page.All (FreeOf txn.transactionId)) ↔
      t.RollbackComplete txn.transactionId := by
  constructor
  · intro h
    refine ⟨fun p page hp => ?_, fun p record hrecord hm => ?_⟩
    · have hroll : (t.rollbackTransaction txn).content p = some (rolledBack page txn) :=
        content_of_resident (by rw [get_rollback, hp]; rfl)
      have hall := h [] p _ hroll
      rw [all_rolledBack] at hall
      exact fun r row hr v hv => withdrawn_rollback.1 (freeOf_iff.1 (hall r row hr v hv))
    · obtain ⟨ms, hcontent⟩ := exists_reverting (t := t.rollbackTransaction txn)
        (mayRevert_rollback.2 hm) hrecord
      exact fun r row hr v hv => freeOf_iff.1 (h ms p record hcontent r row hr v hv)
  · intro h ms t' p page hp
    rcases stored_rollback.1 ((moved_moves ms).stored p page (stored_content hp)) with
      ⟨page, hpage, rfl⟩ | ⟨hrecord, hm⟩
    · rw [all_rolledBack]
      exact fun r row hr v hv => freeOf_iff.2 (withdrawn_rollback.2 (h.1 p page hpage r row hr v hv))
    · exact fun r row hr v hv => freeOf_iff.2 (h.2 p page hrecord hm r row hr v hv)

/-- The first row of the transaction is on a page that has been evicted, and stays visible. -/
theorem rollback_misses_evicted_page :
    let insert := fun t => (insertRow ∅ ⟨1, .default⟩ (fun _ => none) none t).2
    let t := insert (insert (insert (new 0 25 100 .empty)))
    ¬ ∀ ms : List PageMove, let t' := Runs.exec PageMove.step (t.rollbackTransaction ⟨1, .default⟩) ms
      ∀ p page, t'.content p = some page → page.All (FreeOf 1) := by
  intro insert t h
  have hpage : (t.rollbackTransaction ⟨1, .default⟩).content 0 =
      some ((Page.new 0 25).append 1 (.new ⟨1, .default⟩ ∅) 25) := by decide +kernel
  have hrow : ((Page.new 0 25).append 1 (.new ⟨1, .default⟩ ∅) 25).rows[1]? =
      some (.new ⟨1, .default⟩ ∅) := by decide +kernel
  have hfree := freeOf_iff.1 (h [] 0 _ hpage 1 _ hrow ⟨⟨1, none⟩, ∅⟩ (List.mem_singleton.2 rfl))
  cases hfree.1 rfl

end Table

end AntDb
