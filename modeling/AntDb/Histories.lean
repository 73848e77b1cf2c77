/-
  Runs of all the calls of a table, and what they keep true of it.
-/
import AntDb.Framing
import AntDb.Operations
import AntDb.Pruning
import AntDb.Rollbacks

namespace AntDb

open Call TableM

/-- The calls of a table, from the statements of a transaction to the vacuum. -/
inductive TableOp where
  | call (call : RowCall)
  | createColumn (columnName : String) (dataType : DataBaseDataType)
      (constraints : BTreeSet Constraint) (txn : Transaction)
  | addColumnConstraints (columnId : ColumnID) (extraConstraints : BTreeSet Constraint)
      (txn : Transaction)
  | rollbackTransaction (txn : Transaction)
  | persistDirtyPages
  | flushAllPages
  | prune (oldestActiveTxn : TransactionID)

namespace TableOp

open Table

def run : TableOp → TableM Unit
  | call c => do let _ ← c.run
  | createColumn columnName dataType constraints txn => do
    let _ ← Table.createColumn columnName dataType constraints txn
  | addColumnConstraints columnId extraConstraints txn =>
    Table.addColumnConstraints columnId extraConstraints txn
  | rollbackTransaction txn => modify (·.rollbackTransaction txn)
  | persistDirtyPages => Table.persistDirtyPages
  | flushAllPages => Table.flushAllPages
  | prune oldestActiveTxn => Table.prune oldestActiveTxn

def step (t : Table) (op : TableOp) : Table := (op.run none t).2

/-- The call comes back: it does not wait for a page lock it holds itself. -/
def Returns (t : Table) (op : TableOp) : Prop := (op.run none t).1 ≠ .error .blocked

instance (t : Table) (op : TableOp) : Decidable (Returns t op) := inferInstanceAs (Decidable (_ ≠ _))

/-- An insert opens no page whose id the page file has an old record of, or keeps it resident;
    eviction takes nothing of a rollback back; a vacuum has room for all the pages with rows. -/
def Safe (t : Table) : TableOp → Prop
  | call c => c.OpensClean t
  | rollbackTransaction txn => t.RollbackStays txn
  | prune _ => t.Fits
  | _ => True

end TableOp

namespace Table

variable {t t' : Table} {ρ : RowMap} {p : PageID} {page : Page} {columnId : ColumnID}
  {txn : Transaction}

/-! ## Columns -/

/-- Good tables with the row map `ρ` whose rows stay as they are while the columns change. -/
def surveying (ρ : RowMap) : Frame (Option PageID) Table Fault where
  env := none
  inv t := t.Good ∧ t.rowLocations = ρ
  rel t t' := t.Good ∧ t.rowLocations = ρ → (t'.Good ∧ t'.rowLocations = ρ) ∧
    t'.view = { t.view with columns := t'.columns } ∧ t'.memoryLimit = t.memoryLimit
  exempt e := e = .blocked
  refl _ h := ⟨h, rfl, rfl⟩
  trans {t t' t''} h h' ht := by
    obtain ⟨hg, hv, hl⟩ := h ht
    obtain ⟨hg', hv', hl'⟩ := h' hg
    exact ⟨hg', by rw [hv', hv], hl'.trans hl⟩
  keep ht h := (h ht).1

theorem loads_surveying : Loads (surveying ρ) ρ where
  locations _ ht := ht.2
  ensure p hp held t ht := by
    rcases ensurePageResident_spec p held t with h | ⟨-, -, hm, -⟩
    · exact Or.inl ⟨.blocked, h.1, rfl⟩
    · refine Or.inr ⟨trivial, fun hg => ?_⟩
      obtain ⟨hg', hρ, hv⟩ := (show Shows ρ t.view t from ⟨hg.1, hg.2, rfl⟩).moved
        (hm.mono fun q hq => hq ▸ hp)
      have hview : (ensurePageResident p held t).2.view =
          { t.view with columns := (ensurePageResident p held t).2.columns } := by
        rw [hv, hm.columns]; rfl
      exact ⟨⟨hg', hρ⟩, hview, hm.memoryLimit⟩
  exempt _ h := h

section Columns

variable {F : Frame (Option PageID) Table Fault} (hl : Loads F ρ)
  (hcolumns : ∀ t columns n, F.inv t → F.rel t { t with columns := columns, nextColumnId := n })
include hcolumns

theorem follows_withColumns {f : Table → BTreeMap ColumnID Column} {n : Table → ColumnID} :
    Follows F (modify fun t => { t with columns := f t, nextColumnId := n t }) :=
  Follows.modify fun t ht => hcolumns t (f t) (n t) ht

include hl

theorem follows_buildColumnIndexFromRows : Follows F (buildColumnIndexFromRows columnId txn) := by
  unfold buildColumnIndexFromRows
  have hcolumns : ∀ f : Table → BTreeMap ColumnID Column,
      Follows F (modify fun t => { t with columns := f t }) := fun f =>
    follows_withColumns hcolumns (f := f) (n := (·.nextColumnId))
  refine Follows.get fun t _ => ?_
  cases t.columns[columnId]? with
  | none => exact follows_throw
  | some column =>
    dsimp only
    split_ifs
    · exact Follows.pure
    · refine follows_ofResult.bind fun column => (hcolumns _).bind fun _ => Follows.get fun t _ =>
        Follows.foldlM fun indexed rowId _ => (follows_withRow hl).bind fun row => ?_
      cases row with
      | none => exact Follows.pure
      | some row =>
        refine Follows.get fun t _ => ?_
        cases t.columns[columnId]? with
        | none => exact follows_throw
        | some column => exact (hcolumns _).bind fun _ => Follows.pure

theorem follows_createColumn {columnName : String} {dataType : DataBaseDataType}
    {constraints : BTreeSet Constraint} :
    Follows F (createColumn columnName dataType constraints txn) :=
  Follows.get fun t _ =>
    (follows_withColumns hcolumns (f := fun t' => t'.columns.insert t.nextColumnId _)
      (n := fun _ => t.nextColumnId + 1)).bind fun _ =>
        (follows_buildColumnIndexFromRows hl hcolumns).bind fun _ => Follows.pure

theorem follows_addColumnConstraints {extraConstraints : BTreeSet Constraint} :
    Follows F (addColumnConstraints columnId extraConstraints txn) := by
  refine Follows.get fun t _ => ?_
  cases t.columns[columnId]? with
  | none => exact follows_throw
  | some column =>
    exact (follows_withColumns hcolumns (n := (·.nextColumnId))).bind fun _ =>
      (follows_buildColumnIndexFromRows hl hcolumns).bind fun _ => Follows.pure

end Columns

/-- Columns may change, and ids may be taken. -/
theorem surveying_withColumns (t : Table) (columns : BTreeMap ColumnID Column) (n : ColumnID)
    (ht : (surveying ρ).inv t) : (surveying ρ).rel t { t with columns := columns, nextColumnId := n } := by
  obtain ⟨hg, -⟩ := good_withColumns ht.1 columns
  exact fun _ => ⟨⟨⟨hg.readable, hg.writable, hg.filed, hg.settled, hg.homed, hg.located, hg.unmapped,
    hg.resident_lt, hg.mapped_lt, hg.rowId_le⟩, ht.2⟩, rfl, rfl⟩

/-- From outside, no call waits for a lock it holds. -/
theorem run_surveying {α : Type} {x : TableM α} (hg : t.Good)
    (h : Follows (surveying t.rowLocations) x) (hreturns : (x none t).1 ≠ .error .blocked) :
    (x none t).2.Good ∧ (x none t).2.view = { t.view with columns := (x none t).2.columns } ∧
      (x none t).2.memoryLimit = t.memoryLimit := by
  rcases h none t ⟨hg, rfl⟩ with ⟨e, he, rfl⟩ | ⟨-, hrel⟩
  · exact absurd he hreturns
  · obtain ⟨hg', hv, hl⟩ := hrel ⟨hg, rfl⟩
    exact ⟨hg'.1, hv, hl⟩

end Table

namespace TableOp

open Table

variable {t : Table} {op : TableOp}

theorem call_returns {c : RowCall} (h : (call c).Returns t) : c.Returns t := by
  intro hblocked
  refine h ?_
  show ((c.run >>= fun _ => pure () : TableM Unit) none t).1 = _
  have hblocked : (c.run none t).1 = .error .blocked := hblocked
  rw [bind_run]
  generalize c.run none t = outcome at hblocked
  obtain ⟨result, t'⟩ := outcome
  obtain rfl : result = .error .blocked := hblocked
  rfl

theorem step_call {c : RowCall} : (call c).step t = c.step t := by
  show ((c.run >>= fun _ => pure () : TableM Unit) none t).2 = (c.run none t).2
  rw [bind_run]
  rcases c.run none t with ⟨e | a, t'⟩ <;> rfl

/-- **Safe calls keep a table good.** -/
theorem good_step (hg : t.Good) (hreturns : op.Returns t) (hsafe : op.Safe t) :
    (op.step t).Good ∧ (op.step t).memoryLimit = t.memoryLimit := by
  cases op with
  | call c =>
    have hanswers := RowCall.answers hg hsafe (call_returns hreturns)
    rw [step_call]
    exact ⟨hanswers.good, hanswers.memoryLimit⟩
  | createColumn columnName dataType constraints txn =>
    obtain ⟨hg', -, hl⟩ := run_surveying hg
      ((follows_createColumn loads_surveying surveying_withColumns).bind fun _ => Follows.pure) hreturns
    exact ⟨hg', hl⟩
  | addColumnConstraints columnId extraConstraints txn =>
    obtain ⟨hg', -, hl⟩ := run_surveying hg
      (follows_addColumnConstraints loads_surveying surveying_withColumns) hreturns
    exact ⟨hg', hl⟩
  | rollbackTransaction txn => exact ⟨good_rollback hg hsafe, rfl⟩
  | persistDirtyPages =>
    obtain ⟨t', hrun, hm⟩ := persistDirtyPages_run (L := t.Referenced) hg.writable
    obtain ⟨hg', -⟩ := (Shows.of_good hg).moved hm
    rw [step, show run persistDirtyPages none t = _ from hrun]
    exact ⟨hg', hm.memoryLimit⟩
  | flushAllPages =>
    rw [step, show run flushAllPages none t = _ from flushAllPages_run hg.readable hg.writable]
    exact ⟨(good_flushed hg).1, rfl⟩
  | prune oldest =>
    have h := @prune_refines t oldest hg hsafe True
    exact ⟨h.good, h.memoryLimit⟩

/-- Without a memory limit every call is safe. -/
theorem safe_unlimited (hg : t.Good) (h : t.memoryLimit = 0) : op.Safe t := by
  cases op with
  | call c =>
    cases c with
    | insertRow => exact (keepsRow_unlimited hg h).opensClean
    | _ => trivial
  | rollbackTransaction => exact rollbackStays_unlimited h
  | prune => exact Or.inl h
  | _ => trivial

/-- What the calls of a run keep true of a good table. -/
theorem good_run {ops : List TableOp} (hg : t.Good)
    (h : Runs.Each step (fun t op => op.Returns t ∧ op.Safe t) t ops) :
    (Runs.exec step t ops).Good ∧ (Runs.exec step t ops).memoryLimit = t.memoryLimit := by
  refine h.invariant (I := fun t' => t'.Good ∧ t'.memoryLimit = t.memoryLimit) ⟨hg, rfl⟩
    fun t' op hI hop => ?_
  obtain ⟨hg', hl⟩ := good_step hI.1 hop.1 hop.2
  exact ⟨hg', hl.trans hI.2⟩

/-! ## The vacuum -/

/-- **The vacuum loses no row** if all the pages with rows fit in memory. -/
theorem vacuum_keeps_rows (tableId : TableID) (pageSize limit : ℕ) (store : PageStore)
    (columns : BTreeMap ColumnID Column) (ops : List TableOp) (oldest : TransactionID)
    (hr : store.readFault = none) (hw : store.writeFault = none)
    (hops : Runs.Each step (fun t op => op.Returns t ∧ op.Safe t)
      (start tableId pageSize limit store columns) ops)
    (hfits : (Runs.exec step (start tableId pageSize limit store columns) ops).Fits) :
    let t := Runs.exec step (start tableId pageSize limit store columns) ops
    ∀ r row, t.HoldsRow r row → (∃ v ∈ row.versions, v.transactionHeader.survives oldest = true) →
      (step t (.prune oldest)).HoldsRow r (row.prune oldest) := by
  intro t r row hrow hsurvives
  have hg : t.Good := (good_run (good_start hr hw) hops).1
  have hprune := @prune_refines t oldest hg hfits True
  have hview : (step t (.prune oldest)).view = t.view.prune oldest := hprune.view trivial
  rw [holdsRow_iff] at hrow ⊢
  rw [hview, View.prune, get_pruneRows, hrow]
  obtain ⟨v, hv, hs⟩ := hsurvives
  have hne : (row.prune oldest).versions ≠ [] :=
    List.ne_nil_of_mem (List.mem_filter.2 ⟨hv, hs⟩)
  rw [Option.bind_some, if_neg hne]

/-- Transaction 1 inserts an empty row. -/
abbrev insertEmpty : TableOp := .call (.insertRow ∅ ⟨1, .default⟩ fun _ => none)

theorem vacuum_keeps_rows_roomy :
    let t := Runs.exec step (start 0 25 200 .empty ∅) [insertEmpty, insertEmpty]
    ∀ r row, t.HoldsRow r row → (∃ v ∈ row.versions, v.transactionHeader.survives 0 = true) →
      (step t (.prune 0)).HoldsRow r (row.prune 0) := by
  have hopens : ∀ t t', (t.OpensPage ∅ ⟨1, .default⟩ (fun _ => none) t') →
      t' = (validateRowData ∅ ⟨1, .default⟩ none (foreignKeyValueExists (fun _ => none) ⟨1, .default⟩)
        none t).2 := fun t t' ht' => (congrArg Prod.snd ht'.validated).symm
  refine vacuum_keeps_rows 0 25 200 .empty ∅ [insertEmpty, insertEmpty] 0 rfl rfl
    ⟨⟨by decide, fun t' ht' => Or.inl ?_⟩, ⟨by decide, fun t' ht' => Or.inl ?_⟩, trivial⟩ (by decide)
  · rw [hopens _ _ ht']
    exact Or.inr ⟨[], ⟨List.nodup_nil, nofun, nofun⟩, nofun, by decide⟩
  · rw [hopens _ _ ht']
    exact Or.inr ⟨[], ⟨List.nodup_nil, nofun, nofun⟩, nofun, by decide⟩

/-- Making all pages resident evicts the first of them again, and the vacuum drops its rows. -/
theorem vacuum_loses_row :
    let t := Runs.exec step (start 0 25 100 .empty ∅) [insertEmpty, insertEmpty, insertEmpty]
    ¬ ∀ r row, t.HoldsRow r row → (∃ v ∈ row.versions, v.transactionHeader.survives 0 = true) →
      (step t (.prune 0)).HoldsRow r (row.prune 0) := by
  intro t h
  have hrow : t.HoldsRow 1 (.new ⟨1, .default⟩ ∅) := holdsRow_iff.2 (by decide +kernel)
  have hlost := holdsRow_iff.1 (h 1 _ hrow ⟨⟨.created ⟨1, .default⟩, ∅⟩, by simp [Row.new], rfl⟩)
  have hnone : (step t (.prune 0)).view.rows[1]? = none := by decide +kernel
  rw [hnone] at hlost; cases hlost

end TableOp

end AntDb
