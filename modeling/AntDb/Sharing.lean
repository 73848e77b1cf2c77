/-
  A table whose rows transactions in progress together read and write.

  `Table.Bears` says that the rows of the table are read as its overlays say, and that the rows
  that transactions in progress have written to are on pages in memory, where a rollback reaches
  them.  Every call of a table without a memory limit keeps it.
-/
import AntDb.Isolation
import AntDb.Residence
import AntDb.SerialRuns

namespace AntDb

open Call

theorem InternalRow.rollback_unstamped {v : InternalRow} {txn : Transaction} (h : ¬ v.StampedBy txn.transactionId) :
    v.rollback txn = v := by
  have hheader : v.transactionHeader.rollback txn = v.transactionHeader := by
    have hc : (v.transactionHeader.rollback txn).createdBy = v.transactionHeader.createdBy :=
      TransactionHeader.rollback_createdBy
    have hd : (v.transactionHeader.rollback txn).deletedBy = v.transactionHeader.deletedBy := by
      rw [TransactionHeader.rollback_deletedBy]
      split_ifs with hc hd
      · have hd : v.deletedBy = some txn.transactionId := by
          by_contra hne
          exact h (Or.inl ⟨hc, hne⟩)
        rw [show v.transactionHeader.deletedBy = _ from hd]
        rfl
      · exact absurd (Or.inr ⟨hc, hd⟩) h
      · rfl
    generalize v.transactionHeader.rollback txn = header at hc hd
    obtain ⟨c, d⟩ := header
    cases hc
    cases hd
    rfl
  rw [InternalRow.rollback, hheader]

namespace TableOp

/-- The call changes no row. -/
def LeavesRows : TableOp → Prop
  | call (.insertRow _ _ _) | call (.updateRow _ _ _ _) | call (.deleteRow _ _) => False
  | rollbackTransaction _ => False
  | prune _ => False
  | _ => True

instance : DecidablePred LeavesRows := fun op => by
  unfold LeavesRows
  split <;> infer_instance

end TableOp

namespace Table

/-- The table is read as the overlays say, and a rollback reaches what has been written. -/
structure Bears (t : Table) (txns : TxnState) (W : RowOverlays) (watermark : TransactionID) : Prop where
  good : t.Good
  unlimited : t.memoryLimit = 0
  handy : ∀ T r, W.Writes T r → t.Handy r
  numbered : ∀ T r, W.Writes T r → r ≤ t.nextRowId
  reflects : (⟨txns, t.view.rows⟩ : RowStore).Reflects W watermark

namespace Bears

variable {t t' : Table} {txns : TxnState} {W : RowOverlays} {watermark w' T C V : TransactionID} {r rowId : RowID}
  {row : Row} {data : RowData} {others : ForeignTables} {op : TableOp} {limit : ℕ}

theorem versions_of_row (h : t.view.rows[r]? = some row) :
    (⟨txns, t.view.rows⟩ : RowStore).versions r = row.versions := by
  rw [RowStore.versions, h]
  rfl

/-- A row that is stored has been numbered. -/
theorem le_of_stored (hg : t.Good) (h : t.view.rows[r]? = some row) : r ≤ t.nextRowId := by
  obtain ⟨p, hp⟩ := mapped_of_row h
  exact hg.rowId_le r (BTreeMap.mem_of_get hp)

/-- Calls that change no row and keep the pages in memory. -/
theorem abided (h : t.Bears txns W watermark) (hgood : t'.Good) (habides : t.Abides t')
    (hrows : t'.view.rows = t.view.rows) : t'.Bears txns W watermark where
  good := hgood
  unlimited := habides.memoryLimit.trans h.unlimited
  handy T r hw := habides.handy (h.handy T r hw)
  numbered T r hw := (h.numbered T r hw).trans_eq habides.nextRowId.symm
  reflects := hrows ▸ h.reflects

/-! ## Begins and ends -/

theorem create (h : t.Bears txns W watermark) : t.Bears txns.createTransaction.2 W watermark :=
  ⟨h.good, h.unlimited, h.handy, h.numbered, h.reflects.create⟩

theorem commit (h : t.Bears txns W watermark) (hC : C ∈ txns.active) (hle : watermark ≤ C)
    (hw : w' = C ∨ w' = watermark ∧ ∀ r, ¬ W.Writes C r) :
    t.Bears (txns.commitTransaction C) (W.commit C) w' :=
  ⟨h.good, h.unlimited, fun T r hT => h.handy T r (Overlays.writes_commit.1 hT).2,
    fun T r hT => h.numbered T r (Overlays.writes_commit.1 hT).2, h.reflects.commit hC hle hw⟩

/-- A rollback reaches the rows its transaction has written to. -/
theorem rollback (h : t.Bears txns W watermark) (hT : T ∈ txns.active) :
    (t.rollbackTransaction (txns.txn T)).Bears (txns.rollbackTransaction T) (W.rollback T) watermark where
  good := good_rollback h.good (rollbackStays_unlimited h.unlimited)
  unlimited := h.unlimited
  handy V r hV := handy_rollback (h.handy V r (Overlays.writes_rollback.1 hV).2)
  numbered V r hV := h.numbered V r (Overlays.writes_rollback.1 hV).2
  reflects := by
    rw [view_rollback_handy fun r row hrow hfar => ?_]
    · exact h.reflects.rollback hT
    have hunwritten : ¬ W.Writes T r := fun hw => hfar (h.handy T r hw)
    refine congrArg Row.mk ((List.map_congr_left fun v hv => InternalRow.rollback_unstamped fun hstamp => ?_).trans
      (List.map_id _))
    have hv : v ∈ (⟨txns, t.view.rows⟩ : RowStore).versions r := (versions_of_row hrow).symm ▸ hv
    exact hunwritten ((h.reflects.stamps r v hv T hstamp).1 hT)

/-! ## Writes -/

/-- The table after a call that has written to a row. -/
theorem written {x : Option RowData} {rows : BTreeMap RowID Row} (h : t.Bears txns W watermark) (hgood : t'.Good)
    (hlimit : t'.memoryLimit = 0) (hhandy : ∀ r, t.Handy r → t'.Handy r) (hr : t'.Handy rowId)
    (hnext : t.nextRowId ≤ t'.nextRowId) (hle : rowId ≤ t'.nextRowId) (hrows : t'.view.rows = rows)
    (hreflects : (⟨txns, rows⟩ : RowStore).Reflects (W.write T rowId x) watermark) :
    t'.Bears txns (W.write T rowId x) watermark := by
  subst hrows
  refine ⟨hgood, hlimit, fun V r hV => ?_, fun V r hV => ?_, hreflects⟩
  · rcases Overlays.writes_write.1 hV with ⟨-, rfl⟩ | hV
    · exact hr
    · exact hhandy r (h.handy V r hV)
  · rcases Overlays.writes_write.1 hV with ⟨-, rfl⟩ | hV
    · exact hle
    · exact (h.numbered V r hV).trans hnext

theorem insertRow (h : t.Bears txns W watermark) (hT : T ∈ txns.active) :
    (∃ e t', Table.insertRow data (txns.txn T) others none t = (.error e, t') ∧ t'.Bears txns W watermark) ∨
      ∃ t', Table.insertRow data (txns.txn T) others none t = (.ok (t.nextRowId + 1), t') ∧
        t'.nextRowId = t.nextRowId + 1 ∧ t'.Bears txns (W.write T (t.nextRowId + 1) (some data)) watermark := by
  have hkeeps : t.KeepsRow data (txns.txn T) others := keepsRow_unlimited h.good h.unlimited
  have hspec := insertRow_refines h.good hkeeps.opensClean
  obtain ⟨hhandy, hnew⟩ := @handy_insertRow t data (txns.txn T) others h.unlimited
  generalize Table.insertRow data (txns.txn T) others none t = outcome at hspec hhandy hnew ⊢
  obtain ⟨reply, t'⟩ := outcome
  have hreply := hspec.result
  have hview := hspec.view hkeeps
  unfold View.insertRow at hreply hview
  cases hvalid : t.view.validateRowData data (txns.txn T) none others with
  | error e =>
    rw [hvalid] at hreply hview
    have hview : t'.view = t.view := hview
    exact Or.inl ⟨_, t', Prod.ext hreply rfl, hspec.good, hspec.memoryLimit.trans h.unlimited,
      fun V r hV => hhandy r (h.handy V r hV), fun V r hV =>
        (h.numbered V r hV).trans_eq (congrArg View.nextRowId hview).symm, hview ▸ h.reflects⟩
  | ok =>
    rw [hvalid] at hreply hview
    obtain rfl : reply = .ok (t.view.nextRowId + 1) := hreply
    have hnext : t'.nextRowId = t.nextRowId + 1 := congrArg View.nextRowId hview
    have hfresh : t.view.nextRowId + 1 ∉ t.view.rows := fun hmem => by
      obtain ⟨row, hrow⟩ := BTreeMap.mem_iff_get.1 hmem
      exact Nat.not_succ_le_self _ (le_of_stored h.good hrow)
    have hfree : ∀ V, V ≠ T → ¬ W.Writes V (t.view.nextRowId + 1) := fun V _ hw =>
      Nat.not_succ_le_self _ (h.numbered V _ hw)
    have hreflects := @RowStore.Reflects.new _ _ _ _ _ data h.reflects hT hfresh hfree
    rw [RowStore.step_new] at hreflects
    exact Or.inr ⟨t', rfl, hnext, h.written hspec.good (hspec.memoryLimit.trans h.unlimited) hhandy (hnew _ rfl)
      (hnext ▸ Nat.le_succ _) hnext.ge (congrArg View.rows hview) hreflects⟩

/-- An update of a row that no other transaction in progress has written to. -/
theorem updateRow (h : t.Bears txns W watermark) (hT : T ∈ txns.active) (hfree : ∀ V, V ≠ T → ¬ W.Writes V r)
    (hreturns : (Table.updateRow r data (txns.txn T) others none t).1 ≠ .error .blocked) :
    (∃ e t', Table.updateRow r data (txns.txn T) others none t = (.error e, t') ∧ t'.Bears txns W watermark) ∨
      ∃ t', Table.updateRow r data (txns.txn T) others none t = (.ok (), t') ∧
        t'.Bears txns (W.write T r (some data)) watermark := by
  have hspec := @updateRow_refines _ _ _ _ _ h.good True hreturns
  have habides := @abides_updateRow t r data (txns.txn T) others h.unlimited
  have hhandy := @handy_updateRow t r data (txns.txn T) others h.unlimited
  generalize Table.updateRow r data (txns.txn T) others none t = outcome at hspec habides hhandy ⊢
  obtain ⟨reply, t'⟩ := outcome
  have hreply := hspec.result
  have hview := hspec.view trivial
  unfold View.updateRow at hreply hview
  cases hrow : t.view.rows[r]? with
  | none =>
    rw [hrow] at hreply hview
    exact Or.inl ⟨_, t', Prod.ext hreply rfl, h.abided hspec.good habides (congrArg View.rows hview)⟩
  | some row =>
    rw [hrow] at hreply hview
    dsimp only at hreply hview
    cases hvalid : t.view.validateRowData (effectiveData row data (txns.txn T)) (txns.txn T) (some r) others with
    | error e =>
      rw [hvalid] at hreply hview
      exact Or.inl ⟨_, t', Prod.ext hreply rfl, h.abided hspec.good habides (congrArg View.rows hview)⟩
    | ok =>
      rw [hvalid] at hreply hview
      obtain rfl : reply = .ok () := hreply
      have hreflects := @RowStore.Reflects.update _ _ _ _ _ data h.reflects hT (BTreeMap.mem_of_get hrow) hfree
      rw [RowStore.step_update] at hreflects
      exact Or.inr ⟨t', rfl, h.written hspec.good (hspec.memoryLimit.trans h.unlimited) (fun _ => habides.handy)
        (hhandy rfl) habides.nextRowId.ge ((le_of_stored h.good hrow).trans_eq habides.nextRowId.symm)
        (congrArg View.rows hview) hreflects⟩

theorem deleteRow (h : t.Bears txns W watermark) (hT : T ∈ txns.active) (hfree : ∀ V, V ≠ T → ¬ W.Writes V r) :
    (∃ e t', Table.deleteRow r (txns.txn T) none t = (.error e, t') ∧ t'.Bears txns W watermark) ∨
      ∃ t', Table.deleteRow r (txns.txn T) none t = (.ok (), t') ∧ t'.Bears txns (W.write T r none) watermark := by
  have hspec := @deleteRow_refines t r (txns.txn T) h.good True
  have habides := @abides_deleteRow t r (txns.txn T) h.unlimited
  have hhandy := @handy_deleteRow t r (txns.txn T) h.unlimited
  generalize Table.deleteRow r (txns.txn T) none t = outcome at hspec habides hhandy ⊢
  obtain ⟨reply, t'⟩ := outcome
  have hreply := hspec.result
  have hview := hspec.view trivial
  unfold View.deleteRow at hreply hview
  cases hrow : t.view.rows[r]? with
  | none =>
    rw [hrow] at hreply hview
    exact Or.inl ⟨_, t', Prod.ext hreply rfl, h.abided hspec.good habides (congrArg View.rows hview)⟩
  | some row =>
    rw [hrow] at hreply hview
    obtain rfl : reply = .ok () := hreply
    have hreflects := h.reflects.remove hT hfree
    rw [RowStore.step_remove] at hreflects
    exact Or.inr ⟨t', rfl, h.written hspec.good (hspec.memoryLimit.trans h.unlimited) (fun _ => habides.handy)
      (hhandy rfl) habides.nextRowId.ge ((le_of_stored h.good hrow).trans_eq habides.nextRowId.symm)
      (congrArg View.rows hview) hreflects⟩

/-! ## Other calls -/

/-- Calls that change no row keep the pages in memory. -/
theorem abides_step (hl : t.memoryLimit = 0) (hleaves : op.LeavesRows) : t.Abides (op.step t) := by
  have hstore : ∀ t' store ids, (abiding t.rowLocations).inv t' →
      (abiding t.rowLocations).rel t' { t' with pageStore := store, onDiskPages := ids } := fun _ _ _ _ =>
    ⟨rfl, rfl, rfl, fun _ h => h⟩
  have hcolumns : ∀ t' columns n, (abiding t.rowLocations).inv t' →
      (abiding t.rowLocations).rel t' { t' with columns := columns, nextColumnId := n } := fun _ _ _ _ =>
    abides_columns
  cases op with
  | call c =>
    rw [TableOp.step_call]
    cases c with
    | insertRow | updateRow | deleteRow => exact hleaves.elim
    | getRow r => exact run_abiding ((follows_getRow loads_abiding).bind fun _ => Follows.pure) hl
    | search request txn path => exact run_abiding ((follows_search loads_abiding).bind fun _ => Follows.pure) hl
  | createColumn => exact run_abiding ((follows_createColumn loads_abiding hcolumns).bind fun _ => Follows.pure) hl
  | addColumnConstraints => exact run_abiding (follows_addColumnConstraints loads_abiding hcolumns) hl
  | persistDirtyPages => exact run_abiding (follows_persistDirtyPages hstore) hl
  | flushAllPages =>
    refine run_abiding (follows_flushAllPages hstore fun t' _ => ⟨rfl, rfl, rfl, fun p ⟨page, hp⟩ => ?_⟩) hl
    exact ⟨{ page with isDirty := false }, by
      rw [@PageMap.get?_map t'.rowSpace p (fun page => { page with isDirty := false }) fun _ => rfl, hp]
      rfl⟩
  | rollbackTransaction | prune => exact hleaves.elim

theorem rows_step (hg : t.Good) (hleaves : op.LeavesRows) (hreturns : op.Returns t) :
    (op.step t).view.rows = t.view.rows := by
  have hcolumns : ∀ {v : View} {columns : BTreeMap ColumnID Column}, v = { t.view with columns := columns } →
      v.rows = t.view.rows := fun h => h ▸ rfl
  cases op with
  | call c =>
    have hreturns := TableOp.call_returns hreturns
    rw [TableOp.step_call]
    cases c with
    | insertRow | updateRow | deleteRow => exact hleaves.elim
    | getRow r =>
      have hclean : RowCall.OpensClean t (.getRow r) := trivial
      exact congrArg View.rows ((RowCall.answers hg hclean hreturns).view trivial)
    | search request txn path =>
      have hclean : RowCall.OpensClean t (.search request txn path) := trivial
      exact congrArg View.rows ((RowCall.answers hg hclean hreturns).view trivial)
  | createColumn =>
    exact hcolumns (run_surveying hg ((follows_createColumn loads_surveying surveying_withColumns).bind
      fun _ => Follows.pure) hreturns).2.1
  | addColumnConstraints =>
    exact hcolumns (run_surveying hg (follows_addColumnConstraints loads_surveying surveying_withColumns) hreturns).2.1
  | persistDirtyPages =>
    obtain ⟨t', hrun, hm⟩ := persistDirtyPages_run (L := t.Referenced) hg.writable
    rw [TableOp.step, show TableOp.run .persistDirtyPages none t = _ from hrun]
    exact congrArg View.rows ((Shows.of_good hg).moved hm).2.2
  | flushAllPages =>
    rw [TableOp.step, show TableOp.run .flushAllPages none t = _ from flushAllPages_run hg.readable hg.writable]
    exact congrArg View.rows (good_flushed hg).2
  | rollbackTransaction | prune => exact hleaves.elim

/-- Reads, changes of columns, and flushes. -/
theorem step (h : t.Bears txns W watermark) (hleaves : op.LeavesRows) (hreturns : op.Returns t) :
    (op.step t).Bears txns W watermark :=
  h.abided (TableOp.good_step h.good hreturns (TableOp.safe_unlimited h.good h.unlimited)).1
    (abides_step h.unlimited hleaves) (rows_step h.good hleaves hreturns)

theorem flushAllPages (h : t.Bears txns W watermark) :
    Table.flushAllPages none t = (.ok (), t.flushed) ∧ t.flushed.Bears txns W watermark := by
  have hrun : Table.flushAllPages none t = (.ok (), t.flushed) := flushAllPages_run h.good.readable h.good.writable
  have hreturns : TableOp.Returns t .flushAllPages := by
    rw [TableOp.Returns, show TableOp.run .flushAllPages none t = _ from hrun]
    nofun
  have hstep := @step _ _ _ _ .flushAllPages h trivial hreturns
  rw [TableOp.step, show TableOp.run .flushAllPages none t = _ from hrun] at hstep
  exact ⟨hrun, hstep⟩

/-- A vacuum drops versions that nobody will see. -/
theorem prune (h : t.Bears txns W watermark) : (Table.prune txns.smallest none t).2.Bears txns W watermark := by
  have hspec := @prune_refines t txns.smallest h.good (Or.inl h.unlimited) True
  have hview := hspec.view trivial
  refine ⟨hspec.good, hspec.memoryLimit.trans h.unlimited, fun T r hw => handy_prune h.good h.unlimited,
    fun T r hw => (h.numbered T r hw).trans_eq (congrArg View.nextRowId hview).symm, ?_⟩
  refine h.reflects.pruned rfl fun r => ?_
  rw [show (Table.prune txns.smallest none t).2.view.rows = _ from congrArg View.rows hview]
  exact RowStore.versions_pruneRows

/-- A restart, after which whatever had been written counts as committed. -/
theorem restarted {l : List TransactionID} {txns' : TxnState} (h : t.Bears txns W watermark)
    (hl : ∀ a, a ∈ l ↔ a ∈ txns.active) (hwf : txns'.Wf) (hnext : txns'.nextTransactionId = txns.nextTransactionId)
    (hidle : ∀ a, a ∉ txns'.active) (hlast : txns'.last + 1 = txns.nextTransactionId)
    (hold : t.rowLocations ≠ ∅ ∨ t.NoOldRows) (hlimit : limit = 0) :
    (t.restarted limit).Bears txns' (W.commitAll l) txns'.last := by
  obtain ⟨hgood, hview⟩ := @good_restarted _ h.good hold limit
  have hreflects := @RowStore.Reflects.restarted _ ⟨txns', t.view.rows⟩ _ _ _ h.reflects hl hwf hnext hidle
    hlast fun _ => rfl
  have hnone : ∀ T r, ¬ (W.commitAll l).Writes T r := fun T r hw => hidle T (hreflects.idle T r hw)
  exact ⟨hgood, hlimit, fun T r hw => absurd hw (hnone T r), fun T r hw => absurd hw (hnone T r), hview ▸ hreflects⟩

theorem start {tableId : TableID} {pageSize : ℕ} {store : PageStore} {columns : BTreeMap ColumnID Column}
    (hread : store.readFault = none) (hwrite : store.writeFault = none) (hwf : txns.Wf) :
    (Table.start tableId pageSize 0 store columns).Bears txns .empty watermark := by
  have hrows : (Table.start tableId pageSize 0 store columns).view.rows = ∅ := by
    refine Std.ExtTreeMap.ext_getElem? fun r => ?_
    rw [Table.viewIn_get, Table.rowIn]
    simp [Table.start, Table.new]
  refine ⟨good_start hread hwrite, rfl, fun T r hw => absurd hw Overlays.not_writes_empty,
    fun T r hw => absurd hw Overlays.not_writes_empty, ?_⟩
  rw [hrows]
  exact RowStore.Reflects.start hwf

/-! ## Scans -/

/-- **A scan** finds each row that its transaction sees once. -/
theorem scan (h : t.Bears txns W watermark) (hV : txns.Reader V) :
    ∃ found, (forEachVisibleRow (txns.txn V) (fun found rowId data => .ok (found ++ [(rowId, data)])) [] none t).1 =
      .ok found ∧ found.Nodup ∧ ∀ r data, (r, data) ∈ found ↔ W.seen V r = some data := by
  have hyields := @yields_forEachVisibleRow none t.rowLocations t.view (txns.txn V) _
    (fun found r data => .ok (found ++ [(r, data)])) []
  rw [Arranged.foldlM_collect, List.nil_append] at hyields
  obtain ⟨t', hrun, -⟩ := run_yields h.good hyields
  have hperm := @View.scannedRows_perm (txns.txn V) t
  refine ⟨_, congrArg Prod.fst hrun, hperm.nodup_iff.2 View.nodup_visibleRows, fun r data => ?_⟩
  have hdata := h.reflects.sees V hV r
  rw [RowStore.visibleData] at hdata
  rw [hperm.mem_iff, View.mem_visibleRows, ← hdata, View.rowSeen]
  cases t.view.rows[r]? with
  | none => simp
  | some row =>
    rw [Option.bind_some, Option.bind_some, View.seen, Option.map_eq_some_iff, Option.map_eq_some_iff]
    exact exists_congr fun version => and_congr_right fun _ => by simp

end Bears

end Table

end AntDb
