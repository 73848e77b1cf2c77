/-
  Serial histories of a table, and what a scan of it yields.

  One transaction is in progress at a time.  The table then amounts to a map of rows with undo, as
  long as it has no memory limit and no constraints, whatever the file system reports.
-/
import AntDb.Diskless
import AntDb.Serial

namespace AntDb

open Call Runs

/-- A step of a history; `T` is the transaction that acts. -/
inductive HistoryOp where
  | createTransaction
  | insertRow (T : TransactionID) (data : RowData) (others : ForeignTables)
  | updateRow (T : TransactionID) (rowId : RowID) (data : RowData) (others : ForeignTables)
  | deleteRow (T : TransactionID) (rowId : RowID)
  | commitTransaction (T : TransactionID)
  | rollbackTransaction (T : TransactionID)
  | removeStrayTables
  | autoVacuum

namespace HistoryOp

/-- The step on a database and its table `name`, and on the map of rows: an insert or an update that is
    turned down leaves the map alone. -/
def step (name : String) (s : Database × RowsWithUndo) : HistoryOp → Database × RowsWithUndo
  | createTransaction => ((Database.createTransaction () s.1).2, s.2.begun)
  | insertRow T data others =>
    match Database.inTable name (Table.insertRow data (s.1.txn T) others) () s.1 with
    | (.ok rowId, db) => (db, s.2.insert rowId data)
    | (.error _, db) => (db, s.2)
  | updateRow T rowId data others =>
    match Database.inTable name (Table.updateRow rowId data (s.1.txn T) others) () s.1 with
    | (.ok _, db) => (db, s.2.insert rowId data)
    | (.error _, db) => (db, s.2)
  | deleteRow T rowId =>
    ((Database.inTable name (Table.deleteRow rowId (s.1.txn T)) () s.1).2, s.2.erase rowId)
  | commitTransaction T => (s.1.commitTransaction T, s.2)
  | rollbackTransaction T => (s.1.rollbackTransaction T, s.2.undone)
  | removeStrayTables => (s.1.removeStrayTables, s.2)
  | autoVacuum => (s.1.autoVacuum, s.2)

/-- A transaction begins when none is in progress; the one in progress acts, and changes rows that are
    there. -/
def Serial (s : Database × RowsWithUndo) : HistoryOp → Prop
  | createTransaction => s.1.txns.active = ∅
  | insertRow T _ _ => T ∈ s.1.txns.active
  | updateRow T rowId _ _ => T ∈ s.1.txns.active ∧ rowId ∈ s.2.rows
  | deleteRow T rowId => T ∈ s.1.txns.active ∧ rowId ∈ s.2.rows
  | commitTransaction T => T ∈ s.1.txns.active
  | rollbackTransaction T => T ∈ s.1.txns.active
  | removeStrayTables => True
  | autoVacuum => True

instance (s : Database × RowsWithUndo) (op : HistoryOp) : Decidable (Serial s op) := by
  cases op <;> unfold Serial <;> infer_instance

/-- The write succeeded, or its row does not have the types of the columns. -/
def Accepted {α : Type} (reply : Except Fault α) : Prop :=
  (∃ a, reply = .ok a) ∨ ∃ c expected found, reply = .error (.err (.dataTypeMismatch c expected found))

/-- A delete succeeds, and a row is turned down for its types only. -/
def Answered (name : String) (s : Database × RowsWithUndo) : HistoryOp → Prop
  | insertRow T data others =>
    Accepted (Database.inTable name (Table.insertRow data (s.1.txn T) others) () s.1).1
  | updateRow T rowId data others =>
    Accepted (Database.inTable name (Table.updateRow rowId data (s.1.txn T) others) () s.1).1
  | deleteRow T rowId => (Database.inTable name (Table.deleteRow rowId (s.1.txn T)) () s.1).1 = .ok ()
  | _ => True

end HistoryOp

/-- A scan of the table `name` by `V` yields the rows of the map, each once. -/
def Database.Scans (db : Database) (name : String) (V : TransactionID) (rows : BTreeMap RowID RowData) : Prop :=
  ∃ found, (Database.inTable name (Table.forEachVisibleRow (db.txn V)
      (fun found rowId data => .ok (found ++ [(rowId, data)])) []) () db).1 = .ok found ∧
    found.Perm rows.toList

/-! ## Row stores and views -/

theorem TxnState.not_mem_of_idle {txns : TxnState} (h : txns.active = ∅) : ∀ a, a ∉ txns.active := fun a ha => by
  rw [h] at ha
  exact Std.ExtTreeSet.not_mem_empty ha

namespace RowStore

variable {txns : TxnState} {rows : BTreeMap RowID Row} {T : TransactionID} {r : RowID} {data : RowData}
  {oldest : TransactionID}

theorem step_new : (⟨txns, rows⟩ : RowStore).step (.row T r (.new data)) =
    ⟨txns, rows.insert r (Row.new (txns.txn T) data)⟩ := by
  refine congrArg (RowStore.mk txns) (Std.ExtTreeMap.ext_getElem? fun r' => ?_)
  rw [BTreeMap.get_insert]
  exact get_row

theorem step_update : (⟨txns, rows⟩ : RowStore).step (.row T r (.update data)) =
    ⟨txns, rows.modify r (·.update (txns.txn T) data)⟩ := by
  refine congrArg (RowStore.mk txns) (Std.ExtTreeMap.ext_getElem? fun r' => ?_)
  rw [BTreeMap.get_modify]
  exact get_row

theorem step_remove : (⟨txns, rows⟩ : RowStore).step (.row T r .remove) =
    ⟨txns, rows.modify r (·.remove (txns.txn T))⟩ := by
  refine congrArg (RowStore.mk txns) (Std.ExtTreeMap.ext_getElem? fun r' => ?_)
  rw [BTreeMap.get_modify]
  exact get_row

theorem versions_pruneRows : (⟨txns, Table.pruneRows oldest rows⟩ : RowStore).versions r =
    ((⟨txns, rows⟩ : RowStore).versions r).filter (·.transactionHeader.survives oldest) := by
  rw [versions, versions, Table.get_pruneRows]
  cases rows[r]? with
  | none => rfl
  | some row =>
    rw [Option.bind_some]
    split_ifs with hnil
    · exact hnil.symm
    · rfl

end RowStore

/-! ## What a history keeps -/

namespace HistoryOp

variable {name : String} {s : Database × RowsWithUndo} {op : HistoryOp} {t : Table}

/-- The table `t` amounts to the map. -/
structure Tracks (name : String) (s : Database × RowsWithUndo) (t : Table) : Prop where
  found : s.1.tables[name]? = some t
  arranged : ∃ sizes, t.Arranged sizes
  unconstrained : Unconstrained t.columns
  mirrors : (⟨s.1.txns, t.view.rows⟩ : RowStore).Mirrors s.2

namespace Tracks

theorem unchecked (h : Tracks name s t) : t.Unchecked := by
  obtain ⟨sizes, harranged⟩ := h.arranged
  exact ⟨harranged.unlimited, h.unconstrained⟩

/-- Row ids above the counter are free. -/
theorem fresh (h : Tracks name s t) : t.view.nextRowId + 1 ∉ t.view.rows := by
  obtain ⟨sizes, harranged⟩ := h.arranged
  intro hmem
  obtain ⟨row, hrow⟩ := BTreeMap.mem_iff_get.1 hmem
  obtain ⟨p, hp⟩ := Table.mapped_of_row hrow
  exact Nat.not_succ_le_self _ (harranged.rowId_le _ (BTreeMap.mem_of_get hp))

/-- A row of the map is stored. -/
theorem stored (h : Tracks name s t) {r : RowID} (hr : r ∈ s.2.rows) : ∃ row, t.view.rows[r]? = some row := by
  obtain ⟨data, hdata⟩ := BTreeMap.mem_iff_get.1 hr
  have hrows := h.mirrors.rows r
  cases hrow : t.view.rows[r]? with
  | some row => exact ⟨row, rfl⟩
  | none =>
    rw [RowStore.versions_absent hrow, hdata] at hrows
    cases hrows

theorem inTable_run (h : Tracks name s t) {α : Type} {x : TableM α} : Database.inTable name x () s.1 =
    ((x none t).1, { s.1 with tables := s.1.tables.insert name (x none t).2 }) := by
  unfold Database.inTable
  rw [h.found]

/-- The table after a write, with the view `v`. -/
theorem of_written {t' : Table} {v : View} {ref : RowsWithUndo} (hview : t'.view = v)
    (harranged : ∃ sizes, t'.Arranged sizes) (hcolumns : Unconstrained v.columns)
    (hmirrors : (⟨s.1.txns, v.rows⟩ : RowStore).Mirrors ref) :
    Tracks name ({ s.1 with tables := s.1.tables.insert name t' }, ref) t' := by
  subst hview
  refine ⟨?_, harranged, hcolumns, hmirrors⟩
  show (s.1.tables.insert name t')[name]? = some t'
  rw [BTreeMap.get_insert, if_pos rfl]

/-- The table after a change of every table, with the view `v`. -/
theorem mapped (h : Tracks name s t) {f : Table → Table} {txns : TxnState} {v : View} {ref : RowsWithUndo}
    (hview : (f t).view = v) (harranged : ∃ sizes, (f t).Arranged sizes) (hcolumns : Unconstrained v.columns)
    (hmirrors : (⟨txns, v.rows⟩ : RowStore).Mirrors ref) :
    Tracks name ({ s.1 with txns := txns, tables := s.1.tables.map fun _ t => f t }, ref) (f t) := by
  subst hview
  refine ⟨?_, harranged, hcolumns, hmirrors⟩
  show (s.1.tables.map fun _ t => f t)[name]? = _
  rw [Std.ExtTreeMap.getElem?_map, h.found]
  rfl

variable {T : TransactionID} {r : RowID} {data : RowData} {others : ForeignTables}

theorem insertRow (h : Tracks name s t) (hT : T ∈ s.1.txns.active) :
    Answered name s (.insertRow T data others) ∧ ∃ t', Tracks name (step name s (.insertRow T data others)) t' := by
  obtain ⟨sizes, ha⟩ := h.arranged
  obtain ⟨hreply, hview⟩ := @Table.Arranged.insertRow_view t data (s.1.txn T) others sizes ha h.unchecked
  have ha' : ∃ sizes', (Table.insertRow data (s.1.txn T) others none t).2.Arranged sizes' := ⟨_, ha.insertRow⟩
  dsimp only [Answered, step]
  rw [h.inTable_run]
  generalize Table.insertRow data (s.1.txn T) others none t = outcome at hreply hview ha' ⊢
  obtain ⟨reply, t'⟩ := outcome
  unfold View.insertRow at hreply hview
  rcases ha.validate_view h.unchecked with hok | ⟨c, expected, found, herr⟩
  · rw [hok] at hreply hview
    obtain rfl : reply = .ok (t.view.nextRowId + 1) := hreply
    refine ⟨Or.inl ⟨_, rfl⟩, t', of_written hview ha' h.unconstrained.indexed ?_⟩
    have hmirrors := @RowStore.Mirrors.insert _ _ _ _ data h.mirrors hT h.fresh
    rw [RowStore.step_new] at hmirrors
    exact hmirrors
  · rw [herr] at hreply hview
    obtain rfl : reply = .error (.err (.dataTypeMismatch c expected found)) := hreply
    exact ⟨Or.inr ⟨c, expected, found, rfl⟩, t', of_written hview ha' h.unconstrained h.mirrors⟩

theorem updateRow (h : Tracks name s t) (hT : T ∈ s.1.txns.active) (hr : r ∈ s.2.rows) :
    Answered name s (.updateRow T r data others) ∧ ∃ t', Tracks name (step name s (.updateRow T r data others)) t' := by
  obtain ⟨sizes, ha⟩ := h.arranged
  obtain ⟨row, hrow⟩ := h.stored hr
  obtain ⟨hreply, hview⟩ := @Table.Arranged.updateRow_view t r data (s.1.txn T) others sizes ha h.unchecked
  have ha' : ∃ sizes', (Table.updateRow r data (s.1.txn T) others none t).2.Arranged sizes' :=
    ⟨sizes, ha.of_follows (Table.follows_updateRow_resting ha.laid.sound)⟩
  dsimp only [Answered, step]
  rw [h.inTable_run]
  generalize Table.updateRow r data (s.1.txn T) others none t = outcome at hreply hview ha' ⊢
  obtain ⟨reply, t'⟩ := outcome
  unfold View.updateRow at hreply hview
  rw [hrow] at hreply hview
  dsimp only at hreply hview
  rcases ha.validate_view h.unchecked with hok | ⟨c, expected, found, herr⟩
  · rw [hok] at hreply hview
    obtain rfl : reply = .ok () := hreply
    refine ⟨Or.inl ⟨_, rfl⟩, t', of_written hview ha' h.unconstrained.indexed ?_⟩
    have hmirrors := @RowStore.Mirrors.update _ _ _ _ data h.mirrors hT (BTreeMap.mem_of_get hrow)
    rw [RowStore.step_update] at hmirrors
    exact hmirrors
  · rw [herr] at hreply hview
    obtain rfl : reply = .error (.err (.dataTypeMismatch c expected found)) := hreply
    exact ⟨Or.inr ⟨c, expected, found, rfl⟩, t', of_written hview ha' h.unconstrained h.mirrors⟩

theorem deleteRow (h : Tracks name s t) (hT : T ∈ s.1.txns.active) (hr : r ∈ s.2.rows) :
    Answered name s (.deleteRow T r) ∧ ∃ t', Tracks name (step name s (.deleteRow T r)) t' := by
  obtain ⟨sizes, ha⟩ := h.arranged
  obtain ⟨row, hrow⟩ := h.stored hr
  obtain ⟨hreply, hview⟩ := @Table.Arranged.deleteRow_view t r (s.1.txn T) sizes ha h.unchecked
  have ha' : ∃ sizes', (Table.deleteRow r (s.1.txn T) none t).2.Arranged sizes' :=
    ⟨sizes, ha.of_follows (Table.follows_deleteRow_resting ha.laid.sound)⟩
  dsimp only [Answered, step]
  rw [h.inTable_run]
  unfold View.deleteRow at hreply hview
  rw [hrow] at hreply hview
  refine ⟨hreply, _, of_written hview ha' h.unconstrained ?_⟩
  have hmirrors := h.mirrors.remove (r := r) hT
  rw [RowStore.step_remove] at hmirrors
  exact hmirrors

theorem rollbackTransaction (h : Tracks name s t) (hT : T ∈ s.1.txns.active) :
    ∃ t', Tracks name (step name s (.rollbackTransaction T)) t' := by
  obtain ⟨sizes, ha⟩ := h.arranged
  have ha' : (t.rollbackTransaction (s.1.txn T)).Arranged sizes :=
    @TableOp.arranged_step t sizes (.rollbackTransaction (s.1.txn T)) ha
  exact ⟨_, h.mapped (f := fun t => t.rollbackTransaction (s.1.txn T)) ha.rollback_view ⟨sizes, ha'⟩
    h.unconstrained.rolledBack (h.mirrors.rollback hT)⟩

/-- A vacuum drops versions that nobody will see. -/
theorem removeStrayTables (h : Tracks name s t) : ∃ t', Tracks name (step name s .removeStrayTables) t' := by
  obtain ⟨sizes, ha⟩ := h.arranged
  refine ⟨_, h.mapped (f := fun t => (Table.prune s.1.txns.smallest none t).2) ha.prune_view ⟨_, ha.prune⟩
    h.unconstrained.pruned (h.mirrors.pruned rfl fun r => ?_)⟩
  exact RowStore.versions_pruneRows

theorem autoVacuum (h : Tracks name s t) : ∃ t', Tracks name (step name s .autoVacuum) t' := by
  obtain ⟨t', h'⟩ := h.removeStrayTables
  obtain ⟨sizes, ha⟩ := h'.arranged
  have ha' : (Table.flushAllPages none t').2.Arranged sizes := @TableOp.arranged_step t' sizes .flushAllPages ha
  exact ⟨_, h'.mapped (f := fun t => (Table.flushAllPages none t).2) (Table.flushAllPages_view ha.resident)
    ⟨sizes, ha'⟩ h'.unconstrained h'.mirrors⟩

/-- **A step** of a serial history. -/
theorem step (h : Tracks name s t) (hserial : Serial s op) :
    Answered name s op ∧ ∃ t', Tracks name (op.step name s) t' := by
  cases op with
  | createTransaction => exact ⟨trivial, t, h.found, h.arranged, h.unconstrained, h.mirrors.create (TxnState.not_mem_of_idle hserial)⟩
  | insertRow T data others => exact h.insertRow hserial
  | updateRow T r data others => exact h.updateRow hserial.1 hserial.2
  | deleteRow T r => exact h.deleteRow hserial.1 hserial.2
  | commitTransaction T => exact ⟨trivial, t, h.found, h.arranged, h.unconstrained, h.mirrors.commit hserial⟩
  | rollbackTransaction T => exact ⟨trivial, h.rollbackTransaction hserial⟩
  | removeStrayTables => exact ⟨trivial, h.removeStrayTables⟩
  | autoVacuum => exact ⟨trivial, h.autoVacuum⟩

/-- **A run** of a serial history. -/
theorem run {ops : List HistoryOp} (h : Tracks name s t)
    (hserial : Each (HistoryOp.step name) Serial s ops) :
    Each (HistoryOp.step name) (Answered name) s ops ∧
      ∃ t', Tracks name (exec (HistoryOp.step name) s ops) t' := by
  induction ops generalizing s t with
  | nil => exact ⟨trivial, t, h⟩
  | cons op ops ih =>
    obtain ⟨hanswered, t', h'⟩ := h.step hserial.1
    obtain ⟨hrest, ht⟩ := ih h' hserial.2
    exact ⟨⟨hanswered, hrest⟩, ht⟩

/-- The transaction in progress sees the rows of the map. -/
theorem mem_visibleRows (h : Tracks name s t) {V : TransactionID} (hV : V ∈ s.1.txns.active) {x : RowID × RowData} :
    x ∈ t.view.visibleRows (s.1.txn V) ↔ x ∈ s.2.rows.toList := by
  obtain ⟨r, data⟩ := x
  have hdata := @RowStore.Mirrors.visibleData _ _ r V h.mirrors hV
  rw [RowStore.visibleData] at hdata
  rw [View.mem_visibleRows, BTreeMap.mem_toList, ← hdata, View.rowSeen]
  cases t.view.rows[r]? with
  | none => simp
  | some row =>
    rw [Option.bind_some, Option.bind_some, View.seen, Option.map_eq_some_iff, Option.map_eq_some_iff]
    exact exists_congr fun version => and_congr_right fun _ => by simp

theorem scans (h : Tracks name s t) {V : TransactionID} (hV : V ∈ s.1.txns.active) : s.1.Scans name V s.2.rows := by
  obtain ⟨sizes, ha⟩ := h.arranged
  obtain ⟨found, hrun, hperm⟩ := @Table.Arranged.forEachVisibleRow_run t (s.1.txn V) sizes ha h.unchecked
  refine ⟨found, ?_, hperm.trans ?_⟩
  · rw [h.inTable_run]
    exact hrun
  · exact (List.perm_ext_iff_of_nodup View.nodup_visibleRows (BTreeMap.nodup_toList _)).2 fun x => h.mem_visibleRows hV

/-- A table without rows, while no transaction is in progress, is where a history starts. -/
theorem start {db : Database} {tableId : TableID} {pageSize : ℕ} {store : PageStore}
    {columns : BTreeMap ColumnID Column} (htable : db.tables[name]? = some (.start tableId pageSize 0 store columns))
    (hcolumns : Unconstrained columns) (hwf : db.txns.Wf) (hidle : db.txns.active = ∅) :
    Tracks name (db, ⟨∅, ∅⟩) (.start tableId pageSize 0 store columns) := by
  have hrows : (Table.start tableId pageSize 0 store columns).view.rows = ∅ := by
    refine Std.ExtTreeMap.ext_getElem? fun r => ?_
    rw [Table.viewIn_get, Table.rowIn]
    simp [Table.start, Table.new]
  refine ⟨htable, ⟨fun _ => 0, .start tableId pageSize store columns⟩, hcolumns, ?_⟩
  rw [hrows]
  have hnone : ∀ r, (⟨db.txns, ∅⟩ : RowStore).versions r = [] := fun r => by simp [RowStore.versions]
  have hmem : ∀ r, ∀ v ∈ (⟨db.txns, ∅⟩ : RowStore).versions r, False := fun r v hv => by
    rw [hnone] at hv
    exact List.not_mem_nil hv
  refine ⟨fun r => ⟨⟨hwf, fun r v hv => (hmem r v hv).elim, fun r v hv => (hmem r v hv).elim,
    fun r v hv => (hmem r v hv).elim⟩, fun v hv => (hmem r v hv).elim, fun v hv => (hmem r v hv).elim⟩,
    fun a ha => absurd ha (TxnState.not_mem_of_idle hidle a), fun r => ?_,
    fun a ha => absurd ha (TxnState.not_mem_of_idle hidle a)⟩
  rw [hnone]
  simp

end Tracks

/-- **Serial histories** of a table without a memory limit and without constraints behave like a map of
    rows with undo. -/
theorem serial_history (name : String) (db : Database) (tableId : TableID) (pageSize : ℕ) (store : PageStore)
    (columns : BTreeMap ColumnID Column) (begun : List TxnOp) (ops : List HistoryOp)
    (htable : db.tables[name]? = some (.start tableId pageSize 0 store columns)) (hcolumns : Unconstrained columns)
    (hbegun : TxnState.Run begun) (htxns : db.txns = TxnState.after begun) (hidle : db.txns.active = ∅)
    (hserial : Each (HistoryOp.step name) Serial (db, ⟨∅, ∅⟩) ops) :
    let s := exec (HistoryOp.step name) (db, ⟨∅, ∅⟩) ops
    Each (HistoryOp.step name) (Answered name) (db, ⟨∅, ∅⟩) ops ∧
      (∀ V ∈ s.1.txns.active, s.1.Scans name V s.2.rows) ∧
        (s.1.txns.active = ∅ →
          (Database.createTransaction () s.1).2.Scans name s.1.txns.nextTransactionId s.2.rows) := by
  have hwf : db.txns.Wf := htxns ▸ hbegun.wf
  obtain ⟨hanswered, t, h⟩ := (Tracks.start htable hcolumns hwf hidle).run hserial
  refine ⟨hanswered, fun V hV => h.scans hV, fun hnone => ?_⟩
  obtain ⟨-, t', h'⟩ := @Tracks.step name _ .createTransaction t h hnone
  exact h'.scans (TxnState.mem_active_create.2 (Or.inl rfl))

/-- A table of one BOOLEAN column. -/
def flagColumns : BTreeMap ColumnID Column :=
  .ofList [(0, .new 0 "flag" .boolean ∅ ⟨0, .default⟩)] compare

def flagTable : Database :=
  { Database.new ⟨4096, 0⟩ with
    tables := .ofList [("flags", .start 0 4096 0 .empty flagColumns)] compare }

/-- Two rows are committed; the second transaction changes both and is rolled back; the third updates a row
    twice, between vacuums. -/
def flagHistory : List HistoryOp :=
  let flag (b : Bool) : RowData := .ofList [(0, .boolean b)] compare
  [.createTransaction, .insertRow 1 (flag true) fun _ => none, .insertRow 1 (flag false) fun _ => none,
    .commitTransaction 1, .createTransaction, .deleteRow 2 1, .updateRow 2 2 (flag true) fun _ => none,
    .rollbackTransaction 2, .autoVacuum, .createTransaction, .updateRow 3 2 (flag true) fun _ => none,
    .updateRow 3 2 (flag false) fun _ => none, .removeStrayTables]

theorem serial_history_flags : ((exec (HistoryOp.step "flags") (flagTable, ⟨∅, ∅⟩) flagHistory).2.rows.keys = [1, 2]) ∧
    (exec (HistoryOp.step "flags") (flagTable, ⟨∅, ∅⟩) flagHistory).1.Scans "flags" 3
      (exec (HistoryOp.step "flags") (flagTable, ⟨∅, ∅⟩) flagHistory).2.rows :=
  ⟨by decide +kernel, (serial_history "flags" flagTable 0 4096 .empty flagColumns [] flagHistory (by decide +kernel)
    (BTreeMap.forall_toList.1 (by decide +kernel)) trivial rfl (by decide +kernel) (by decide +kernel)).2.1 3
      (by decide +kernel)⟩

end HistoryOp

end AntDb
