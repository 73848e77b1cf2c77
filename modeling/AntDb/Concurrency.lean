/-
  Histories of a database whose transactions run side by side, and what each of them reads.

  The rows of all tables amount to a map with a layer for each transaction in progress, as long
  as nobody writes to a row that another transaction in progress has written to, nobody commits
  after a transaction with a larger id that has written, and tables have no memory limit.  Tables
  come and go, and a restart commits whatever is in progress.
-/
import AntDb.Database
import AntDb.Sharing

namespace AntDb

open Call Runs

/-- The rows by table and id, who has written, and the last of them to commit. -/
structure SharedRows where
  rows : Overlays TransactionID (String × RowID) RowData
  writers : BTreeSet TransactionID
  watermark : TransactionID

namespace SharedRows

def empty : SharedRows := ⟨.empty, ∅, 0⟩

def write (s : SharedRows) (T : TransactionID) (name : String) (rowId : RowID) (x : Option RowData) : SharedRows where
  rows := s.rows.write T (name, rowId) x
  writers := s.writers.insert T
  watermark := s.watermark

def commit (s : SharedRows) (T : TransactionID) : SharedRows where
  rows := s.rows.commit T
  writers := s.writers
  watermark := if T ∈ s.writers then T else s.watermark

def rollback (s : SharedRows) (T : TransactionID) : SharedRows := { s with rows := s.rows.rollback T }

/-- The table is dropped for everybody. -/
def drop (s : SharedRows) (name : String) : SharedRows := { s with rows := s.rows.without fun k => k.1 = name }

/-- The transactions in progress are committed. -/
def settle (s : SharedRows) (txns : TxnState) : SharedRows where
  rows := s.rows.commitAll txns.active.toList
  writers := s.writers
  watermark := txns.nextTransactionId - 1

end SharedRows

/-- A step of a history; `T` is the transaction that acts. -/
inductive SessionOp where
  | createTransaction
  | commitTransaction (T : TransactionID)
  | rollbackTransaction (T : TransactionID)
  | insertRow (name : String) (T : TransactionID) (data : RowData) (others : ForeignTables)
  | updateRow (name : String) (T : TransactionID) (rowId : RowID) (data : RowData) (others : ForeignTables)
  | deleteRow (name : String) (T : TransactionID) (rowId : RowID)
  | table (name : String) (op : TableOp)
  | createTable (name : String)
  | dropTable (name : String)
  | removeStrayTables
  | autoVacuum
  | restart (config : Config)

namespace SessionOp

/-- The step on a database and on the map of rows: writes that are turned down leave the map alone. -/
def step (s : Database × SharedRows) : SessionOp → Database × SharedRows
  | createTransaction => ((Database.createTransaction () s.1).2, s.2)
  | commitTransaction T => (s.1.commitTransaction T, s.2.commit T)
  | rollbackTransaction T => (s.1.rollbackTransaction T, s.2.rollback T)
  | insertRow name T data others =>
    match Database.inTable name (Table.insertRow data (s.1.txn T) others) () s.1 with
    | (.ok rowId, db) => (db, s.2.write T name rowId (some data))
    | (.error _, db) => (db, s.2)
  | updateRow name T rowId data others =>
    match Database.inTable name (Table.updateRow rowId data (s.1.txn T) others) () s.1 with
    | (.ok _, db) => (db, s.2.write T name rowId (some data))
    | (.error _, db) => (db, s.2)
  | deleteRow name T rowId =>
    match Database.inTable name (Table.deleteRow rowId (s.1.txn T)) () s.1 with
    | (.ok _, db) => (db, s.2.write T name rowId none)
    | (.error _, db) => (db, s.2)
  | table name op => ((Database.inTable name op.run () s.1).2, s.2)
  | createTable name => ((Database.createTable name () s.1).2, s.2)
  | dropTable name => (s.1.dropTable name, s.2.drop name)
  | removeStrayTables => (s.1.removeStrayTables, s.2)
  | autoVacuum => (s.1.autoVacuum, s.2)
  | restart config =>
    match Database.saveSnapshot () s.1 with
    | (.ok snapshot, db) => (Database.loadFromSnapshot config snapshot db.filesOnDisk, s.2.settle s.1.txns)
    | (.error _, db) => (db, s.2)

/-- No other transaction in progress has written to the row. -/
def Undisputed (s : Database × SharedRows) (T : TransactionID) (name : String) (rowId : RowID) : Prop :=
  ∀ V ∈ s.1.txns.active.toList, V ≠ T → ¬ s.2.rows.Writes V (name, rowId)

/-- Transactions in progress act, write to rows of their own, and commit in the order of their ids if they
    have written; no call waits for a lock it holds, and a table without rows is not restarted over old ones. -/
def Allowed (s : Database × SharedRows) : SessionOp → Prop
  | commitTransaction T => T ∈ s.1.txns.active ∧ s.2.watermark ≤ T
  | rollbackTransaction T => T ∈ s.1.txns.active
  | insertRow _ T _ _ => T ∈ s.1.txns.active
  | updateRow name T rowId data others => T ∈ s.1.txns.active ∧ Undisputed s T name rowId ∧
      (Database.inTable name (Table.updateRow rowId data (s.1.txn T) others) () s.1).1 ≠ .error .blocked
  | deleteRow name T rowId => T ∈ s.1.txns.active ∧ Undisputed s T name rowId
  | table name op => op.LeavesRows ∧ (Database.inTable name op.run () s.1).1 ≠ .error .blocked
  | restart config => config.tableMemoryLimitBytes = 0 ∧
      ∀ name ∈ s.1.tables.keys, ∀ t ∈ s.1.tables[name]?, t.rowLocations ≠ ∅ ∨ t.NoOldRows
  | _ => True

end SessionOp

/-- A scan of the table `name` by `V` finds each row once that the map has for `V`. -/
def Database.ScansSeen (db : Database) (name : String) (V : TransactionID) (s : SharedRows) : Prop :=
  ∃ found, (Database.inTable name (Table.forEachVisibleRow (db.txn V)
      (fun found rowId data => .ok (found ++ [(rowId, data)])) []) () db).1 = .ok found ∧
    found.Nodup ∧ ∀ r data, (r, data) ∈ found ↔ s.rows.seen V (name, r) = some data

/-! ## Snapshots -/

namespace Database

variable {db : Database}

/-- Every table is flushed. -/
def flushed (db : Database) : Database := { db with tables := db.tables.map fun _ t => t.flushed }

theorem flushAll_run {l : List String} (hl : l.Nodup) (hmem : ∀ name ∈ l, name ∈ db.tables)
    (hgood : ∀ (name : String) t, db.tables[name]? = some t →
      t.pageStore.readFault = none ∧ t.pageStore.writeFault = none) :
    ∃ tables, l.forM (fun name => inTable name Table.flushAllPages) () db = (.ok (), { db with tables := tables }) ∧
      ∀ name : String, tables[name]? = if name ∈ l then db.tables[name]?.map (·.flushed) else db.tables[name]? := by
  induction l generalizing db with
  | nil => exact ⟨db.tables, rfl, fun _ => rfl⟩
  | cons name l ih =>
    obtain ⟨hnot, hl⟩ := List.nodup_cons.1 hl
    obtain ⟨t, ht⟩ := BTreeMap.mem_iff_get.1 (hmem name (List.mem_cons_self ..))
    obtain ⟨hr, hw⟩ := hgood name t ht
    have hone : inTable name Table.flushAllPages () db =
        (.ok (), { db with tables := db.tables.insert name t.flushed }) := by
      unfold inTable
      rw [ht]
      dsimp only
      rw [Table.flushAllPages_run hr hw]
    have hget : ∀ name' : String, (db.tables.insert name t.flushed)[name']? =
        if name = name' then some t.flushed else db.tables[name']? := fun _ =>
      BTreeMap.get_insert _ _ _ _
    obtain ⟨tables, hrun, htables⟩ := @ih { db with tables := db.tables.insert name t.flushed } hl
      (fun name' h => Std.ExtTreeMap.mem_insert.2 (Or.inr (hmem name' (List.mem_cons_of_mem _ h)))) fun name' t' ht' => by
        have ht' : (db.tables.insert name t.flushed)[name']? = some t' := ht'
        rw [hget] at ht'
        split_ifs at ht'
        · obtain rfl := Option.some.inj ht'
          exact ⟨hr, hw⟩
        · exact hgood name' t' ht'
    refine ⟨tables, ?_, fun name' => ?_⟩
    · show ((inTable name Table.flushAllPages >>= fun _ => _ : DbM Unit) () db) = _
      rw [bind_ok hone]
      exact hrun
    · rw [htables]
      show (if name' ∈ l then (db.tables.insert name t.flushed)[name']?.map _ else
        (db.tables.insert name t.flushed)[name']?) = _
      rw [hget]
      by_cases hname : name = name'
      · subst hname
        rw [if_neg hnot, if_pos rfl, if_pos (List.mem_cons_self ..), ht]
        rfl
      · rw [if_neg hname]
        exact if_congr (by simp [Ne.symm hname]) rfl rfl

/-- Saving a snapshot flushes the tables if the file system works. -/
theorem saveSnapshot_run
    (hgood : ∀ (name : String) t, db.tables[name]? = some t →
      t.pageStore.readFault = none ∧ t.pageStore.writeFault = none) :
    saveSnapshot () db = (.ok db.flushed.serialize, db.flushed) := by
  obtain ⟨tables, hrun, htables⟩ := flushAll_run (l := db.tables.keys) Std.ExtTreeMap.nodup_keys
    (fun name h => Std.ExtTreeMap.mem_keys.1 h) hgood
  have heq : tables = db.tables.map fun _ t => t.flushed := by
    refine Std.ExtTreeMap.ext_getElem? fun name => ?_
    rw [htables, Std.ExtTreeMap.getElem?_map]
    split_ifs with hname
    · rfl
    · rw [Std.ExtTreeMap.mem_keys, BTreeMap.mem_iff_get, not_exists] at hname
      rw [Option.eq_none_iff_forall_not_mem.2 hname]
      rfl
  unfold saveSnapshot
  rw [get_bind, bind_ok hrun, heq]
  rfl

end Database

/-! ## What a history keeps -/

namespace SessionOp

variable {s : Database × SharedRows} {op : SessionOp} {name : String} {t t' : Table} {T V : TransactionID} {r : RowID}
  {data : RowData} {others : ForeignTables}

/-- The rows of the table `name`. -/
def rowsOf (s : SharedRows) (name : String) : RowOverlays := s.rows.comap (Prod.mk name)

/-- Every table is read as the map says. -/
structure Coherent (s : Database × SharedRows) : Prop where
  unlimited : s.1.config.tableMemoryLimitBytes = 0
  wf : s.1.txns.Wf
  pageFiles : ∀ (name : String) store, s.1.pageFiles[name]? = some store →
    store.readFault = none ∧ store.writeFault = none
  tables : ∀ (name : String) t, s.1.tables[name]? = some t →
    t.Bears s.1.txns (rowsOf s.2 name) s.2.watermark
  untabled : ∀ name, name ∉ s.1.tables → rowsOf s.2 name = .empty
  writers : ∀ T k, s.2.rows.Writes T k → T ∈ s.2.writers
  recent : s.2.watermark < s.1.txns.nextTransactionId

namespace Coherent

theorem start {config : Config} (h : config.tableMemoryLimitBytes = 0) :
    Coherent (Database.new config, SharedRows.empty) where
  unlimited := h
  wf := TxnState.wf_new
  pageFiles name store hs := by simp [Database.new] at hs
  tables name t ht := by simp [Database.new] at ht
  untabled _ _ := rfl
  writers T k hw := absurd hw Overlays.not_writes_empty
  recent := TxnState.wf_new.last_lt

/-- The table has changed, and the map below its name. -/
theorem changed {s' : SharedRows} (h : Coherent s) (hbears : t'.Bears s.1.txns (rowsOf s' name) s.2.watermark)
    (hwatermark : s'.watermark = s.2.watermark)
    (hrows : ∀ name', name' ≠ name → rowsOf s' name' = rowsOf s.2 name')
    (hwriters : ∀ T k, s'.rows.Writes T k → T ∈ s'.writers) :
    Coherent ({ s.1 with tables := s.1.tables.insert name t' }, s') where
  unlimited := h.unlimited
  wf := h.wf
  pageFiles := h.pageFiles
  tables name' t'' ht'' := by
    have hget : (s.1.tables.insert name t')[name']? = some t'' := ht''
    show t''.Bears s.1.txns (rowsOf s' name') s'.watermark
    rw [BTreeMap.get_insert] at hget
    rw [hwatermark]
    split_ifs at hget with hname
    · subst hname
      rw [← Option.some.inj hget]
      exact hbears
    · rw [hrows name' (Ne.symm hname)]
      exact h.tables name' t'' hget
  untabled name' hnot := by
    have hnot : name' ∉ s.1.tables.insert name t' := hnot
    rw [Std.ExtTreeMap.mem_insert, Std.LawfulEqOrd.compare_eq_iff_eq, not_or] at hnot
    exact (hrows name' (Ne.symm hnot.1)).trans (h.untabled name' hnot.2)
  writers := hwriters
  recent := hwatermark.trans_lt h.recent

/-- The table has changed, but its rows are the same. -/
theorem kept (h : Coherent s) (hbears : t'.Bears s.1.txns (rowsOf s.2 name) s.2.watermark) :
    Coherent ({ s.1 with tables := s.1.tables.insert name t' }, s.2) :=
  h.changed hbears rfl (fun _ _ => rfl) h.writers

/-- The table has changed with a write to a row of it. -/
theorem wrote {x : Option RowData} (h : Coherent s)
    (hbears : t'.Bears s.1.txns ((rowsOf s.2 name).write T r x) s.2.watermark) :
    Coherent ({ s.1 with tables := s.1.tables.insert name t' }, s.2.write T name r x) := by
  refine h.changed ?_ rfl (fun name' hne => ?_) fun V k hw => ?_
  · rw [rowsOf, SharedRows.write, Overlays.comap_write (Prod.mk_right_injective name)]
    exact hbears
  · exact Overlays.comap_write_of_ne fun r' he => hne (congrArg Prod.fst he)
  · rw [SharedRows.write, BTreeSet.mem_insert]
    exact (Overlays.writes_write.1 hw).imp And.left (h.writers V k)

/-- Every table has changed. -/
theorem mapped {txns : TxnState} {s' : SharedRows} {f : Table → Table} (h : Coherent s) (hwf : txns.Wf)
    (hbears : ∀ (name : String) t, s.1.tables[name]? = some t → (f t).Bears txns (rowsOf s' name) s'.watermark)
    (hempty : ∀ name, rowsOf s.2 name = .empty → rowsOf s' name = .empty)
    (hwriters : ∀ T k, s'.rows.Writes T k → T ∈ s'.writers) (hrecent : s'.watermark < txns.nextTransactionId) :
    Coherent ({ s.1 with txns := txns, tables := s.1.tables.map fun _ t => f t }, s') where
  unlimited := h.unlimited
  wf := hwf
  pageFiles := h.pageFiles
  tables name t ht := by
    have hget : (s.1.tables.map fun _ t => f t)[name]? = some t := ht
    rw [Std.ExtTreeMap.getElem?_map] at hget
    obtain ⟨old, hold, rfl⟩ := Option.map_eq_some_iff.1 hget
    exact hbears name old hold
  untabled name hnot := hempty name (h.untabled name fun hmem => hnot (Std.ExtTreeMap.mem_map.2 hmem))
  writers := hwriters
  recent := hrecent

theorem inTable_run {α : Type} {x : TableM α} (ht : s.1.tables[name]? = some t) : Database.inTable name x () s.1 =
    ((x none t).1, { s.1 with tables := s.1.tables.insert name (x none t).2 }) := by
  unfold Database.inTable
  rw [ht]

theorem inTable_missing {α : Type} {x : TableM α} (ht : s.1.tables[name]? = none) : Database.inTable name x () s.1 =
    (.error (.err (.tableNotFound name)), s.1) := by
  unfold Database.inTable
  rw [ht]

/-! ## Begins and ends -/

theorem createTransaction (h : Coherent s) : Coherent (step s .createTransaction) :=
  ⟨h.unlimited, h.wf.create, h.pageFiles, fun name t ht => (h.tables name t ht).create, h.untabled, h.writers,
    Nat.lt_succ_of_lt h.recent⟩

theorem commitTransaction (h : Coherent s) (ho : Allowed s (.commitTransaction T)) :
    Coherent (step s (.commitTransaction T)) where
  unlimited := h.unlimited
  wf := h.wf.commit ho.1
  pageFiles := h.pageFiles
  tables name t ht := by
    refine (h.tables name t ht).commit ho.1 ho.2 ?_
    by_cases hw : T ∈ s.2.writers
    · exact Or.inl (if_pos hw)
    · exact Or.inr ⟨if_neg hw, fun r hr => hw (h.writers T _ hr)⟩
  untabled name hnot := (congrArg (Overlays.commit · T) (h.untabled name hnot)).trans Overlays.commit_empty
  writers V k hw := h.writers V k (Overlays.writes_commit.1 hw).2
  recent := by
    show (if T ∈ s.2.writers then T else s.2.watermark) < s.1.txns.nextTransactionId
    split_ifs
    · exact h.wf.active_lt T ho.1
    · exact h.recent

theorem rollbackTransaction (h : Coherent s) (hT : T ∈ s.1.txns.active) :
    Coherent (step s (.rollbackTransaction T)) :=
  h.mapped (f := fun t => t.rollbackTransaction (s.1.txn T)) h.wf.rollback
    (fun name t ht => (h.tables name t ht).rollback hT)
    (fun _ hempty => (congrArg (Overlays.rollback · T) hempty).trans Overlays.rollback_empty)
    (fun V k hw => h.writers V k (Overlays.writes_rollback.1 hw).2) h.recent

/-! ## Writes -/

/-- Whom the overlays do not have on a row of a table, nobody has. -/
theorem undisputed (h : Coherent s) (ht : s.1.tables[name]? = some t) (hfree : Undisputed s T name r) :
    ∀ V, V ≠ T → ¬ (rowsOf s.2 name).Writes V r := fun V hne hw =>
  hfree V (Std.ExtTreeSet.mem_toList.2 ((h.tables name t ht).reflects.idle V r hw)) hne hw

theorem insertRow (h : Coherent s) (hT : T ∈ s.1.txns.active) : Coherent (step s (.insertRow name T data others)) := by
  rw [step]
  cases ht : s.1.tables[name]? with
  | none => rw [inTable_missing ht]; exact h
  | some t =>
    rw [inTable_run ht]
    rcases @Table.Bears.insertRow _ _ _ _ _ data others (h.tables name t ht) hT with
      ⟨e, t', hrun, hbears⟩ | ⟨t', hrun, -, hbears⟩
    · rw [show s.1.txn T = s.1.txns.txn T from rfl, hrun]
      exact h.kept hbears
    · rw [show s.1.txn T = s.1.txns.txn T from rfl, hrun]
      exact h.wrote hbears

theorem updateRow (h : Coherent s) (ho : Allowed s (.updateRow name T r data others)) :
    Coherent (step s (.updateRow name T r data others)) := by
  obtain ⟨hT, hfree, hreturns⟩ := ho
  rw [step]
  cases ht : s.1.tables[name]? with
  | none => rw [inTable_missing ht]; exact h
  | some t =>
    rw [inTable_run ht] at hreturns ⊢
    rcases @Table.Bears.updateRow _ _ _ _ _ _ data others (h.tables name t ht) hT (h.undisputed ht hfree) hreturns with
      ⟨e, t', hrun, hbears⟩ | ⟨t', hrun, hbears⟩
    · rw [show s.1.txn T = s.1.txns.txn T from rfl, hrun]
      exact h.kept hbears
    · rw [show s.1.txn T = s.1.txns.txn T from rfl, hrun]
      exact h.wrote hbears

theorem deleteRow (h : Coherent s) (ho : Allowed s (.deleteRow name T r)) : Coherent (step s (.deleteRow name T r)) := by
  rw [step]
  cases ht : s.1.tables[name]? with
  | none => rw [inTable_missing ht]; exact h
  | some t =>
    rw [inTable_run ht]
    rcases (h.tables name t ht).deleteRow ho.1 (h.undisputed ht ho.2) with
      ⟨e, t', hrun, hbears⟩ | ⟨t', hrun, hbears⟩
    · rw [show s.1.txn T = s.1.txns.txn T from rfl, hrun]
      exact h.kept hbears
    · rw [show s.1.txn T = s.1.txns.txn T from rfl, hrun]
      exact h.wrote hbears

/-! ## Other calls of a table -/

theorem table {op : TableOp} (h : Coherent s) (ho : Allowed s (.table name op)) : Coherent (step s (.table name op)) := by
  obtain ⟨hleaves, hreturns⟩ := ho
  rw [step]
  cases ht : s.1.tables[name]? with
  | none => rw [inTable_missing ht]; exact h
  | some t =>
    rw [inTable_run ht] at hreturns ⊢
    exact h.kept ((h.tables name t ht).step hleaves hreturns)

theorem removeStrayTables (h : Coherent s) : Coherent (step s .removeStrayTables) :=
  h.mapped (f := fun t => (Table.prune s.1.txns.smallest none t).2) h.wf
    (fun name t ht => (h.tables name t ht).prune) (fun _ => id) h.writers h.recent

theorem autoVacuum (h : Coherent s) : Coherent (step s .autoVacuum) := by
  have h' := h.removeStrayTables
  refine h'.mapped (f := fun t => (Table.flushAllPages none t).2) h'.wf (fun name t ht => ?_) (fun _ => id)
    h'.writers h'.recent
  obtain ⟨hrun, hbears⟩ := (h'.tables name t ht).flushAllPages
  rw [hrun]
  exact hbears

/-! ## Tables that come and go -/

/-- A table that is created has no rows, over whatever page file its name has. -/
theorem createTable (h : Coherent s) : Coherent (step s (.createTable name)) := by
  rw [step]
  unfold Database.createTable
  rw [get_bind]
  split_ifs with hname
  · exact h
  rw [modify_bind]
  have hstore : (s.1.pageFile name).readFault = none ∧ (s.1.pageFile name).writeFault = none := by
    have hnone : s.1.tables[name]? = none := Option.eq_none_iff_forall_not_mem.2 fun t ht => hname (BTreeMap.mem_of_get ht)
    rw [Database.pageFile, hnone, Option.map_none, Option.none_or]
    cases hfile : s.1.pageFiles[name]? with
    | none => exact ⟨rfl, rfl⟩
    | some store => exact h.pageFiles name store hfile
  have hbears : (Table.start s.1.nextTableId s.1.config.pageSizeBytes 0 (s.1.pageFile name) ∅).Bears s.1.txns
      (rowsOf s.2 name) s.2.watermark := by
    rw [h.untabled name hname]
    exact .start hstore.1 hstore.2 h.wf
  have hnew : Table.new s.1.nextTableId s.1.config.pageSizeBytes s.1.config.tableMemoryLimitBytes (s.1.pageFile name) =
      Table.start s.1.nextTableId s.1.config.pageSizeBytes 0 (s.1.pageFile name) ∅ := by
    rw [h.unlimited]
    rfl
  have h' := h.kept (hnew ▸ hbears)
  exact ⟨h'.unlimited, h'.wf, h'.pageFiles, h'.tables, h'.untabled, h'.writers, h'.recent⟩

theorem rowsOf_drop {name' : String} :
    rowsOf (s.2.drop name) name' = if name' = name then .empty else rowsOf s.2 name' := by
  split_ifs with hname
  · exact Overlays.comap_without_all fun _ => hname
  · exact Overlays.comap_without fun _ => hname

theorem dropTable (h : Coherent s) : Coherent (step s (.dropTable name)) := by
  have hwriters : ∀ T k, (s.2.drop name).rows.Writes T k → T ∈ s.2.writers := fun T k hw =>
    h.writers T k (Overlays.writes_without.1 hw).2
  rw [step, Database.dropTable]
  cases ht : s.1.tables[name]? with
  | none =>
    refine ⟨h.unlimited, h.wf, h.pageFiles, fun name' t' ht' => ?_, fun name' hnot => ?_, hwriters, h.recent⟩
    · have hne : name' ≠ name := fun he => by
        rw [he, ht] at ht'
        cases ht'
      show t'.Bears _ (rowsOf (s.2.drop name) name') _
      rw [rowsOf_drop, if_neg hne]
      exact h.tables name' t' ht'
    · show rowsOf (s.2.drop name) name' = _
      rw [rowsOf_drop, h.untabled name' hnot, ite_self]
  | some t =>
    have hget : ∀ name' : String, (s.1.tables.erase name)[name']? =
        if name = name' then none else s.1.tables[name']? :=
      fun _ => BTreeMap.get_erase _ _ _
    refine ⟨h.unlimited, h.wf, fun name' store hs => ?_, fun name' t' ht' => ?_, fun name' hnot => ?_, hwriters, h.recent⟩
    · have hs : (s.1.pageFiles.insert name t.pageStore)[name']? = some store := hs
      rw [BTreeMap.get_insert] at hs
      split_ifs at hs
      · obtain rfl := Option.some.inj hs
        exact ⟨(h.tables name t ht).good.readable, (h.tables name t ht).good.writable⟩
      · exact h.pageFiles name' store hs
    · have ht' : (s.1.tables.erase name)[name']? = some t' := ht'
      show t'.Bears _ (rowsOf (s.2.drop name) name') _
      rw [hget] at ht'
      split_ifs at ht' with hname
      rw [rowsOf_drop, if_neg (Ne.symm hname)]
      exact h.tables name' t' ht'
    · show rowsOf (s.2.drop name) name' = _
      rw [rowsOf_drop]
      split_ifs with hname
      · rfl
      · refine h.untabled name' fun hmem => hnot ?_
        obtain ⟨t', ht'⟩ := BTreeMap.mem_iff_get.1 hmem
        refine BTreeMap.mem_iff_get.2 ⟨t', ?_⟩
        show (s.1.tables.erase name)[name']? = _
        rw [hget, if_neg (Ne.symm hname), ht']

/-! ## Restarts -/

/-- The transactions after a restart. -/
theorem wf_restarted {txns : TxnState} (h : txns.Wf) : (⟨txns.nextTransactionId,
    ⟨txns.nextTransactionId - 1, txns.nextTransactionId - 1, ∅⟩⟩ : TxnState).Wf := by
  have hlt : txns.nextTransactionId - 1 < txns.nextTransactionId :=
    Nat.sub_lt (Nat.zero_lt_of_lt h.smallest_lt) Nat.one_pos
  exact ⟨fun a ha => absurd ha Std.ExtTreeSet.not_mem_empty, fun a ha => absurd ha Std.ExtTreeSet.not_mem_empty, hlt, hlt,
    Std.ExtTreeSet.not_mem_empty⟩

theorem restart {config : Config} (h : Coherent s) (ho : Allowed s (.restart config)) :
    Coherent (step s (.restart config)) := by
  have hfaults : ∀ (name : String) t, s.1.tables[name]? = some t →
      t.pageStore.readFault = none ∧ t.pageStore.writeFault = none := fun name t ht =>
    ⟨(h.tables name t ht).good.readable, (h.tables name t ht).good.writable⟩
  have hfiles : ∀ name : String, s.1.flushed.filesOnDisk[name]? =
      (s.1.tables[name]?.map fun t => t.flushed.pageStore).or s.1.pageFiles[name]? := fun name => by
    rw [Database.filesOnDisk, Std.ExtTreeMap.getElem?_union, Std.ExtTreeMap.getElem?_map, Database.flushed,
      Std.ExtTreeMap.getElem?_map, Option.map_map]
    rfl
  have htables : ∀ name : String,
      (Database.loadFromSnapshot config s.1.flushed.serialize s.1.flushed.filesOnDisk).tables[name]? =
      s.1.tables[name]?.map fun t => t.restarted config.tableMemoryLimitBytes := fun name => by
    rw [Database.loadFromSnapshot, Database.serialize, Database.flushed]
    simp only [Std.ExtTreeMap.getElem?_map, Option.map_map]
    refine Option.map_congr fun t ht => ?_
    have hfile : s.1.flushed.filesOnDisk[name]? = some t.flushed.pageStore := by
      rw [hfiles, ht]
      rfl
    have hbound := @Table.bindPageStore_run { t.flushed.reopened with
      pageStore := t.flushed.pageStore
      memoryLimit := config.tableMemoryLimitBytes } none (hfaults name t ht).1 rfl
    have hfile : (s.1.flushed.filesOnDisk[name]?).getD .empty = t.flushed.pageStore := by rw [hfile]; rfl
    rw [Database.flushed] at hfile
    show (Table.bindPageStore none { t.flushed.reopened with
      pageStore := _
      memoryLimit := _ }).2 = _
    rw [hfile, hbound]
    rfl
  rw [step, Database.saveSnapshot_run hfaults]
  refine ⟨ho.1, wf_restarted h.wf, fun name store hs => ?_, fun name t ht => ?_, fun name hnot => ?_, fun T k hw =>
    h.writers T k (Overlays.writes_commitAll.1 hw).2, (wf_restarted h.wf).last_lt⟩
  · have hs : s.1.flushed.filesOnDisk[name]? = some store := hs
    rw [hfiles] at hs
    rcases Option.or_eq_some_iff.1 hs with hs | ⟨-, hs⟩
    · obtain ⟨t, ht, rfl⟩ := Option.map_eq_some_iff.1 hs
      exact hfaults name t ht
    · exact h.pageFiles name store hs
  · rw [htables] at ht
    obtain ⟨old, hold, rfl⟩ := Option.map_eq_some_iff.1 ht
    have hbears := @Table.Bears.restarted _ _ _ _ _ s.1.txns.active.toList
      ⟨s.1.txns.nextTransactionId, ⟨s.1.txns.nextTransactionId - 1, s.1.txns.nextTransactionId - 1, ∅⟩⟩
      (h.tables name old hold) (fun a => Std.ExtTreeSet.mem_toList) (wf_restarted h.wf) rfl
      (fun a ha => absurd ha Std.ExtTreeSet.not_mem_empty)
      (Nat.sub_add_cancel (Nat.zero_lt_of_lt h.wf.smallest_lt))
      (ho.2 name (Std.ExtTreeMap.mem_keys.2 (BTreeMap.mem_of_get hold)) old hold) ho.1
    show Table.Bears _ _ (rowsOf (s.2.settle s.1.txns) name) _
    rw [rowsOf, SharedRows.settle, Overlays.comap_commitAll]
    exact hbears
  · show rowsOf (s.2.settle s.1.txns) name = _
    rw [rowsOf, SharedRows.settle, Overlays.comap_commitAll, show s.2.rows.comap (Prod.mk name) = .empty from
      h.untabled name fun hmem => hnot ?_, Overlays.commitAll_empty]
    obtain ⟨t, ht⟩ := BTreeMap.mem_iff_get.1 hmem
    refine BTreeMap.mem_iff_get.2 ⟨t.restarted config.tableMemoryLimitBytes, ?_⟩
    rw [htables, ht]
    rfl

/-- **A step** of an allowed history. -/
theorem step (h : Coherent s) (ho : Allowed s op) : Coherent (step s op) := by
  cases op with
  | createTransaction => exact h.createTransaction
  | commitTransaction T => exact h.commitTransaction ho
  | rollbackTransaction T => exact h.rollbackTransaction ho
  | insertRow name T data others => exact h.insertRow ho
  | updateRow name T r data others => exact h.updateRow ho
  | deleteRow name T r => exact h.deleteRow ho
  | table name op => exact h.table ho
  | createTable name => exact h.createTable
  | dropTable name => exact h.dropTable
  | removeStrayTables => exact h.removeStrayTables
  | autoVacuum => exact h.autoVacuum
  | restart config => exact h.restart ho

/-- A scan finds what the map has. -/
theorem scans (h : Coherent s) (hV : s.1.txns.Reader V) (hname : name ∈ s.1.tables) : s.1.ScansSeen name V s.2 := by
  obtain ⟨t, ht⟩ := BTreeMap.mem_iff_get.1 hname
  obtain ⟨found, hrun, hnodup, hfound⟩ := (h.tables name t ht).scan hV
  exact ⟨found, by rw [inTable_run ht]; exact hrun, hnodup, hfound⟩

end Coherent

instance (s : Database × SharedRows) (T : TransactionID) (name : String) (rowId : RowID) :
    Decidable (Undisputed s T name rowId) := inferInstanceAs (Decidable (∀ V ∈ _, _))

instance (t : Table) : Decidable t.NoOldRows :=
  decidable_of_iff (∀ p ∈ t.pageStore.pages.keys, ∀ record ∈ t.pageStore.pages.get? p,
      p ∈ t.rowSpace.pages ∨ record.rows = ∅) (by
    simp only [Table.NoOldRows, Table.resident_iff_mem]
    refine ⟨fun h p record hp hres => (h p (PageMap.mem_keys.2 ⟨record, hp⟩) record hp).resolve_left hres,
      fun h p _ record hp => or_iff_not_imp_left.2 (h p record hp)⟩)

instance (s : Database × SharedRows) (op : SessionOp) : Decidable (Allowed s op) := by
  cases op <;> unfold Allowed <;> infer_instance

end SessionOp

end AntDb
