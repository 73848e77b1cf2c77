/-
  What the statements of one table do to the rows that transactions running side by side read.

  `INSERT`, `DELETE` and `UPDATE` are functions on the map of rows: they put something on the
  layer of their transaction, all of it or, if they fail, some of it.
-/
import AntDb.Concurrency
import AntDb.Counting
import AntDb.Headings
import AntDb.Leaks
import AntDb.Retrieval

namespace AntDb

open Call Runs Table

/-! ## What a statement writes -/

namespace SharedRows

/-- The writes of `T` to the table `name`, one after the other. -/
def writeAll (s : SharedRows) (T : TransactionID) (name : String) (l : List (RowID × Option RowData)) : SharedRows :=
  l.foldl (fun s x => s.write T name x.1 x.2) s

/-- `T` writes what `f` says to the rows of the table `name`. -/
def overwrite (s : SharedRows) (T : TransactionID) (name : String) (f : RowID → Option (Option RowData)) :
    SharedRows where
  rows := s.rows.overwrite T fun k => if k.1 = name then f k.2 else none
  writers := s.writers.insert T
  watermark := s.watermark

end SharedRows

namespace PhysicalPlan

def tableName : PhysicalPlan → String
  | insert tableName _ | delete tableName _ _ | update tableName _ _ _ _ => tableName

/-- The rows to write to are looked up by a scan. -/
def Scans : PhysicalPlan → Prop
  | insert _ _ => True
  | delete _ _ accessPath | update _ _ accessPath _ _ => accessPath = .seqScan

/-- What the plan writes to the rows of the table `t`, which are `seen` before. -/
def effect (t : Table) (txn : Transaction) (seen : RowID → Option RowData) :
    PhysicalPlan → RowID → Option (Option RowData)
  | insert _ rows, r => if t.nextRowId < r then rows[r - t.nextRowId - 1]?.map fun row => some row.1 else none
  | delete _ filter _, r => ((seen r).filter (t.passes filter txn)).map fun _ => none
  | update _ filter _ image _, r => ((seen r).filter (t.passes filter txn)).bind fun data =>
      (image (Table.shown (Table.visibleColumns t.columns txn).toList (r, data))).toOption.map some

/-- What the plan writes for the transaction `T`, and to which table. -/
def writes (plan : PhysicalPlan) (s : Database × SharedRows) (T : TransactionID) :
    Option (String × (RowID → Option (Option RowData))) :=
  (s.1.getTable plan.tableName).bind fun name => s.1.tables[name]?.map fun t =>
    (name, plan.effect t (s.1.txn T) fun r => s.2.rows.seen T (name, r))

/-- The map after the plan has run for `T`. -/
def executed (plan : PhysicalPlan) (s : Database × SharedRows) (T : TransactionID) : SharedRows :=
  match plan.writes s T with
  | some (name, f) => s.2.overwrite T name f
  | none => s.2

/-- No other transaction in progress has written to a row that the plan writes to. -/
def Undisputed (plan : PhysicalPlan) (s : Database × SharedRows) (T : TransactionID) : Prop :=
  ∀ x ∈ plan.writes s T, ∀ t ∈ s.1.tables[x.1]?, ∀ r ∈ t.rowLocations.keys, (x.2 r).isSome →
    SessionOp.Undisputed s T x.1 r

end PhysicalPlan

namespace SharedRows

variable {s : SharedRows} {T V : TransactionID} {name name' : String} {r : RowID} {x : Option RowData}
  {l : List (RowID × Option RowData)} {f : RowID → Option (Option RowData)}

theorem writeAll_concat {y : RowID × Option RowData} :
    s.writeAll T name (l ++ [y]) = (s.writeAll T name l).write T name y.1 y.2 := List.foldl_concat ..

theorem rows_writeAll : (s.writeAll T name l).rows =
    (l.map fun y => ((name, y.1), y.2)).foldl (fun W y => W.write T y.1 y.2) s.rows := by
  induction l generalizing s with
  | nil => rfl
  | cons y l ih => exact ih

theorem watermark_writeAll : (s.writeAll T name l).watermark = s.watermark := by
  induction l generalizing s with
  | nil => rfl
  | cons y l ih => exact ih

theorem writers_writeAll (h : V ∈ (s.writeAll T name l).writers) : V = T ∨ V ∈ s.writers := by
  induction l generalizing s with
  | nil => exact Or.inr h
  | cons y l ih =>
    refine (ih h).elim Or.inl fun h => ?_
    exact BTreeSet.mem_insert.1 h

/-- Others have written nothing more. -/
theorem writes_writeAll {k : String × RowID} (hV : V ≠ T) :
    (s.writeAll T name l).rows.Writes V k ↔ s.rows.Writes V k := by
  induction l generalizing s with
  | nil => exact Iff.rfl
  | cons y l ih => exact ih.trans (Overlays.writes_write.trans (or_iff_right fun h => hV h.1))

/-- Writes to rows of their own are one write. -/
theorem rows_writeAll_eq (hl : (l.map Prod.fst).Nodup) (hf : ∀ r x, (r, x) ∈ l ↔ f r = some x) :
    (s.writeAll T name l).rows = (s.overwrite T name f).rows := by
  rw [rows_writeAll]
  refine Overlays.foldl_write ?_ fun k x => ?_
  · rw [List.map_map]
    have hmap : (Prod.fst ∘ fun y : RowID × Option RowData => ((name, y.1), y.2)) = Prod.mk name ∘ Prod.fst := rfl
    rw [hmap, ← List.map_map]
    exact hl.map (Prod.mk_right_injective name)
  · obtain ⟨name', r⟩ := k
    rw [List.mem_map]
    split_ifs with hname
    · rw [← hf]
      constructor
      · rintro ⟨y, hy, ⟨⟩⟩
        exact hy
      · intro hx
        exact ⟨(r, x), hx, by rw [show name' = name from hname]⟩
    · refine iff_of_false ?_ nofun
      rintro ⟨y, -, ⟨⟩⟩
      exact hname rfl

theorem rollback_rows_writeAll : (s.writeAll T name l).rows.rollback T = s.rows.rollback T := by
  rw [rows_writeAll]
  generalize (l.map fun y => ((name, y.1), y.2)) = l
  generalize s.rows = W
  induction l generalizing W with
  | nil => rfl
  | cons y l ih =>
    refine (ih (W.write T y.1 y.2)).trans (congrArg (Overlays.mk _) (funext fun V => funext fun k => ?_))
    split_ifs with hV
    · rfl
    · exact (Overlays.written_write).trans (if_neg fun h => hV h.1)

end SharedRows

namespace SessionOp

open SharedRows

variable {s : Database × SharedRows} {name tableName : String} {t t' : Table} {T V : TransactionID} {r : RowID}
  {data : RowData} {others : ForeignTables} {α β ι : Type} {db : Database}

/-- The call has waited for a lock it holds, has failed after some writes of `T` to the table `name`, or has
    returned with `Q`. -/
def Wrote (m : SharedRows) (T : TransactionID) (name : String) (x : DbM α) (Q : α → Database → Prop) (db : Database) :
    Prop :=
  (x () db).1 = .error .blocked ∨
    (∃ e l, (x () db).1 = .error e ∧ Coherent ((x () db).2, m.writeAll T name l)) ∨
      ∃ a, (x () db).1 = .ok a ∧ Q a (x () db).2

namespace Wrote

variable {m : SharedRows} {x : DbM α} {f : α → DbM β} {Q : α → Database → Prop} {R : β → Database → Prop}

theorem pure {a : α} (h : Q a db) : Wrote m T name (pure a) Q db := Or.inr (Or.inr ⟨a, rfl, h⟩)

theorem mono {Q' : α → Database → Prop} (h : Wrote m T name x Q db) (hQ : ∀ a db', Q a db' → Q' a db') :
    Wrote m T name x Q' db :=
  h.imp_right fun h => h.imp_right fun ⟨a, ha, hq⟩ => ⟨a, ha, hQ a _ hq⟩

theorem bind (h : Wrote m T name x Q db) (hf : ∀ a db', Q a db' → Wrote m T name (f a) R db') :
    Wrote m T name (x >>= f) R db := by
  unfold Wrote at h ⊢
  rw [bind_run]
  generalize x () db = outcome at h ⊢
  obtain ⟨result, db'⟩ := outcome
  rcases h with h | ⟨e, l, h, hcoherent⟩ | ⟨a, h, hQ⟩
  · obtain rfl : result = _ := h
    exact Or.inl rfl
  · obtain rfl : result = _ := h
    exact Or.inr (Or.inl ⟨e, l, rfl, hcoherent⟩)
  · obtain rfl : result = _ := h
    exact hf a db' hQ

/-- The columns are the same after a call that has returned. -/
theorem followed (h : Wrote m T name x Q db) (hx : Follows Database.heading x) :
    Wrote m T name x (fun a db' => Q a db' ∧ db.SameHeadings db') db := by
  rcases hx () db trivial with ⟨e, he, rfl⟩ | ⟨-, hsame⟩
  · exact Or.inl he
  · exact h.imp_right fun h => h.imp_right fun ⟨a, ha, hq⟩ => ⟨a, ha, hq, hsame⟩

/-- A loop keeps what each turn keeps. -/
theorem forM {l : List ι} {action : ι → DbM Unit} {P : List ι → Database → Prop} (hdb : P [] db)
    (hstep : ∀ pre i db, i ∈ l → P pre db → Wrote m T name (action i) (fun _ => P (pre ++ [i])) db) :
    Wrote m T name (l.forM action) (fun _ => P l) db := by
  have hloop : ∀ (rest pre : List ι) (db : Database), l = pre ++ rest → P pre db →
      Wrote m T name (rest.forM action) (fun _ => P l) db := by
    intro rest
    induction rest with
    | nil =>
      intro pre db hl hP
      rw [List.append_nil] at hl
      exact pure (hl ▸ hP)
    | cons i rest ih =>
      intro pre db hl hP
      show Wrote m T name (action i >>= fun _ => rest.forM action) _ db
      refine (hstep pre i db (by rw [hl]; simp) hP).bind fun _ db' hP => ih (pre ++ [i]) db' ?_ hP
      rw [hl, List.append_assoc, List.singleton_append]
  exact hloop l [] db rfl hdb

end Wrote

theorem txns_inTable {x : TableM α} : (Database.inTable name x () db).2.txns = db.txns := by
  unfold Database.inTable
  cases db.tables[name]? <;> rfl

namespace Coherent

/-- The map may count more transactions among the writers. -/
theorem recounted {m : SharedRows} (h : Coherent s) (hrows : m.rows = s.2.rows) (hwatermark : m.watermark = s.2.watermark)
    (hwriters : ∀ T k, m.rows.Writes T k → T ∈ m.writers) : Coherent (s.1, m) where
  unlimited := h.unlimited
  wf := h.wf
  pageFiles := h.pageFiles
  tables name t ht := by
    show t.Bears _ (m.rows.comap _) m.watermark
    rw [hrows, hwatermark]
    exact h.tables name t ht
  untabled name hnot := by
    show m.rows.comap _ = _
    rw [hrows]
    exact h.untabled name hnot
  writers := hwriters
  recent := hwatermark.trans_lt h.recent

/-- A rollback takes back whatever its transaction has written since. -/
theorem rolledBack {l : List (RowID × Option RowData)} {m : SharedRows} (h : Coherent (db, m.writeAll T name l))
    (hm : ∀ V k, m.rows.Writes V k → V ∈ m.writers) (hT : T ∈ db.txns.active) :
    Coherent (db.rollbackTransaction T, m.rollback T) := by
  refine (h.rollbackTransaction hT).recounted rollback_rows_writeAll.symm (@watermark_writeAll m T name l).symm ?_
  exact fun V k hw => hm V k (Overlays.writes_rollback.1 hw).2

/-- Writes to rows of their own amount to what `f` says. -/
theorem overwritten {l : List (RowID × Option RowData)} {m : SharedRows} {f : RowID → Option (Option RowData)}
    (h : Coherent (db, m.writeAll T name l)) (hl : (l.map Prod.fst).Nodup) (hf : ∀ r x, (r, x) ∈ l ↔ f r = some x) :
    Coherent (db, m.overwrite T name f) := by
  have hrows := @rows_writeAll_eq m T name l f hl hf
  refine h.recounted hrows.symm (@watermark_writeAll m T name l).symm fun V k hw => ?_
  rw [← hrows] at hw
  rcases writers_writeAll (h.writers V k hw) with rfl | hV
  · exact BTreeSet.mem_insert.2 (Or.inl rfl)
  · exact BTreeSet.mem_insert.2 (Or.inr hV)

/-! ## Calls of a statement -/

section

variable {m : SharedRows} {l : List (RowID × Option RowData)} {request : SearchRequest}

open Database (asTransaction)

theorem wrote_deleteRow (h : Coherent (db, m.writeAll T name l)) (hT : T ∈ db.txns.active)
    (hfree : Undisputed (db, m) T name r) : Wrote m T name (asTransaction name T (Table.deleteRow r))
      (fun _ db' => Coherent (db', m.writeAll T name (l ++ [(r, none)])) ∧ db'.txns = db.txns) db := by
  have hstep := @deleteRow (db, m.writeAll T name l) name T r h ⟨hT, fun V hV hne hw =>
    hfree V hV hne ((writes_writeAll hne).1 hw)⟩
  have htxns := @txns_inTable name _ db (Table.deleteRow r (db.txn T))
  have hrun : asTransaction name T (Table.deleteRow r) () db =
      Database.inTable name (Table.deleteRow r (db.txn T)) () db := rfl
  rw [SessionOp.step] at hstep
  unfold Wrote
  rw [hrun, writeAll_concat]
  dsimp only at hstep
  generalize Database.inTable name (Table.deleteRow r (db.txn T)) () db = outcome at hstep htxns ⊢
  obtain ⟨e | a, db'⟩ := outcome
  · exact Or.inr (Or.inl ⟨e, l, rfl, hstep⟩)
  · exact Or.inr (Or.inr ⟨a, rfl, hstep, htxns⟩)

theorem wrote_updateRow (h : Coherent (db, m.writeAll T name l)) (hT : T ∈ db.txns.active)
    (hfree : Undisputed (db, m) T name r) : Wrote m T name (asTransaction name T (Table.updateRow r data · others))
      (fun _ db' => Coherent (db', m.writeAll T name (l ++ [(r, some data)])) ∧ db'.txns = db.txns) db := by
  have hrun : asTransaction name T (Table.updateRow r data · others) () db =
      Database.inTable name (Table.updateRow r data (db.txn T) others) () db := rfl
  unfold Wrote
  rw [hrun, writeAll_concat]
  by_cases hblocked : (Database.inTable name (Table.updateRow r data (db.txn T) others) () db).1 = .error .blocked
  · exact Or.inl hblocked
  have hstep := @updateRow (db, m.writeAll T name l) name T r data others h ⟨hT, fun V hV hne hw =>
    hfree V hV hne ((writes_writeAll hne).1 hw), hblocked⟩
  have htxns := @txns_inTable name _ db (Table.updateRow r data (db.txn T) others)
  rw [SessionOp.step] at hstep
  dsimp only at hstep
  generalize Database.inTable name (Table.updateRow r data (db.txn T) others) () db = outcome at hstep htxns ⊢
  obtain ⟨e | a, db'⟩ := outcome
  · exact Or.inr (Or.inl ⟨e, l, rfl, hstep⟩)
  · exact Or.inr (Or.inr ⟨a, rfl, hstep, htxns⟩)

/-- An insert into the table `t`. -/
theorem wrote_insertRow (h : Coherent (db, m.writeAll T name l)) (hT : T ∈ db.txns.active)
    (ht : db.tables[name]? = some t) : Wrote m T name (asTransaction name T (Table.insertRow data · others))
      (fun _ db' => Coherent (db', m.writeAll T name (l ++ [(t.nextRowId + 1, some data)])) ∧ db'.txns = db.txns ∧
        ∃ t', db'.tables[name]? = some t' ∧ t'.nextRowId = t.nextRowId + 1) db := by
  have hrun : asTransaction name T (Table.insertRow data · others) () db =
      Database.inTable name (Table.insertRow data (db.txns.txn T) others) () db := rfl
  unfold Wrote
  rw [hrun, writeAll_concat, @inTable_run (db, m.writeAll T name l) name t _ _ ht]
  rcases @Table.Bears.insertRow _ _ _ _ _ data others (h.tables name t ht) hT with
    ⟨e, t', hrun, hbears⟩ | ⟨t', hrun, hnext, hbears⟩
  · rw [hrun]
    exact Or.inr (Or.inl ⟨e, l, rfl, h.kept hbears⟩)
  · rw [hrun]
    refine Or.inr (Or.inr ⟨_, rfl, h.wrote hbears, rfl, t', ?_, hnext⟩)
    rw [BTreeMap.get_insert, if_pos rfl]

/-- A search by `T` of the table `t`. -/
theorem wrote_search (h : Coherent (db, m)) (hT : T ∈ db.txns.active) (ht : db.tables[name]? = some t)
    (haggregate : request.aggregate = none) :
    Wrote m T name (asTransaction name T (Table.search request · (some .seqScan)))
      (fun results db' => (Coherent (db', m) ∧ db'.txns = db.txns) ∧ ∃ projection sort found,
        t.Selects request (db.txn T) (fun r => m.rows.seen T (name, r)) projection sort found results) db := by
  have hrun : asTransaction name T (Table.search request · (some .seqScan)) () db =
      Database.inTable name (Table.search request (db.txns.txn T) (some .seqScan)) () db := rfl
  have hbears := h.tables name t ht
  have hafter := h.kept (@Table.Bears.search t _ _ _ request (some .seqScan) (db.txns.txn T) hbears)
  have hselects := fun results => @Table.Bears.selects t _ _ _ _ request results
    (Table.search request (db.txns.txn T) (some .seqScan) none t).2 hbears (Or.inl hT) haggregate
  unfold Wrote
  rw [hrun, @inTable_run (db, m) name t _ _ ht]
  generalize Table.search request (db.txns.txn T) (some .seqScan) none t = outcome at hafter hselects ⊢
  obtain ⟨e | results, t'⟩ := outcome
  · exact Or.inr (Or.inl ⟨e, [], rfl, hafter⟩)
  · exact Or.inr (Or.inr ⟨results, rfl, ⟨hafter, rfl⟩, hselects results rfl⟩)

theorem requireTable_known (hname : db.getTable tableName = some name) :
    (∃ t, db.tables[name]? = some t) ∧ Database.requireTable tableName () db = (.ok name, db) := by
  refine ⟨BTreeMap.mem_iff_get.1 ?_, by rw [Database.requireTable_run, hname]⟩
  unfold Database.getTable at hname
  split_ifs at hname with hmem
  · exact Option.some.inj hname ▸ hmem
  · exact Std.ExtTreeMap.mem_keys.1 (List.mem_of_find?_eq_some hname)

/-- A row that is read is known to its table. -/
theorem known_of_seen (h : Coherent (db, m)) (hT : T ∈ db.txns.active) (ht : db.tables[name]? = some t)
    (hseen : m.rows.seen T (name, r) = some data) : r ∈ t.rowLocations.keys := by
  obtain ⟨version, hversion, -⟩ := ((h.tables name t ht).seen_iff (Or.inl hT)).1 hseen
  obtain ⟨row, hrow, -⟩ := Option.bind_eq_some_iff.1 hversion
  obtain ⟨p, hp⟩ := Table.mapped_of_row hrow
  exact Std.ExtTreeMap.mem_keys.2 (BTreeMap.mem_of_get hp)

theorem wrote_insertRows {rows : List (RowData × ForeignTables)} (h : Coherent (db, m)) (hT : T ∈ db.txns.active)
    (ht : db.tables[name]? = some t) : Wrote m T name (Database.insertRows name rows T)
      (fun _ db' => Coherent (db', m.overwrite T name fun r =>
        if t.nextRowId < r then rows[r - t.nextRowId - 1]?.map fun row => some row.1 else none)) db := by
  have hloop : Wrote m T name (Database.insertRows name rows T) (fun _ db' =>
      Coherent (db', m.writeAll T name (rows.mapIdx fun i row => (t.nextRowId + 1 + i, some row.1))) ∧
        db'.txns = db.txns ∧ ∃ t', db'.tables[name]? = some t' ∧ t'.nextRowId = t.nextRowId + rows.length) db := by
    refine Wrote.forM (P := fun pre db' => Coherent (db', m.writeAll T name (pre.mapIdx
      fun i (row : RowData × ForeignTables) => (t.nextRowId + 1 + i, some row.1))) ∧ db'.txns = db.txns ∧
        ∃ t', db'.tables[name]? = some t' ∧ t'.nextRowId = t.nextRowId + pre.length) ⟨h, rfl, t, ht, rfl⟩ ?_
    rintro pre row db' - ⟨h', htxns, t', ht', hnext⟩
    refine (@wrote_insertRow _ _ _ row.1 row.2 _ _ _ h' (htxns ▸ hT) ht').bind fun _ db'' hq => Wrote.pure ?_
    obtain ⟨h'', htxns', t'', ht'', hnext'⟩ := hq
    rw [List.mapIdx_concat, List.length_append, List.length_singleton]
    rw [hnext, Nat.add_right_comm] at h''
    exact ⟨h'', htxns'.trans htxns, t'', ht'', by rw [hnext', hnext, Nat.add_assoc]⟩
  refine hloop.mono fun _ db' hq => hq.1.overwritten ?_ fun r x => ?_
  · have hids : (rows.mapIdx fun i (row : RowData × ForeignTables) => (t.nextRowId + 1 + i, some row.1)).map Prod.fst =
        (List.range rows.length).map (t.nextRowId + 1 + ·) := List.ext_getElem (by simp) (by simp)
    rw [hids]
    exact List.nodup_range.map (add_right_injective _)
  · rw [List.mem_mapIdx]
    constructor
    · rintro ⟨i, hi, ⟨⟩⟩
      have hi' : ∀ n i : ℕ, n < n + 1 + i ∧ n + 1 + i - n - 1 = i := fun n i => by omega
      rw [if_pos (hi' _ _).1, (hi' _ _).2, List.getElem?_eq_getElem hi]
      rfl
    · intro hx
      split_ifs at hx with hlt
      obtain ⟨row, hrow, rfl⟩ := Option.map_eq_some_iff.1 hx
      obtain ⟨hi, rfl⟩ := List.getElem?_eq_some_iff.1 hrow
      have hr : ∀ n r : ℕ, n < r → n + 1 + (r - n - 1) = r := fun n r h => by omega
      exact ⟨r - t.nextRowId - 1, hi, by rw [hr _ _ hlt]⟩

/-- The rows that pass the filter. -/
def targets (t : Table) (filter : Option SearchExpression) (txn : Transaction) (seen : RowID → Option RowData) :
    Set RowID := {r | ∃ data, seen r = some data ∧ t.passes filter txn data = true}

/-- A statement writes to the rows it has searched for: to each what `image` makes of it. -/
theorem wrote_targets {β : Type} {filter : Option SearchExpression} {finish : List SearchResult → β}
    {action : SearchResult → DbM Unit} {image : SearchResult → Except DataBaseErrors (Option RowData)}
    (h : Coherent (db, m)) (hT : T ∈ db.txns.active) (ht : db.tables[name]? = some t)
    (hfree : ∀ r data, m.rows.seen T (name, r) = some data → t.passes filter (db.txn T) data = true →
      ∀ x, image (Table.shown (Table.visibleColumns t.columns (db.txn T)).toList (r, data)) = .ok x →
        Undisputed (db, m) T name r)
    (hheading : ∀ row, Follows Database.heading (action row))
    (haction : ∀ row l db', Coherent (db', m.writeAll T name l) → db.SameHeadings db' →
      (∀ x, image row = .ok x → Undisputed (db', m) T name row.rowId) →
        Wrote m T name (action row) (fun _ db'' => ∃ x, image row = .ok x ∧
          Coherent (db'', m.writeAll T name (l ++ [(row.rowId, x)]))) db') :
    Wrote m T name (do
        let rows ← asTransaction name T (Table.search (Database.targetRequest filter) · (some .seqScan))
        rows.forM action
        return finish rows)
      (fun b db' => Coherent (db', m.overwrite T name fun r =>
        ((m.rows.seen T (name, r)).filter (t.passes filter (db.txn T))).bind fun data =>
          (image (Table.shown (Table.visibleColumns t.columns (db.txn T)).toList (r, data))).toOption) ∧
        (∀ r data, m.rows.seen T (name, r) = some data → t.passes filter (db.txn T) data = true →
          ∃ x, image (Table.shown (Table.visibleColumns t.columns (db.txn T)).toList (r, data)) = .ok x) ∧
        ∃ rows, b = finish rows ∧
          (targets t filter (db.txn T) fun r => m.rows.seen T (name, r)).encard = rows.length) db := by
  refine ((wrote_search h hT ht rfl).followed Database.heading_search).bind fun results db' hq => ?_
  obtain ⟨⟨⟨h', -⟩, projection, sort, found, hselects⟩, hsame⟩ := hq
  obtain rfl : _ = projection := Except.ok.inj hselects.projects
  obtain rfl : results = found.map (Table.shown _) := hselects.shown
  generalize (Table.visibleColumns t.columns (db.txn T)).toList = projection at *
  let written (row : SearchResult) : RowID × Option RowData := (row.rowId, (image row).toOption.getD none)
  have hloop : Wrote m T name ((found.map (Table.shown projection)).forM action) (fun _ db'' =>
      Coherent (db'', m.writeAll T name ((found.map (Table.shown projection)).map written)) ∧ db.SameHeadings db'' ∧
        ∀ row ∈ found.map (Table.shown projection), ∃ x, image row = .ok x) db' := by
    refine Wrote.forM (P := fun pre db'' => Coherent (db'', m.writeAll T name (pre.map written)) ∧
      db.SameHeadings db'' ∧ ∀ row ∈ pre, ∃ x, image row = .ok x) ⟨h', hsame, nofun⟩ ?_
    rintro pre row db'' hrow ⟨h'', hsame', himages⟩
    obtain ⟨⟨r, data⟩, hfound, rfl⟩ := List.mem_map.1 hrow
    obtain ⟨hseen, hpass⟩ := (hselects.all r data).1 hfound
    refine ((haction _ _ db'' h'' hsame' fun x hx V hV => hfree r data hseen hpass x hx V
      (hsame'.txns ▸ hV)).followed (hheading _)).mono fun _ db₃ hq => ?_
    obtain ⟨⟨x, hx, h₃⟩, hsame₃⟩ := hq
    have hwritten : written (Table.shown projection (r, data)) = ((Table.shown projection (r, data)).rowId, x) := by
      simp only [written, hx]
      rfl
    rw [List.map_append, List.map_singleton, hwritten]
    exact ⟨h₃, Database.heading.trans hsame' hsame₃, fun row hrow => (List.mem_append.1 hrow).elim (himages row)
      fun hrow => (List.mem_singleton.1 hrow) ▸ ⟨x, hx⟩⟩
  refine hloop.bind fun _ db'' hq => Wrote.pure ⟨hq.1.overwritten ?_ fun r x => ?_, fun r data hseen hpass => ?_,
    _, rfl, ?_⟩
  · rw [List.map_map, List.map_map]
    exact hselects.once
  · rw [List.mem_map, Option.bind_eq_some_iff]
    constructor
    · rintro ⟨row, hrow, hwritten⟩
      obtain ⟨x', hx'⟩ := hq.2.2 row hrow
      obtain ⟨⟨r', data⟩, hfound, rfl⟩ := List.mem_map.1 hrow
      simp only [written, hx'] at hwritten
      obtain ⟨rfl, rfl⟩ := Prod.mk.inj hwritten
      exact ⟨data, Option.filter_eq_some_iff.2 ((hselects.all _ data).1 hfound), congrArg Except.toOption hx'⟩
    · rintro ⟨data, hdata, hx⟩
      obtain ⟨hseen, hpass⟩ := Option.filter_eq_some_iff.1 hdata
      refine ⟨_, List.mem_map.2 ⟨(r, data), (hselects.all r data).2 ⟨hseen, hpass⟩, rfl⟩, ?_⟩
      simp only [written, hx]
      rfl
  · exact hq.2.2 _ (List.mem_map.2 ⟨(r, data), (hselects.all r data).2 ⟨hseen, hpass⟩, rfl⟩)
  · have htargets : targets t filter (db.txn T) (fun r => m.rows.seen T (name, r)) =
        (found.map Prod.fst).toFinset := by
      ext r
      simp only [targets, Set.mem_ofPred_eq, Finset.mem_coe, List.mem_toFinset, List.mem_map]
      constructor
      · rintro ⟨data, hdata⟩
        exact ⟨(r, data), (hselects.all r data).2 hdata, rfl⟩
      · rintro ⟨⟨r', data⟩, hfound, rfl⟩
        exact ⟨data, (hselects.all r' data).1 hfound⟩
    rw [htargets, Set.encard_coe_eq_coe_finsetCard, List.toFinset_card_of_nodup hselects.once, List.length_map,
      List.length_map]

/-- **A plan** that returns has written what it says. -/
theorem wrote_execute {plan : PhysicalPlan} (h : Coherent (db, m)) (hT : T ∈ db.txns.active) (hscans : plan.Scans)
    (hfree : plan.Undisputed (db, m) T) :
    ∃ name, Wrote m T name (Database.execute plan T) (fun _ db' => Coherent (db', plan.executed (db, m) T)) db := by
  cases hname : db.getTable plan.tableName with
  | none =>
    have hrequire := Database.requireTable_run db plan.tableName
    rw [hname] at hrequire
    refine ⟨"", Or.inr (Or.inl ⟨.err (.tableNotFound plan.tableName), [], ?_, ?_⟩)⟩
    · cases plan <;> exact congrArg Prod.fst (bind_error hrequire)
    · cases plan <;> exact (congrArg (fun outcome => Coherent (Prod.snd outcome, m)) (bind_error hrequire)).mpr h
  | some name =>
    obtain ⟨⟨t, ht⟩, hrequire⟩ := requireTable_known hname
    have hwrites : plan.writes (db, m) T = some (name, plan.effect t (db.txn T) fun r => m.rows.seen T (name, r)) := by
      rw [PhysicalPlan.writes, hname, Option.bind_some, ht]
      rfl
    have hexecuted : plan.executed (db, m) T =
        m.overwrite T name (plan.effect t (db.txn T) fun r => m.rows.seen T (name, r)) := by
      rw [PhysicalPlan.executed, hwrites]
    have hrows : ∀ r data, m.rows.seen T (name, r) = some data →
        (plan.effect t (db.txn T) (fun r => m.rows.seen T (name, r)) r).isSome → Undisputed (db, m) T name r :=
      fun r data hseen hsome => hfree _ hwrites t ht r (known_of_seen h hT ht hseen) hsome
    refine ⟨name, ?_⟩
    rw [hexecuted]
    have hrequired : Wrote m T name (Database.requireTable plan.tableName)
        (fun name' db' => name = name' ∧ db = db') db := by
      unfold Wrote
      rw [hrequire]
      exact Or.inr (Or.inr ⟨name, rfl, rfl, rfl⟩)
    cases plan with
    | insert tableName rows =>
      refine hrequired.bind ?_
      rintro _ _ ⟨rfl, rfl⟩
      exact (wrote_insertRows h hT ht).bind fun _ db' hq => Wrote.pure hq
    | delete tableName filter accessPath =>
      obtain rfl : accessPath = .seqScan := hscans
      refine hrequired.bind ?_
      rintro _ _ ⟨rfl, rfl⟩
      refine (@wrote_targets name t T db m String filter (fun _ => "DELETE")
        (fun row => asTransaction name T (Table.deleteRow row.rowId))
        (fun _ => .ok none) h hT ht (fun r data hseen hpass _ _ => hrows r data hseen ?_)
        (fun _ => Database.heading_deleteRow) fun row l db' h' hsame hfree' => ?_).mono fun _ db' hq => ?_
      · rw [PhysicalPlan.effect, hseen, Option.filter_some, if_pos hpass]
        rfl
      · exact (wrote_deleteRow h' (hsame.txns ▸ hT) (hfree' none rfl)).mono fun _ _ hq => ⟨none, rfl, hq.1⟩
      · refine (congrArg (fun f => Coherent (db', m.overwrite T name f)) (funext fun r => ?_)).mp hq.1
        rw [PhysicalPlan.effect, Option.map_eq_bind]
        rfl
    | update tableName filter accessPath image others =>
      obtain rfl : accessPath = .seqScan := hscans
      refine hrequired.bind ?_
      rintro _ _ ⟨rfl, rfl⟩
      have himage : ∀ row, ((image row).map some).toOption = (image row).toOption.map some := fun row => by
        cases image row <;> rfl
      refine (@wrote_targets name t T db m String filter (fun _ => "UPDATE") _ (fun row => (image row).map some) h hT ht
        (fun r data hseen hpass x hx => hrows r data hseen ?_)
        (fun _ => Database.follows_ofResult.bind fun _ => Database.heading_updateRow)
        fun row l db' h' hsame hfree' => ?_).mono fun _ db' hq => ?_
      · rw [PhysicalPlan.effect, hseen, Option.filter_some, if_pos hpass, Option.bind_some, ← himage, hx]
        rfl
      · cases hdata : image row with
        | error e => exact Or.inr (Or.inl ⟨.err e, l, rfl, h'⟩)
        | ok data =>
          exact (wrote_updateRow h' (hsame.txns ▸ hT) (hfree' (some data) (by rw [hdata]; rfl))).mono fun _ _ hq =>
            ⟨some data, rfl, hq.1⟩
      · refine (congrArg (fun f => Coherent (db', m.overwrite T name f)) (funext fun r => ?_)).mp hq.1
        simp only [himage, PhysicalPlan.effect]

end

end Coherent

/-! ## Statements in a history -/

instance (plan : PhysicalPlan) (s : Database × SharedRows) (T : TransactionID) : Decidable (plan.Undisputed s T) :=
  inferInstanceAs (Decidable (∀ x ∈ plan.writes s T, ∀ t ∈ s.1.tables[x.1]?, ∀ r ∈ t.rowLocations.keys,
    (x.2 r).isSome → Undisputed s T x.1 r))

/-- Every transaction in progress, and the next to begin, reads the tables as the map says. -/
def Shown (s : Database × SharedRows) : Prop :=
  ∀ V, s.1.txns.Reader V → ∀ name ∈ s.1.tables, s.1.ScansSeen name V s.2

theorem Coherent.shown (h : Coherent s) : Shown s := fun _ hV _ hname => h.scans hV hname

/-- Transaction 3 sees the row that 1 has committed and one of its own; 2 has one that nobody else sees. -/
def rowsOfOthers : List SessionOp :=
  let flag (b : Bool) : RowData := .ofList [(0, .boolean b)] compare
  [.createTable "flags", .table "flags" (.createColumn "flag" .boolean ∅ ⟨0, .default⟩), .createTransaction,
    .insertRow "flags" 1 (flag true) fun _ => none, .commitTransaction 1, .createTransaction, .createTransaction,
    .insertRow "flags" 2 (flag true) fun _ => none, .insertRow "flags" 3 (flag true) fun _ => none]

end SessionOp

end AntDb
