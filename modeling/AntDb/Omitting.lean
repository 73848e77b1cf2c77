/-
  A column left out of an insert against one that is given as NULL.

  Validation takes a missing entry for NULL, and so do scans.  Indexes and value lookups go by
  the entries the row has: a NULL is filed and found, a missing entry is not.
-/
import AntDb.Joining
import AntDb.Numbering

namespace AntDb

open Call TableM

/-! ## What calls tell apart -/

/-- The calls of a table after an insert: searches, inserts and updates among those of rows. -/
inductive LaterCall where
  | rows (call : RowCall)
  | indexLookup (columnId : ColumnID) (value : DataBaseDataEntry) (txn : Transaction)
  | lookupRowsByColumnValue (columnId : ColumnID) (value : DataBaseDataEntry) (txn : Transaction)

inductive Answer where
  | reply (reply : Reply)
  | rowIds (rowIds : Option (List RowID))

namespace LaterCall

def run : LaterCall → TableM Answer
  | rows call => return .reply (← call.run)
  | indexLookup columnId value txn =>
    return .rowIds ((← get).columns[columnId]?.bind (·.indexLookup value txn))
  | lookupRowsByColumnValue columnId value txn =>
    return .rowIds (some (← Table.lookupRowsByColumnValue columnId value txn))

/-- The answers of a run. -/
def answers : Table → List LaterCall → List (Except Fault Answer)
  | _, [] => []
  | t, call :: calls => (call.run none t).1 :: answers (call.run none t).2 calls

/-- Rows compare as multisets. -/
inductive SameAnswer : Except Fault Answer → Except Fault Answer → Prop
  | rows {results results'} (h : results.Perm results') :
    SameAnswer (.ok (.reply (.rows results))) (.ok (.reply (.rows results')))
  | rowIds {found found'} (h : found.Perm found') :
    SameAnswer (.ok (.rowIds (some found))) (.ok (.rowIds (some found')))
  | same (answer) : SameAnswer answer answer

end LaterCall

namespace Table

/-- Whether an insert leaves the column out or has NULL there, it succeeds alike, and all later
    calls answer alike. -/
def OmittedIsNull (t : Table) (columnId : ColumnID) (data : RowData) (txn : Transaction)
    (others : ForeignTables) : Prop :=
  let omitted := insertRow data txn others none t
  let given := insertRow (data.insert columnId .null) txn others none t
  (omitted.1.isOk = given.1.isOk) ∧ ∀ calls : List LaterCall,
    List.Forall₂ LaterCall.SameAnswer (LaterCall.answers omitted.2 calls) (LaterCall.answers given.2 calls)

variable {t : Table} {columnId : ColumnID} {data : RowData} {txn : Transaction}
  {others : ForeignTables} {rowId : RowID} {column : Column}

/-! ## Validation -/

/-- Validation reads NULL in either case. -/
theorem getD_insert_null (c : ColumnID) (h : columnId ∉ data) :
    (data.insert columnId .null)[c]?.getD .null = data[c]?.getD .null := by
  rw [BTreeMap.get_insert]
  split_ifs with hc
  · subst hc
    rw [Std.ExtTreeMap.getElem?_eq_none h]
    rfl
  · rfl

theorem validateRowData_insert_null {excludeRowId : Option RowID}
    {fkLookup : TableID → ColumnID → DataBaseDataEntry → TableM Bool} (h : columnId ∉ data) :
    validateRowData (data.insert columnId .null) txn excludeRowId fkLookup =
      validateRowData data txn excludeRowId fkLookup := by
  unfold validateRowData
  simp only [getD_insert_null _ h]

theorem view_validateRowData_insert_null {v : View} {excludeRowId : Option RowID} (h : columnId ∉ data) :
    v.validateRowData (data.insert columnId .null) txn excludeRowId others =
      v.validateRowData data txn excludeRowId others := by
  unfold View.validateRowData
  simp only [getD_insert_null _ h]

/-- Refused data is refused with the same error, and nothing has been written. -/
theorem insertRow_refused {e : Fault} {t' : Table} (h : columnId ∉ data)
    (hrefused : validateRowData data txn none (foreignKeyValueExists others txn) none t = (.error e, t')) :
    insertRow (data.insert columnId .null) txn others none t = insertRow data txn others none t := by
  unfold insertRow
  rw [bind_error hrefused, bind_error (validateRowData_insert_null h ▸ hrefused)]

/-! ## The row afterwards -/

/-- Accepted data is in a row with the next id. -/
theorem insertRow_accepted (hg : t.Good) (hk : t.KeepsRow data txn others)
    (hv : t.view.validateRowData data txn none others = .ok ()) :
    (insertRow data txn others none t).1 = .ok (t.nextRowId + 1) ∧
      (insertRow data txn others none t).2.Good ∧
        (insertRow data txn others none t).2.view.rows =
          t.view.rows.insert (t.nextRowId + 1) (Row.new txn data) ∧
        (insertRow data txn others none t).2.columns =
          updateIndexesForRow (t.nextRowId + 1) data txn t.columns := by
  have hafter := insertRow_refines hg hk.opensClean
  have hview := hafter.view hk
  have hresult := hafter.result
  rw [View.insertRow, hv] at hview hresult
  exact ⟨hresult, hafter.good, congrArg View.rows hview, congrArg View.columns hview⟩

end Table

/-! ## Looking for the NULL -/

namespace Column

variable {column : Column} {columnId : ColumnID} {txn : Transaction} {rowId : RowID}
  {value : DataBaseDataEntry} {P : RowID → Prop} {rowIds : List RowID}

theorem indexLookup_unindexed (h : column.isIndexed txn = false) : column.indexLookup value txn = none := by
  unfold isIndexed at h
  unfold indexLookup
  cases hv : column.getVersionedColumn txn with
  | none => rfl
  | some v =>
    rw [hv] at h
    have hindex : v.index = none := by simpa [InternalColumn.isIndexed] using h
    rw [Option.bind_some, InternalColumn.indexLookup, hindex]
    rfl

theorem FilesOnly.indexLookup (h : column.FilesOnly P) (hl : column.indexLookup value txn = some rowIds) :
    ∀ r ∈ rowIds, P r := by
  intro r hr
  unfold Column.indexLookup at hl
  obtain ⟨filed, hfiled, rfl⟩ := Option.map_eq_some_iff.1 hl
  obtain ⟨v, hv, hfiled⟩ := Option.bind_eq_some_iff.1 hfiled
  obtain ⟨index, hindex, hfiled⟩ := Option.bind_eq_some_iff.1 hfiled
  obtain ⟨pre, post, hlast⟩ := LastMatch.findLast_some.1 hv
  refine h v hlast.mem index hindex (value.key v.columnId) r ?_
  rw [HashIndex.filed, hfiled]
  exact Std.ExtTreeSet.mem_toList.1 hr

/-- A NULL that is filed is found. -/
theorem indexLookup_updateIndex_null (h : column.isIndexed txn = true) :
    ∃ rowIds, (column.updateIndex columnId .null rowId txn).indexLookup .null txn = some rowIds ∧
      rowId ∈ rowIds := by
  unfold isIndexed at h
  cases hv : column.getVersionedColumn txn with
  | none => rw [hv] at h; cases h
  | some v =>
    rw [hv] at h
    obtain ⟨index, hindex⟩ := Option.isSome_iff_exists.1 (show v.index.isSome = true from h)
    obtain ⟨pre, post, hlast⟩ := LastMatch.findLast_some.1 hv
    have hfiled : (v.updateIndex columnId .null rowId txn.transactionId).index =
        some (index.insert 0 rowId) := by
      rw [InternalColumn.updateIndex, hindex]
      rfl
    have hafter : (column.updateIndex columnId .null rowId txn).getVersionedColumn txn =
        some (v.updateIndex columnId .null rowId txn.transactionId) := by
      refine LastMatch.findLast_some.2 ⟨pre, post, hlast.updateLast _, ?_, hlast.after⟩
      have hheader : (v.updateIndex columnId .null rowId txn.transactionId).transactionHeader =
          v.transactionHeader := by
        rw [InternalColumn.updateIndex, hindex]
      rw [InternalColumn.isVisible, hheader]
      exact hlast.holds
    refine ⟨(((index[(0 : HashType)]?).getD ∅).insert rowId).toList, ?_,
      Std.ExtTreeSet.mem_toList.2 (BTreeSet.mem_insert.2 (Or.inl rfl))⟩
    rw [Column.indexLookup, hafter, Option.bind_some, InternalColumn.indexLookup, hfiled,
      Option.bind_some, HashIndex.insert, Std.ExtTreeMap.getElem?_alter]
    rfl

end Column

namespace LaterCall

variable {t t' : Table} {call : LaterCall} {r : RowID}

/-- The call answers with row ids, among them `r`. -/
def Finds (t : Table) (call : LaterCall) (r : RowID) : Prop :=
  ∃ found, (call.run none t).1 = .ok (.rowIds (some found)) ∧ r ∈ found

theorem SameAnswer.isOk {answer answer' : Except Fault Answer} (h : SameAnswer answer answer') :
    answer.isOk = answer'.isOk := by
  cases h <;> rfl

theorem SameAnswer.finds (h : SameAnswer (call.run none t).1 (call.run none t').1)
    (hf : call.Finds t' r) : call.Finds t r := by
  obtain ⟨found', hrun', hr⟩ := hf
  unfold Finds
  rw [hrun'] at h
  generalize (call.run none t).1 = answer at h ⊢
  cases h with
  | rowIds h => exact ⟨_, rfl, h.mem_iff.2 hr⟩
  | same => exact ⟨found', rfl, hr⟩

theorem finds_indexLookup {columnId : ColumnID} {value : DataBaseDataEntry} {txn : Transaction} :
    (indexLookup columnId value txn).Finds t r ↔
      ∃ rowIds, (t.columns[columnId]?.bind (·.indexLookup value txn)) = some rowIds ∧ r ∈ rowIds := by
  constructor
  · rintro ⟨rowIds, hrun, hr⟩
    exact ⟨rowIds, Answer.rowIds.inj (Except.ok.inj hrun), hr⟩
  · rintro ⟨rowIds, hrowIds, hr⟩
    exact ⟨rowIds, congrArg (fun found => Except.ok (Answer.rowIds found)) hrowIds, hr⟩

/-- Without an index a value lookup finds the visible rows with such an entry. -/
theorem finds_lookupRowsByColumnValue {columnId : ColumnID} {column : Column} {txn : Transaction}
    (hg : t.Good) (hcolumn : t.columns[columnId]? = some column) (h : column.isIndexed txn = false) :
    (lookupRowsByColumnValue columnId .null txn).Finds t r ↔
      ∃ data, (r, data) ∈ t.view.visibleRows txn ∧ data[columnId]? = some .null := by
  obtain ⟨t', hrun, -⟩ := Table.run_yields hg
    (Table.yields_lookupRowsByColumnValue : Table.Yields none _ t.view
      (Table.lookupRowsByColumnValue columnId .null txn) _)
  have hspec : t.view.lookupRowsByColumnValue t.rowLocations columnId .null txn =
      .ok (((t.view.scannedRows t.rowLocations txn).filter
        (View.holdsEntry columnId .null)).map Prod.fst) := by
    rw [View.lookupRowsByColumnValue, show t.view.columns[columnId]? = _ from hcolumn]
    dsimp only
    rw [Column.indexLookup_unindexed h]
  rw [hspec] at hrun
  have hanswer : ((lookupRowsByColumnValue columnId .null txn).run none t).1 = .ok (.rowIds (some
      (((t.view.scannedRows t.rowLocations txn).filter (View.holdsEntry columnId .null)).map
        Prod.fst))) := congrArg Prod.fst (bind_ok hrun)
  have hholds : ∀ x : RowID × RowData, View.holdsEntry columnId .null x = true ↔
      x.2[columnId]? = some .null := by
    intro x
    unfold View.holdsEntry
    cases x.2[columnId]? with
    | none => simp
    | some entry => simp [DataBaseDataEntry.eq_null]
  unfold Finds
  rw [hanswer]
  constructor
  · rintro ⟨found, hfound, hr⟩
    obtain rfl := Option.some.inj (Answer.rowIds.inj (Except.ok.inj hfound))
    obtain ⟨x, hx, rfl⟩ := List.mem_map.1 hr
    obtain ⟨hx, hentry⟩ := List.mem_filter.1 hx
    exact ⟨x.2, View.scannedRows_perm.mem_iff.1 hx, (hholds x).1 hentry⟩
  · rintro ⟨data, hx, hentry⟩
    exact ⟨_, rfl, List.mem_map.2 ⟨(r, data), List.mem_filter.2
      ⟨View.scannedRows_perm.mem_iff.2 hx, (hholds _).2 hentry⟩, rfl⟩⟩

end LaterCall

namespace Table

open LaterCall

variable {t : Table} {columnId : ColumnID} {data : RowData} {txn : Transaction}
  {others : ForeignTables} {column : Column}

/-- The indexed column files an entry it is given. -/
theorem column_updated (hcolumn : t.columns[columnId]? = some column) (rowId : RowID) :
    (updateIndexesForRow rowId data txn t.columns)[columnId]? = some
      (if column.isIndexed txn then
        (data[columnId]?.map (column.updateIndex columnId · rowId txn)).getD column
      else column) := by
  rw [updateIndexesForRow, Std.ExtTreeMap.getElem?_map, hcolumn, Option.map_some]
  cases data[columnId]? <;> rfl

/-- The lookup of NULL, in the index where there is one. -/
def lookupNull (column : Column) (columnId : ColumnID) (txn : Transaction) : LaterCall :=
  if column.isIndexed txn then .indexLookup columnId .null txn
  else .lookupRowsByColumnValue columnId .null txn

/-- The row of an accepted insert is found by its NULL if the NULL is given, and only then. -/
theorem finds_accepted (hg : t.Good) (hn : t.Numbered) (hk : t.KeepsRow data txn others)
    (hv : t.view.validateRowData data txn none others = .ok ())
    (hcolumn : t.columns[columnId]? = some column)
    (hdata : data[columnId]? = none ∨ data[columnId]? = some .null) :
    (lookupNull column columnId txn).Finds (insertRow data txn others none t).2 (t.nextRowId + 1) ↔
      data[columnId]? = some .null := by
  obtain ⟨-, hg', hrows, hcolumns⟩ := insertRow_accepted hg hk hv
  have hcolumn' : (insertRow data txn others none t).2.columns[columnId]? = _ :=
    hcolumns ▸ column_updated hcolumn (t.nextRowId + 1)
  unfold lookupNull
  cases hindexed : column.isIndexed txn with
  | true =>
    rw [hindexed, if_pos rfl] at hcolumn'
    rw [if_pos rfl, finds_indexLookup, hcolumn', Option.bind_some]
    rcases hdata with hd | hd
    · rw [hd, Option.map_none, Option.getD_none]
      refine iff_of_false ?_ nofun
      rintro ⟨rowIds, hfound, hr⟩
      have hle := (hn.filed columnId column hcolumn).indexLookup hfound _ hr
      exact Nat.not_succ_le_self _ hle
    · rw [hd, Option.map_some, Option.getD_some]
      exact iff_of_true (Column.indexLookup_updateIndex_null hindexed) rfl
  | false =>
    rw [hindexed, if_neg Bool.false_ne_true] at hcolumn'
    rw [if_neg Bool.false_ne_true, finds_lookupRowsByColumnValue hg' hcolumn' hindexed]
    have hseen : ∀ seen : RowData, (t.nextRowId + 1, seen) ∈
        (insertRow data txn others none t).2.view.visibleRows txn ↔ seen = data := by
      intro seen
      have hnew : View.seen txn (t.nextRowId + 1, Row.new txn data) = some (t.nextRowId + 1, data) := by
        have hversion : (Row.new txn data).getVersionedRow txn = some ⟨.created txn, data⟩ := by
          have hvisible : (⟨.created txn, data⟩ : InternalRow).isVisible txn = true :=
            (InternalRow.isVisible_own rfl).2 nofun
          unfold Row.getVersionedRow Row.new LastMatch.findLast
          rw [List.reverse_singleton]
          exact List.find?_cons_of_pos hvisible
        rw [View.seen, hversion]
        rfl
      rw [View.mem_visibleRows, View.rowSeen, hrows, BTreeMap.get_insert, if_pos rfl, Option.bind_some,
        hnew, Option.some.injEq, Prod.mk.injEq, and_iff_right rfl, eq_comm]
    simp only [hseen, exists_eq_left]

/-- **Which inserts take an omitted column for NULL**: those that are refused. -/
theorem omittedIsNull_iff (tableId : TableID) (pageSize limit : ℕ) (store : PageStore)
    (ops : List TableOp) (columnId : ColumnID) (data : RowData) (txn : Transaction)
    (others : ForeignTables) (hread : store.readFault = none) (hwrite : store.writeFault = none)
    (hops : Runs.Each TableOp.step (fun t op => op.Returns t ∧ op.Safe t)
      (start tableId pageSize limit store ∅) ops)
    (hcolumn : columnId ∈ (Runs.exec TableOp.step (start tableId pageSize limit store ∅) ops).columns)
    (homitted : columnId ∉ data)
    (hkeeps : ∀ d, d = data ∨ d = data.insert columnId .null →
      (Runs.exec TableOp.step (start tableId pageSize limit store ∅) ops).KeepsRow d txn others) :
    (Runs.exec TableOp.step (start tableId pageSize limit store ∅) ops).OmittedIsNull columnId data txn
        others ↔
      (Runs.exec TableOp.step (start tableId pageSize limit store ∅) ops).view.validateRowData data txn
        none others ≠ .ok () := by
  obtain ⟨hg, hn⟩ := TableOp.numbered_run hread hwrite hops
  generalize Runs.exec TableOp.step (start tableId pageSize limit store ∅) ops = t at *
  constructor
  · intro hsame hv
    obtain ⟨column, hcolumn⟩ := BTreeMap.mem_iff_get.1 hcolumn
    have homitted' := finds_accepted hg hn (hkeeps data (Or.inl rfl)) hv hcolumn
      (Or.inl (Std.ExtTreeMap.getElem?_eq_none homitted))
    have hgiven := finds_accepted hg hn (hkeeps _ (Or.inr rfl))
      ((view_validateRowData_insert_null homitted).trans hv) hcolumn
      (Or.inr (Std.ExtTreeMap.getElem?_insert_self))
    have hanswer : SameAnswer ((lookupNull column columnId txn).run none (insertRow data txn others none t).2).1
        ((lookupNull column columnId txn).run none
          (insertRow (data.insert columnId .null) txn others none t).2).1 :=
      (List.forall₂_cons.1 (hsame.2 [lookupNull column columnId txn])).1
    have hfound := homitted'.1 (hanswer.finds (hgiven.2 Std.ExtTreeMap.getElem?_insert_self))
    rw [Std.ExtTreeMap.getElem?_eq_none homitted] at hfound
    cases hfound
  · intro hv
    obtain ⟨t', hrun, -⟩ := run_yields hg (yields_validateRowData : Yields none _ t.view
      (validateRowData data txn none (foreignKeyValueExists others txn)) _)
    cases hresult : t.view.validateRowData data txn none others with
    | ok _ => exact absurd hresult hv
    | error e =>
      rw [hresult] at hrun
      have hsame := insertRow_refused homitted hrun
      unfold OmittedIsNull
      rw [hsame]
      exact ⟨rfl, fun calls => List.forall₂_same.2 fun answer _ => .same answer⟩

/-- A UNIQUE column of Booleans that may be NULL. -/
abbrev uniqueFlagOps : List TableOp :=
  [.createColumn "a" .boolean (.ofList [.unique] compare) ⟨1, .default⟩]

theorem omittedIsNull_iff_uniqueFlag :
    (Runs.exec TableOp.step (start 0 4096 0 .empty ∅) uniqueFlagOps).OmittedIsNull 0 ∅ ⟨1, .default⟩
        (fun _ => none) ↔
      (Runs.exec TableOp.step (start 0 4096 0 .empty ∅) uniqueFlagOps).view.validateRowData ∅
        ⟨1, .default⟩ none (fun _ => none) ≠ .ok () := by
  have hops : Runs.Each TableOp.step (fun t op => op.Returns t ∧ op.Safe t) (start 0 4096 0 .empty ∅)
      uniqueFlagOps := ⟨⟨by decide +kernel, trivial⟩, trivial⟩
  have hgood := TableOp.good_run (good_start rfl rfl) hops
  exact omittedIsNull_iff 0 4096 0 .empty uniqueFlagOps 0 ∅ ⟨1, .default⟩ (fun _ => none) rfl rfl hops
    (by decide +kernel) (by simp) fun d _ => keepsRow_unlimited hgood.1 hgood.2

/-- After a row without the column a NULL is accepted, and after a row with NULL there it is not. -/
theorem unique_null_refused_later :
    let t := Runs.exec TableOp.step (start 0 4096 0 .empty ∅) uniqueFlagOps
    ((t.columns[0]?.bind (·.getVersionedColumn ⟨1, .default⟩)).map (·.isNullable)) = some true ∧
      ¬ t.OmittedIsNull 0 ∅ ⟨1, .default⟩ fun _ => none := by
  refine ⟨by decide +kernel, fun h => ?_⟩
  have hlater := (List.forall₂_cons.1 (h.2
    [.rows (.insertRow (.ofList [(0, .null)] compare) ⟨1, .default⟩ fun _ => none)])).1
  exact absurd hlater.isOk (by decide +kernel)

end Table

end AntDb
