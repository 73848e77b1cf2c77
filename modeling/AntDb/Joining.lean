/-
  Joins against the nested loop over all pairs of rows.

  Where the ON clause is an equality whose right side names the right table, `apply_join` looks
  only at the rows a value lookup finds.  The lookup goes by the index or by the entries the
  rows have for the column, the ON clause by the values, where a missing entry is NULL.
-/
import AntDb.Lib.Gathering
import AntDb.Query
import AntDb.References

namespace AntDb

open Call Gathering

namespace View

/-! ## Joining a view -/

/-- The version of the row that `txn` sees. -/
def seen (txn : Transaction) (x : RowID × Row) : Option (RowID × RowData) :=
  (x.2.getVersionedRow txn).map fun version => (x.1, version.data)

/-- The rows of the view that `txn` sees. -/
def visibleRows (v : View) (txn : Transaction) : List (RowID × RowData) :=
  v.rows.toList.filterMap (seen txn)

/-- The same in the order of a scan. -/
def scannedRows (ρ : RowMap) (v : View) (txn : Transaction) : List (RowID × RowData) :=
  (Table.scanOrder ρ v).filterMap (seen txn)

def holdsEntry (columnId : ColumnID) (value : DataBaseDataEntry) (x : RowID × RowData) : Bool :=
  (x.2[columnId]?.map (·.eq value)).getD false

def lookupRowsByColumnValue (ρ : RowMap) (v : View) (columnId : ColumnID)
    (value : DataBaseDataEntry) (txn : Transaction) : Except DataBaseErrors (List RowID) :=
  match v.columns[columnId]? with
  | none => .error (.queryError "Column not found while resolving join lookup")
  | some column =>
    match column.indexLookup value txn with
    | some rowIds => v.filterVisibleIndexCandidates rowIds txn
    | none => .ok (((v.scannedRows ρ txn).filter (holdsEntry columnId value)).map Prod.fst)

def lookupVisibleRowData (v : View) (rowId : RowID) (txn : Transaction) :
    Except DataBaseErrors (Option RowData) := do
  return ((← v.withRow rowId).bind (·.getVersionedRow txn)).map (·.data)

def matchingRows (ρ : RowMap) (v : View) (join : JoinSpec) (rightSchema : JoinTableSchema)
    (txn : Transaction) (left : JoinedRow) : Except DataBaseErrors (List JoinedRow) :=
  match join.on.bind (·.joinEqualityLookup left.rowContext join.table.aliasOrName) with
  | some (columnName, value) =>
    match rightSchema.columnMap[normalizeIdentifier columnName]? with
    | none => .error (.queryError
        s!"Join column '{columnName}' not found on table '{join.table.tableName}'")
    | some columnId => do
      let rightCandidates ← v.lookupRowsByColumnValue ρ columnId value txn
      rightCandidates.foldlM (fun found rightRowId => do
        match ← v.lookupVisibleRowData rightRowId txn with
        | none => return found
        | some data => join.pushMatching rightSchema left found rightRowId data) []
  | none =>
    (v.scannedRows ρ txn).foldlM (fun found x => join.pushMatching rightSchema left found x.1 x.2) []

def applyJoin (ρ : RowMap) (v : View) (current : List JoinedRow) (join : JoinSpec)
    (rightSchema : JoinTableSchema) (txn : Transaction) : Except DataBaseErrors (List JoinedRow) :=
  if join.joinType = .cross then
    current.foldlM (fun next left => (v.scannedRows ρ txn).foldlM (fun next x =>
      .ok (next ++ [left.append (join.binding rightSchema x.1 x.2)])) next) []
  else
    current.foldlM (fun next left => do
      return next ++ join.orUnmatched rightSchema left
        (← v.matchingRows ρ join rightSchema txn left)) []

end View

namespace Table

open TableM View

variable {held : Option PageID} {ρ : RowMap} {v : View} {t : Table} {rowId : RowID}
  {columnId : ColumnID} {txn : Transaction} {value : DataBaseDataEntry} {join : JoinSpec}
  {rightSchema : JoinTableSchema} {left : JoinedRow} {current : List JoinedRow}

theorem foldlM_visit {σ : Type} {f : σ → RowID → RowData → Except DataBaseErrors σ}
    (l : List (RowID × Row)) (init : σ) :
    l.foldlM (visit txn fun acc rowId version => f acc rowId version.data) init =
      (l.filterMap (seen txn)).foldlM (fun acc x => f acc x.1 x.2) init := by
  induction l generalizing init with
  | nil => rfl
  | cons x l ih =>
    rw [List.foldlM_cons]
    cases hx : x.2.getVersionedRow txn with
    | none =>
      have hseen : seen txn x = none := by rw [seen, hx]; rfl
      rw [List.filterMap_cons_none hseen, visit, hx]
      exact ih init
    | some version =>
      have hseen : seen txn x = some (x.1, version.data) := by rw [seen, hx]; rfl
      rw [List.filterMap_cons_some hseen, List.foldlM_cons, visit, hx]
      exact bind_congr fun acc => ih acc

theorem yields_forEachVisibleRow {σ : Type} {f : σ → RowID → RowData → Except DataBaseErrors σ}
    {init : σ} : Yields held ρ v (forEachVisibleRow txn f init)
      ((v.scannedRows ρ txn).foldlM (fun acc x => f acc x.1 x.2) init) := by
  rw [View.scannedRows, ← foldlM_visit]
  exact yields_scanVisible

theorem yields_lookupRowsByColumnValue : Yields held ρ v (lookupRowsByColumnValue columnId value txn)
    (v.lookupRowsByColumnValue ρ columnId value txn) := by
  refine Computes.get fun t ht => ?_
  obtain ⟨-, -, rfl⟩ := ht
  unfold View.lookupRowsByColumnValue
  show Computes _ _ _ (match t.columns[columnId]? with | none => _ | some column => _)
  cases t.columns[columnId]? with
  | none => exact yields_throw _
  | some column =>
    dsimp only
    cases column.indexLookup value txn with
    | some rowIds => exact yields_filterVisibleIndexCandidates
    | none =>
      have hscan : ((t.view.scannedRows ρ txn).foldlM (fun found x => (.ok (if
          (x.2[columnId]?.map (·.eq value)).getD false then found ++ [x.1] else found) :
            Except DataBaseErrors (List RowID))) []) =
          .ok (((t.view.scannedRows ρ txn).filter (holdsEntry columnId value)).map Prod.fst) :=
        gather_ok fun _ _ => rfl
      dsimp only
      rw [← hscan]
      exact yields_forEachVisibleRow

theorem yields_lookupVisibleRowData : Yields held ρ v (lookupVisibleRowData rowId txn)
    (v.lookupVisibleRowData rowId txn) := yields_withRow.bind fun _ _ => Computes.pure

theorem yields_matchingRows : Yields held ρ v (matchingRows join rightSchema txn left)
    (v.matchingRows ρ join rightSchema txn left) := by
  unfold matchingRows View.matchingRows
  rcases join.on.bind (·.joinEqualityLookup left.rowContext join.table.aliasOrName) with
    _ | ⟨columnName, value⟩
  · exact yields_forEachVisibleRow
  · dsimp only
    cases rightSchema.columnMap[normalizeIdentifier columnName]? with
    | none => exact yields_throw _
    | some columnId =>
      refine yields_lookupRowsByColumnValue.bind fun candidates _ => Computes.foldlM fun found r _ =>
        yields_lookupVisibleRowData.bind fun data _ => ?_
      cases data with
      | none => exact Computes.pure
      | some data => exact yields_ofResult _

theorem yields_applyJoin : Yields held ρ v (applyJoin current join rightSchema txn)
    (v.applyJoin ρ current join rightSchema txn) := by
  unfold applyJoin View.applyJoin
  split_ifs
  · exact Computes.foldlM fun _ _ _ => yields_forEachVisibleRow
  · exact Computes.foldlM fun _ _ _ => yields_matchingRows.bind fun _ _ => Computes.pure

end Table

/-! ## The nested loop -/

namespace JoinSpec

/-- The nested loop: every left row with every right row. -/
def nestedLoop (join : JoinSpec) (rightSchema : JoinTableSchema) (rows : List (RowID × RowData))
    (current : List JoinedRow) : Except DataBaseErrors (List JoinedRow) :=
  concat (fun left => do
    return join.orUnmatched rightSchema left
      (← rows.foldlM (fun found x => join.pushMatching rightSchema left found x.1 x.2) [])) [] current

variable {join : JoinSpec} {rightSchema : JoinTableSchema} {left : JoinedRow}
  {rows rows' : List (RowID × RowData)} {x : RowID × RowData} {found : List JoinedRow}

def candidate (join : JoinSpec) (rightSchema : JoinTableSchema) (left : JoinedRow)
    (x : RowID × RowData) : JoinedRow := left.append (join.binding rightSchema x.1 x.2)

/-- The right row goes with the left one. -/
def Matches (join : JoinSpec) (rightSchema : JoinTableSchema) (left : JoinedRow)
    (x : RowID × RowData) : Prop := (join.candidate rightSchema left x).joinMatches join = .ok true

instance : Decidable (join.Matches rightSchema left x) :=
  inferInstanceAs (Decidable ((join.candidate rightSchema left x).joinMatches join = .ok true))

/-- The rows of one left row. -/
def matched (join : JoinSpec) (rightSchema : JoinTableSchema) (left : JoinedRow)
    (rows : List (RowID × RowData)) : List JoinedRow :=
  join.orUnmatched rightSchema left
    ((rows.filter (join.Matches rightSchema left ·)).map (join.candidate rightSchema left))

theorem foldlM_pushMatching : rows.foldlM (fun found x =>
    join.pushMatching rightSchema left found x.1 x.2) found =
      gather (fun x => (join.candidate rightSchema left x).joinMatches join)
        (join.candidate rightSchema left) found rows := rfl

theorem pushMatching_ok (h : ∀ x ∈ rows, ∃ b, (join.candidate rightSchema left x).joinMatches join = .ok b) :
    rows.foldlM (fun found x => join.pushMatching rightSchema left found x.1 x.2) [] =
      .ok ((rows.filter (join.Matches rightSchema left ·)).map (join.candidate rightSchema left)) := by
  rw [foldlM_pushMatching]
  refine gather_ok fun x hx => ?_
  obtain ⟨b, hb⟩ := h x hx
  have hmatches : join.Matches rightSchema left x ↔ b = true := by
    rw [show join.Matches rightSchema left x ↔ _ = _ from Iff.rfl, hb, Except.ok.injEq]
  rw [hb]
  simp [hmatches]

theorem orUnmatched_perm {found found' : List JoinedRow} (h : found.Perm found') :
    (join.orUnmatched rightSchema left found).Perm (join.orUnmatched rightSchema left found') := by
  unfold orUnmatched
  have hnil : found = [] ↔ found' = [] := by
    rw [← List.length_eq_zero_iff, ← List.length_eq_zero_iff, h.length_eq]
  by_cases hempty : found = [] ∧ join.joinType = .leftOuter
  · rw [if_pos hempty, if_pos ⟨hnil.1 hempty.1, hempty.2⟩]
  · rw [if_neg hempty, if_neg fun h => hempty ⟨hnil.2 h.1, h.2⟩]
    exact h

theorem matched_perm (h : rows.Perm rows') :
    (join.matched rightSchema left rows).Perm (join.matched rightSchema left rows') :=
  orUnmatched_perm ((h.filter _).map _)

theorem candidate_injective (h : join.candidate rightSchema left x = join.candidate rightSchema left y) :
    x = y := by
  have hb := (List.append_inj' (congrArg JoinedRow.tables h) rfl).2
  have hb := (List.cons.inj hb).1
  exact Prod.ext (congrArg TableBinding.rowId hb) (congrArg TableBinding.data hb)

/-- Leaving out right rows makes a difference exactly if one of them matches. -/
theorem matched_filter_perm_iff {q : RowID × RowData → Bool} (h0 : ∀ x ∈ rows, x.1 ≠ 0) :
    (join.matched rightSchema left (rows.filter q)).Perm (join.matched rightSchema left rows) ↔
      ∀ x ∈ rows, join.Matches rightSchema left x → q x = true := by
  constructor
  · intro hperm x hx hmatches
    have hfound : x ∈ rows.filter (join.Matches rightSchema left ·) :=
      List.mem_filter.2 ⟨hx, decide_eq_true hmatches⟩
    have hmem : join.candidate rightSchema left x ∈ join.matched rightSchema left rows := by
      unfold matched orUnmatched
      rw [if_neg fun h => by rw [List.map_eq_nil_iff.1 h.1] at hfound; cases hfound]
      exact List.mem_map_of_mem hfound
    have hmem := hperm.mem_iff.2 hmem
    unfold matched orUnmatched at hmem
    split_ifs at hmem
    · have hnull : x = (0, ∅) := candidate_injective (List.mem_singleton.1 hmem)
      exact absurd (congrArg Prod.fst hnull) (h0 x hx)
    · obtain ⟨y, hy, heq⟩ := List.mem_map.1 hmem
      rw [← candidate_injective heq]
      exact (List.mem_filter.1 (List.mem_filter.1 hy).1).2
  · intro hall
    have hfilter : (rows.filter q).filter (join.Matches rightSchema left ·) =
        rows.filter (join.Matches rightSchema left ·) := by
      rw [List.filter_filter]
      refine List.filter_congr fun x hx => ?_
      by_cases hm : join.Matches rightSchema left x
      · simp [hm, hall x hx hm]
      · simp [hm]
    unfold matched
    rw [hfilter]

/-- The left row can be told from a joined row. -/
theorem tables_matched : ∀ joined ∈ join.matched rightSchema left rows,
    (⟨joined.tables.dropLast⟩ : JoinedRow) = left := by
  intro joined hmem
  have happend : ∀ binding, (⟨(left.append binding).tables.dropLast⟩ : JoinedRow) = left := fun b => by
    simp [JoinedRow.append]
  unfold matched orUnmatched at hmem
  split_ifs at hmem
  · rw [List.mem_singleton.1 hmem]
    exact happend _
  · obtain ⟨x, -, rfl⟩ := List.mem_map.1 hmem
    exact happend _

theorem nestedLoop_ok {current : List JoinedRow} {result : List JoinedRow}
    (h : join.nestedLoop rightSchema rows current = .ok result) :
    (∀ left ∈ current, ∀ x ∈ rows, ∃ b, (join.candidate rightSchema left x).joinMatches join = .ok b) ∧
      result = current.flatMap (join.matched rightSchema · rows) := by
  have htested : ∀ left ∈ current, ∀ x ∈ rows,
      ∃ b, (join.candidate rightSchema left x).joinMatches join = .ok b := by
    intro left hleft
    obtain ⟨found, hfound⟩ := results_of_concat h left hleft
    cases hgather : rows.foldlM (fun found x => join.pushMatching rightSchema left found x.1 x.2) [] with
    | error e => rw [hgather] at hfound; cases hfound
    | ok found => exact tested_of_gather hgather
  refine ⟨htested, ?_⟩
  have hok : join.nestedLoop rightSchema rows current =
      .ok ([] ++ current.flatMap (join.matched rightSchema · rows)) :=
    concat_ok fun left hleft => by rw [pushMatching_ok (htested left hleft)]; rfl
  exact Except.ok.inj (h.symm.trans hok)

end JoinSpec

namespace View

variable {v : View} {txn : Transaction} {rowId : RowID} {rowIds : List RowID} {x : RowID × RowData}
  {columnId : ColumnID} {value : DataBaseDataEntry} {join : JoinSpec}
  {rightSchema : JoinTableSchema} {left : JoinedRow} {t : Table}

/-! ## The rows a lookup finds -/

/-- The row as `txn` sees it. -/
def rowSeen (v : View) (txn : Transaction) (rowId : RowID) : Option (RowID × RowData) :=
  v.rows[rowId]?.bind fun row => seen txn (rowId, row)

theorem seen_fst {y : RowID × Row} (h : seen txn y = some x) : x.1 = y.1 := by
  obtain ⟨version, -, rfl⟩ := Option.map_eq_some_iff.1 h
  rfl

theorem mem_visibleRows : x ∈ v.visibleRows txn ↔ v.rowSeen txn x.1 = some x := by
  rw [visibleRows, List.mem_filterMap, rowSeen, Option.bind_eq_some_iff]
  constructor
  · rintro ⟨y, hy, hseen⟩
    have hid := seen_fst hseen
    exact ⟨y.2, by rw [hid]; exact BTreeMap.mem_toList.1 hy, by rw [hid]; exact hseen⟩
  · rintro ⟨row, hrow, hseen⟩
    exact ⟨(x.1, row), BTreeMap.mem_toList.2 hrow, hseen⟩

theorem rowSeen_fst (h : v.rowSeen txn rowId = some x) : x.1 = rowId := by
  obtain ⟨row, -, hseen⟩ := Option.bind_eq_some_iff.1 h
  exact seen_fst hseen

theorem nodup_visibleRows : (v.visibleRows txn).Nodup := by
  have hsub : ∀ l : List (RowID × Row), ((l.filterMap (seen txn)).map Prod.fst).Sublist (l.map Prod.fst) := by
    intro l
    induction l with
    | nil => exact List.Sublist.refl _
    | cons y l ih =>
      cases hseen : seen txn y with
      | none =>
        rw [List.filterMap_cons_none hseen]
        exact ih.cons _
      | some x =>
        rw [List.filterMap_cons_some hseen, List.map_cons, List.map_cons, seen_fst hseen]
        exact ih.cons_cons _
  have hkeys : (v.rows.toList.map Prod.fst).Nodup := by
    rw [Std.ExtTreeMap.map_fst_toList_eq_keys]
    exact Std.ExtTreeMap.nodup_keys
  exact List.Nodup.of_map _ ((hsub _).nodup hkeys)

/-- A row the table knows is looked up as it is seen. -/
theorem lookupVisibleRowData_known (h : rowId ∈ v.rowIds) :
    v.lookupVisibleRowData rowId txn = .ok ((v.rowSeen txn rowId).map Prod.snd) := by
  have hrow : v.withRow rowId = .ok v.rows[rowId]? := if_pos h
  rw [lookupVisibleRowData, hrow, rowSeen]
  refine congrArg Except.ok ?_
  cases v.rows[rowId]? with
  | none => rfl
  | some row =>
    show _ = Option.map Prod.snd (Option.map _ (row.getVersionedRow txn))
    rw [Option.map_map]
    rfl

theorem foldlM_candidates {found : List JoinedRow} (h : ∀ r ∈ rowIds, r ∈ v.rowIds) :
    rowIds.foldlM (fun found rightRowId => do
        match ← v.lookupVisibleRowData rightRowId txn with
        | none => return found
        | some data => join.pushMatching rightSchema left found rightRowId data) found =
      (rowIds.filterMap (v.rowSeen txn)).foldlM (fun found x =>
        join.pushMatching rightSchema left found x.1 x.2) found := by
  induction rowIds generalizing found with
  | nil => rfl
  | cons a rowIds ih =>
    obtain ⟨ha, hknown⟩ := List.forall_mem_cons.1 h
    rw [List.foldlM_cons, lookupVisibleRowData_known ha]
    cases hseen : v.rowSeen txn a with
    | none =>
      rw [List.filterMap_cons_none hseen]
      exact ih hknown
    | some x =>
      rw [List.filterMap_cons_some hseen, List.foldlM_cons, rowSeen_fst hseen]
      exact bind_congr fun found => ih hknown

/-- Candidates without repetition stand for the visible rows that are among them. -/
theorem candidates_perm (h : rowIds.Nodup) :
    (rowIds.filterMap (v.rowSeen txn)).Perm ((v.visibleRows txn).filter (·.1 ∈ rowIds)) := by
  have hnodup : (rowIds.filterMap (v.rowSeen txn)).Nodup := by
    refine h.filterMap fun a a' x hx hx' => ?_
    rw [← rowSeen_fst hx, ← rowSeen_fst hx']
  refine (List.perm_ext_iff_of_nodup hnodup (nodup_visibleRows.filter _)).2 fun x => ?_
  rw [List.mem_filterMap, List.mem_filter, mem_visibleRows, decide_eq_true_iff]
  constructor
  · rintro ⟨a, ha, hseen⟩
    rw [rowSeen_fst hseen]
    exact ⟨hseen, ha⟩
  · exact fun h => ⟨x.1, h.2, h.1⟩

/-- The lookup of the probe finds every row that matches: the index files it under the key of the
    value or, where the index has no entry, the row has the value as its entry for the column. -/
structure LookupFinds (v : View) (join : JoinSpec) (rightSchema : JoinTableSchema) (txn : Transaction)
    (left : JoinedRow) (columnId : ColumnID) (value : DataBaseDataEntry) (column : Column) : Prop where
  known : ∀ rowIds, column.indexLookup value txn = some rowIds → ∀ r ∈ rowIds, r ∈ v.rowIds
  filed : ∀ rowIds, column.indexLookup value txn = some rowIds → ∀ x ∈ v.visibleRows txn,
    join.Matches rightSchema left x → x.1 ∈ rowIds
  held : column.indexLookup value txn = none → ∀ x ∈ v.visibleRows txn,
    join.Matches rightSchema left x → holdsEntry columnId value x = true

/-- The left row is not probed for, or its probe names a column of the right table and finds every
    row that matches. -/
def ProbeFinds (v : View) (join : JoinSpec) (rightSchema : JoinTableSchema) (txn : Transaction)
    (left : JoinedRow) : Prop :=
  ∀ columnName value,
    join.on.bind (·.joinEqualityLookup left.rowContext join.table.aliasOrName) =
      some (columnName, value) →
    ∃ columnId column, rightSchema.columnMap[normalizeIdentifier columnName]? = some columnId ∧
      v.columns[columnId]? = some column ∧
      v.LookupFinds join rightSchema txn left columnId value column

theorem mem_rowIds_of_visible (hx : x ∈ t.view.visibleRows txn) : x.1 ∈ t.view.rowIds := by
  obtain ⟨row, hrow, -⟩ := Option.bind_eq_some_iff.1 (mem_visibleRows.1 hx)
  obtain ⟨p, hp⟩ := Table.mapped_of_row hrow
  exact Table.mem_rowIds.2 (BTreeMap.mem_of_get hp)

theorem sees_of_visibleRow (hx : x ∈ t.view.visibleRows txn) : t.view.Sees txn x.1 := by
  obtain ⟨row, hrow, hseen⟩ := Option.bind_eq_some_iff.1 (mem_visibleRows.1 hx)
  obtain ⟨version, hversion, -⟩ := Option.map_eq_some_iff.1 hseen
  refine sees_iff.2 ⟨mem_rowIds_of_visible hx, ?_⟩
  rw [hrow, Option.bind_some, hversion]
  rfl

theorem scannedRows_perm : (t.view.scannedRows t.rowLocations txn).Perm (t.view.visibleRows txn) :=
  Table.scan_perm.filterMap _

/-- What a lookup that succeeds selects of the visible rows. -/
theorem lookup_ok {column : Column} {candidates : List RowID}
    (hcolumn : t.view.columns[columnId]? = some column)
    (h : t.view.lookupRowsByColumnValue t.rowLocations columnId value txn = .ok candidates) :
    candidates.Nodup ∧ (∀ r ∈ candidates, r ∈ t.view.rowIds) ∧
      (∀ rowIds, column.indexLookup value txn = some rowIds → (∀ r ∈ rowIds, r ∈ t.view.rowIds) ∧
        ∀ x ∈ t.view.visibleRows txn, x.1 ∈ candidates ↔ x.1 ∈ rowIds) ∧
      (column.indexLookup value txn = none → ∀ x ∈ t.view.visibleRows txn,
        x.1 ∈ candidates ↔ holdsEntry columnId value x = true) := by
  unfold lookupRowsByColumnValue at h
  rw [hcolumn] at h
  dsimp only at h
  cases hlookup : column.indexLookup value txn with
  | some rowIds =>
    rw [hlookup] at h
    by_cases hknown : ∀ r ∈ rowIds, r ∈ t.view.rowIds
    · obtain rfl := Except.ok.inj ((filterVisibleIndexCandidates_known hknown).symm.trans h)
      have hnodup : rowIds.Nodup := by
        obtain ⟨version, -, hindex⟩ := Option.map_eq_some_iff.1 hlookup
        rw [← hindex]
        exact BTreeSet.nodup_toList _
      refine ⟨hnodup.filter _, fun r hr => hknown r (List.mem_filter.1 hr).1, fun rowIds' h' => ?_,
        fun h => by cases h⟩
      obtain rfl := Option.some.inj h'
      refine ⟨hknown, fun x hx => ?_⟩
      rw [List.mem_filter, decide_eq_true_iff, and_iff_left (sees_of_visibleRow hx)]
    · obtain ⟨e, he⟩ : ∃ e, t.view.filterVisibleIndexCandidates rowIds txn = .error e :=
        filterVisibleIndexCandidates_unknown hknown
      rw [show t.view.filterVisibleIndexCandidates rowIds txn = _ from h] at he
      cases he
  | none =>
    rw [hlookup] at h
    obtain rfl := Except.ok.inj h
    have hmem : ∀ x ∈ t.view.scannedRows t.rowLocations txn, x ∈ t.view.visibleRows txn := fun x hx =>
      scannedRows_perm.mem_iff.1 hx
    have hinj : ∀ x ∈ t.view.visibleRows txn, ∀ y ∈ t.view.visibleRows txn, x.1 = y.1 → x = y := by
      intro x hx y hy hxy
      rw [mem_visibleRows] at hx hy
      rw [← hxy] at hy
      exact Option.some.inj (hx.symm.trans hy)
    refine ⟨?_, fun r hr => ?_, fun _ h => (by cases h), fun _ x hx => ?_⟩
    · refine List.Nodup.map_on (fun x hx y hy => ?_)
        ((scannedRows_perm.nodup_iff.2 nodup_visibleRows).filter _)
      exact hinj x (hmem x (List.mem_filter.1 hx).1) y (hmem y (List.mem_filter.1 hy).1)
    · obtain ⟨x, hx, rfl⟩ := List.mem_map.1 hr
      exact mem_rowIds_of_visible (hmem x (List.mem_filter.1 hx).1)
    · constructor
      · intro hr
        obtain ⟨y, hy, hxy⟩ := List.mem_map.1 hr
        rw [← hinj y (hmem y (List.mem_filter.1 hy).1) x hx hxy]
        exact (List.mem_filter.1 hy).2
      · exact fun hq => List.mem_map.2 ⟨x, List.mem_filter.2 ⟨scannedRows_perm.mem_iff.2 hx, hq⟩, rfl⟩

/-- A lookup fails if the column is not there or the index files a row nobody knows. -/
theorem lookup_fails {e : DataBaseErrors} {column : Column}
    (hcolumn : t.view.columns[columnId]? = some column)
    (h : t.view.lookupRowsByColumnValue t.rowLocations columnId value txn = .error e) :
    ∃ rowIds, column.indexLookup value txn = some rowIds ∧ ¬ ∀ r ∈ rowIds, r ∈ t.view.rowIds := by
  unfold lookupRowsByColumnValue at h
  rw [hcolumn] at h
  dsimp only at h
  cases hlookup : column.indexLookup value txn with
  | none => rw [hlookup] at h; cases h
  | some rowIds =>
    refine ⟨rowIds, rfl, fun hknown => ?_⟩
    rw [hlookup] at h
    have hok : (.error e : Except DataBaseErrors (List RowID)) = _ :=
      h.symm.trans (filterVisibleIndexCandidates_known hknown)
    cases hok

/-- Looking at the candidates gives the rows of the nested loop exactly if every row that matches is
    a candidate. -/
theorem candidates_same_iff {candidates : List RowID} (h0 : 0 ∉ t.rowLocations)
    (htested : ∀ x ∈ t.view.visibleRows txn,
      ∃ b, (join.candidate rightSchema left x).joinMatches join = .ok b)
    (hnodup : candidates.Nodup) (hknown : ∀ r ∈ candidates, r ∈ t.view.rowIds) :
    (∃ found, (candidates.foldlM (fun found rightRowId => do
        match ← t.view.lookupVisibleRowData rightRowId txn with
        | none => return found
        | some data => join.pushMatching rightSchema left found rightRowId data) []) = .ok found ∧
      (join.orUnmatched rightSchema left found).Perm
        (join.matched rightSchema left (t.view.visibleRows txn))) ↔
      ∀ x ∈ t.view.visibleRows txn, join.Matches rightSchema left x → x.1 ∈ candidates := by
  have hne : ∀ x ∈ t.view.visibleRows txn, x.1 ≠ 0 := fun x hx h =>
    h0 (Table.mem_rowIds.1 (h ▸ mem_rowIds_of_visible hx))
  have hperm := @candidates_perm t.view txn candidates hnodup
  have hrun := (foldlM_candidates hknown).trans (JoinSpec.pushMatching_ok fun x hx =>
    htested x (List.mem_filter.1 (hperm.mem_iff.1 hx)).1)
  have hfilter := @JoinSpec.matched_filter_perm_iff join rightSchema left _
    (fun x => decide (x.1 ∈ candidates)) hne
  simp only [decide_eq_true_iff] at hfilter
  rw [← hfilter]
  constructor
  · rintro ⟨found, hfound, hsame⟩
    obtain rfl := Except.ok.inj (hrun.symm.trans hfound)
    exact (JoinSpec.matched_perm hperm).symm.trans hsame
  · exact fun hsame => ⟨_, hrun, (JoinSpec.matched_perm hperm).trans hsame⟩

theorem lookupFinds_iff {column : Column} {candidates : List RowID}
    (hcolumn : t.view.columns[columnId]? = some column)
    (hlookup : t.view.lookupRowsByColumnValue t.rowLocations columnId value txn = .ok candidates) :
    (∀ x ∈ t.view.visibleRows txn, join.Matches rightSchema left x → x.1 ∈ candidates) ↔
      t.view.LookupFinds join rightSchema txn left columnId value column := by
  obtain ⟨-, -, hindex, hscan⟩ := lookup_ok hcolumn hlookup
  cases hentry : column.indexLookup value txn with
  | some rowIds =>
    obtain ⟨hknown, hmem⟩ := hindex rowIds hentry
    constructor
    · intro hall
      refine ⟨fun rowIds' h => ?_, fun rowIds' h x hx hm => ?_, fun h => ?_⟩
      · rw [← Option.some.inj (hentry.symm.trans h)]; exact hknown
      · rw [← Option.some.inj (hentry.symm.trans h)]; exact (hmem x hx).1 (hall x hx hm)
      · rw [hentry] at h; cases h
    · exact fun h x hx hm => (hmem x hx).2 (h.filed rowIds hentry x hx hm)
  | none =>
    have hmem := hscan hentry
    constructor
    · intro hall
      refine ⟨fun rowIds' h => ?_, fun rowIds' h => ?_, fun _ x hx hm => ?_⟩
      · rw [hentry] at h; cases h
      · rw [hentry] at h; cases h
      · exact (hmem x hx).1 (hall x hx hm)
    · exact fun h x hx hm => (hmem x hx).2 (h.held hentry x hx hm)

/-- **One left row**: the probe gives the rows of the nested loop exactly if it finds them. -/
theorem matchingRows_same_iff (h0 : 0 ∉ t.rowLocations)
    (htested : ∀ x ∈ t.view.visibleRows txn,
      ∃ b, (join.candidate rightSchema left x).joinMatches join = .ok b) :
    (∃ found, t.view.matchingRows t.rowLocations join rightSchema txn left = .ok found ∧
        (join.orUnmatched rightSchema left found).Perm
          (join.matched rightSchema left (t.view.visibleRows txn))) ↔
      t.view.ProbeFinds join rightSchema txn left := by
  unfold matchingRows ProbeFinds
  rcases join.on.bind (·.joinEqualityLookup left.rowContext join.table.aliasOrName) with
    _ | ⟨columnName, value⟩
  · refine iff_of_true ⟨_, JoinSpec.pushMatching_ok fun x hx =>
      htested x (scannedRows_perm.mem_iff.1 hx), ?_⟩ fun _ _ h => by cases h
    exact JoinSpec.matched_perm scannedRows_perm
  dsimp only
  cases hmap : rightSchema.columnMap[normalizeIdentifier columnName]? with
  | none =>
    refine iff_of_false (fun ⟨_, h, _⟩ => by cases h) fun h => ?_
    obtain ⟨_, _, hmap', -⟩ := h columnName value rfl
    rw [hmap] at hmap'; cases hmap'
  | some columnId =>
    dsimp only
    cases hcolumn : t.view.columns[columnId]? with
    | none =>
      refine iff_of_false (fun ⟨_, h, _⟩ => ?_) fun h => ?_
      · rw [lookupRowsByColumnValue, hcolumn] at h; cases h
      · obtain ⟨_, _, hmap', hcolumn', -⟩ := h columnName value rfl
        rw [← Option.some.inj (hmap.symm.trans hmap'), hcolumn] at hcolumn'
        cases hcolumn'
    | some column =>
      have hfinds : (∀ columnName' value', some (columnName, value) = some (columnName', value') →
          ∃ columnId' column', rightSchema.columnMap[normalizeIdentifier columnName']? = some columnId' ∧
            t.view.columns[columnId']? = some column' ∧
            t.view.LookupFinds join rightSchema txn left columnId' value' column') ↔
          t.view.LookupFinds join rightSchema txn left columnId value column := by
        constructor
        · intro h
          obtain ⟨_, _, hmap', hcolumn', hfinds⟩ := h columnName value rfl
          obtain rfl := Option.some.inj (hmap.symm.trans hmap')
          obtain rfl := Option.some.inj (hcolumn.symm.trans hcolumn')
          exact hfinds
        · intro h _ _ heq
          obtain ⟨rfl, rfl⟩ := Prod.mk.inj (Option.some.inj heq)
          exact ⟨columnId, column, hmap, hcolumn, h⟩
      rw [hfinds]
      cases hlookup : t.view.lookupRowsByColumnValue t.rowLocations columnId value txn with
      | error e =>
        refine iff_of_false (fun ⟨_, h, _⟩ => by cases h) fun h => ?_
        obtain ⟨rowIds, hrowIds, hunknown⟩ := lookup_fails hcolumn hlookup
        exact hunknown (h.known rowIds hrowIds)
      | ok candidates =>
        obtain ⟨hnodup, hknown, -⟩ := lookup_ok hcolumn hlookup
        exact (candidates_same_iff h0 htested hnodup hknown).trans (lookupFinds_iff hcolumn hlookup)

/-! ## All left rows -/

variable {current rows : List JoinedRow}

theorem applyJoin_cross (hcross : join.joinType = .cross)
    (hloop : join.nestedLoop rightSchema (t.view.visibleRows txn) current = .ok rows) :
    ∃ rows', t.view.applyJoin t.rowLocations current join rightSchema txn = .ok rows' ∧
      rows'.Perm rows := by
  obtain ⟨-, rfl⟩ := JoinSpec.nestedLoop_ok hloop
  refine ⟨current.flatMap fun left =>
    (t.view.scannedRows t.rowLocations txn).map (join.candidate rightSchema left), ?_, ?_⟩
  · have hscan : ∀ left next, (t.view.scannedRows t.rowLocations txn).foldlM (fun next x =>
        (.ok (next ++ [left.append (join.binding rightSchema x.1 x.2)]) :
          Except DataBaseErrors _)) next =
        .ok (next ++ (t.view.scannedRows t.rowLocations txn).map (join.candidate rightSchema left)) := by
      intro left next
      rw [List.map_eq_flatMap]
      exact concat_ok (c := fun x => .ok [join.candidate rightSchema left x]) fun _ _ => rfl
    unfold applyJoin
    rw [if_pos hcross]
    simp only [hscan]
    exact concat_ok (c := fun left => .ok _) fun _ _ => rfl
  · refine List.Perm.flatMap_left _ fun left _ => ?_
    have hall : ∀ x, join.Matches rightSchema left x := fun x => by
      rw [JoinSpec.Matches, JoinedRow.joinMatches, if_pos hcross]
    have hfilter : (t.view.visibleRows txn).filter (join.Matches rightSchema left ·) =
        t.view.visibleRows txn := List.filter_eq_self.2 fun x _ => decide_eq_true (hall x)
    have houter : join.joinType ≠ .leftOuter := fun h => by rw [hcross] at h; cases h
    unfold JoinSpec.matched JoinSpec.orUnmatched
    rw [if_neg fun h => houter h.2, hfilter]
    exact scannedRows_perm.map _

/-- The rows of one left row are what it makes of some right rows. -/
theorem matchingRows_tested {found : List JoinedRow}
    (htested : ∀ x ∈ t.view.visibleRows txn,
      ∃ b, (join.candidate rightSchema left x).joinMatches join = .ok b)
    (h : t.view.matchingRows t.rowLocations join rightSchema txn left = .ok found) :
    ∃ rows, join.orUnmatched rightSchema left found = join.matched rightSchema left rows := by
  have hpush : ∀ rows : List (RowID × RowData), (∀ x ∈ rows, x ∈ t.view.visibleRows txn) →
      rows.foldlM (fun found x => join.pushMatching rightSchema left found x.1 x.2) [] = .ok found →
      ∃ rows, join.orUnmatched rightSchema left found = join.matched rightSchema left rows := by
    intro rows hrows h
    rw [JoinSpec.pushMatching_ok fun x hx => htested x (hrows x hx)] at h
    exact ⟨rows, by rw [← Except.ok.inj h]; rfl⟩
  unfold matchingRows at h
  cases hprobe : join.on.bind (·.joinEqualityLookup left.rowContext join.table.aliasOrName) with
  | none =>
    rw [hprobe] at h
    exact hpush _ (fun x hx => scannedRows_perm.mem_iff.1 hx) h
  | some probe =>
    obtain ⟨columnName, value⟩ := probe
    rw [hprobe] at h
    dsimp only at h
    cases hmap : rightSchema.columnMap[normalizeIdentifier columnName]? with
    | none => rw [hmap] at h; cases h
    | some columnId =>
      rw [hmap] at h
      dsimp only at h
      cases hlookup : t.view.lookupRowsByColumnValue t.rowLocations columnId value txn with
      | error e => rw [hlookup] at h; cases h
      | ok candidates =>
        cases hcolumn : t.view.columns[columnId]? with
        | none => rw [lookupRowsByColumnValue, hcolumn] at hlookup; cases hlookup
        | some column =>
          obtain ⟨hnodup, hknown, -⟩ := lookup_ok hcolumn hlookup
          rw [hlookup] at h
          refine hpush _ (fun x hx => ?_) ((foldlM_candidates hknown).symm.trans h)
          exact (List.mem_filter.1 ((candidates_perm hnodup).mem_iff.1 hx)).1

/-- The rows `apply_join` adds for one left row. -/
def joinedWith (ρ : RowMap) (v : View) (join : JoinSpec) (rightSchema : JoinTableSchema)
    (txn : Transaction) (left : JoinedRow) : Except DataBaseErrors (List JoinedRow) :=
  (v.matchingRows ρ join rightSchema txn left).map (join.orUnmatched rightSchema left)

theorem joinedWith_same_iff (h0 : 0 ∉ t.rowLocations)
    (htested : ∀ x ∈ t.view.visibleRows txn,
      ∃ b, (join.candidate rightSchema left x).joinMatches join = .ok b) :
    (∃ found, t.view.joinedWith t.rowLocations join rightSchema txn left = .ok found ∧
        found.Perm (join.matched rightSchema left (t.view.visibleRows txn))) ↔
      t.view.ProbeFinds join rightSchema txn left := by
  rw [← matchingRows_same_iff h0 htested, joinedWith]
  cases t.view.matchingRows t.rowLocations join rightSchema txn left with
  | error e => exact iff_of_false (fun ⟨_, h, _⟩ => by cases h) fun ⟨_, h, _⟩ => by cases h
  | ok found =>
    constructor
    · rintro ⟨_, h, hperm⟩
      exact ⟨found, rfl, by rw [Except.ok.inj h]; exact hperm⟩
    · rintro ⟨_, h, hperm⟩
      rw [← Except.ok.inj h] at hperm
      exact ⟨_, rfl, hperm⟩

/-- The left rows are joined one after another. -/
theorem applyJoin_concat {ρ : RowMap} (hcross : join.joinType ≠ .cross) :
    v.applyJoin ρ current join rightSchema txn =
      concat (v.joinedWith ρ join rightSchema txn) [] current := by
  have hstep : ∀ next left, (do
      return next ++ join.orUnmatched rightSchema left
        (← v.matchingRows ρ join rightSchema txn left) : Except DataBaseErrors (List JoinedRow)) = (do
      return next ++ (← v.joinedWith ρ join rightSchema txn left)) := by
    intro next left
    rw [joinedWith]
    cases v.matchingRows ρ join rightSchema txn left <;> rfl
  unfold applyJoin
  rw [if_neg hcross]
  simp only [hstep]
  rfl

theorem applyJoin_perm_iff (h0 : 0 ∉ t.rowLocations) (hcross : join.joinType ≠ .cross)
    (hloop : join.nestedLoop rightSchema (t.view.visibleRows txn) current = .ok rows) :
    (∃ rows', t.view.applyJoin t.rowLocations current join rightSchema txn = .ok rows' ∧
        rows'.Perm rows) ↔ ∀ left ∈ current, t.view.ProbeFinds join rightSchema txn left := by
  classical
  obtain ⟨htested, rfl⟩ := JoinSpec.nestedLoop_ok hloop
  rw [applyJoin_concat hcross]
  have hiff : ∀ left ∈ current, _ := fun left hleft =>
    @joinedWith_same_iff txn join rightSchema left t h0 (htested left hleft)
  constructor
  · rintro ⟨rows', hok, hperm⟩ left hleft
    refine (hiff left hleft).1 ?_
    choose! g hg using results_of_concat hok
    obtain rfl := Except.ok.inj (hok.symm.trans (concat_ok hg))
    have hkey : ∀ left ∈ current, ∀ joined ∈ g left,
        (⟨joined.tables.dropLast⟩ : JoinedRow) = left := by
      intro left hleft joined hjoined
      have hjoin := hg left hleft
      rw [joinedWith] at hjoin
      cases hm : t.view.matchingRows t.rowLocations join rightSchema txn left with
      | error e => rw [hm] at hjoin; cases hjoin
      | ok found =>
        rw [hm] at hjoin
        obtain ⟨rows, hrows⟩ := matchingRows_tested (htested left hleft) hm
        rw [← Except.ok.inj hjoin, hrows] at hjoined
        exact JoinSpec.tables_matched joined hjoined
    exact ⟨g left, hg left hleft, (flatMap_perm_iff hkey fun left _ =>
      JoinSpec.tables_matched).1 hperm left hleft⟩
  · intro hall
    choose! g hg hperm using fun left hleft => (hiff left hleft).2 (hall left hleft)
    refine ⟨_, concat_ok hg, ?_⟩
    exact List.Perm.flatMap_left _ hperm

end View

namespace Database

variable {db : Database} {id : TransactionID} {name : String} {t : Table} {join : JoinSpec}
  {rightSchema : JoinTableSchema} {current : List JoinedRow}

/-- **A join gives the rows of the nested loop**, whenever ON can be evaluated on all pairs, exactly
    if it is a cross join or every probe finds the rows that match. -/
theorem applyJoin_same_iff (hname : db.getTable join.table.tableName = some name)
    (ht : db.tables[name]? = some t) (hgood : t.Good) (h0 : 0 ∉ t.rowLocations) :
    (∀ rows, join.nestedLoop rightSchema (t.view.visibleRows (db.txn id)) current = .ok rows →
      ∃ rows', (applyJoin current join rightSchema id () db).1 = .ok rows' ∧ rows'.Perm rows) ↔
    ∀ rows, join.nestedLoop rightSchema (t.view.visibleRows (db.txn id)) current = .ok rows →
      join.joinType ≠ .cross → ∀ left ∈ current, t.view.ProbeFinds join rightSchema (db.txn id) left := by
  have hrun : (applyJoin current join rightSchema id () db).1 =
      (t.view.applyJoin t.rowLocations current join rightSchema (db.txn id)).mapError .err := by
    obtain ⟨t', hrun, -⟩ := Table.run_yields hgood Table.yields_applyJoin
    unfold applyJoin
    rw [bind_ok (show requireTable join.table.tableName () db = (.ok name, db) by
      unfold requireTable; rw [get_bind, hname]; rfl), asTransaction_run ht, hrun]
  have hok : ∀ rows', (applyJoin current join rightSchema id () db).1 = .ok rows' ↔
      t.view.applyJoin t.rowLocations current join rightSchema (db.txn id) = .ok rows' := by
    intro rows'
    rw [hrun]
    cases t.view.applyJoin t.rowLocations current join rightSchema (db.txn id) with
    | error e => exact iff_of_false (fun h => by cases h) fun h => by cases h
    | ok rows => exact ⟨fun h => by rw [Except.ok.inj h], fun h => by rw [Except.ok.inj h]; rfl⟩
  simp only [hok]
  refine forall_congr' fun rows => forall_congr' fun hloop => ?_
  by_cases hcross : join.joinType = .cross
  · exact iff_of_true (View.applyJoin_cross hcross hloop) fun h => absurd hcross h
  · rw [imp_iff_right hcross]
    exact View.applyJoin_perm_iff h0 hcross hloop

/-- Tables `l` and `r`, each with a column and a row that has no entry for it. -/
def nullPair : Database := ((do
    let id ← createTransaction
    let _ ← createTable "l"
    let _ ← createTable "r"
    let _ ← asTransaction "l" id (Table.createColumn "a" .boolean ∅)
    let _ ← asTransaction "r" id (Table.createColumn "b" .boolean ∅)
    let _ ← asTransaction "l" id (Table.insertRow ∅ · fun _ => none)
    let _ ← asTransaction "r" id (Table.insertRow ∅ · fun _ => none) : DbM Unit)
    () (.new ⟨4096, 0⟩)).2

/-- `JOIN r ON left = right`. -/
def joinOn (left right : SearchExpression) : JoinSpec where
  table := ⟨"r", none⟩
  joinType := .inner
  on := some (.comparison left .equal right)
  usingColumns := none

/-- The row of `l`. -/
def leftRow : JoinedRow := ⟨[⟨"l", "l", 1, .ofList [("a", 0)] compare, ∅⟩]⟩

def schemaOfR : JoinTableSchema := ⟨⟨"r", none⟩, .ofList [("b", 0)] compare, ["b"]⟩

example : (initialRows ⟨"l", none⟩ 1 () nullPair).1 = .ok [leftRow] := by decide +kernel

example : (loadTableSchema ⟨"r", none⟩ 1 () nullPair).1 = .ok schemaOfR := by decide +kernel

theorem applyJoin_same_iff_nullPair :
    let join := joinOn (.qualifiedColumn "r" "b") (.qualifiedColumn "l" "a")
    ∃ t, nullPair.tables["r"]? = some t ∧
      ((∀ rows, join.nestedLoop schemaOfR (t.view.visibleRows (nullPair.txn 1)) [leftRow] = .ok rows →
          ∃ rows', (applyJoin [leftRow] join schemaOfR 1 () nullPair).1 = .ok rows' ∧
            rows'.Perm rows) ↔
        ∀ rows, join.nestedLoop schemaOfR (t.view.visibleRows (nullPair.txn 1)) [leftRow] = .ok rows →
          join.joinType ≠ .cross →
            ∀ left ∈ [leftRow], t.view.ProbeFinds join schemaOfR (nullPair.txn 1) left) := by
  let t : Table := Runs.exec TableOp.step (Table.start 1 4096 0 .empty ∅)
    [.createColumn "b" .boolean ∅ (nullPair.txn 1), .call (.insertRow ∅ (nullPair.txn 1) fun _ => none)]
  have hgood : t.Good := (TableOp.good_unlimited (Table.good_start rfl rfl) rfl (by decide +kernel)).1
  have ht : nullPair.tables["r"]? = some t := by decide +kernel
  exact ⟨t, ht, applyJoin_same_iff (by decide +kernel) ht hgood (by decide +kernel)⟩

/-- Both columns are NULL, which `=` takes as equal: the nested loop joins the rows, and so does
    `r.b = l.a`, but the lookup for `l.a = r.b` finds no entry. -/
theorem applyJoin_misses_null :
    let join := joinOn (.qualifiedColumn "l" "a") (.qualifiedColumn "r" "b")
    let exchanged := joinOn (.qualifiedColumn "r" "b") (.qualifiedColumn "l" "a")
    ∃ t rows, nullPair.tables["r"]? = some t ∧ rows.length = 1 ∧
      join.nestedLoop schemaOfR (t.view.visibleRows (nullPair.txn 1)) [leftRow] = .ok rows ∧
      (applyJoin [leftRow] exchanged schemaOfR 1 () nullPair).1 = .ok rows ∧
      (applyJoin [leftRow] join schemaOfR 1 () nullPair).1 = .ok [] := by
  intro join exchanged
  obtain ⟨t, ht⟩ : ∃ t, nullPair.tables["r"]? = some t :=
    Option.isSome_iff_exists.1 (by decide +kernel)
  have hloop : ∀ t ∈ nullPair.tables["r"]?, join.nestedLoop schemaOfR
      (t.view.visibleRows (nullPair.txn 1)) [leftRow] =
        .ok [leftRow.append (join.binding schemaOfR 1 ∅)] := by decide +kernel
  exact ⟨t, _, ht, rfl, hloop t ht, by decide +kernel, by decide +kernel⟩

end Database

end AntDb
