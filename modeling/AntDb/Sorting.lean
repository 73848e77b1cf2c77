/-
  The order of joined results.

  The results are sorted after they have been projected, by the values they have under the names
  of the sort columns.  A cell is a column of one of the joined tables: a sort column asks for a
  cell, and its name finds the cell that is projected under it, if any.
-/
import AntDb.Lib.Lexicographic
import AntDb.Query

namespace AntDb

open Call LastMatch Lexicographic

/-- The joined tables: their aliases and their columns. -/
abbrev Shape := List (String × BTreeMap String ColumnID)

/-- The alias of a table and one of its columns. -/
abbrev Cell := String × ColumnID

namespace Shape

variable {shape : Shape}

def columnOwners (shape : Shape) : BTreeMap String ℕ :=
  shape.foldl (fun owners table => table.2.toList.foldl (fun owners x =>
    owners.alter x.1 fun n => some (n.getD 0 + 1)) owners) ∅

/-- Enter a column of a table under its names in a row context. -/
def addNames {υ : Type} (columnOwners : BTreeMap String ℕ) (tableAlias : String)
    (value : ColumnID → υ) (values : BTreeMap String υ) (x : String × ColumnID) : BTreeMap String υ :=
  let values := values.insert (normalizeIdentifier tableAlias ++ "." ++ x.1) (value x.2)
  if columnOwners[x.1]? = some 1 then values.insert x.1 (value x.2) else values

/-- The cells by the names they have in a row context. -/
def cells (shape : Shape) : BTreeMap String Cell :=
  shape.foldl (fun cells table =>
    table.2.toList.foldl (addNames shape.columnOwners table.1 fun c => (table.1, c)) cells) ∅

theorem addNames_map {υ ω : Type} {owners : BTreeMap String ℕ} {tableAlias : String}
    {value : ColumnID → υ} {value' : ColumnID → ω} {f : υ → ω} (h : ∀ c, f (value c) = value' c)
    (values : BTreeMap String υ) (x : String × ColumnID) :
    addNames owners tableAlias value' (values.map fun _ v => f v) x =
      (addNames owners tableAlias value values x).map fun _ v => f v := by
  have hinsert : ∀ (values : BTreeMap String υ) (name : String) (v : υ),
      (values.insert name v).map (fun _ v => f v) = (values.map fun _ v => f v).insert name (f v) := by
    intro values name v
    refine Std.ExtTreeMap.ext_getElem? fun a => ?_
    rw [Std.ExtTreeMap.getElem?_map, BTreeMap.get_insert, BTreeMap.get_insert,
      Std.ExtTreeMap.getElem?_map]
    split_ifs <;> rfl
  unfold addNames
  dsimp only
  split_ifs
  · rw [hinsert, hinsert, h]
  · rw [hinsert, h]

def projectionAlias (shape : Shape) (column : ProjectionColumn) : Option String :=
  match column.tableAlias, shape with
  | some tableAlias, _ => some tableAlias
  | none, [table] => some table.1
  | none, _ => none

/-- The cell a projected column shows. -/
def projectedCell (shape : Shape) (column : ProjectionColumn) : Option Cell :=
  (shape.projectionAlias column).bind fun tableAlias =>
    (shape.find? (·.1 = tableAlias)).bind fun table =>
      table.2[column.columnName]?.map fun columnId => (tableAlias, columnId)

/-- The cells a sort column asks for. -/
def askedKeys (shape : Shape) (orderBy : List SortBy) : List (Cell × Bool) :=
  orderBy.filterMap fun sortBy =>
    (shape.cells[sortBy.sortKey]?).map (·, decide (sortBy.orderBy = .desc))

/-- The cell whose value a result is sorted by: the one projected under the name of the sort column
    or, without one, under its column name. -/
def foundCell (shape : Shape) (projection : List ProjectionColumn) (sortBy : SortBy) : Option Cell :=
  ((findLast (fun column => decide (column.outputName = sortBy.sortKey)) projection).or
    (findLast (fun column => decide (column.outputName = sortBy.columnName)) projection)).bind
      shape.projectedCell

def foundKeys (shape : Shape) (projection : List ProjectionColumn) (orderBy : List SortBy) :
    List (Cell × Bool) :=
  orderBy.filterMap fun sortBy =>
    (shape.foundCell projection sortBy).map (·, decide (sortBy.orderBy = .desc))

end Shape

namespace JoinedRow

def shape (joined : JoinedRow) : Shape :=
  joined.tables.map fun binding => (binding.tableAlias, binding.columnMap)

def cellValue (joined : JoinedRow) (cell : Cell) : DataBaseDataEntry :=
  ((joined.tables.find? (·.tableAlias = cell.1)).map (·.value cell.2)).getD .null

variable {joined : JoinedRow} {binding : TableBinding} {column : ProjectionColumn}

theorem cellValue_of_mem (hnodup : (joined.shape.map Prod.fst).Nodup) (h : binding ∈ joined.tables)
    (columnId : ColumnID) : joined.cellValue (binding.tableAlias, columnId) = binding.value columnId := by
  have hfind : joined.tables.find? (·.tableAlias = binding.tableAlias) = some binding := by
    have hnodup : (joined.tables.map (·.tableAlias)).Nodup := by
      rwa [shape, List.map_map] at hnodup
    generalize joined.tables = tables at h hnodup
    induction tables with
    | nil => cases h
    | cons b tables ih =>
      rw [List.map_cons, List.nodup_cons] at hnodup
      rcases List.mem_cons.1 h with rfl | h
      · simp
      · have hne : b.tableAlias ≠ binding.tableAlias := fun he =>
          hnodup.1 (List.mem_map.2 ⟨binding, h, he.symm⟩)
        rw [List.find?_cons_of_neg (by simpa using hne)]
        exact ih h hnodup.2
  rw [cellValue, hfind]
  rfl

/-- A row context has the values of the cells. -/
theorem rowContext_eq (hnodup : (joined.shape.map Prod.fst).Nodup) :
    joined.rowContext = joined.shape.cells.map fun _ cell => joined.cellValue cell := by
  have howners : joined.columnOwners = joined.shape.columnOwners := by
    rw [columnOwners, Shape.columnOwners, shape, List.foldl_map]
  have htables : ∀ tables : List TableBinding, (∀ binding ∈ tables, binding ∈ joined.tables) →
      ∀ cells : BTreeMap String Cell, tables.foldl (fun values binding =>
          binding.columnMap.toList.foldl
            (Shape.addNames joined.shape.columnOwners binding.tableAlias binding.value) values)
        (cells.map fun _ cell => joined.cellValue cell) =
      (tables.foldl (fun cells binding => binding.columnMap.toList.foldl
          (Shape.addNames joined.shape.columnOwners binding.tableAlias
            fun c => (binding.tableAlias, c)) cells) cells).map fun _ cell => joined.cellValue cell := by
    intro tables hmem
    induction tables with
    | nil => exact fun cells => rfl
    | cons binding tables ih =>
      intro cells
      have hvalue := cellValue_of_mem hnodup (hmem binding (by simp))
      rw [List.foldl_cons, List.foldl_cons,
        List.foldl_hom _ fun cells x => Shape.addNames_map hvalue cells x]
      exact ih (fun b hb => hmem b (List.mem_cons_of_mem _ hb)) _
  have hempty : (∅ : BTreeMap String DataBaseDataEntry) =
      (∅ : BTreeMap String Cell).map fun _ cell => joined.cellValue cell := by simp
  rw [rowContext, howners, hempty]
  refine (htables joined.tables (fun _ h => h) ∅).trans (congrArg _ ?_)
  rw [Shape.cells]
  conv_rhs => rw [shape, List.foldl_map]
  rfl

/-! ## Projection -/

theorem find_shape {tableAlias : String} : joined.shape.find? (·.1 = tableAlias) =
    (joined.tables.find? (·.tableAlias = tableAlias)).map fun b => (b.tableAlias, b.columnMap) := by
  rw [shape, List.find?_map]
  rfl

/-- A projected value is the value of the projected cell. -/
theorem resolveProjectionValue_eq : (joined.resolveProjectionValue column).toOption =
    (joined.shape.projectedCell column).map joined.cellValue := by
  have halias : joined.shape.projectionAlias column = joined.projectionAlias column := by
    unfold projectionAlias Shape.projectionAlias shape
    rcases column.tableAlias with _ | tableAlias
    · rcases joined.tables with _ | ⟨b, _ | ⟨b', tables⟩⟩ <;> rfl
    · rfl
  rw [resolveProjectionValue, Shape.projectedCell, halias]
  cases joined.projectionAlias column with
  | none => rfl
  | some tableAlias =>
    dsimp only
    rw [Option.bind_some, find_shape]
    cases hfind : joined.tables.find? (·.tableAlias = tableAlias) with
    | none => rfl
    | some binding =>
      dsimp only
      rw [Option.map_some, Option.bind_some]
      cases binding.columnMap[column.columnName]? with
      | none => rfl
      | some columnId =>
        show _ = some (joined.cellValue (tableAlias, columnId))
        rw [cellValue, hfind]
        rfl

theorem resolveProjectionValue_ok {value : DataBaseDataEntry}
    (h : joined.resolveProjectionValue column = .ok value) :
    ∃ cell, joined.shape.projectedCell column = some cell ∧ value = joined.cellValue cell := by
  have heq := @resolveProjectionValue_eq joined column
  rw [h] at heq
  obtain ⟨cell, hcell, hvalue⟩ := Option.map_eq_some_iff.1 heq.symm
  exact ⟨cell, hcell, hvalue.symm⟩

theorem resolveProjectionValue_cell {cell : Cell} (h : joined.shape.projectedCell column = some cell) :
    joined.resolveProjectionValue column = .ok (joined.cellValue cell) := by
  have heq := @resolveProjectionValue_eq joined column
  rw [h] at heq
  cases hresolve : joined.resolveProjectionValue column with
  | error e => rw [hresolve] at heq; cases heq
  | ok value => rw [hresolve] at heq; exact congrArg Except.ok (Option.some.inj heq)

/-- Every projected column of a result has a cell. -/
theorem projected_of_values {projection : List ProjectionColumn}
    {values₀ values : BTreeMap String DataBaseDataEntry} (h : (projection.foldlM (fun values column => do
      return values.insert column.outputName (← joined.resolveProjectionValue column)) values₀ :
        Except DataBaseErrors _) = .ok values) :
    ∀ column ∈ projection, ∃ cell, joined.shape.projectedCell column = some cell := by
  induction projection generalizing values₀ with
  | nil => exact fun column hc => by cases hc
  | cons column projection ih =>
    rw [List.foldlM_cons] at h
    cases hvalue : joined.resolveProjectionValue column with
    | error e => rw [hvalue] at h; cases h
    | ok value =>
      rw [hvalue] at h
      obtain ⟨cell, hcell, -⟩ := resolveProjectionValue_ok hvalue
      exact List.forall_mem_cons.2 ⟨⟨cell, hcell⟩, ih h⟩

/-- What a result has under a name is the value of the last column projected under it. -/
theorem projectionValues_get {projection : List ProjectionColumn}
    {values : BTreeMap String DataBaseDataEntry}
    (h : joined.projectionValues projection = .ok values) (name : String) :
    values[name]? = ((findLast (fun column => decide (column.outputName = name)) projection).bind
      joined.shape.projectedCell).map joined.cellValue := by
  suffices h' : ∀ values₀ : BTreeMap String DataBaseDataEntry, (projection.foldlM (fun values column => do
      return values.insert column.outputName (← joined.resolveProjectionValue column)) values₀ :
        Except DataBaseErrors _) = .ok values →
      values[name]? = (((findLast (fun column => decide (column.outputName = name)) projection).bind
        joined.shape.projectedCell).map joined.cellValue).or values₀[name]? by
    rw [h' ∅ h]
    simp
  clear h
  induction projection with
  | nil =>
    intro values₀ h
    rw [← Except.ok.inj h]
    rfl
  | cons column projection ih =>
    intro values₀ h
    rw [List.foldlM_cons] at h
    cases hvalue : joined.resolveProjectionValue column with
    | error e => rw [hvalue] at h; cases h
    | ok value =>
      rw [hvalue] at h
      obtain ⟨cell, hcell, rfl⟩ := resolveProjectionValue_ok hvalue
      rw [ih _ h, BTreeMap.get_insert,
        show column :: projection = [column] ++ projection from rfl, findLast_append]
      cases hlast : findLast (fun column => decide (column.outputName = name)) projection with
      | some last =>
        obtain ⟨pre, post, hlast⟩ := findLast_some.1 hlast
        obtain ⟨lastCell, hlastCell⟩ := projected_of_values h last hlast.mem
        simp [hlastCell]
      | none =>
        by_cases hname : column.outputName = name
        · simp [findLast, hname, hcell]
        · simp [findLast, hname]

/-- The value a sort column has in a joined row. -/
def askedValue (joined : JoinedRow) (sortBy : SortBy) : DataBaseDataEntry :=
  (joined.rowContext[sortBy.sortKey]?).getD .null

theorem askedValue_eq (hnodup : (joined.shape.map Prod.fst).Nodup) (sortBy : SortBy) :
    joined.askedValue sortBy =
      ((joined.shape.cells[sortBy.sortKey]?).map joined.cellValue).getD .null := by
  rw [askedValue, rowContext_eq hnodup, Std.ExtTreeMap.getElem?_map]

theorem sortValue_eq {projection : List ProjectionColumn} {result : SearchResult}
    (h : projectJoined projection joined = .ok result) (sortBy : SortBy) :
    result.sortValue sortBy =
      ((joined.shape.foundCell projection sortBy).map joined.cellValue).getD .null := by
  obtain ⟨values, hvalues, rfl⟩ : ∃ values, joined.projectionValues projection = .ok values ∧
      result = ⟨(joined.tables.head?.map (·.rowId)).getD 0, values⟩ := by
    unfold projectJoined at h
    cases hvalues : joined.projectionValues projection with
    | error e => rw [hvalues] at h; cases h
    | ok values => rw [hvalues] at h; exact ⟨values, rfl, (Except.ok.inj h).symm⟩
  have hprojected := projected_of_values hvalues
  rw [SearchResult.sortValue, projectionValues_get hvalues, projectionValues_get hvalues,
    Shape.foundCell]
  cases hkey : findLast (fun column => decide (column.outputName = sortBy.sortKey)) projection with
  | none => rfl
  | some column =>
    obtain ⟨pre, post, hlast⟩ := findLast_some.1 hkey
    obtain ⟨cell, hcell⟩ := hprojected column hlast.mem
    simp [hcell]

end JoinedRow

/-! ## Sorting -/

theorem compareValues_eq (cellOf : SortBy → Option Cell) (f g : Cell → DataBaseDataEntry)
    (orderBy : List SortBy) :
    compareValues (fun sortBy => ((cellOf sortBy).map f).getD .null)
        (fun sortBy => ((cellOf sortBy).map g).getD .null) orderBy =
      lexCmp DataBaseDataEntry.cmp
        (orderBy.filterMap fun sortBy => (cellOf sortBy).map (·, decide (sortBy.orderBy = .desc))) f g := by
  induction orderBy with
  | nil => rfl
  | cons sortBy orderBy ih =>
    rw [compareValues, List.filterMap_cons]
    cases hcell : cellOf sortBy with
    | none => exact ih
    | some cell =>
      dsimp only [Option.map_some, Option.getD_some]
      rw [lexCmp_cons, ← ih, keyCmp]
      cases hdirection : sortBy.orderBy <;> cases (f cell).cmp (g cell) <;> rfl

/-- The results are a slice of the filtered rows, projected, in an order that the values of the
    sort columns in the joined rows ask for. -/
def OrderedAsAsked (projection : List ProjectionColumn) (request : SearchRequest)
    (rows : List JoinedRow) (results : List SearchResult) : Prop :=
  ∃ (sorted : List JoinedRow) (all : List SearchResult),
    sorted.Perm (rows.filter fun joined =>
      decide (matchesJoinFilter request.filter joined = .ok true)) ∧
    sorted.Pairwise (fun left right =>
      compareValues left.askedValue right.askedValue request.orderBy ≠ .gt) ∧
    List.Forall₂ (fun joined result => projectJoined projection joined = .ok result) sorted all ∧
    results = request.slice all

variable {projection : List ProjectionColumn} {request : SearchRequest} {rows : List JoinedRow}
  {results : List SearchResult} {shape : Shape}

/-- The results before they are sorted. -/
theorem projected_rows {found all : List SearchResult} (h : rows.foldlM (fun results joined => do
      if ← matchesJoinFilter request.filter joined then
        return results ++ [← projectJoined projection joined]
      else return results) found = Except.ok all) :
    ∃ own, all = found ++ own ∧
      List.Forall₂ (fun joined result => projectJoined projection joined = .ok result)
      (rows.filter fun joined => decide (matchesJoinFilter request.filter joined = .ok true)) own := by
  induction rows generalizing found with
  | nil => exact ⟨[], by rw [← Except.ok.inj h]; simp, List.Forall₂.nil⟩
  | cons joined rows ih =>
    rw [List.foldlM_cons] at h
    cases hm : matchesJoinFilter request.filter joined with
    | error e => rw [hm] at h; cases h
    | ok matched =>
      rw [hm] at h
      cases matched with
      | false =>
        obtain ⟨own, hall, howns⟩ := ih h
        exact ⟨own, hall, by rwa [List.filter_cons_of_neg (by simp [hm])]⟩
      | true =>
        cases hp : projectJoined projection joined with
        | error e => rw [hp] at h; cases h
        | ok result =>
          rw [hp] at h
          obtain ⟨own, hall, howns⟩ := ih h
          refine ⟨result :: own, by rw [hall]; simp, ?_⟩
          rw [List.filter_cons_of_pos (by simp [hm])]
          exact List.Forall₂.cons hp howns

/-- Results are the images of their rows. -/
theorem results_eq_map {all : List SearchResult}
    (h : List.Forall₂ (fun joined result => projectJoined projection joined = .ok result) rows all) :
    ∃ project : JoinedRow → SearchResult, all = rows.map project ∧
      ∀ joined ∈ rows, projectJoined projection joined = .ok (project joined) := by
  refine ⟨fun joined => ((projectJoined projection joined).toOption).getD ⟨0, ∅⟩, ?_⟩
  induction h with
  | nil => exact ⟨rfl, fun _ h => by cases h⟩
  | cons hhead _ ih =>
    refine ⟨?_, List.forall_mem_cons.2 ⟨?_, ih.2⟩⟩
    · rw [List.map_cons, hhead, ← ih.1]
      rfl
    · dsimp only
      rw [hhead]
      rfl

/-- Results compare by the cells that the names find. -/
theorem compareRows_eq {left right : JoinedRow} {leftResult rightResult : SearchResult}
    (hl : projectJoined projection left = .ok leftResult)
    (hr : projectJoined projection right = .ok rightResult)
    (hls : left.shape = shape) (hrs : right.shape = shape) (orderBy : List SortBy) :
    leftResult.compareRows rightResult orderBy =
      lexCmp DataBaseDataEntry.cmp (shape.foundKeys projection orderBy) left.cellValue right.cellValue := by
  rw [Shape.foundKeys, ← compareValues_eq, SearchResult.compareRows]
  congr 1
  · exact funext fun sortBy => hls ▸ JoinedRow.sortValue_eq hl sortBy
  · exact funext fun sortBy => hrs ▸ JoinedRow.sortValue_eq hr sortBy

/-- What is asked for is the order by the asked cells. -/
theorem compareAsked_eq {left right : JoinedRow} (hls : left.shape = shape) (hrs : right.shape = shape)
    (hnodup : (shape.map Prod.fst).Nodup) (orderBy : List SortBy) :
    compareValues left.askedValue right.askedValue orderBy =
      lexCmp DataBaseDataEntry.cmp (shape.askedKeys orderBy) left.cellValue right.cellValue := by
  rw [Shape.askedKeys, ← compareValues_eq]
  congr 1
  · exact funext fun sortBy => hls ▸ JoinedRow.askedValue_eq (hls ▸ hnodup) sortBy
  · exact funext fun sortBy => hrs ▸ JoinedRow.askedValue_eq (hrs ▸ hnodup) sortBy

instance : Std.TransCmp DataBaseDataEntry.cmp :=
  inferInstanceAs (Std.TransCmp (compareOn DataBaseDataEntry.ordKey))

/-- The results of a search that succeeds, before the slice is taken. -/
theorem finishSearch_ok (h : finishSearch projection request rows = .ok results) :
    ∃ all, List.Forall₂ (fun joined result => projectJoined projection joined = .ok result)
        (rows.filter fun joined => decide (matchesJoinFilter request.filter joined = .ok true)) all ∧
      results = request.slice (if request.orderBy = [] then all
        else all.mergeSort fun left right => left.compareRows right request.orderBy ≠ .gt) := by
  unfold finishSearch at h
  cases hfold : (rows.foldlM (fun results joined => do
      if ← matchesJoinFilter request.filter joined then
        return results ++ [← projectJoined projection joined]
      else return results) []) with
  | error e => rw [hfold] at h; cases h
  | ok all =>
    rw [hfold] at h
    obtain ⟨own, howns, hprojected⟩ := projected_rows hfold
    obtain rfl : all = own := howns.trans (List.nil_append _)
    exact ⟨all, hprojected, (Except.ok.inj h).symm⟩

/-- **Sorted as asked** where the names of the sort columns find what they ask for. -/
theorem finishSearch_ordered (h : finishSearch projection request rows = .ok results)
    (hshape : ∀ joined ∈ rows, joined.shape = shape) (hnodup : (shape.map Prod.fst).Nodup)
    (hkeys : essential (shape.askedKeys request.orderBy) <+:
      essential (shape.foundKeys projection request.orderBy)) :
    OrderedAsAsked projection request rows results := by
  obtain ⟨all, hprojected, rfl⟩ := finishSearch_ok h
  have hfiltered : ∀ joined ∈ rows.filter fun joined =>
      decide (matchesJoinFilter request.filter joined = .ok true), joined.shape = shape :=
    fun joined hj => hshape joined (List.mem_filter.1 hj).1
  rw [OrderedAsAsked]
  generalize (rows.filter fun joined =>
    decide (matchesJoinFilter request.filter joined = .ok true)) = filtered at hprojected hfiltered ⊢
  by_cases hnone : request.orderBy = []
  · rw [if_pos hnone, hnone]
    exact ⟨filtered, all, List.Perm.refl _, List.pairwise_of_forall fun _ _ h => (by cases h),
      hprojected, rfl⟩
  · rw [if_neg hnone]
    obtain ⟨project, rfl, hproject⟩ := results_eq_map hprojected
    have htrans : Std.TransCmp (lexCmp DataBaseDataEntry.cmp
      (shape.foundKeys projection request.orderBy)) := transCmp_lexCmp
    let le : JoinedRow → JoinedRow → Bool := fun left right => decide (lexCmp DataBaseDataEntry.cmp
      (shape.foundKeys projection request.orderBy) left.cellValue right.cellValue ≠ .gt)
    have hle : ∀ a b, le a b = true ↔ (lexCmp DataBaseDataEntry.cmp
        (shape.foundKeys projection request.orderBy) a.cellValue b.cellValue).isLE = true :=
      fun a b => decide_eq_true_iff.trans Ordering.ne_gt_iff_isLE
    have hpairwise : (filtered.mergeSort le).Pairwise fun a b => le a b = true := by
      refine List.pairwise_mergeSort (fun a b c hab hbc => ?_) (fun a b => ?_) filtered
      · rw [hle] at hab hbc ⊢
        exact Std.TransCmp.isLE_trans hab hbc
      · have hswap : lexCmp DataBaseDataEntry.cmp (shape.foundKeys projection request.orderBy)
            a.cellValue b.cellValue = (lexCmp DataBaseDataEntry.cmp
              (shape.foundKeys projection request.orderBy) b.cellValue a.cellValue).swap :=
          Std.OrientedCmp.eq_swap
        rw [Bool.or_eq_true, hle, hle, hswap]
        cases lexCmp DataBaseDataEntry.cmp (shape.foundKeys projection request.orderBy)
          b.cellValue a.cellValue <;> simp
    have hmem : ∀ joined ∈ filtered.mergeSort le, joined ∈ filtered := fun joined =>
      (List.mergeSort_perm filtered le).mem_iff.1
    refine ⟨filtered.mergeSort le, (filtered.mergeSort le).map project,
      List.mergeSort_perm filtered le, ?_, ?_, congrArg _ ?_⟩
    · refine hpairwise.imp_of_mem fun {a b} ha hb hab => ?_
      rw [compareAsked_eq (hfiltered a (hmem a ha)) (hfiltered b (hmem b hb)) hnodup]
      exact refines_of_prefix hkeys _ _ (of_decide_eq_true hab)
    · rw [List.forall₂_map_right_iff]
      exact List.forall₂_same.2 fun joined hj => hproject joined (hmem joined hj)
    · refine (List.map_mergeSort fun a ha b hb => ?_).symm
      rw [compareRows_eq (hproject a ha) (hproject b hb) (hfiltered a ha) (hfiltered b hb)]

/-- Two rows whose results are in order stay as they are. -/
theorem finishSearch_pair {x y : JoinedRow} {left right : SearchResult}
    (hx : projectJoined projection x = .ok left) (hy : projectJoined projection y = .ok right)
    (hfilter : request.filter = none) (hlimit : request.limit = none) (hoffset : request.offset = none)
    (hcompare : left.compareRows right request.orderBy ≠ .gt) :
    finishSearch projection request [x, y] = .ok [left, right] := by
  have hfold : ([x, y].foldlM (fun results joined => do
      if ← matchesJoinFilter request.filter joined then
        return results ++ [← projectJoined projection joined]
      else return results) []) = Except.ok [left, right] := by
    simp [matchesJoinFilter, hfilter, hx, hy, bind, Except.bind, pure, Except.pure]
  have hsort : [left, right].mergeSort (fun left right =>
      decide (left.compareRows right request.orderBy ≠ .gt)) = [left, right] :=
    List.mergeSort_of_pairwise (by simpa using hcompare)
  unfold finishSearch
  rw [hfold]
  show Except.ok (request.slice (if request.orderBy = [] then [left, right] else _)) = _
  rw [hsort, ite_self, SearchRequest.slice, hlimit, hoffset]
  rfl

/-- Two results in the wrong order. -/
theorem not_ordered_pair {x y : JoinedRow} {left right : SearchResult}
    (hx : projectJoined projection x = .ok left) (hy : projectJoined projection y = .ok right)
    (hne : left ≠ right) (hlimit : request.limit = none) (hoffset : request.offset = none)
    (hgt : compareValues x.askedValue y.askedValue request.orderBy = .gt) :
    ¬ OrderedAsAsked projection request [x, y] [left, right] := by
  rintro ⟨sorted, all, hperm, hpairwise, hprojected, hslice⟩
  have hall : all = [left, right] := by
    rw [SearchRequest.slice, hlimit, hoffset] at hslice
    exact hslice.symm
  have hmem : ∀ joined ∈ sorted, joined = x ∨ joined = y := fun joined hj => by
    simpa using (List.mem_filter.1 (hperm.mem_iff.1 hj)).1
  rw [hall] at hprojected
  cases hprojected with
  | @cons first _ _ _ hfirst hrest =>
    cases hrest with
    | @cons second _ _ _ hsecond hnil =>
      cases hnil
      have hfirstRow : first = x := (hmem first (by simp)).resolve_right fun he => by
        rw [he, hy] at hfirst
        exact hne (Except.ok.inj hfirst).symm
      have hsecondRow : second = y := (hmem second (by simp)).resolve_left fun he => by
        rw [he, hx] at hsecond
        exact hne (Except.ok.inj hsecond)
      refine (List.pairwise_cons.1 hpairwise).1 second (by simp) ?_
      rw [hfirstRow, hsecondRow, hgt]

/-! ## Where the names do not find what is asked for -/

namespace Shape

/-- A row of one table that has the value `f cell` in every cell. -/
def binding (rowId : RowID) (f : Cell → DataBaseDataEntry) (table : String × BTreeMap String ColumnID) :
    TableBinding where
  tableAlias := table.1
  tableName := ""
  rowId := rowId
  columnMap := table.2
  data := table.2.toList.foldl (fun data x => data.insert x.2 (f (table.1, x.2))) ∅

/-- The same for all tables. -/
def row (shape : Shape) (rowId : RowID) (f : Cell → DataBaseDataEntry) : JoinedRow :=
  ⟨shape.map (binding rowId f)⟩

/-- The cell belongs to one of the tables. -/
def Has (shape : Shape) (cell : Cell) : Prop :=
  ∃ table ∈ shape, table.1 = cell.1 ∧ ∃ x ∈ table.2.toList, x.2 = cell.2

variable {shape : Shape} {cell : Cell} {f : Cell → DataBaseDataEntry} {rowId : RowID}
  {column : ProjectionColumn} {projection : List ProjectionColumn}

theorem shape_row : (shape.row rowId f).shape = shape := by
  rw [JoinedRow.shape, row, List.map_map]
  exact List.map_id _

theorem cellValue_row (hnodup : (shape.map Prod.fst).Nodup) (h : shape.Has cell) :
    (shape.row rowId f).cellValue cell = f cell := by
  obtain ⟨table, htable, halias, x, hx, hcolumn⟩ := h
  have hdata : ∀ (l : List (String × ColumnID)) (data : RowData),
      (x ∈ l ∨ data[x.2]? = some (f (table.1, x.2))) →
      (l.foldl (fun data y => data.insert y.2 (f (table.1, y.2))) data)[x.2]? =
        some (f (table.1, x.2)) := by
    intro l
    induction l with
    | nil => exact fun data h => h.resolve_left fun h => (by cases h)
    | cons y l ih =>
      intro data h
      refine ih _ ?_
      rw [BTreeMap.get_insert]
      by_cases hy : y.2 = x.2
      · rw [if_pos hy, hy]
        exact Or.inr rfl
      · rw [if_neg hy]
        exact h.imp_left fun h =>
          (List.mem_cons.1 h).resolve_left fun he => hy (congrArg Prod.snd he).symm
  have hmem : binding rowId f table ∈ (shape.row rowId f).tables := List.mem_map_of_mem htable
  have hvalue := JoinedRow.cellValue_of_mem (by rwa [shape_row]) hmem cell.2
  have hcell : cell = (table.1, cell.2) := Prod.ext halias.symm rfl
  rw [hcell]
  refine hvalue.trans ?_
  have hget : (binding rowId f table).data[x.2]? = some (f (table.1, x.2)) :=
    hdata table.2.toList ∅ (Or.inl hx)
  rw [TableBinding.value, ← hcolumn, hget]
  rfl

theorem has_of_cells {name : String} (h : shape.cells[name]? = some cell) : shape.Has cell := by
  -- whatever has been entered is a cell of one of the tables
  have hcolumns : ∀ table ∈ shape, ∀ (l : List (String × ColumnID)), (∀ x ∈ l, x ∈ table.2.toList) →
      ∀ cells : BTreeMap String Cell,
      (∀ (name : String) cell, cells[name]? = some cell → shape.Has cell) →
      ∀ (name : String) cell, (l.foldl (addNames shape.columnOwners table.1 fun c => (table.1, c))
        cells)[name]? = some cell → shape.Has cell := by
    intro table htable l
    induction l with
    | nil => exact fun _ cells hcells => hcells
    | cons x l ih =>
      intro hl cells hcells
      refine ih (fun y hy => hl y (List.mem_cons_of_mem _ hy)) _ fun name cell hget => ?_
      have hhas : shape.Has (table.1, x.2) := ⟨table, htable, rfl, x, hl x (by simp), rfl⟩
      unfold addNames at hget
      dsimp only at hget
      split_ifs at hget with howner
      · rw [BTreeMap.get_insert, BTreeMap.get_insert] at hget
        split_ifs at hget
        · rwa [← Option.some.inj hget]
        · rwa [← Option.some.inj hget]
        · exact hcells name cell hget
      · rw [BTreeMap.get_insert] at hget
        split_ifs at hget
        · rwa [← Option.some.inj hget]
        · exact hcells name cell hget
  have htables : ∀ tables : Shape, (∀ table ∈ tables, table ∈ shape) → ∀ cells : BTreeMap String Cell,
      (∀ (name : String) cell, cells[name]? = some cell → shape.Has cell) →
      ∀ (name : String) cell, (tables.foldl (fun cells table =>
        table.2.toList.foldl (addNames shape.columnOwners table.1 fun c => (table.1, c)) cells)
          cells)[name]? = some cell → shape.Has cell := by
    intro tables
    induction tables with
    | nil => exact fun _ cells hcells => hcells
    | cons table tables ih =>
      intro hmem cells hcells
      exact ih (fun t ht => hmem t (List.mem_cons_of_mem _ ht)) _
        (hcolumns table (hmem table (by simp)) _ (fun _ h => h) cells hcells)
  exact htables shape (fun _ h => h) ∅ (fun name cell h => by simp at h) name cell h

theorem has_of_projectedCell (h : shape.projectedCell column = some cell) : shape.Has cell := by
  obtain ⟨tableAlias, -, h⟩ := Option.bind_eq_some_iff.1 h
  obtain ⟨table, hfind, h⟩ := Option.bind_eq_some_iff.1 h
  obtain ⟨columnId, hcolumn, rfl⟩ := Option.map_eq_some_iff.1 h
  have halias : table.1 = tableAlias := by simpa using List.find?_some hfind
  exact ⟨table, List.mem_of_find?_eq_some hfind, halias, _, BTreeMap.mem_toList.2 hcolumn, rfl⟩

theorem has_of_askedKeys {orderBy : List SortBy} {x : Cell × Bool} (h : x ∈ shape.askedKeys orderBy) :
    shape.Has x.1 := by
  obtain ⟨sortBy, -, h⟩ := List.mem_filterMap.1 h
  obtain ⟨cell, hcell, rfl⟩ := Option.map_eq_some_iff.1 h
  exact has_of_cells hcell

theorem has_of_foundKeys {orderBy : List SortBy} {x : Cell × Bool}
    (h : x ∈ shape.foundKeys projection orderBy) : shape.Has x.1 := by
  obtain ⟨sortBy, -, h⟩ := List.mem_filterMap.1 h
  obtain ⟨cell, hcell, rfl⟩ := Option.map_eq_some_iff.1 h
  obtain ⟨column, -, hcell⟩ := Option.bind_eq_some_iff.1 hcell
  exact has_of_projectedCell hcell

/-- A row of the tables can be projected if every projected column has a cell. -/
theorem projectJoined_row (hne : shape ≠ [])
    (h : ∀ column ∈ projection, ∃ cell, shape.projectedCell column = some cell) :
    ∃ result, projectJoined projection (shape.row rowId f) = .ok result ∧ result.rowId = rowId := by
  have hvalues : ∀ values, ∃ values', (projection.foldlM (fun values column => do
      return values.insert column.outputName
        (← (shape.row rowId f).resolveProjectionValue column)) values :
          Except DataBaseErrors (BTreeMap String DataBaseDataEntry)) = .ok values' := by
    induction projection with
    | nil => exact fun values => ⟨values, rfl⟩
    | cons column projection ih =>
      intro values
      obtain ⟨cell, hcell⟩ := h column (by simp)
      rw [List.foldlM_cons, JoinedRow.resolveProjectionValue_cell (by rw [shape_row]; exact hcell)]
      exact ih (fun c hc => h c (List.mem_cons_of_mem _ hc)) _
  obtain ⟨values, hvalues⟩ := hvalues ∅
  refine ⟨⟨rowId, values⟩, ?_, rfl⟩
  have hid : ((shape.row rowId f).tables.head?.map (·.rowId)).getD 0 = rowId := by
    cases shape with
    | nil => exact absurd rfl hne
    | cons table shape => rfl
  unfold projectJoined
  rw [show (shape.row rowId f).projectionValues projection = .ok values from hvalues, hid]
  rfl

/-- The names of the sort columns find what they ask for, or the projection cannot be resolved. -/
def KeysFound (shape : Shape) (projection : List ProjectionColumn) (orderBy : List SortBy) : Prop :=
  (∀ column ∈ projection, ∃ cell, shape.projectedCell column = some cell) →
    essential (shape.askedKeys orderBy) <+: essential (shape.foundKeys projection orderBy)

end Shape

/-- **The results are ordered as asked** for all rows of the tables exactly if the names of the sort
    columns find what they ask for. -/
theorem finishSearch_ordered_iff (hne : shape ≠ []) (hnodup : (shape.map Prod.fst).Nodup)
    (orderBy : List SortBy) :
    (∀ rows request results, request.orderBy = orderBy → (∀ joined ∈ rows, joined.shape = shape) →
      finishSearch projection request rows = .ok results →
        OrderedAsAsked projection request rows results) ↔
    shape.KeysFound projection orderBy := by
  constructor
  · intro hordered hresolved
    by_contra hkeys
    have hnot : ¬ Refines DataBaseDataEntry.cmp (shape.foundKeys projection orderBy)
        (shape.askedKeys orderBy) := fun h =>
      hkeys (prefix_of_refines (a := .null) (b := .boolean true) (by decide) (by decide)
        (fun a => Std.ReflCmp.compare_self) h)
    unfold Refines at hnot
    push Not at hnot
    obtain ⟨f, g, hfound, hasked⟩ := hnot
    -- two rows that the results have in this order, although it is wrong
    obtain ⟨left, hleft, hleftId⟩ := @Shape.projectJoined_row shape f 1 projection hne hresolved
    obtain ⟨right, hright, hrightId⟩ := @Shape.projectJoined_row shape g 2 projection hne hresolved
    have hcompare : left.compareRows right orderBy ≠ .gt := by
      rw [compareRows_eq hleft hright Shape.shape_row Shape.shape_row,
        lexCmp_congr (fun x hx => Shape.cellValue_row hnodup (Shape.has_of_foundKeys hx))
          fun x hx => Shape.cellValue_row hnodup (Shape.has_of_foundKeys hx)]
      exact hfound
    let request : SearchRequest := ⟨none, none, none, orderBy, none, none⟩
    have hfinish : finishSearch projection request [shape.row 1 f, shape.row 2 g] =
        .ok [left, right] := finishSearch_pair hleft hright rfl rfl rfl hcompare
    have hne : left ≠ right := fun he => by
      rw [he, hrightId] at hleftId
      cases hleftId
    refine not_ordered_pair hleft hright hne rfl rfl ?_
      (hordered _ request _ rfl (fun joined hj => ?_) hfinish)
    · rw [compareAsked_eq Shape.shape_row Shape.shape_row hnodup,
        lexCmp_congr (fun x hx => Shape.cellValue_row hnodup (Shape.has_of_askedKeys hx))
          fun x hx => Shape.cellValue_row hnodup (Shape.has_of_askedKeys hx)]
      exact hasked
    · rcases List.mem_cons.1 hj with rfl | hj
      · exact Shape.shape_row
      · rw [List.mem_singleton.1 hj]; exact Shape.shape_row
  · intro hkeys rows request results horder hshape hfinish
    subst horder
    by_cases hresolved : ∀ column ∈ projection, ∃ cell, shape.projectedCell column = some cell
    · exact finishSearch_ordered hfinish hshape hnodup (hkeys hresolved)
    · obtain ⟨all, hprojected, rfl⟩ := finishSearch_ok hfinish
      have hnone : rows.filter (fun joined =>
          decide (matchesJoinFilter request.filter joined = .ok true)) = [] := by
        refine List.eq_nil_iff_forall_not_mem.2 fun joined hj => hresolved fun column hcolumn => ?_
        obtain ⟨project, -, hproject⟩ := results_eq_map hprojected
        have hjoined := hproject joined hj
        unfold projectJoined at hjoined
        cases hvalues : joined.projectionValues projection with
        | error e => rw [hvalues] at hjoined; cases hjoined
        | ok values =>
          rw [← hshape joined (List.mem_filter.1 hj).1]
          exact JoinedRow.projected_of_values hvalues column hcolumn
      rw [hnone] at hprojected
      cases hprojected
      refine ⟨[], [], by rw [hnone], List.Pairwise.nil, List.Forall₂.nil, congrArg _ ?_⟩
      split_ifs <;> simp

end AntDb
