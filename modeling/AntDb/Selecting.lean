/-
  The order of the results of a select that joins tables.

  The joined rows of a select have the columns its schema was loaded with, as the schema is read
  before the rows are.
-/
import AntDb.Sorting

namespace AntDb

open Call

/-! ## The rows of a select -/

/-- The tables of a select. -/
def JoinSchema.shape (schema : JoinSchema) : Shape :=
  (schema.base :: schema.joinTables).map fun s => (s.source.aliasOrName, s.columnMap)

/-- All rows are rows of the tables. -/
def Shape.Rows (shape : Shape) (rows : List JoinedRow) : Prop := ∀ joined ∈ rows, joined.shape = shape

theorem Shape.rows_append {shape : Shape} {rows rows' : List JoinedRow} (h : shape.Rows rows)
    (h' : shape.Rows rows') : shape.Rows (rows ++ rows') := fun joined hj =>
  (List.mem_append.1 hj).elim (h joined) (h' joined)

theorem Shape.rows_singleton {shape : Shape} {joined : JoinedRow} (h : joined.shape = shape) :
    shape.Rows [joined] :=
  fun j hj => by rw [List.mem_singleton.1 hj, h]

namespace Table

open TableM

variable {txn : Transaction} {join : JoinSpec} {rightSchema : JoinTableSchema} {left : JoinedRow}
  {found found' current : List JoinedRow} {shape : Shape}

theorem returns_forEachVisibleRow {σ : Type} {f : σ → RowID → RowData → Except DataBaseErrors σ}
    {init : σ} {P : σ → Prop}
    (hf : ∀ acc, P acc → ∀ rowId data acc', f acc rowId data = .ok acc' → P acc') (h : P init) :
    Returns (forEachVisibleRow txn f init) P := by
  refine Returns.bind Returns.any fun t _ => Returns.foldlM (fun acc hacc pageId _ => ?_) h
  refine Returns.bind Returns.any fun page _ => Returns.bind Returns.any fun _ _ => ?_
  refine Returns.foldlM (fun acc hacc x _ => ?_) hacc
  cases x.2.getVersionedRow txn with
  | none => exact Returns.pure hacc
  | some version =>
    refine Returns.ofExcept fun acc' hacc' => ?_
    dsimp only at hacc'
    cases hrun : f acc x.1 version.data with
    | error e => rw [hrun] at hacc'; cases hacc'
    | ok b =>
      rw [hrun] at hacc'
      rw [← Except.ok.inj hacc']
      exact hf acc hacc _ _ _ hrun

/-- A row joined with a row of the right table. -/
theorem shape_append (left : JoinedRow) (rowId : RowID) (data : RowData) :
    (left.append (join.binding rightSchema rowId data)).shape =
      left.shape ++ [(join.table.aliasOrName, rightSchema.columnMap)] := by
  rw [JoinedRow.shape, JoinedRow.append, List.map_append]
  rfl

theorem rows_pushMatching {rowId : RowID} {data : RowData}
    (hfound : Shape.Rows (left.shape ++ [(join.table.aliasOrName, rightSchema.columnMap)]) found)
    (h : join.pushMatching rightSchema left found rowId data = .ok found') :
    Shape.Rows (left.shape ++ [(join.table.aliasOrName, rightSchema.columnMap)]) found' := by
  unfold JoinSpec.pushMatching at h
  dsimp only at h
  cases hm : (left.append (join.binding rightSchema rowId data)).joinMatches join with
  | error e => rw [hm] at h; cases h
  | ok matched =>
    rw [hm] at h
    rw [← Except.ok.inj h]
    cases matched with
    | false => exact hfound
    | true => exact Shape.rows_append hfound (Shape.rows_singleton (shape_append _ _ _))

theorem returns_matchingRows : Returns (matchingRows join rightSchema txn left)
    (Shape.Rows (left.shape ++ [(join.table.aliasOrName, rightSchema.columnMap)])) := by
  have hnone : Shape.Rows (left.shape ++ [(join.table.aliasOrName, rightSchema.columnMap)]) [] :=
    fun _ h => by cases h
  unfold matchingRows
  cases join.on.bind (·.joinEqualityLookup left.rowContext join.table.aliasOrName) with
  | none => exact returns_forEachVisibleRow (fun _ h _ _ _ => rows_pushMatching h) hnone
  | some probe =>
    obtain ⟨columnName, value⟩ := probe
    dsimp only
    cases rightSchema.columnMap[normalizeIdentifier columnName]? with
    | none => exact Returns.fail
    | some columnId =>
      refine Returns.bind Returns.any fun candidates _ => Returns.foldlM (fun found hfound r _ => ?_) hnone
      refine Returns.bind Returns.any fun data _ => ?_
      cases data with
      | none => exact Returns.pure hfound
      | some data =>
        refine Returns.ofExcept fun found' h => ?_
        cases hrun : join.pushMatching rightSchema left found r data with
        | error e => rw [hrun] at h; cases h
        | ok b =>
          rw [hrun] at h
          rw [← Except.ok.inj h]
          exact rows_pushMatching hfound hrun

theorem returns_applyJoin (h : shape.Rows current) : Returns (applyJoin current join rightSchema txn)
    (Shape.Rows (shape ++ [(join.table.aliasOrName, rightSchema.columnMap)])) := by
  have hnone : Shape.Rows (shape ++ [(join.table.aliasOrName, rightSchema.columnMap)]) [] :=
    fun _ h => by cases h
  unfold applyJoin
  split
  · refine Returns.foldlM (fun next hnext left hleft => ?_) hnone
    refine returns_forEachVisibleRow (fun found hfound rowId data found' hrun => ?_) hnext
    rw [← Except.ok.inj hrun]
    refine Shape.rows_append hfound (Shape.rows_singleton ?_)
    rw [shape_append, h left hleft]
  · refine Returns.foldlM (fun next hnext left hleft => ?_) hnone
    refine Returns.bind returns_matchingRows fun found hfound => Returns.pure ?_
    rw [h left hleft] at hfound
    refine Shape.rows_append hnext ?_
    unfold JoinSpec.orUnmatched
    split
    · refine Shape.rows_singleton ?_
      rw [shape_append, h left hleft]
    · exact hfound

/-- The rows of the base table have its columns. -/
theorem rows_initialRows {source : TableSource} {t : Table} {rows : List JoinedRow} {t' : Table}
    (h : initialRows source txn none t = (.ok rows, t')) :
    Shape.Rows [(source.aliasOrName, visibleColumns t.columns txn)] rows := by
  unfold initialRows at h
  rw [get_bind] at h
  refine returns_forEachVisibleRow (fun found hfound rowId data found' hrun => ?_)
    (fun _ h => by cases h) _ _ _ _ h
  rw [← Except.ok.inj hrun]
  exact Shape.rows_append hfound (Shape.rows_singleton rfl)

end Table

namespace Database

variable {db db' : Database} {source : TableSource} {id : TransactionID} {schema : JoinTableSchema}
  {joinSchema : JoinSchema} {fromClause : FromClause} {plan : PhysicalSelectPlan}
  {projection : List ProjectionColumn} {rows : List JoinedRow} {results : List SearchResult}

/-- Loading a schema reads the visible columns of the table. -/
theorem loadTableSchema_ok (h : loadTableSchema source id () db = (.ok schema, db')) :
    db' = db ∧ schema.source = source ∧ ∃ name t, db.getTable source.tableName = some name ∧
      db.tables[name]? = some t ∧ schema.columnMap = Table.visibleColumns t.columns (db.txn id) := by
  unfold loadTableSchema at h
  cases hname : db.getTable source.tableName with
  | none =>
    rw [bind_error (by rw [requireTable_run, hname])] at h
    cases h
  | some name =>
    rw [bind_ok (by rw [requireTable_run, hname])] at h
    cases ht : db.tables[name]? with
    | none =>
      have hinTable : ∀ x : Transaction → TableM (BTreeMap String ColumnID),
          asTransaction name id x () db = (.error (.err (.tableNotFound name)), db) := fun x => by
        show inTable name (x (db.txn id)) () db = _
        rw [inTable, ht]
      rw [bind_error (hinTable _)] at h
      cases h
    | some t =>
      have hself : ({ db with tables := db.tables.insert name t } : Database) = db := by
        rw [BTreeMap.insert_get ht]
      rw [bind_ok (asTransaction_run ht)] at h
      obtain ⟨hschema, rfl⟩ := Prod.mk.inj h
      obtain rfl := Except.ok.inj hschema
      exact ⟨hself, rfl, name, t, rfl, ht, rfl⟩

/-- Schemas are loaded for the joined tables one after another, under different aliases. -/
theorem joinTables_ok {f : List JoinTableSchema × List String → JoinSpec →
      DbM (List JoinTableSchema × List String)}
    (hf : ∀ found join, f found join = do
      let schema ← loadTableSchema join.table id
      if schema.source.aliasOrName ∈ found.2 then
        throw (.queryError s!"Duplicate table alias '{schema.source.aliasOrName}' in JOIN")
      return (found.1 ++ [schema], found.2 ++ [schema.source.aliasOrName]))
    {joins : List JoinSpec} {found all : List JoinTableSchema × List String}
    (h : joins.foldlM f found () db = (.ok all, db')) :
    db' = db ∧ ∃ own, all = (found.1 ++ own, found.2 ++ own.map (·.source.aliasOrName)) ∧
      List.Forall₂ (fun join s => s.source = join.table) joins own ∧
      (found.2.Nodup → all.2.Nodup) := by
  induction joins generalizing found with
  | nil =>
    obtain ⟨hall, hdb⟩ := Prod.mk.inj h
    obtain rfl := Except.ok.inj hall
    exact ⟨hdb.symm, [], by simp, List.Forall₂.nil, fun h => h⟩
  | cons join joins ih =>
    rw [List.foldlM_cons, hf] at h
    cases hload : loadTableSchema join.table id () db with
    | mk loaded db₁ =>
      cases loaded with
      | error e =>
        rw [bind_error (bind_error hload)] at h
        cases h
      | ok schema =>
        obtain ⟨rfl, hsource, -⟩ := loadTableSchema_ok hload
        by_cases halias : schema.source.aliasOrName ∈ found.2
        · rw [bind_error ((bind_ok hload).trans (by rw [if_pos halias]; rfl))] at h
          cases h
        · rw [bind_ok ((bind_ok hload).trans (by rw [if_neg halias]; rfl))] at h
          obtain ⟨hdb, own, hall, hown, hnodup⟩ := ih h
          refine ⟨hdb, schema :: own, by rw [hall]; simp, List.Forall₂.cons hsource hown, fun h => ?_⟩
          refine hnodup (List.nodup_append.2 ⟨h, by simp, ?_⟩)
          intro a ha b hb
          rw [List.mem_singleton.1 hb]
          exact fun hab => halias (hab ▸ ha)

/-- The schema of a join: its tables have different aliases. -/
theorem resolveJoinSchema_ok (h : resolveJoinSchema fromClause id () db = (.ok joinSchema, db')) :
    db' = db ∧ loadTableSchema fromClause.base id () db = (.ok joinSchema.base, db) ∧
      List.Forall₂ (fun join s => s.source = join.table) fromClause.joins joinSchema.joinTables ∧
      (joinSchema.shape.map Prod.fst).Nodup := by
  unfold resolveJoinSchema at h
  cases hload : loadTableSchema fromClause.base id () db with
  | mk loaded db₁ =>
    cases loaded with
    | error e => rw [bind_error hload] at h; cases h
    | ok base =>
      obtain ⟨rfl, -⟩ := loadTableSchema_ok hload
      rw [bind_ok hload, bind_run] at h
      generalize hjoins : (List.foldlM _ _ fromClause.joins : DbM _) () db₁ = joined at h
      obtain ⟨joinTables, db₂⟩ := joined
      cases joinTables with
      | error e => cases h
      | ok all =>
        obtain ⟨hdb, own, rfl, hown, hnodup⟩ := joinTables_ok (fun _ _ => rfl) hjoins
        obtain ⟨hschema, hdb'⟩ := Prod.mk.inj h
        obtain rfl := Except.ok.inj hschema
        refine ⟨hdb' ▸ hdb, rfl, by simpa using hown, ?_⟩
        have hnodup := hnodup (by simp)
        simpa [JoinSchema.shape, Function.comp_def] using hnodup

theorem asTransaction_ok {α : Type} {name : String} {x : Transaction → TableM α} {a : α}
    (h : asTransaction name id x () db = (.ok a, db')) : ∃ t, db.tables[name]? = some t ∧
      ∃ t', x (db.txn id) none t = (.ok a, t') := by
  cases ht : db.tables[name]? with
  | none =>
    have h : inTable name (x (db.txn id)) () db = (.ok a, db') := h
    rw [inTable, ht] at h
    cases h
  | some t =>
    rw [asTransaction_run ht] at h
    exact ⟨t, rfl, _, Prod.ext (Prod.mk.inj h).1 rfl⟩

theorem returns_applyJoin {shape : Shape} {current : List JoinedRow} {join : JoinSpec}
    {rightSchema : JoinTableSchema} (h : shape.Rows current) :
    Returns (applyJoin current join rightSchema id)
      (Shape.Rows (shape ++ [(join.table.aliasOrName, rightSchema.columnMap)])) := by
  refine Returns.bind Returns.any fun name _ env db rows db' hrun => ?_
  obtain ⟨t, -, t', hrun⟩ := asTransaction_ok hrun
  exact Table.returns_applyJoin h _ _ _ _ hrun

/-- The joined rows of a select are rows of its tables. -/
theorem joinedRows_ok (h : joinedRows plan id () db = (.ok (projection, rows), db')) :
    ∃ joinSchema, resolveJoinSchema plan.fromClause id () db = (.ok joinSchema, db) ∧
      resolveProjection plan.fromClause joinSchema plan.request.projection = .ok projection ∧
      joinSchema.shape.Rows rows := by
  unfold joinedRows at h
  cases hschema : resolveJoinSchema plan.fromClause id () db with
  | mk resolved db₁ =>
    cases resolved with
    | error e => rw [bind_error hschema] at h; cases h
    | ok joinSchema =>
      obtain ⟨rfl, hbase, hjoins, -⟩ := resolveJoinSchema_ok hschema
      obtain ⟨-, hsource, name, t, hname, ht, hcolumns⟩ := loadTableSchema_ok hbase
      rw [bind_ok hschema] at h
      cases hprojection : resolveProjection plan.fromClause joinSchema plan.request.projection with
      | error e =>
        rw [hprojection,
          bind_error (show ofResult (.error e) () db₁ = (.error (.err e), db₁) from rfl)] at h
        cases h
      | ok columns =>
        rw [hprojection, bind_ok (show ofResult (.ok columns) () db₁ = (.ok columns, db₁) from rfl),
          bind_run] at h
        generalize hinitial : initialRows plan.fromClause.base id () db₁ = initial at h
        obtain ⟨e | initial, db₂⟩ := initial
        · cases h
        have hrows : Shape.Rows [(joinSchema.base.source.aliasOrName, joinSchema.base.columnMap)]
            initial := by
          unfold initialRows at hinitial
          rw [bind_ok (by rw [requireTable_run, hname])] at hinitial
          obtain ⟨t', ht', t'', hrun⟩ := asTransaction_ok hinitial
          obtain rfl := Option.some.inj (ht.symm.trans ht')
          rw [hsource, hcolumns]
          exact Table.rows_initialRows hrun
        dsimp only at h
        rw [bind_run] at h
        generalize hjoined : (List.foldlM _ initial _ : DbM _) () db₂ = joined at h
        obtain ⟨e | current, db₃⟩ := joined
        · cases h
        obtain ⟨heq, -⟩ := Prod.mk.inj h
        obtain ⟨rfl, rfl⟩ := Prod.mk.inj (Except.ok.inj heq)
        refine ⟨joinSchema, rfl, hprojection, ?_⟩
        clear h heq hinitial
        -- the shape of the rows grows with the joins
        suffices hgrow : ∀ {joins : List JoinSpec} {schemas : List JoinTableSchema},
            List.Forall₂ (fun join s => s.source = join.table) joins schemas →
            ∀ (shape : Shape) initial, shape.Rows initial →
              Returns ((joins.zip schemas).foldlM (fun current x => applyJoin current x.1 x.2 id) initial)
                (Shape.Rows (shape ++ schemas.map fun s => (s.source.aliasOrName, s.columnMap))) by
          exact hgrow hjoins _ _ hrows _ _ _ _ hjoined
        intro joins schemas hjoins
        induction hjoins with
        | nil => exact fun shape initial h => Returns.pure (by simpa using h)
        | cons hsource _ ih =>
          intro shape initial h
          rw [List.zip_cons_cons, List.foldlM_cons]
          refine Returns.bind (returns_applyJoin h) fun current hcurrent => ?_
          rw [← hsource] at hcurrent
          simpa using ih _ _ hcurrent

theorem executeJoinSearch_ok (h : executeJoinSearch plan id () db = (.ok results, db')) :
    ∃ projection rows, joinedRows plan id () db = (.ok (projection, rows), db') ∧
      finishSearch projection plan.request rows = .ok results := by
  unfold executeJoinSearch at h
  cases hjoined : joinedRows plan id () db with
  | mk joined db₁ =>
    cases joined with
    | error e => rw [bind_error hjoined] at h; cases h
    | ok joined =>
      obtain ⟨projection, rows⟩ := joined
      rw [bind_ok hjoined] at h
      cases hfinish : finishSearch projection plan.request rows with
      | error e =>
        have h : ofResult (finishSearch projection plan.request rows) () db₁ = (.ok results, db') := h
        rw [hfinish] at h
        cases h
      | ok all =>
        have h : ofResult (finishSearch projection plan.request rows) () db₁ = (.ok results, db') := h
        rw [hfinish] at h
        obtain ⟨hresults, rfl⟩ := Prod.mk.inj h
        exact ⟨projection, rows, rfl, hfinish.trans (congrArg _ (Except.ok.inj hresults))⟩

theorem executeJoinSearch_run (h : (joinedRows plan id () db).1 = .ok (projection, rows)) :
    (executeJoinSearch plan id () db).1 = (finishSearch projection plan.request rows).mapError .err := by
  unfold executeJoinSearch
  rw [bind_ok (Prod.ext h rfl)]
  rfl

/-- **Joined results are ordered as asked** where the names of the sort columns find what they ask
    for, and for all rows of the tables only there. -/
theorem executeJoinSearch_ordered
    (hschema : (resolveJoinSchema plan.fromClause id () db).1 = .ok joinSchema)
    (hprojection : resolveProjection plan.fromClause joinSchema plan.request.projection =
      .ok projection) :
    (joinSchema.shape.KeysFound projection plan.request.orderBy →
      ∀ results, (executeJoinSearch plan id () db).1 = .ok results →
        ∃ rows, (joinedRows plan id () db).1 = .ok (projection, rows) ∧
          OrderedAsAsked projection plan.request rows results) ∧
    ((∀ rows request results, request.orderBy = plan.request.orderBy → joinSchema.shape.Rows rows →
        finishSearch projection request rows = .ok results →
          OrderedAsAsked projection request rows results) ↔
      joinSchema.shape.KeysFound projection plan.request.orderBy) := by
  obtain ⟨-, -, -, hnodup⟩ := resolveJoinSchema_ok (Prod.ext hschema rfl)
  have hiff := @finishSearch_ordered_iff projection joinSchema.shape (List.cons_ne_nil _ _) hnodup
    plan.request.orderBy
  refine ⟨fun hkeys results hresults => ?_, hiff⟩
  obtain ⟨projection', rows, hjoined, hfinish⟩ := executeJoinSearch_ok (Prod.ext hresults rfl)
  obtain ⟨joinSchema', hschema', hprojection', hrows⟩ := joinedRows_ok hjoined
  obtain rfl := Except.ok.inj (hschema.symm.trans (congrArg Prod.fst hschema'))
  obtain rfl := Except.ok.inj (hprojection.symm.trans hprojection')
  exact ⟨rows, by rw [hjoined], hiff.2 hkeys rows plan.request results rfl hrows hfinish⟩

/-- Tables `l`, with a row for either value, and `r`, with a row. -/
def eitherFlag : Database := ((do
    let id ← createTransaction
    let _ ← createTable "l"
    let _ ← createTable "r"
    let _ ← asTransaction "l" id (Table.createColumn "a" .boolean ∅)
    let _ ← asTransaction "r" id (Table.createColumn "b" .boolean ∅)
    let _ ← asTransaction "l" id (Table.insertRow (.ofList [(0, .boolean true)] compare) · fun _ => none)
    let _ ← asTransaction "l" id (Table.insertRow (.ofList [(0, .boolean false)] compare) · fun _ => none)
    let _ ← asTransaction "r" id (Table.insertRow (.ofList [(0, .boolean true)] compare) · fun _ => none) :
      DbM Unit) () (.new ⟨4096, 0⟩)).2

/-- `SELECT r.b FROM l CROSS JOIN r ORDER BY l.a`, with `l.a` projected as well or not. -/
def orderedByFlag (projectFlag : Bool) : PhysicalSelectPlan where
  fromClause := ⟨⟨"l", none⟩, [⟨⟨"r", none⟩, .cross, none, none⟩]⟩
  request := {
    projection := some ((if projectFlag then [⟨"l.a", some "l", "a"⟩] else []) ++
      [⟨"r.b", some "r", "b"⟩])
    aggregate := none
    filter := none
    orderBy := [⟨some "l", "a", .asc⟩]
    limit := none
    offset := none }
  accessPaths := ∅

theorem executeJoinSearch_ordered_eitherFlag :
    ∃ (joinSchema : JoinSchema) (projection : List ProjectionColumn),
    (∀ results, (executeJoinSearch (orderedByFlag true) 1 () eitherFlag).1 = .ok results →
      ∃ rows, (joinedRows (orderedByFlag true) 1 () eitherFlag).1 = .ok (projection, rows) ∧
        OrderedAsAsked projection (orderedByFlag true).request rows results) ∧
    ((∀ rows request results, request.orderBy = (orderedByFlag true).request.orderBy →
        joinSchema.shape.Rows rows → finishSearch projection request rows = .ok results →
          OrderedAsAsked projection request rows results) ↔
      joinSchema.shape.KeysFound projection (orderedByFlag true).request.orderBy) := by
  let joinSchema : JoinSchema := ⟨⟨⟨"l", none⟩, .ofList [("a", 0)] compare, ["a"]⟩,
    [⟨⟨"r", none⟩, .ofList [("b", 0)] compare, ["b"]⟩]⟩
  have hordered := @executeJoinSearch_ordered eitherFlag 1 joinSchema (orderedByFlag true)
    [⟨"l.a", some "l", "a"⟩, ⟨"r.b", some "r", "b"⟩] (by decide +kernel) rfl
  exact ⟨joinSchema, _, hordered.1 fun _ => by decide +kernel, hordered.2⟩

/-- Without `l.a` among the results there is nothing to sort by: the row with the greater value
    stays first. -/
theorem executeJoinSearch_unordered : ∃ projection rows results,
    (joinedRows (orderedByFlag false) 1 () eitherFlag).1 = .ok (projection, rows) ∧
      (executeJoinSearch (orderedByFlag false) 1 () eitherFlag).1 = .ok results ∧
      ¬ OrderedAsAsked projection (orderedByFlag false).request rows results := by
  let row (rowId : RowID) (flag : Bool) : JoinedRow :=
    ⟨[⟨"l", "l", rowId, .ofList [("a", 0)] compare, .ofList [(0, .boolean flag)] compare⟩,
      ⟨"r", "r", 1, .ofList [("b", 0)] compare, .ofList [(0, .boolean true)] compare⟩]⟩
  let result (rowId : RowID) : SearchResult := ⟨rowId, .ofList [("r.b", .boolean true)] compare⟩
  have hjoined : (joinedRows (orderedByFlag false) 1 () eitherFlag).1 =
      .ok ([⟨"r.b", some "r", "b"⟩], [row 1 true, row 2 false]) := by decide +kernel
  have hfirst : projectJoined [⟨"r.b", some "r", "b"⟩] (row 1 true) = .ok (result 1) := by
    decide +kernel
  have hsecond : projectJoined [⟨"r.b", some "r", "b"⟩] (row 2 false) = .ok (result 2) := by
    decide +kernel
  refine ⟨_, _, [result 1, result 2], hjoined, ?_, ?_⟩
  · rw [executeJoinSearch_run hjoined,
      finishSearch_pair hfirst hsecond rfl rfl rfl (by decide +kernel)]
    rfl
  · exact not_ordered_pair hfirst hsecond (by decide +kernel) rfl rfl (by decide +kernel)

end Database

end AntDb
