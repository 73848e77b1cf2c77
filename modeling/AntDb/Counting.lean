/-
  `SELECT COUNT(*)` from the optimizer on.

  A search of one table counts the rows it would return.  The executor of joins does not look at
  the aggregate and returns the rows themselves.
-/
import AntDb.Selecting

namespace AntDb

open Call

/-! ## The optimizer -/

def Table.columnIsIndexed (columnName : String) (txn : Transaction) (t : Table) :
    Except DataBaseErrors Bool :=
  match (visibleColumns t.columns txn)[normalizeIdentifier columnName]? with
  | none => .error (.queryError s!"Column '{columnName}' not found")
  | some columnId =>
    match t.columns[columnId]? with
    | none => .error (.queryError s!"Column '{columnName}' not found")
    | some column => .ok (column.isIndexed txn)

namespace Database

def chooseFilterAccessPath (tableName : String) (filter : Option SearchExpression)
    (id : TransactionID) : DbM AccessPath := do
  match filter.bind (·.equalityLookup) with
  | none => return .seqScan
  | some (columnName, value) =>
    let name ← requireTable tableName
    let indexed ← asTransaction name id fun txn => TableM.read (·.columnIsIndexed columnName txn)
    return if indexed then .indexEquality columnName value else .seqScan

def optimizeSelect (fromClause : FromClause) (request : SearchRequest) (id : TransactionID) :
    DbM PhysicalSelectPlan := do
  let baseName := fromClause.base.tableName
  let basePath ← chooseFilterAccessPath baseName request.filter id
  let accessPaths : BTreeMap String AccessPath := (∅ : BTreeMap String AccessPath).insert baseName basePath
  return {
    fromClause := fromClause
    request := request
    accessPaths := fromClause.joins.foldl (fun paths join =>
      paths.alter join.table.tableName fun path => some (path.getD .seqScan)) accessPaths }

def executeSearch (fromClause : FromClause) (request : SearchRequest) (id : TransactionID) :
    DbM (List SearchResult) := do
  executePhysicalSelect (← optimizeSelect fromClause request id) id

end Database

namespace SearchRequest

/-- The request for the number of rows. -/
def countOf (request : SearchRequest) (outputName : String) : SearchRequest :=
  { request with aggregate := some (.countStar outputName) }

/-- The request for the rows. -/
def rowsOf (request : SearchRequest) : SearchRequest := { request with aggregate := none }

end SearchRequest

/-- The aliases of the tables of a select. -/
def FromClause.aliases (fromClause : FromClause) : List String :=
  fromClause.base.aliasOrName :: fromClause.joins.map (·.table.aliasOrName)

/-- The tables of a select. -/
def FromClause.sources (fromClause : FromClause) : List TableSource :=
  fromClause.base :: fromClause.joins.map (·.table)

/-! ## Counting the rows of a table -/

namespace Table

open TableM

variable {t t' : Table} {txn : Transaction} {request : SearchRequest} {held : Option PageID}
  {filter : Option SearchExpression} {columnName outputName : String} {value : DataBaseDataEntry}
  {rows : List SearchResult} {path : AccessPath}

/-- The visible columns go by lower-case names. -/
theorem normalize_of_visible {columns : BTreeMap ColumnID Column}
    (h : columnName ∈ visibleColumns columns txn) : normalizeIdentifier columnName = columnName := by
  suffices hall : ∀ name ∈ visibleColumns columns txn, normalizeIdentifier name = name from hall _ h
  unfold visibleColumns
  refine List.foldlRecOn (motive := fun visible : BTreeMap String ColumnID =>
    ∀ name ∈ visible, normalizeIdentifier name = name) _ _ (fun name h => by simp at h) ?_
  intro visible hvisible x _ name hname
  cases hversion : x.2.getVersionedColumn txn with
  | none => rw [hversion] at hname; exact hvisible name hname
  | some version =>
    rw [hversion, Std.ExtTreeMap.mem_insert] at hname
    rcases hname with hname | hname
    · rw [← Std.LawfulEqCmp.eq_of_compare hname]; exact normalizeIdentifier_normalize _
    · exact hvisible name hname

/-- Looking up a column without an index gives no candidates. -/
theorem indexLookupCandidates_unindexed (h : t.columnIsIndexed columnName txn = .ok false) :
    indexLookupCandidates columnName value txn (visibleColumns t.columns txn) held t =
      (.ok none, t) := by
  unfold indexLookupCandidates
  cases hvisible : (visibleColumns t.columns txn)[columnName]? with
  | none => rfl
  | some columnId =>
    unfold columnIsIndexed at h
    rw [normalize_of_visible (BTreeMap.mem_of_get hvisible), hvisible] at h
    dsimp only at h ⊢
    rw [get_bind]
    cases hcolumn : t.columns[columnId]? with
    | none => rw [hcolumn] at h; cases h
    | some column =>
      rw [hcolumn] at h
      have hindexed : column.isIndexed txn = false := Except.ok.inj h
      have hlookup : column.indexLookup value txn = none := by
        unfold Column.isIndexed at hindexed
        unfold Column.indexLookup
        cases hversion : column.getVersionedColumn txn with
        | none => rfl
        | some version =>
          rw [hversion] at hindexed
          have hindex : version.index = none := by
            simpa [InternalColumn.isIndexed] using hindexed
          rw [Option.bind_some, InternalColumn.indexLookup, hindex]
          rfl
      dsimp only
      rw [hlookup]
      rfl

/-- The access path for a filter, as the columns of the table are. -/
def pathFor (filter : Option SearchExpression) (txn : Transaction) (t : Table) :
    Except DataBaseErrors AccessPath :=
  match filter.bind (·.equalityLookup) with
  | none => .ok .seqScan
  | some (columnName, value) => (t.columnIsIndexed columnName txn).map fun indexed =>
    if indexed then .indexEquality columnName value else .seqScan

/-- A search by the access path that was chosen looks at the candidates of a count. -/
theorem candidates_pathFor (hpath : t.pathFor request.filter txn = .ok path) :
    candidateRowIds request txn (some path) (visibleColumns t.columns txn) held t =
      equalityCandidates request.filter txn (visibleColumns t.columns txn) held t := by
  unfold pathFor at hpath
  unfold equalityCandidates
  cases hlookup : request.filter.bind (·.equalityLookup) with
  | none =>
    rw [hlookup] at hpath
    rw [← Except.ok.inj hpath]
    rfl
  | some x =>
    obtain ⟨columnName, value⟩ := x
    rw [hlookup] at hpath
    dsimp only at hpath ⊢
    cases hindexed : t.columnIsIndexed columnName txn with
    | error e => rw [hindexed] at hpath; cases hpath
    | ok indexed =>
      rw [hindexed] at hpath
      rw [← Except.ok.inj hpath]
      cases indexed with
      | true => rfl
      | false => rw [indexLookupCandidates_unindexed hindexed]; rfl

theorem returns_sortMatching {sort : List (ColumnID × OrderBy)} {rowIds : List RowID} :
    Returns (sortMatching sort txn rowIds) fun sorted => sorted.length = rowIds.length := by
  have hinsert : ∀ (a : RowID) (sorted : List RowID),
      Returns (insertSorted sort txn a sorted) fun sorted' => sorted'.length = sorted.length + 1 := by
    intro a sorted
    induction sorted with
    | nil => exact Returns.pure rfl
    | cons b sorted ih =>
      refine Returns.bind Returns.any fun after _ => ?_
      split
      · exact ih.bind fun sorted' hsorted => Returns.pure (by rw [List.length_cons, hsorted]; rfl)
      · exact Returns.pure rfl
  have hsort : ∀ rowIds : List RowID,
      Returns (sortRowIds sort txn rowIds) fun sorted => sorted.length = rowIds.length := by
    intro rowIds
    induction rowIds with
    | nil => exact Returns.pure rfl
    | cons a rowIds ih =>
      exact ih.bind fun sorted hsorted => by rw [List.length_cons, ← hsorted]; exact hinsert a sorted
  unfold sortMatching
  split
  · exact Returns.pure rfl
  · exact hsort rowIds

theorem returns_projectRows {projection : List (String × ColumnID)} {rowIds : List RowID} :
    Returns (rowIds.foldlM (fun results rowId => do
      return results ++ [← projectRow projection txn rowId]) []) fun results =>
        results.length = rowIds.length := by
  suffices hloop : ∀ (rowIds : List RowID) (found : List SearchResult),
      Returns (rowIds.foldlM (fun results rowId => do
        return results ++ [← projectRow projection txn rowId]) found) fun results =>
          results.length = found.length + rowIds.length by
    simpa using hloop rowIds []
  intro rowIds
  induction rowIds with
  | nil => exact fun found => Returns.pure rfl
  | cons a rowIds ih =>
    intro found
    rw [List.foldlM_cons]
    refine Returns.bind (P := fun found' => found'.length = found.length + 1) ?_ fun found' hfound => ?_
    · exact Returns.bind Returns.any fun result _ => Returns.pure (by simp)
    · intro env s results s' hrun
      rw [ih found' env s results s' hrun, hfound, List.length_cons]
      omega

/-- A search returns as many rows as it finds to match. -/
theorem searchRows_length {visible : BTreeMap String ColumnID} {accessPath : Option AccessPath}
    (hlimit : request.limit = none) (hoffset : request.offset = none)
    (h : searchRows request txn accessPath visible held t = (.ok rows, t')) :
    ∃ candidates t₁ matching t₂,
      candidateRowIds request txn accessPath visible held t = (.ok candidates, t₁) ∧
        matchingRowIds request.filter txn visible candidates held t₁ = (.ok matching, t₂) ∧
          rows.length = matching.length := by
  unfold searchRows at h
  rw [hlimit, hoffset] at h
  obtain ⟨projection, s₁, hprojection, h⟩ := bind_returned h
  obtain ⟨sort, s₂, hsort, h⟩ := bind_returned h
  obtain ⟨candidates, s₃, hcandidates, h⟩ := bind_returned h
  obtain ⟨matching, s₄, hmatching, h⟩ := bind_returned h
  obtain ⟨sorted, s₅, hsorted, h⟩ := bind_returned h
  have hs₁ : s₁ = t := (Prod.mk.inj hprojection).2.symm
  have hs₂ : s₂ = s₁ := (Prod.mk.inj hsort).2.symm
  rw [hs₂, hs₁] at hcandidates
  refine ⟨candidates, s₃, matching, s₄, hcandidates, hmatching, ?_⟩
  have hprojected := returns_projectRows _ _ _ _ h
  have hsorted := returns_sortMatching _ _ _ _ hsorted
  simpa [hsorted] using hprojected

/-- **Counting one table** gives the number of rows that the search without it returns. -/
theorem search_countOf (horder : request.orderBy = []) (hlimit : request.limit = none)
    (hoffset : request.offset = none) (hpath : t.pathFor request.filter txn = .ok path)
    (h : search request.rowsOf txn (some path) held t = (.ok rows, t')) :
    ∃ t'', search (request.countOf outputName) txn (some path) held t =
      (.ok [⟨0, (∅ : BTreeMap String DataBaseDataEntry).insert outputName
        (.integerI64 (Int64.ofNat rows.length))⟩], t'') := by
  obtain ⟨candidates, t₁, matching, t₂, hcandidates, hmatching, hlength⟩ :=
    @searchRows_length t t' txn request.rowsOf held rows _ _ hlimit hoffset h
  have hcandidates : equalityCandidates request.filter txn (visibleColumns t.columns txn) held t =
      (.ok candidates, t₁) := (candidates_pathFor hpath).symm.trans hcandidates
  refine ⟨t₂, ?_⟩
  show searchCount (request.countOf outputName) outputName txn (visibleColumns t.columns txn) held t = _
  unfold searchCount
  have horder : (request.countOf outputName).orderBy = [] := horder
  rw [if_neg (not_not_intro horder)]
  refine (bind_ok hcandidates).trans ((bind_ok hmatching).trans ?_)
  rw [hlength]
  rfl

/-- A count is one row. -/
theorem search_countOf_one (h : search (request.countOf outputName) txn (some path) held t = (.ok rows, t')) :
    ∃ result, rows = [result] := by
  have h : searchCount (request.countOf outputName) outputName txn (visibleColumns t.columns txn) held t =
    (.ok rows, t') := h
  unfold searchCount at h
  split at h
  · cases h
  obtain ⟨candidates, s₂, -, h⟩ := bind_returned h
  obtain ⟨matching, s₃, -, h⟩ := bind_returned h
  exact ⟨_, (Except.ok.inj (Prod.mk.inj h).1).symm⟩

end Table

/-! ## Counting a select -/

namespace Database

variable {db db' : Database} {id : TransactionID} {fromClause : FromClause} {request : SearchRequest}
  {outputName : String} {plan : PhysicalSelectPlan}

/-- **Counting**: one row, with the number of rows of the same request without the aggregate. -/
structure Counts (db : Database) (id : TransactionID) (fromClause : FromClause) (request : SearchRequest)
    (outputName : String) : Prop where
  one : ∀ results db',
    executeSearch fromClause (request.countOf outputName) id () db = (.ok results, db') →
      ∃ result, results = [result]
  counted : ∀ rows db', executeSearch fromClause request.rowsOf id () db = (.ok rows, db') →
    ∃ result db'', executeSearch fromClause (request.countOf outputName) id () db = (.ok [result], db'') ∧
      result.values[outputName]? = some (.integerI64 (Int64.ofNat rows.length))

/-- Reading a table leaves the database as it is. -/
theorem asTransaction_same {α : Type} {name : String} {x : Transaction → TableM α} {t : Table}
    {r : Except Fault α} (ht : db.tables[name]? = some t) (hx : x (db.txn id) none t = (r, t)) :
    asTransaction name id x () db = (r, db) := by
  rw [asTransaction_run ht, hx]
  dsimp only
  rw [BTreeMap.insert_get ht]

theorem chooseFilterAccessPath_ok {tableName : String} {filter : Option SearchExpression}
    {path : AccessPath} (h : chooseFilterAccessPath tableName filter id () db = (.ok path, db')) :
    db' = db ∧ ∀ name t, db.getTable tableName = some name → db.tables[name]? = some t →
      t.pathFor filter (db.txn id) = .ok path := by
  unfold chooseFilterAccessPath at h
  unfold Table.pathFor
  cases hlookup : filter.bind (·.equalityLookup) with
  | none =>
    rw [hlookup] at h
    cases h
    exact ⟨rfl, fun _ _ _ _ => rfl⟩
  | some x =>
    obtain ⟨columnName, value⟩ := x
    rw [hlookup] at h
    obtain ⟨name, db₁, hname, h⟩ := bind_returned h
    rw [requireTable_run] at hname
    cases hget : db.getTable tableName with
    | none => rw [hget] at hname; cases hname
    | some name' =>
      rw [hget] at hname
      cases hname
      obtain ⟨indexed, db₂, hindexed, h⟩ := bind_returned h
      obtain ⟨t, ht, -⟩ := asTransaction_ok hindexed
      have hread : (TableM.read (Table.columnIsIndexed columnName (db.txn id))) none t =
          ((t.columnIsIndexed columnName (db.txn id)).mapError .err, t) := rfl
      rw [asTransaction_same ht hread] at hindexed
      cases hcolumn : t.columnIsIndexed columnName (db.txn id) with
      | error e => rw [hcolumn] at hindexed; cases hindexed
      | ok indexed' =>
        rw [hcolumn] at hindexed
        cases hindexed
        cases h
        refine ⟨rfl, fun name' t' hname' ht' => ?_⟩
        obtain rfl := Option.some.inj hname'
        obtain rfl := Option.some.inj (ht.symm.trans ht')
        dsimp only
        rw [hcolumn]
        rfl

/-- The plan of a select of one table. -/
theorem optimizeSelect_ok (hjoins : fromClause.joins = [])
    (h : optimizeSelect fromClause request id () db = (.ok plan, db')) :
    db' = db ∧ ∃ path, plan = ⟨fromClause, request, (∅ : BTreeMap String AccessPath).insert
        fromClause.base.tableName path⟩ ∧
      chooseFilterAccessPath fromClause.base.tableName request.filter id () db = (.ok path, db) := by
  unfold optimizeSelect at h
  rw [hjoins] at h
  obtain ⟨path, db₁, hpath, hreturned⟩ := bind_returned h
  obtain rfl := (chooseFilterAccessPath_ok hpath).1
  obtain ⟨hplan, rfl⟩ := Prod.mk.inj hreturned
  exact ⟨rfl, path, (Except.ok.inj hplan).symm, hpath⟩

/-- A select of one table is the search of the table by the path that was chosen. -/
theorem executeSearch_single {results : List SearchResult} (hjoins : fromClause.joins = []) :
    executeSearch fromClause request id () db = (.ok results, db') ↔
      ∃ path name t t',
        chooseFilterAccessPath fromClause.base.tableName request.filter id () db = (.ok path, db) ∧
        db.getTable fromClause.base.tableName = some name ∧ db.tables[name]? = some t ∧
        Table.search request (db.txn id) (some path) none t = (.ok results, t') ∧
          db' = { db with tables := db.tables.insert name t' } := by
  have hplan : ∀ path : AccessPath, executePhysicalSelect ⟨fromClause, request,
      (∅ : BTreeMap String AccessPath).insert fromClause.base.tableName path⟩ id = (do
        let name ← requireTable fromClause.base.tableName
        asTransaction name id (Table.search request · (some path))) := by
    intro path
    unfold executePhysicalSelect
    rw [if_pos hjoins]
    simp only [BTreeMap.get_insert, if_true]
  constructor
  · intro h
    obtain ⟨plan, db₁, hoptimized, h⟩ := bind_returned h
    obtain ⟨rfl, path, rfl, hpath⟩ := optimizeSelect_ok hjoins hoptimized
    rw [hplan] at h
    obtain ⟨name, db₂, hname, h⟩ := bind_returned h
    rw [requireTable_run] at hname
    cases hget : db₁.getTable fromClause.base.tableName with
    | none => rw [hget] at hname; cases hname
    | some name' =>
      rw [hget] at hname
      cases hname
      obtain ⟨t, ht, -⟩ := asTransaction_ok h
      rw [asTransaction_run ht] at h
      obtain ⟨hresults, rfl⟩ := Prod.mk.inj h
      exact ⟨path, name, t, _, hpath, rfl, ht, Prod.ext hresults rfl, rfl⟩
  · rintro ⟨path, name, t, t', hpath, hname, ht, hsearch, rfl⟩
    have hoptimized : optimizeSelect fromClause request id () db = (.ok ⟨fromClause, request,
        (∅ : BTreeMap String AccessPath).insert fromClause.base.tableName path⟩, db) := by
      unfold optimizeSelect
      rw [hjoins]
      exact bind_ok hpath
    refine (bind_ok hoptimized).trans ?_
    rw [hplan]
    refine (bind_ok (by rw [requireTable_run, hname])).trans ?_
    rw [asTransaction_run ht, hsearch]

/-- The rows of one table are counted. -/
theorem counts_single (hjoins : fromClause.joins = []) (horder : request.orderBy = [])
    (hlimit : request.limit = none) (hoffset : request.offset = none) :
    Counts db id fromClause request outputName := by
  constructor
  · intro results db' h
    obtain ⟨path, name, t, t', -, -, -, hsearch, -⟩ := (executeSearch_single hjoins).1 h
    exact Table.search_countOf_one hsearch
  · intro rows db' h
    obtain ⟨path, name, t, t', hpath, hname, ht, hsearch, -⟩ := (executeSearch_single hjoins).1 h
    obtain ⟨t'', hcount⟩ := @Table.search_countOf t t' (db.txn id) request none outputName rows path
      horder hlimit hoffset ((chooseFilterAccessPath_ok hpath).2 name t hname ht) hsearch
    refine ⟨_, _, (executeSearch_single hjoins).2 ⟨path, name, t, t'', hpath, hname, ht, hcount, rfl⟩, ?_⟩
    rw [BTreeMap.get_insert, if_pos rfl]

/-! ## Counting joined rows -/

/-- A select that joins tables is what the executor of joins makes of it. -/
theorem executeSearch_joins {results : List SearchResult} (hjoins : fromClause.joins ≠ [])
    (h : executeSearch fromClause request id () db = (.ok results, db')) :
    ∃ plan db₁, plan.fromClause = fromClause ∧
      executeJoinSearch plan id () db₁ = (.ok results, db') := by
  obtain ⟨plan, db₁, hoptimized, h⟩ := bind_returned h
  have hfrom : plan.fromClause = fromClause := by
    obtain ⟨path, db₂, -, hreturned⟩ := bind_returned hoptimized
    rw [← Except.ok.inj (Prod.mk.inj hreturned).1]
  refine ⟨plan, db₁, hfrom, ?_⟩
  unfold executePhysicalSelect at h
  rw [hfrom, if_neg hjoins] at h
  exact h

/-- Joined tables have different aliases. -/
theorem aliases_nodup {results : List SearchResult} (hjoins : fromClause.joins ≠ [])
    (h : executeSearch fromClause request id () db = (.ok results, db')) : fromClause.aliases.Nodup := by
  obtain ⟨plan, db₁, rfl, hexecuted⟩ := executeSearch_joins hjoins h
  obtain ⟨projection, rows, hjoined, -⟩ := executeJoinSearch_ok hexecuted
  obtain ⟨joinSchema, hschema, -⟩ := joinedRows_ok hjoined
  obtain ⟨-, hbase, hsources, hnodup⟩ := resolveJoinSchema_ok hschema
  have haliases : joinSchema.joinTables.map (·.source.aliasOrName) =
      plan.fromClause.joins.map (·.table.aliasOrName) := by
    generalize plan.fromClause.joins = joins at hsources
    generalize joinSchema.joinTables = schemas at hsources
    induction hsources with
    | nil => rfl
    | cons hsource _ ih => rw [List.map_cons, List.map_cons, hsource, ih]
  have hshape : joinSchema.shape.map Prod.fst = plan.fromClause.aliases := by
    rw [JoinSchema.shape, FromClause.aliases, ← haliases, ← (loadTableSchema_ok hbase).2.1]
    simp [Function.comp_def]
  rwa [hshape] at hnodup

/-! ### Tables without rows -/

section Blank

variable {t : Table} (htables : ∀ source ∈ fromClause.sources, db.tables[source.tableName]? = some t)
  (hrows : t.rowLocations = ∅)

theorem forEachVisibleRow_blank {σ : Type} {txn : Transaction} {held : Option PageID}
    {f : σ → RowID → RowData → Except DataBaseErrors σ} {init : σ} (hrows : t.rowLocations = ∅) :
    Table.forEachVisibleRow txn f init held t = (.ok init, t) := by
  have hpages : t.referencedPages.toList = [] := by
    rw [Table.referencedPages, hrows]
    rfl
  unfold Table.forEachVisibleRow Table.scanVisible
  rw [get_bind, hpages]
  rfl

include htables

theorem requireTable_blank {source : TableSource} (hsource : source ∈ fromClause.sources) :
    requireTable source.tableName () db = (.ok source.tableName, db) := by
  rw [requireTable_run, getTable, if_pos (BTreeMap.mem_of_get (htables source hsource))]

theorem loadTableSchema_blank (id : TransactionID) {source : TableSource}
    (hsource : source ∈ fromClause.sources) :
    ∃ schema, loadTableSchema source id () db = (.ok schema, db) ∧ schema.source = source := by
  unfold loadTableSchema
  rw [bind_ok (requireTable_blank htables hsource),
    bind_ok (asTransaction_same (htables source hsource) rfl)]
  exact ⟨_, rfl, rfl⟩

theorem joinTables_blank (id : TransactionID) {f : List JoinTableSchema × List String → JoinSpec →
      DbM (List JoinTableSchema × List String)}
    (hf : ∀ found join, f found join = do
      let schema ← loadTableSchema join.table id
      if schema.source.aliasOrName ∈ found.2 then
        throw (.queryError s!"Duplicate table alias '{schema.source.aliasOrName}' in JOIN")
      return (found.1 ++ [schema], found.2 ++ [schema.source.aliasOrName]))
    {joins : List JoinSpec} (hjoins : ∀ join ∈ joins, join.table ∈ fromClause.sources)
    (found : List JoinTableSchema × List String)
    (hnodup : (found.2 ++ joins.map (·.table.aliasOrName)).Nodup) :
    ∃ all, joins.foldlM f found () db = (.ok all, db) := by
  induction joins generalizing found with
  | nil => exact ⟨found, rfl⟩
  | cons join joins ih =>
    obtain ⟨schema, hload, hsource⟩ := loadTableSchema_blank htables id (hjoins join (by simp))
    have halias : schema.source.aliasOrName ∉ found.2 := by
      rw [hsource]
      intro hmem
      exact (List.nodup_append.1 hnodup).2.2 _ hmem _ (by simp) rfl
    rw [List.foldlM_cons, hf, bind_ok ((bind_ok hload).trans (by rw [if_neg halias]; rfl))]
    refine ih (fun join hjoin => hjoins join (List.mem_cons_of_mem _ hjoin)) _ ?_
    simpa [hsource] using hnodup

theorem resolveJoinSchema_blank (id : TransactionID) (hnodup : fromClause.aliases.Nodup) :
    ∃ schema, resolveJoinSchema fromClause id () db = (.ok schema, db) := by
  obtain ⟨base, hbase, hsource⟩ := loadTableSchema_blank htables id List.mem_cons_self
  unfold resolveJoinSchema
  rw [bind_ok hbase, bind_run]
  obtain ⟨all, hall⟩ := joinTables_blank htables id (fun _ _ => rfl)
    (fun join hjoin => List.mem_cons_of_mem _ (List.mem_map_of_mem hjoin)) ([], [base.source.aliasOrName])
    (by rw [hsource]; exact hnodup)
  rw [hall]
  exact ⟨_, rfl⟩

include hrows

theorem initialRows_blank : initialRows fromClause.base id () db = (.ok [], db) := by
  have hsource : fromClause.base ∈ fromClause.sources := List.mem_cons_self
  unfold initialRows
  rw [bind_ok (requireTable_blank htables hsource)]
  refine asTransaction_same (htables _ hsource) ?_
  unfold Table.initialRows
  rw [get_bind]
  exact forEachVisibleRow_blank hrows

omit hrows in
theorem applyJoin_blank {join : JoinSpec} {schema : JoinTableSchema}
    (hsource : join.table ∈ fromClause.sources) : applyJoin [] join schema id () db = (.ok [], db) := by
  unfold applyJoin
  rw [bind_ok (requireTable_blank htables hsource)]
  refine asTransaction_same (htables _ hsource) ?_
  unfold Table.applyJoin
  split <;> rfl

/-- Joins of tables without rows have none. -/
theorem executeJoinSearch_blank (hfrom : plan.fromClause = fromClause) (hjoins : fromClause.joins ≠ [])
    (hnodup : fromClause.aliases.Nodup) (horder : plan.request.orderBy = []) :
    executeJoinSearch plan id () db = (.ok [], db) := by
  obtain ⟨schema, hschema⟩ := resolveJoinSchema_blank htables id hnodup
  obtain ⟨projection, hprojection⟩ : ∃ projection,
      resolveProjection fromClause schema plan.request.projection = .ok projection := by
    unfold resolveProjection
    cases plan.request.projection with
    | some columns => exact ⟨columns, rfl⟩
    | none => rw [if_neg hjoins]; exact ⟨_, rfl⟩
  have hfold : ∀ joined : List (JoinSpec × JoinTableSchema),
      (∀ x ∈ joined, x.1.table ∈ fromClause.sources) →
      joined.foldlM (fun current x => applyJoin current x.1 x.2 id) [] () db = (.ok [], db) := by
    intro joined hjoined
    induction joined with
    | nil => rfl
    | cons x joined ih =>
      rw [List.foldlM_cons, bind_ok (applyJoin_blank htables (hjoined x (by simp)))]
      exact ih fun y hy => hjoined y (List.mem_cons_of_mem _ hy)
  have hjoined : joinedRows plan id () db = (.ok (projection, []), db) := by
    unfold joinedRows
    rw [hfrom, bind_ok hschema, hprojection,
      bind_ok (show ofResult (.ok projection) () db = (.ok projection, db) from rfl),
      bind_ok (initialRows_blank htables hrows), bind_ok (hfold _ fun x hx => ?_)]
    · rfl
    · exact List.mem_cons_of_mem _ (List.mem_map_of_mem (List.of_mem_zip hx).1)
  have hfinish : finishSearch projection plan.request [] = .ok [] := by
    unfold finishSearch
    rw [horder]
    show Except.ok (plan.request.slice []) = _
    unfold SearchRequest.slice
    cases plan.request.limit <;> simp
  unfold executeJoinSearch
  rw [bind_ok hjoined]
  dsimp only
  rw [hfinish]
  rfl

end Blank

/-- A table of one column, without rows. -/
def blankTable (columnName : String) : Table :=
  { Table.new 0 4096 0 .empty with
    columns := (∅ : BTreeMap ColumnID Column).insert 0
      (.new 0 columnName .boolean ∅ ((Database.new ⟨4096, 0⟩).txn 0)) }

/-- The same table under all names of a select. -/
def blankTables (fromClause : FromClause) (columnName : String) : Database :=
  { Database.new ⟨4096, 0⟩ with
    tables := fromClause.sources.foldl (fun tables source =>
      tables.insert source.tableName (blankTable columnName)) ∅ }

theorem blankTables_get {columnName : String} {source : TableSource}
    (hsource : source ∈ fromClause.sources) :
    (blankTables fromClause columnName).tables[source.tableName]? = some (blankTable columnName) := by
  have hfold : ∀ (sources : List TableSource) (tables : BTreeMap String Table),
      source ∈ sources ∨ tables[source.tableName]? = some (blankTable columnName) →
      (sources.foldl (fun tables source => tables.insert source.tableName (blankTable columnName))
        tables)[source.tableName]? = some (blankTable columnName) := by
    intro sources
    induction sources with
    | nil => exact fun tables h => h.resolve_left (by simp)
    | cons other sources ih =>
      intro tables h
      refine ih _ ?_
      rw [BTreeMap.get_insert]
      split_ifs with hname
      · exact Or.inr rfl
      · rcases h with h | h
        · rcases List.mem_cons.1 h with rfl | h
          · exact absurd rfl hname
          · exact Or.inl h
        · exact Or.inr h
  exact hfold _ ∅ (Or.inl hsource)

theorem columnIsIndexed_blank (columnName : String) :
    (blankTable columnName).columnIsIndexed columnName ((Database.new ⟨4096, 0⟩).txn 0) = .ok false := by
  have hvisible : Table.visibleColumns (blankTable columnName).columns ((Database.new ⟨4096, 0⟩).txn 0) =
      (∅ : BTreeMap String ColumnID).insert (normalizeIdentifier columnName) 0 := rfl
  unfold Table.columnIsIndexed
  rw [hvisible, BTreeMap.get_insert, if_pos rfl]
  rfl

/-- A select of these tables returns no rows. -/
theorem executeSearch_blank {columnName : String} (hjoins : fromClause.joins ≠ [])
    (hnodup : fromClause.aliases.Nodup) (horder : request.orderBy = [])
    (hlookup : ∀ x ∈ request.filter.bind (·.equalityLookup), x.1 = columnName) :
    executeSearch fromClause request 0 () (blankTables fromClause columnName) =
      (.ok [], blankTables fromClause columnName) := by
  have hbase : fromClause.base ∈ fromClause.sources := List.mem_cons_self
  have htables : ∀ source ∈ fromClause.sources,
      (blankTables fromClause columnName).tables[source.tableName]? = some (blankTable columnName) :=
    fun source => blankTables_get
  obtain ⟨path, hpath⟩ : ∃ path, chooseFilterAccessPath fromClause.base.tableName request.filter 0 ()
      (blankTables fromClause columnName) = (.ok path, blankTables fromClause columnName) := by
    unfold chooseFilterAccessPath
    cases hfilter : request.filter.bind (·.equalityLookup) with
    | none => exact ⟨.seqScan, rfl⟩
    | some x =>
      have hname : x.1 = columnName := hlookup x hfilter
      have hread : TableM.read (·.columnIsIndexed x.1 ((blankTables fromClause columnName).txn 0)) none
          (blankTable columnName) = (.ok false, blankTable columnName) := by
        have hindexed := columnIsIndexed_blank columnName
        rw [hname]
        show (Except.mapError Fault.err (Table.columnIsIndexed columnName
          ((Database.new ⟨4096, 0⟩).txn 0) (blankTable columnName)), _) = _
        rw [hindexed]
        rfl
      dsimp only
      rw [bind_ok (requireTable_blank htables hbase), bind_ok (asTransaction_same (htables _ hbase) hread)]
      exact ⟨_, rfl⟩
  obtain ⟨plan, hplan, hfrom, hrequest⟩ : ∃ plan, optimizeSelect fromClause request 0 ()
      (blankTables fromClause columnName) = (.ok plan, blankTables fromClause columnName) ∧
        plan.fromClause = fromClause ∧ plan.request = request := by
    unfold optimizeSelect
    rw [bind_ok hpath]
    exact ⟨_, rfl, rfl, rfl⟩
  unfold executeSearch
  rw [bind_ok hplan, executePhysicalSelect, hfrom, if_neg hjoins]
  exact executeJoinSearch_blank htables rfl hfrom hjoins hnodup (by rw [hrequest]; exact horder)

/-! ### Which requests are counted -/

/-- **COUNT(*)** gives the number of rows, in every database, exactly of the requests for one table
    (and of those that always fail, for two tables of one alias). -/
theorem executeSearch_counts_iff (fromClause : FromClause) (request : SearchRequest) (outputName : String)
    (horder : request.orderBy = []) (hlimit : request.limit = none) (hoffset : request.offset = none) :
    (∀ db id, Counts db id fromClause request outputName) ↔
      fromClause.joins = [] ∨ ¬ fromClause.aliases.Nodup := by
  constructor
  · intro h
    by_contra hjoined
    push Not at hjoined
    obtain ⟨hjoins, hnodup⟩ := hjoined
    -- without rows the executor of joins returns none instead of one
    obtain ⟨columnName, hlookup⟩ : ∃ columnName,
        ∀ x ∈ request.filter.bind (·.equalityLookup), x.1 = columnName := by
      cases request.filter.bind (·.equalityLookup) with
      | none => exact ⟨"", fun x hx => by cases hx⟩
      | some x => exact ⟨x.1, fun y hy => by rw [Option.some.inj hy]⟩
    obtain ⟨result, hresult⟩ := (h (blankTables fromClause columnName) 0).one [] _
      (executeSearch_blank hjoins hnodup horder hlookup)
    cases hresult
  · rintro (hjoins | hnodup) db id
    · exact counts_single hjoins horder hlimit hoffset
    · by_cases hjoins : fromClause.joins = []
      · exact counts_single hjoins horder hlimit hoffset
      · exact ⟨fun results db' h => absurd (aliases_nodup hjoins h) hnodup,
          fun rows db' h => absurd (aliases_nodup hjoins h) hnodup⟩

/-- `SELECT * FROM l CROSS JOIN r` -/
def crossJoin : FromClause := ⟨⟨"l", none⟩, [⟨⟨"r", none⟩, .cross, none, none⟩]⟩

def everyRow : SearchRequest := ⟨none, none, none, [], none, none⟩

theorem executeSearch_counts_crossJoin :
    (∀ db id, Counts db id crossJoin everyRow "count") ↔
      crossJoin.joins = [] ∨ ¬ crossJoin.aliases.Nodup :=
  executeSearch_counts_iff crossJoin everyRow "count" rfl rfl rfl

/-- `SELECT COUNT(*) FROM l CROSS JOIN r` returns the two joined rows. -/
theorem executeSearch_returns_joined_rows : ¬ Counts eitherFlag 1 crossJoin everyRow "count" := by
  intro h
  have htwo : ((executeSearch crossJoin (everyRow.countOf "count") 1 () eitherFlag).1.map List.length) =
      .ok 2 := by decide +kernel
  cases hrun : executeSearch crossJoin (everyRow.countOf "count") 1 () eitherFlag with
  | mk results db' =>
    rw [hrun] at htwo
    cases results with
    | error e => cases htwo
    | ok results =>
      obtain ⟨result, rfl⟩ := h.one results db' hrun
      cases htwo

end Database

end AntDb
