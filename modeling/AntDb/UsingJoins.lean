/-
  Chains of joins with USING.

  `join_matches` compares the new table with the one that was joined just before it, whatever the
  tables further left have under the name of the column, and takes two NULLs as equal.
-/
import AntDb.Joining

namespace AntDb

open Call Gathering

/-! ## The value of a column -/

/-- The value under the name of a column; a table without the column has none. -/
def TableBinding.entry (binding : TableBinding) (column : String) : DataBaseDataEntry :=
  (binding.columnMap[column]?.map binding.value).getD .null

/-- One of the tables has the value, which is not NULL, in its column of the name.  A table that
    has nothing on an unmatched row has no such value. -/
def JoinedRow.Carries (left : JoinedRow) (column : String) (value : DataBaseDataEntry) : Prop :=
  value ≠ .null ∧ ∃ binding ∈ left.tables, (binding.entry column).eq value = true

instance {left : JoinedRow} {column : String} {value : DataBaseDataEntry} :
    Decidable (left.Carries column value) :=
  inferInstanceAs (Decidable (_ ∧ _))

/-- An INNER or LEFT OUTER join with USING of a column that the new table has. -/
structure UsingJoin where
  table : TableSource
  outer : Bool
  column : String
  schema : JoinTableSchema
  hasColumn : column ∈ schema.columnMap

variable {binding previous : TableBinding} {column : String} {left : JoinedRow} {link : UsingJoin}
  {chain : List UsingJoin} {rows : List (RowID × RowData)} {x : RowID × RowData}
  {current : List JoinedRow}

theorem TableBinding.usingValue_ok (h : column ∈ binding.columnMap) :
    binding.usingValue column = .ok (binding.entry column) := by
  obtain ⟨columnId, hcolumn⟩ := BTreeMap.mem_iff_get.1 h
  rw [usingValue, entry, hcolumn]
  rfl

theorem TableBinding.usingValue_missing (h : column ∉ binding.columnMap) :
    ∃ e, binding.usingValue column = .error e := by
  rw [usingValue, Std.ExtTreeMap.getElem?_eq_none h]
  exact ⟨_, rfl⟩

namespace UsingJoin

def join (link : UsingJoin) : JoinSpec where
  table := link.table
  joinType := if link.outer then .leftOuter else .inner
  on := none
  usingColumns := some [link.column]

def entry (link : UsingJoin) (x : RowID × RowData) : DataBaseDataEntry :=
  (link.join.binding link.schema x.1 x.2).entry link.column

/-- The left row and a right row are matched exactly when the right one has the value that the left
    one carries. -/
def Compares (link : UsingJoin) (rows : List (RowID × RowData)) (left : JoinedRow) : Prop :=
  ∀ x ∈ rows, (link.join.candidate link.schema left x).joinMatches link.join =
    .ok (decide (left.Carries link.column (link.entry x)))

/-- The table joined last has the column; it and the right row are not both NULL there, and what the
    right row has is not carried by tables further left only. -/
def Decides (link : UsingJoin) (rows : List (RowID × RowData)) (left : JoinedRow) : Prop :=
  ∀ x ∈ rows, ∃ previous, left.tables.getLast? = some previous ∧ link.column ∈ previous.columnMap ∧
    (previous.entry link.column ≠ .null ∨ link.entry x ≠ .null) ∧
    (left.Carries link.column (link.entry x) →
      (previous.entry link.column).eq (link.entry x) = true)

/-- The rows of one left row, by the value it carries. -/
def merged (link : UsingJoin) (rows : List (RowID × RowData)) (left : JoinedRow) : List JoinedRow :=
  link.join.orUnmatched link.schema left
    ((rows.filter fun x => left.Carries link.column (link.entry x)).map
      (link.join.candidate link.schema left))

theorem join_ne_cross : link.join.joinType ≠ .cross := by
  show (if link.outer then JoinType.leftOuter else .inner) ≠ .cross
  split_ifs <;> nofun

/-- The table in front of the new one is compared with it. -/
theorem joinMatches_eq (hlast : left.tables.getLast? = some previous) :
    (link.join.candidate link.schema left x).joinMatches link.join =
      (previous.usingValue link.column).map fun value => value.eq (link.entry x) := by
  have hreverse : (link.join.candidate link.schema left x).tables.reverse =
      link.join.binding link.schema x.1 x.2 :: previous :: left.tables.dropLast.reverse := by
    show (left.tables ++ [_]).reverse = _
    rw [← List.dropLast_append_getLast? previous hlast, List.dropLast_concat, List.reverse_append,
      List.reverse_append]
    rfl
  have hentry : (link.join.binding link.schema x.1 x.2).usingValue link.column =
      .ok (link.entry x) := TableBinding.usingValue_ok link.hasColumn
  have hstep : (link.join.candidate link.schema left x).joinMatches link.join =
      JoinedRow.usingMatches previous (link.join.binding link.schema x.1 x.2) [link.column] := by
    unfold JoinedRow.joinMatches
    rw [if_neg join_ne_cross, hreverse]
    rfl
  rw [hstep, JoinedRow.usingMatches, hentry]
  cases previous.usingValue link.column with
  | error e => rfl
  | ok value =>
    show (if value.eq (link.entry x) then _ else _) = Except.ok (value.eq (link.entry x))
    cases value.eq (link.entry x) <;> rfl

theorem compares_iff (hne : left.tables ≠ []) : link.Compares rows left ↔ link.Decides rows left := by
  refine forall_congr' fun x => forall_congr' fun _ => ?_
  have hlast : left.tables.getLast? = some (left.tables.getLast hne) := List.getLast?_eq_some_getLast hne
  have hmem : left.tables.getLast hne ∈ left.tables := List.getLast_mem hne
  generalize left.tables.getLast hne = previous at hlast hmem
  rw [joinMatches_eq hlast]
  by_cases hcolumn : link.column ∈ previous.columnMap
  · rw [TableBinding.usingValue_ok hcolumn]
    show Except.ok ((previous.entry link.column).eq (link.entry x)) = _ ↔ _
    rw [Except.ok.injEq]
    constructor
    · intro hmatched
      refine ⟨previous, hlast, hcolumn, ?_, fun hcarries => ?_⟩
      · by_contra hnull
        obtain ⟨hleft, hright⟩ := not_or.1 hnull
        rw [not_not] at hleft hright
        rw [hleft, hright, DataBaseDataEntry.eq_refl] at hmatched
        exact (of_decide_eq_true hmatched.symm).1 rfl
      · rw [hmatched]
        exact decide_eq_true hcarries
    · rintro ⟨_, hlast', -, hnull, hcarried⟩
      obtain rfl := Option.some.inj (hlast.symm.trans hlast')
      by_cases heq : (previous.entry link.column).eq (link.entry x) = true
      · rw [heq]
        refine (decide_eq_true ⟨?_, previous, hmem, heq⟩).symm
        intro hright
        rw [hright] at hnull heq
        exact hnull.elim (fun h => h (DataBaseDataEntry.eq_null.1 heq)) fun h => h rfl
      · rw [Bool.eq_false_of_not_eq_true heq]
        exact (decide_eq_false fun h => heq (hcarried h)).symm
  · obtain ⟨e, hmissing⟩ := TableBinding.usingValue_missing hcolumn
    rw [hmissing]
    refine iff_of_false (fun h => by cases h) ?_
    rintro ⟨_, hlast', hcolumn', -⟩
    obtain rfl := Option.some.inj (hlast.symm.trans hlast')
    exact hcolumn hcolumn'

/-- Where the rows are compared by what is carried, they are joined by it. -/
theorem matched_eq (h : link.Compares rows left) :
    link.join.matched link.schema left rows = link.merged rows left := by
  unfold JoinSpec.matched merged
  congr 2
  refine List.filter_congr fun x hx => ?_
  have hmatches : link.join.Matches link.schema left x ↔
      left.Carries link.column (link.entry x) := by
    show _ = Except.ok true ↔ _
    rw [h x hx, Except.ok.injEq, decide_eq_true_iff]
  exact decide_eq_decide.2 hmatches

theorem merged_ne_nil {joined : JoinedRow} (h : joined ∈ link.merged rows left) :
    joined.tables ≠ [] := by
  unfold merged JoinSpec.orUnmatched at h
  split_ifs at h
  · rw [List.mem_singleton.1 h]
    exact List.concat_ne_nil _ _
  · obtain ⟨x, -, rfl⟩ := List.mem_map.1 h
    exact List.concat_ne_nil _ _

/-- A join whose rows are all compared by what is carried. -/
theorem view_applyJoin {ρ : RowMap} {v : View} {txn : Transaction}
    (h : ∀ left ∈ current, link.Compares (v.scannedRows ρ txn) left) :
    v.applyJoin ρ current link.join link.schema txn =
      .ok (current.flatMap (link.merged (v.scannedRows ρ txn))) := by
  rw [View.applyJoin_concat join_ne_cross]
  refine concat_ok fun left hleft => ?_
  rw [← matched_eq (h left hleft)]
  have hscan : v.matchingRows ρ link.join link.schema txn left =
      (v.scannedRows ρ txn).foldlM (fun found x =>
        link.join.pushMatching link.schema left found x.1 x.2) [] := rfl
  rw [View.joinedWith, hscan, JoinSpec.pushMatching_ok fun x hx => ⟨_, h left hleft x hx⟩]
  rfl

end UsingJoin

/-! ## Chains -/

namespace Database

variable {db db' : Database} {id : TransactionID} {name tableName : String} {t t' : Table}

/-- The rows of a table that `id` sees, in the order of a scan. -/
def seenRows (db : Database) (id : TransactionID) (tableName : String) : List (RowID × RowData) :=
  match (db.getTable tableName).bind (db.tables[·]?) with
  | some t => t.view.scannedRows t.rowLocations (db.txn id)
  | none => []

/-- The table is there, and its pages hold the rows that its row map places on them. -/
def Known (db : Database) (tableName : String) : Prop :=
  ∃ name t, db.getTable tableName = some name ∧ db.tables[name]? = some t ∧ t.Good

/-- The joins of the chain succeed one after another and match by what the left rows carry. -/
def ChainCompares (id : TransactionID) (db : Database) : List UsingJoin → List JoinedRow → Prop
  | [], _ => True
  | link :: chain, current =>
    (∀ left ∈ current, link.Compares (db.seenRows id link.table.tableName) left) ∧
    ∃ next db', applyJoin current link.join link.schema id () db = (.ok next, db') ∧
      ChainCompares id db' chain next

/-- What the left rows carry decides in each join of the chain, where the left rows are those that
    the joins before it are to give. -/
def ChainDecides (rows : String → List (RowID × RowData)) : List UsingJoin → List JoinedRow → Prop
  | [], _ => True
  | link :: chain, current =>
    (∀ left ∈ current, link.Decides (rows link.table.tableName) left) ∧
    ChainDecides rows chain (current.flatMap (link.merged (rows link.table.tableName)))

/-- The table has moved pages. -/
structure Paged (id : TransactionID) (db db' : Database) : Prop where
  seenRows : ∀ tableName, db'.seenRows id tableName = db.seenRows id tableName
  known : ∀ tableName, db.Known tableName → db'.Known tableName

theorem paged_insert (ht : db.tables[name]? = some t) (hgood : t'.Good) (hview : t'.view = t.view)
    (hρ : t'.rowLocations = t.rowLocations) :
    Paged id db { db with tables := db.tables.insert name t' } := by
  have hkeys := @BTreeMap.keys_insert_of_mem _ _ _ _ _ _ db.tables name t' (BTreeMap.mem_of_get ht)
  have hname : ∀ tableName, getTable { db with tables := db.tables.insert name t' } tableName =
      db.getTable tableName := by
    intro tableName
    have hmem : tableName ∈ db.tables.insert name t' ↔ tableName ∈ db.tables := by
      rw [← Std.ExtTreeMap.mem_keys, hkeys, Std.ExtTreeMap.mem_keys]
    unfold getTable
    simp only [hmem, hkeys]
  constructor
  · intro tableName
    unfold seenRows
    rw [hname]
    cases db.getTable tableName with
    | none => rfl
    | some found =>
      show (match (db.tables.insert name t')[found]? with | some t => _ | none => _) = _
      rw [BTreeMap.get_insert]
      by_cases hfound : name = found
      · rw [if_pos hfound]
        show t'.view.scannedRows t'.rowLocations _ = _
        rw [hview, hρ, ← hfound, Option.bind_some, ht]
      · rw [if_neg hfound]
        rfl
  · rintro tableName ⟨found, t₀, hfound, ht₀, hgood₀⟩
    by_cases h : name = found
    · exact ⟨found, t', by rw [hname, hfound], (BTreeMap.get_insert _ _ _ _).trans (if_pos h), hgood⟩
    · exact ⟨found, t₀, by rw [hname, hfound], (BTreeMap.get_insert_ne _ h _).trans ht₀, hgood₀⟩

/-- What a join does on a table that is known. -/
theorem applyJoin_known {join : JoinSpec} {rightSchema : JoinTableSchema}
    (h : db.Known join.table.tableName) : ∃ name t db', db.getTable join.table.tableName = some name ∧
      db.tables[name]? = some t ∧ Paged id db db' ∧ applyJoin current join rightSchema id () db =
        ((t.view.applyJoin t.rowLocations current join rightSchema (db.txn id)).mapError .err, db') := by
  obtain ⟨name, t, hname, ht, hgood⟩ := h
  obtain ⟨t', hrun, hgood', hview, hmoved⟩ := Table.run_yields hgood (@Table.yields_applyJoin none
    t.rowLocations t.view (db.txn id) join rightSchema current)
  refine ⟨name, t, _, hname, ht, paged_insert ht hgood' hview hmoved.rowLocations, ?_⟩
  unfold applyJoin
  rw [bind_ok ((requireTable_run db _).trans (by rw [hname])), asTransaction_run ht, hrun]

theorem seenRows_known (hname : db.getTable tableName = some name) (ht : db.tables[name]? = some t) :
    db.seenRows id tableName = t.view.scannedRows t.rowLocations (db.txn id) := by
  rw [seenRows, hname, Option.bind_some, ht]

/-- **Chains compare the merged column** exactly if in each join the table joined last decides. -/
theorem chain_compares_iff (hknown : ∀ link ∈ chain, db.Known link.table.tableName)
    (hcurrent : ∀ left ∈ current, left.tables ≠ []) :
    ChainCompares id db chain current ↔ ChainDecides (db.seenRows id) chain current := by
  induction chain generalizing db current with
  | nil => exact Iff.rfl
  | cons link chain ih =>
    have hcompares : (∀ left ∈ current, link.Compares (db.seenRows id link.table.tableName) left) ↔
        ∀ left ∈ current, link.Decides (db.seenRows id link.table.tableName) left :=
      forall₂_congr fun left hleft => UsingJoin.compares_iff (hcurrent left hleft)
    rw [ChainCompares, ChainDecides, ← hcompares]
    refine and_congr_right fun hall => ?_
    obtain ⟨name, t, db', hname, ht, hpaged, hrun⟩ := @applyJoin_known current db id link.join
      link.schema (hknown link List.mem_cons_self)
    have hrows := @seenRows_known db id name _ t hname ht
    rw [UsingJoin.view_applyJoin fun left hleft => hrows ▸ hall left hleft, ← hrows] at hrun
    have hnext : ∀ left ∈ current.flatMap (link.merged (db.seenRows id link.table.tableName)),
        left.tables ≠ [] := by
      intro joined hjoined
      obtain ⟨left, -, hjoined⟩ := List.mem_flatMap.1 hjoined
      exact UsingJoin.merged_ne_nil hjoined
    have hrest := ih (fun link hlink => hpaged.known _ (hknown link (List.mem_cons_of_mem _ hlink))) hnext
    rw [funext hpaged.seenRows] at hrest
    rw [← hrest]
    constructor
    · rintro ⟨next, db'', hstep, hchain⟩
      obtain ⟨hok, rfl⟩ := Prod.mk.inj (hstep.symm.trans hrun)
      rwa [Except.ok.inj hok] at hchain
    · exact fun hchain => ⟨_, _, hrun, hchain⟩

/-- Tables `l`, `m` and `r` with a column `a`; `l` and `r` have a row with the same value, `m` has none. -/
def paddedTriple : Database := ((do
    let id ← createTransaction
    let _ ← createTable "l"
    let _ ← createTable "m"
    let _ ← createTable "r"
    let _ ← asTransaction "l" id (Table.createColumn "a" .boolean ∅)
    let _ ← asTransaction "m" id (Table.createColumn "a" .boolean ∅)
    let _ ← asTransaction "r" id (Table.createColumn "a" .boolean ∅)
    let _ ← asTransaction "l" id (Table.insertRow (.ofList [(0, .boolean true)] compare) · fun _ => none)
    let _ ← asTransaction "r" id (Table.insertRow (.ofList [(0, .boolean true)] compare) · fun _ => none) :
      DbM Unit) () (.new ⟨4096, 0⟩)).2

/-- `USING (a)` with a table that has the column. -/
def usingA (tableName : String) (outer : Bool) : UsingJoin where
  table := ⟨tableName, none⟩
  outer := outer
  column := "a"
  schema := ⟨⟨tableName, none⟩, .ofList [("a", 0)] compare, ["a"]⟩
  hasColumn := by simp

/-- The row of `l`, and what `LEFT JOIN m USING (a)` makes of it. -/
def rowOfL : JoinedRow :=
  ⟨[⟨"l", "l", 1, .ofList [("a", 0)] compare, .ofList [(0, .boolean true)] compare⟩]⟩

def paddedRow : JoinedRow := rowOfL.append ⟨"m", "m", 0, .ofList [("a", 0)] compare, ∅⟩

example : (initialRows ⟨"l", none⟩ 1 () paddedTriple).1 = .ok [rowOfL] := by decide +kernel

theorem chain_compares_iff_padded :
    ChainCompares 1 paddedTriple [usingA "m" true, usingA "r" false] [rowOfL] ↔
      ChainDecides (paddedTriple.seenRows 1) [usingA "m" true, usingA "r" false] [rowOfL] := by
  have hgood : ∀ tableId ops, Runs.Each TableOp.step TableOp.Returns
      (Table.start tableId 4096 0 .empty ∅) ops →
        (Runs.exec TableOp.step (Table.start tableId 4096 0 .empty ∅) ops).Good := fun _ _ hreturns =>
    (TableOp.good_unlimited (Table.good_start rfl rfl) rfl hreturns).1
  have hm : paddedTriple.Known "m" := by
    refine ⟨"m", _, by decide +kernel, ?_, hgood 1
      [.createColumn "a" .boolean ∅ (paddedTriple.txn 1)] (by decide +kernel)⟩
    decide +kernel
  have hr : paddedTriple.Known "r" := by
    refine ⟨"r", _, by decide +kernel, ?_, hgood 2 [.createColumn "a" .boolean ∅ (paddedTriple.txn 1),
      .call (.insertRow (.ofList [(0, .boolean true)] compare) (paddedTriple.txn 1) fun _ => none)]
      (by decide +kernel)⟩
    decide +kernel
  refine chain_compares_iff (fun link hlink => ?_) (by decide)
  rcases List.mem_pair.1 hlink with rfl | rfl
  · exact hm
  · exact hr

/-- `l LEFT JOIN m USING (a) JOIN r USING (a)`: the row of `l` carries the value of the row of `r`, but
    the last join compares it with what is missing from `m`. -/
theorem chain_loses_padded :
    (applyJoin [rowOfL] (usingA "m" true).join (usingA "m" true).schema 1 () paddedTriple).1 =
        .ok [paddedRow] ∧
      paddedTriple.seenRows 1 "r" = [(1, .ofList [(0, .boolean true)] compare)] ∧
      paddedRow.Carries "a" (.boolean true) ∧
      (applyJoin [paddedRow] (usingA "r" false).join (usingA "r" false).schema 1 () paddedTriple).1 =
        .ok [] ∧
      ¬ ChainCompares 1 paddedTriple [usingA "m" true, usingA "r" false] [rowOfL] := by
  have hfirst : (applyJoin [rowOfL] (usingA "m" true).join (usingA "m" true).schema 1 () paddedTriple).1 =
      .ok [paddedRow] := by decide +kernel
  have hcarries : paddedRow.Carries "a" (.boolean true) := by decide +kernel
  refine ⟨hfirst, by decide +kernel, hcarries, by decide +kernel, ?_⟩
  rintro ⟨-, next, db', hrun, hcompares, -⟩
  have hnext : next = [paddedRow] := by
    rw [hrun] at hfirst
    exact Except.ok.inj hfirst
  obtain rfl : _ = db' := congrArg Prod.snd hrun
  have hrows : (1, .ofList [(0, .boolean true)] compare) ∈ (applyJoin [rowOfL] (usingA "m" true).join
      (usingA "m" true).schema 1 () paddedTriple).2.seenRows 1 "r" := by decide +kernel
  have hmatches := hcompares paddedRow (by rw [hnext]; exact List.mem_singleton_self _) _ hrows
  revert hmatches
  decide +kernel

end Database

end AntDb
