/-
  What a sequential scan of one table finds.

  The rows are those on the pages that rows are mapped to.  A search reads a page when it scans
  it, and again to sort and to project, so the results fit together only if a page that is
  evicted meanwhile comes back with the rows it had.
-/
import AntDb.Joining
import AntDb.Lib.Finding
import AntDb.Lib.StableSort
import AntDb.Sorting

namespace AntDb.Table

open Call TableM Lexicographic StableSort

/-! ## The rows of a search -/

/-- The rows on the pages that rows are mapped to, page after page. -/
def storedRows (t : Table) : List (RowID × Row) :=
  t.referencedPages.toList.flatMap fun p => ((t.content p).map (·.rows.toList)).getD []

/-- The versions that `txn` sees, in the same order. -/
def visibleVersions (t : Table) (txn : Transaction) : List (RowID × InternalRow) :=
  t.storedRows.filterMap fun x => (x.2.getVersionedRow txn).map fun version => (x.1, version)

/-- Those that satisfy the filter. -/
def matchingVersions (t : Table) (filter : Option SearchExpression) (txn : Transaction) :
    List (RowID × InternalRow) :=
  (t.visibleVersions txn).filter fun x =>
    matchesFilter (visibleColumns t.columns txn) filter x.2 = .ok true

/-- A missing entry is `NULL`. -/
def valueIn (version : InternalRow) (columnId : ColumnID) : DataBaseDataEntry :=
  version.data[columnId]?.getD .null

def sortKeys (sort : List (ColumnID × OrderBy)) : List (ColumnID × Bool) :=
  sort.map fun x => (x.1, x.2 = .desc)

/-- Compare by the sort columns, of which the ascending ones have `NULL` first. -/
def compareVersions (sort : List (ColumnID × OrderBy)) (x y : RowID × InternalRow) : Ordering :=
  lexCmp DataBaseDataEntry.cmp (sortKeys sort) (valueIn x.2) (valueIn y.2)

/-- OFFSET and LIMIT. -/
def window {α : Type} (request : SearchRequest) (l : List α) : List α :=
  match request.limit with
  | some limit => (l.drop (request.offset.getD 0)).take limit
  | none => l.drop (request.offset.getD 0)

def projected (projection : List (String × ColumnID)) (x : RowID × InternalRow) : SearchResult where
  rowId := x.1
  values := projection.foldl (fun values y => values.insert y.1 (valueIn x.2 y.2)) ∅

/-- The rows of the table that match, each once, sorted, cut and projected. -/
structure Scanned (t : Table) (request : SearchRequest) (txn : Transaction)
    (projection : List (String × ColumnID)) (sort : List (ColumnID × OrderBy))
    (sorted : List (RowID × InternalRow)) (results : List SearchResult) : Prop where
  projects : projectionColumns request.projection (visibleColumns t.columns txn) = .ok projection
  sorts : sortColumns request.orderBy (visibleColumns t.columns txn) = .ok sort
  once : ((t.matchingVersions request.filter txn).map Prod.fst).Nodup
  stable : IsStableSort (compareVersions sort) (t.matchingVersions request.filter txn) sorted
  shown : results = (window request sorted).map (projected projection)

/-! ## Pages that stay as they are -/

/-- A page that rows are mapped to has the same rows in every copy that a read may meet. -/
def Consistent (t : Table) : Prop :=
  ∀ p, t.Referenced p → ∀ page page', t.Stored p page → t.Stored p page' → page.rows = page'.rows

/-- The matching rows on a page that rows are mapped to are mapped to it. -/
def Homed (t : Table) (filter : Option SearchExpression) (txn : Transaction) : Prop :=
  ∀ p, t.Referenced p → ∀ page, t.content p = some page → ∀ r row, page.rows[r]? = some row →
    matched filter txn (visibleColumns t.columns txn) (r, row) = true → t.rowLocations[r]? = some p

/-- Every copy of a page in `t` has the rows that the page has in `t₀`. -/
structure Looks (t₀ t : Table) : Prop where
  rowLocations : t.rowLocations = t₀.rowLocations
  columns : t.columns = t₀.columns
  stored : ∀ p, t₀.Referenced p → ∀ page, t.Stored p page →
    ∃ page₀, t₀.content p = some page₀ ∧ page.rows = page₀.rows

variable {t t' t₀ : Table} {p : PageID} {rowId : RowID} {columnId : ColumnID} {txn : Transaction}
  {filter : Option SearchExpression} {request : SearchRequest} {held : Option PageID}
  {sort : List (ColumnID × OrderBy)} {L : PageID → Prop}

theorem Consistent.looks (h : t.Consistent) : t.Looks t where
  rowLocations := rfl
  columns := rfl
  stored p hp page hs := by
    cases hcontent : t.content p with
    | some page₀ => exact ⟨page₀, rfl, h p hp page page₀ hs (stored_content hcontent)⟩
    | none =>
      rw [content, Option.or_eq_none_iff] at hcontent
      rcases hs with hs | ⟨hs, -⟩
      · rw [hcontent.1] at hs; cases hs
      · rw [hcontent.2] at hs; cases hs

theorem Looks.moved (h : t₀.Looks t) (hm : Moved L t t') : t₀.Looks t' where
  rowLocations := hm.rowLocations.trans h.rowLocations
  columns := hm.columns.trans h.columns
  stored p hp page hs := h.stored p hp page (hm.stored p page hs)

theorem finds_ensurePageResident (hp : t₀.Referenced p) : Finds t₀.Looks (ensurePageResident p) fun page =>
    ∃ page₀, t₀.content p = some page₀ ∧ page.rows = page₀.rows := by
  intro held t page t' ht hrun
  have hspec := ensurePageResident_spec p held t
  rw [hrun] at hspec
  obtain ⟨hstored, -, hm, -⟩ := hspec.resolve_left fun h => by cases h.1
  exact ⟨ht.stored p hp page (hstored page rfl), ht.moved hm⟩

theorem finds_ofResult {α : Type} {r : Except DataBaseErrors α} :
    Finds t₀.Looks (TableM.ofResult r) fun a => r = .ok a := by
  refine Finds.ofExcept fun a ha => ?_
  cases r with
  | error e => cases ha
  | ok b => cases ha; rfl

theorem finds_lockPage : Finds t₀.Looks (lockPage p) fun _ => True := by
  intro held t a t' ht hrun
  unfold lockPage at hrun
  split_ifs at hrun
  · cases hrun
  · cases hrun
    exact ⟨trivial, ht⟩

theorem finds_pageForRow : Finds t₀.Looks (pageForRow rowId) fun page =>
    ∃ p page₀, t₀.rowLocations[rowId]? = some p ∧ t₀.content p = some page₀ ∧ page.rows = page₀.rows := by
  unfold pageForRow
  refine Finds.get fun t ht => ?_
  rw [ht.rowLocations]
  cases hp : t₀.rowLocations[rowId]? with
  | none => exact Finds.fail
  | some p =>
    refine (finds_ensurePageResident ⟨rowId, hp⟩).mono ?_
    rintro page ⟨page₀, hcontent, hrows⟩
    exact ⟨p, page₀, rfl, hcontent, hrows⟩

theorem finds_withRow : Finds t₀.Looks (withRow rowId) fun row => row = t₀.rowAt rowId := by
  refine finds_pageForRow.bind ?_
  rintro page ⟨p, page₀, hp, hcontent, hrows⟩
  refine finds_lockPage.bind fun _ _ => Finds.pure ?_
  rw [hrows, rowAt, rowIn, hp, Option.bind_some, hcontent, Option.bind_some]

/-! ## Scanning, sorting and projecting -/

theorem finds_scanVisible {σ : Type} {f : σ → RowID → InternalRow → Except DataBaseErrors σ} {init : σ} :
    Finds t₀.Looks (scanVisible txn f init) fun acc =>
      t₀.storedRows.foldlM (visit txn f) init = .ok acc := by
  unfold scanVisible
  refine Finds.get fun t ht => ?_
  have hpages : t.referencedPages = t₀.referencedPages := by
    rw [referencedPages, referencedPages, ht.rowLocations]
  rw [hpages, storedRows, List.foldlM_flatMap]
  refine Finds.foldlM fun acc p hp => ?_
  have hp : t₀.Referenced p := mem_referencedPages.1 (Std.ExtTreeSet.mem_toList.1 hp)
  refine (finds_ensurePageResident hp).bind ?_
  rintro page ⟨page₀, hcontent, hrows⟩
  refine finds_lockPage.bind fun _ _ => ?_
  rw [hrows, hcontent]
  refine Finds.foldlM fun acc x _ => ?_
  unfold visit
  cases x.2.getVersionedRow txn with
  | none => exact Finds.pure rfl
  | some version =>
    refine Finds.ofExcept fun acc' hacc => ?_
    dsimp only at hacc ⊢
    cases hf : f acc x.1 version with
    | error e => rw [hf] at hacc; cases hacc
    | ok acc'' => rw [hf] at hacc; cases hacc; rfl

/-- The entry of the row as `txn` sees it; a missing one is `NULL`. -/
def entryAt (t : Table) (txn : Transaction) (rowId : RowID) (columnId : ColumnID) : DataBaseDataEntry :=
  (((t.rowAt rowId).bind (·.getVersionedRow txn)).bind (·.data[columnId]?)).getD .null

/-- Compare rows by their entries. -/
def compareRowIds (t : Table) (txn : Transaction) (sort : List (ColumnID × OrderBy)) (a b : RowID) :
    Ordering :=
  lexCmp DataBaseDataEntry.cmp (sortKeys sort) (t.entryAt txn a) (t.entryAt txn b)

theorem finds_sortEntry : Finds t₀.Looks
    ((withVersionedColumnEntry rowId columnId txn).expect unreadableDuringSort) fun entry =>
      entry.getD .null = t₀.entryAt txn rowId columnId := by
  refine Finds.handling (finds_withRow.bind fun row hrow => Finds.pure ?_) fun e env s => ?_
  · rw [hrow, entryAt]
  · cases e <;> exact ⟨_, rfl⟩

theorem finds_sortsAfter {a b : RowID} : Finds t₀.Looks (sortsAfter sort txn a b) fun after =>
    after = decide (t₀.compareRowIds txn sort a b = .gt) := by
  induction sort with
  | nil => exact Finds.pure rfl
  | cons column sort ih =>
    obtain ⟨columnId, orderBy⟩ := column
    refine finds_sortEntry.bind fun left hleft => finds_sortEntry.bind fun right hright => ?_
    have hcompare : t₀.compareRowIds txn ((columnId, orderBy) :: sort) a b =
        (keyCmp DataBaseDataEntry.cmp (orderBy = .desc) (left.getD .null) (right.getD .null)).then
          (t₀.compareRowIds txn sort a b) := by
      rw [hleft, hright]
      rfl
    rw [hcompare]
    cases hcmp : (left.getD .null).cmp (right.getD .null) with
    | eq =>
      have hkey : keyCmp DataBaseDataEntry.cmp (orderBy = .desc) (left.getD .null) (right.getD .null) = .eq :=
        keyCmp_eq hcmp
      rw [hkey]
      exact ih
    | lt => cases orderBy <;> exact Finds.pure (by simp [keyCmp, hcmp])
    | gt => cases orderBy <;> exact Finds.pure (by simp [keyCmp, hcmp])

theorem finds_insertSorted {a : RowID} {sorted : List RowID} :
    Finds t₀.Looks (insertSorted sort txn a sorted) fun sorted' =>
      sorted' = sorted.orderedInsert (fun a b => t₀.compareRowIds txn sort a b ≠ .gt) a := by
  induction sorted with
  | nil => exact Finds.pure rfl
  | cons b sorted ih =>
    refine finds_sortsAfter.bind fun after hafter => ?_
    by_cases hgt : t₀.compareRowIds txn sort a b = .gt
    · rw [List.orderedInsert_cons, if_neg (not_not_intro hgt), hafter, decide_eq_true hgt, if_pos rfl]
      refine ih.bind fun sorted' hsorted => Finds.pure ?_
      rw [hsorted]
    · rw [List.orderedInsert_cons, if_pos hgt, hafter, decide_eq_false hgt, if_neg Bool.false_ne_true]
      exact Finds.pure rfl

theorem finds_sortRowIds {rowIds : List RowID} :
    Finds t₀.Looks (sortRowIds sort txn rowIds) fun sorted =>
      sorted = rowIds.insertionSort fun a b => t₀.compareRowIds txn sort a b ≠ .gt := by
  induction rowIds with
  | nil => exact Finds.pure rfl
  | cons a rowIds ih =>
    refine ih.bind fun sorted hsorted => ?_
    rw [List.insertionSort_cons, ← hsorted]
    exact finds_insertSorted

theorem finds_sortMatching {rowIds : List RowID} :
    Finds t₀.Looks (sortMatching sort txn rowIds) fun sorted =>
      sorted = rowIds.insertionSort fun a b => t₀.compareRowIds txn sort a b ≠ .gt := by
  unfold sortMatching
  split_ifs with hsort
  · refine Finds.pure ?_
    subst hsort
    have hpairwise : rowIds.Pairwise fun a b => t₀.compareRowIds txn [] a b ≠ .gt :=
      List.pairwise_of_forall fun _ _ h => by cases h
    exact hpairwise.insertionSort_eq.symm
  · exact finds_sortRowIds

/-- The result of a row. -/
def resultOf (t : Table) (txn : Transaction) (projection : List (String × ColumnID)) (rowId : RowID) :
    SearchResult where
  rowId := rowId
  values := projection.foldl (fun values y => values.insert y.1 (t.entryAt txn rowId y.2)) ∅

theorem finds_projectRow {projection : List (String × ColumnID)} :
    Finds t₀.Looks (projectRow projection txn rowId) fun result =>
      result = t₀.resultOf txn projection rowId := by
  refine finds_withRow.bind fun row hrow => ?_
  cases hversion : row.bind (·.getVersionedRow txn) with
  | none => exact Finds.fail
  | some version =>
    refine Finds.pure ?_
    rw [resultOf]
    simp only [entryAt, ← hrow, hversion, Option.bind_some]

theorem finds_projectRows {projection : List (String × ColumnID)} {rowIds : List RowID} :
    Finds t₀.Looks (rowIds.foldlM (fun results rowId => do
      return results ++ [← projectRow projection txn rowId]) []) fun results =>
        results = rowIds.map (t₀.resultOf txn projection) := by
  have hloop : Finds t₀.Looks (rowIds.foldlM (fun results rowId => do
      return results ++ [← projectRow projection txn rowId]) []) fun results =>
        rowIds.foldlM (fun results rowId =>
          (.ok (results ++ [t₀.resultOf txn projection rowId]) : Except DataBaseErrors _)) [] =
            .ok results :=
    Finds.foldlM fun results rowId _ => finds_projectRow.bind fun result hresult =>
      Finds.pure (by rw [hresult])
  refine hloop.mono fun results hresults => ?_
  have hmap : ∀ (rowIds : List RowID) (found : List SearchResult), rowIds.foldlM (fun results rowId =>
      (.ok (results ++ [t₀.resultOf txn projection rowId]) : Except DataBaseErrors _)) found =
        .ok (found ++ rowIds.map (t₀.resultOf txn projection)) := by
    intro rowIds
    induction rowIds with
    | nil => intro found; simp; rfl
    | cons a rowIds ih =>
      intro found
      rw [List.foldlM_cons]
      exact (ih _).trans (by simp)
  rw [hmap] at hresults
  exact (Except.ok.inj hresults).symm

/-! ## The whole search -/

theorem filter_visible (l : List (RowID × Row)) :
    (l.filter (matched filter txn (visibleColumns t.columns txn))).map Prod.fst =
      ((l.filterMap fun x => (x.2.getVersionedRow txn).map fun version => (x.1, version)).filter fun x =>
        matchesFilter (visibleColumns t.columns txn) filter x.2 = .ok true).map Prod.fst := by
  induction l with
  | nil => rfl
  | cons x l ih =>
    rw [List.filter_cons, List.filterMap_cons, matched, View.verdict]
    cases x.2.getVersionedRow txn with
    | none => exact ih
    | some version =>
      rw [Option.map_some]
      dsimp only
      rw [List.filter_cons]
      obtain ⟨found, hfound⟩ : ∃ found,
        matchesFilter (visibleColumns t.columns txn) filter version = found := ⟨_, rfl⟩
      rcases found with e | _ | _
      · simpa [hfound] using ih
      · simpa [hfound] using ih
      · simpa [hfound] using ih

theorem finds_matchingRowIds : Finds t₀.Looks
    (matchingRowIds filter txn (visibleColumns t₀.columns txn) none) fun rowIds =>
      rowIds = (t₀.matchingVersions filter txn).map Prod.fst := by
  refine finds_scanVisible.mono fun rowIds hscan => ?_
  have hverdict := @scan_verdict txn filter (visibleColumns t₀.columns txn) t₀.storedRows []
  rw [hscan] at hverdict
  rw [hverdict.2, List.nil_append]
  exact filter_visible t₀.storedRows

theorem mem_storedRows {x : RowID × Row} (hx : x ∈ t.storedRows) :
    ∃ p page, t.Referenced p ∧ t.content p = some page ∧ page.rows[x.1]? = some x.2 := by
  obtain ⟨p, hp, hx⟩ := List.mem_flatMap.1 hx
  cases hcontent : t.content p with
  | none => rw [hcontent] at hx; cases hx
  | some page =>
    rw [hcontent] at hx
    exact ⟨p, page, mem_referencedPages.1 (Std.ExtTreeSet.mem_toList.1 hp), hcontent,
      BTreeMap.mem_toList.1 hx⟩

theorem mem_matchingVersions {x : RowID × InternalRow} (hx : x ∈ t.matchingVersions filter txn) :
    ∃ row, (x.1, row) ∈ t.storedRows ∧ row.getVersionedRow txn = some x.2 ∧
      matched filter txn (visibleColumns t.columns txn) (x.1, row) = true := by
  obtain ⟨hx, hmatch⟩ := List.mem_filter.1 hx
  obtain ⟨⟨rowId, row⟩, hrow, hversion⟩ := List.mem_filterMap.1 hx
  cases hv : row.getVersionedRow txn with
  | none => rw [hv] at hversion; cases hversion
  | some version =>
    rw [hv] at hversion
    cases hversion
    refine ⟨row, hrow, hv, ?_⟩
    rw [matched, View.verdict]
    simp [hv, of_decide_eq_true hmatch]

/-- A matching row reads as its version. -/
theorem Homed.entryAt_matching (h : t.Homed filter txn) {x : RowID × InternalRow}
    (hx : x ∈ t.matchingVersions filter txn) : t.entryAt txn x.1 columnId = valueIn x.2 columnId := by
  obtain ⟨row, hrow, hversion, hmatch⟩ := mem_matchingVersions hx
  obtain ⟨p, page, hp, hcontent, hget⟩ := mem_storedRows hrow
  have hrowAt : t.rowAt x.1 = some row := by
    rw [rowAt, rowIn, h p hp page hcontent x.1 row hget hmatch, Option.bind_some, hcontent,
      Option.bind_some, hget]
  rw [entryAt, hrowAt, Option.bind_some, hversion, Option.bind_some, valueIn]

/-- No row matches twice. -/
theorem Homed.nodup_matchingVersions (h : t.Homed filter txn) :
    ((t.matchingVersions filter txn).map Prod.fst).Nodup := by
  have hmapped : ∀ p ∈ t.referencedPages.toList, ∀ x ∈ ((t.content p).map (·.rows.toList)).getD [],
      matched filter txn (visibleColumns t.columns txn) x = true → t.rowLocations[x.1]? = some p := by
    intro p hp x hx hmatch
    cases hcontent : t.content p with
    | none => rw [hcontent] at hx; cases hx
    | some page =>
      rw [hcontent] at hx
      exact h p (mem_referencedPages.1 (Std.ExtTreeSet.mem_toList.1 hp)) page hcontent x.1 x.2
        (BTreeMap.mem_toList.1 hx) hmatch
  rw [matchingVersions, visibleVersions, ← filter_visible, storedRows, List.filter_flatMap,
    List.map_flatMap, List.nodup_flatMap]
  refine ⟨fun p _ => ?_, (BTreeSet.nodup_toList _).imp_of_mem fun {p q} hp hq hne => ?_⟩
  · refine List.Nodup.sublist (List.filter_sublist.map _) ?_
    cases t.content p with
    | none => exact List.nodup_nil
    | some page => exact BTreeMap.nodup_keys page.rows
  · rw [Function.onFun, List.disjoint_left]
    intro rowId hrp hrq
    obtain ⟨x, hx, rfl⟩ := List.mem_map.1 hrp
    obtain ⟨y, hy, hxy⟩ := List.mem_map.1 hrq
    obtain ⟨hx, hmx⟩ := List.mem_filter.1 hx
    obtain ⟨hy, hmy⟩ := List.mem_filter.1 hy
    have hp := hmapped p hp x hx hmx
    have hq := hmapped q hq y hy hmy
    rw [hxy, hp] at hq
    exact hne (Option.some.inj hq)

theorem Homed.sorted_matching (h : t.Homed filter txn) :
    ((t.matchingVersions filter txn).map Prod.fst).insertionSort
        (fun a b => t.compareRowIds txn sort a b ≠ .gt) =
      ((t.matchingVersions filter txn).insertionSort fun x y => compareVersions sort x y ≠ .gt).map
        Prod.fst := by
  refine (List.map_insertionSort _ _ _ _ fun x hx y hy => ?_).symm
  have hcompare : t.compareRowIds txn sort x.1 y.1 = compareVersions sort x y :=
    lexCmp_congr (fun _ _ => h.entryAt_matching hx) fun _ _ => h.entryAt_matching hy
  rw [hcompare]

theorem window_map {α β : Type} (f : α → β) (l : List α) :
    window request (l.map f) = (window request l).map f := by
  unfold window
  cases request.limit with
  | none => exact List.map_drop.symm
  | some limit =>
    dsimp only
    rw [← List.map_drop, ← List.map_take]

theorem mem_window {α : Type} {l : List α} {a : α} (h : a ∈ window request l) : a ∈ l := by
  unfold window at h
  cases hlimit : request.limit with
  | none => rw [hlimit] at h; exact List.mem_of_mem_drop h
  | some limit => rw [hlimit] at h; exact List.mem_of_mem_drop (List.mem_of_mem_take h)

instance : Std.TransCmp (compareVersions sort) :=
  have := @transCmp_lexCmp ColumnID DataBaseDataEntry DataBaseDataEntry.cmp (sortKeys sort) _
  { eq_swap := this.eq_swap
    isLE_trans := this.isLE_trans }

theorem finds_searchRows (hmatching : t₀.Homed request.filter txn) : Finds t₀.Looks
    (searchRows request txn (some .seqScan) (visibleColumns t₀.columns txn)) fun results =>
      ∃ projection sort sorted, t₀.Scanned request txn projection sort sorted results := by
  unfold searchRows
  refine finds_ofResult.bind fun projection hprojection => ?_
  refine finds_ofResult.bind fun sort hsort => ?_
  refine (Finds.pure rfl : Finds t₀.Looks (candidateRowIds request txn (some .seqScan) _)
    fun candidates => candidates = none).bind ?_
  rintro _ rfl
  refine finds_matchingRowIds.bind ?_
  rintro _ rfl
  refine finds_sortMatching.bind ?_
  rintro _ rfl
  rw [hmatching.sorted_matching]
  refine finds_projectRows.mono fun results hresults => ?_
  refine ⟨projection, sort, _, hprojection, hsort, hmatching.nodup_matchingVersions,
    isStableSort_insertionSort, ?_⟩
  have hwindow : results = (window request _).map (t₀.resultOf txn projection) := hresults
  rw [hwindow, window_map, List.map_map]
  refine List.map_congr_left fun x hx => ?_
  have hx := (List.perm_insertionSort _ _).mem_iff.1 (mem_window hx)
  show t₀.resultOf txn projection x.1 = projected projection x
  rw [resultOf, projected]
  simp only [hmatching.entryAt_matching hx]

theorem Housed.consistent (h : t.Good) : t.Consistent := fun p hp page page' =>
  h.settled p (Or.inr hp) id page page'

theorem Housed.homes (h : t.Good) : t.Homed filter txn := by
  intro p hp page hcontent r row hrow _
  exact h.homed p (Or.inr hp) id page (stored_content hcontent) r (BTreeMap.mem_of_get hrow)

end AntDb.Table
