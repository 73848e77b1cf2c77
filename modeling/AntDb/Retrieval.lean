/-
  What a search finds in a table whose rows transactions in progress together read and write.

  A search by scan selects among the rows that its transaction reads, as the overlays have them.
-/
import AntDb.Scanning
import AntDb.Sharing

namespace AntDb

namespace Table

open Call

variable {t : Table} {txns : TxnState} {W : RowOverlays} {watermark V : TransactionID} {r : RowID}
  {filter : Option SearchExpression} {request : SearchRequest} {path : Option AccessPath} {txn : Transaction}

/-- A version with the entries `data`. -/
def versionOf (x : RowID × RowData) : RowID × InternalRow := (x.1, ⟨⟨0, none⟩, x.2⟩)

/-- The entries of a row pass the filter. -/
def passes (t : Table) (filter : Option SearchExpression) (txn : Transaction) (data : RowData) : Bool :=
  matchesFilter (visibleColumns t.columns txn) filter ⟨⟨0, none⟩, data⟩ = .ok true

/-- What a search shows of a row. -/
def shown (projection : List (String × ColumnID)) (x : RowID × RowData) : SearchResult :=
  projected projection (versionOf x)

theorem mem_matchingVersions_iff (hg : t.Good) {x : RowID × InternalRow} : x ∈ t.matchingVersions filter txn ↔
    (t.view.rows[x.1]?.bind (·.getVersionedRow txn)) = some x.2 ∧ t.passes filter txn x.2.data = true := by
  obtain ⟨r, version⟩ := x
  have hpasses : t.passes filter txn version.data =
      decide (matchesFilter (visibleColumns t.columns txn) filter version = .ok true) := by
    cases filter <;> rfl
  rw [matchingVersions, List.mem_filter, visibleVersions, List.mem_filterMap, hpasses]
  refine and_congr_left fun _ => ?_
  constructor
  · rintro ⟨⟨r', row⟩, hrow, hversion⟩
    obtain ⟨version', hv, heq⟩ := Option.map_eq_some_iff.1 hversion
    cases heq
    obtain ⟨p, page, hp, hcontent, hget⟩ := mem_storedRows hrow
    have hhome := hg.homed p (Or.inr hp) id page (stored_content hcontent) _ (BTreeMap.mem_of_get hget)
    rw [viewIn_get, rowIn, hhome, Option.bind_some, hcontent, Option.bind_some, hget]
    exact hv
  · intro hseen
    obtain ⟨row, hrow, hv⟩ := Option.bind_eq_some_iff.1 hseen
    obtain ⟨p, page, hp, hcontent, hget⟩ := holdsRow_iff.2 hrow
    refine ⟨(r, row), List.mem_flatMap.2 ⟨p, ?_, ?_⟩, by rw [hv]; rfl⟩
    · exact Std.ExtTreeSet.mem_toList.2 (mem_referencedPages.2 ⟨r, hp⟩)
    · rw [hcontent]
      exact BTreeMap.mem_toList.2 hget

/-- The rows among those `seen` that pass the filter, each once, sorted, cut and projected. -/
structure Selects (t : Table) (request : SearchRequest) (txn : Transaction) (seen : RowID → Option RowData)
    (projection : List (String × ColumnID)) (sort : List (ColumnID × OrderBy)) (found : List (RowID × RowData))
    (results : List SearchResult) : Prop where
  projects : projectionColumns request.projection (visibleColumns t.columns txn) = .ok projection
  sorts : sortColumns request.orderBy (visibleColumns t.columns txn) = .ok sort
  once : (found.map Prod.fst).Nodup
  all : ∀ r data, (r, data) ∈ found ↔ seen r = some data ∧ t.passes request.filter txn data = true
  ordered : found.Pairwise fun x y => compareVersions sort (versionOf x) (versionOf y) ≠ .gt
  shown : results = (window request found).map (shown projection)

namespace Bears

/-- A search moves pages at most. -/
theorem search (h : t.Bears txns W watermark) : (Table.search request txn path none t).2.Bears txns W watermark := by
  have hfollows : Follows (abiding t.rowLocations) (Table.search request txn path) := follows_search loads_abiding
  have habides := run_abiding hfollows h.unlimited
  rcases @framed_search none t.rowLocations t.view txn request path t (Shows.of_good h.good) with
    ⟨-, -, -, hheld⟩ | ⟨-, hm, -⟩
  · exact absurd rfl hheld
  · obtain ⟨hgood, -, hview⟩ := (Shows.of_good h.good).moved hm
    exact h.abided hgood habides (congrArg View.rows hview)

/-- What a transaction reads of a row. -/
theorem seen_iff (h : t.Bears txns W watermark) (hV : txns.Reader V) {data : RowData} : W.seen V r = some data ↔
    ∃ version, (t.view.rows[r]?.bind (·.getVersionedRow (txns.txn V))) = some version ∧ version.data = data := by
  rw [← h.reflects.sees V hV r, RowStore.visibleData, Option.map_eq_some_iff]

/-- **A search by scan** finds the rows that its transaction reads. -/
theorem selects {results : List SearchResult} {t' : Table} (h : t.Bears txns W watermark) (hV : txns.Reader V)
    (haggregate : request.aggregate = none)
    (hrun : Table.search request (txns.txn V) (some .seqScan) none t = (.ok results, t')) :
    ∃ projection sort found, t.Selects request (txns.txn V) (W.seen V) projection sort found results := by
  have hfinds : Finds t.Looks (Table.search request (txns.txn V) (some .seqScan)) fun results =>
      ∃ projection sort sorted, t.Scanned request (txns.txn V) projection sort sorted results := by
    unfold Table.search
    refine Finds.get fun t' ht' => ?_
    rw [haggregate, ht'.columns]
    exact finds_searchRows (Housed.homes h.good)
  obtain ⟨projection, sort, sorted, hscanned⟩ := (hfinds none t results t' (Housed.consistent h.good).looks hrun).1
  have hmem : ∀ x, x ∈ sorted ↔ x ∈ t.matchingVersions request.filter (txns.txn V) := fun x =>
    hscanned.stable.perm.mem_iff
  refine ⟨projection, sort, sorted.map fun x => (x.1, x.2.data), hscanned.projects, hscanned.sorts, ?_,
    fun r data => ?_, ?_, ?_⟩
  · rw [List.map_map]
    exact (hscanned.stable.perm.map Prod.fst).nodup_iff.2 hscanned.once
  · rw [List.mem_map, h.seen_iff hV]
    constructor
    · rintro ⟨x, hx, ⟨⟩⟩
      obtain ⟨hseen, hpass⟩ := (mem_matchingVersions_iff h.good).1 ((hmem x).1 hx)
      exact ⟨⟨x.2, hseen, rfl⟩, hpass⟩
    · rintro ⟨⟨version, hseen, rfl⟩, hpass⟩
      exact ⟨(r, version), (hmem _).2 ((mem_matchingVersions_iff h.good).2 ⟨hseen, hpass⟩), rfl⟩
  · rw [List.pairwise_map]
    exact hscanned.stable.ordered
  · rw [window_map, List.map_map]
    exact hscanned.shown

end Bears

end Table

end AntDb
