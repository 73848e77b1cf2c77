/-
  What a search computes from the view of a good table, up to the order of the rows.

  A scan visits the rows page after page, so the order of its results, and which of several
  rows that fail the filter is met first, depend on the layout of the pages.
-/
import AntDb.Reading

namespace AntDb

namespace View

open Table

/-! ## Searching a view -/

def indexLookupCandidates (v : View) (columnName : String) (value : DataBaseDataEntry)
    (txn : Transaction) (visible : BTreeMap String ColumnID) :
    Except DataBaseErrors (Option (List RowID)) :=
  match visible[columnName]? with
  | none => .ok none
  | some columnId =>
    match v.columns[columnId]? with
    | none =>
      .error (.queryError s!"Column '{columnName}' not found while resolving index lookup")
    | some column =>
      match column.indexLookup value txn with
      | none => .ok none
      | some rowIds => do return some (← v.filterVisibleIndexCandidates rowIds txn)

def equalityCandidates (v : View) (filter : Option SearchExpression) (txn : Transaction)
    (visible : BTreeMap String ColumnID) : Except DataBaseErrors (Option (List RowID)) :=
  match filter.bind (·.equalityLookup) with
  | some (columnName, value) => v.indexLookupCandidates columnName value txn visible
  | none => .ok none

def candidateRowIds (v : View) (request : SearchRequest) (txn : Transaction)
    (accessPath : Option AccessPath) (visible : BTreeMap String ColumnID) :
    Except DataBaseErrors (Option (List RowID)) :=
  match accessPath with
  | some .seqScan => .ok none
  | some (.indexEquality columnName value) => v.indexLookupCandidates columnName value txn visible
  | none => v.equalityCandidates request.filter txn visible

def checkCandidate (v : View) (filter : Option SearchExpression) (txn : Transaction)
    (visible : BTreeMap String ColumnID) (found : List RowID) (rowId : RowID) :
    Except DataBaseErrors (List RowID) := do
  match (← v.withRow rowId).bind (·.getVersionedRow txn) with
  | some version => pushMatchingRow visible filter found rowId version
  | none => return found

/-- The rows that match, in the order of their ids or of the candidates. -/
def matchingRowIds (v : View) (filter : Option SearchExpression) (txn : Transaction)
    (visible : BTreeMap String ColumnID) (candidates : Option (List RowID)) :
    Except DataBaseErrors (List RowID) :=
  match candidates with
  | some rowIds => rowIds.foldlM (v.checkCandidate filter txn visible) []
  | none => v.rows.toList.foldlM (visit txn (pushMatchingRow visible filter)) []

def projectRow (v : View) (projection : List (String × ColumnID)) (txn : Transaction)
    (rowId : RowID) : Except DataBaseErrors SearchResult := do
  match (← v.withRow rowId).bind (·.getVersionedRow txn) with
  | none => throw (.rowNotFound rowId)
  | some version =>
    return {
      rowId := rowId
      values := projection.foldl (fun values x =>
        values.insert x.1 (version.data[x.2]?.getD .null)) ∅ }

def searchCount (v : View) (request : SearchRequest) (outputName : String) (txn : Transaction)
    (visible : BTreeMap String ColumnID) : Except DataBaseErrors (List SearchResult) := do
  if request.orderBy ≠ [] then
    throw (.queryError "ORDER BY is unsupported with COUNT(*)")
  let candidates ← v.equalityCandidates request.filter txn visible
  let matching ← v.matchingRowIds request.filter txn visible candidates
  return [{
    rowId := 0
    values := (∅ : BTreeMap String DataBaseDataEntry).insert outputName
      (.integerI64 (Int64.ofNat matching.length)) }]

/-- The rows of a search without LIMIT and OFFSET, not sorted. -/
def searchRows (v : View) (request : SearchRequest) (txn : Transaction)
    (accessPath : Option AccessPath) (visible : BTreeMap String ColumnID) :
    Except DataBaseErrors (List SearchResult) := do
  let projection ← projectionColumns request.projection visible
  let _ ← sortColumns request.orderBy visible
  let candidates ← v.candidateRowIds request txn accessPath visible
  let matching ← v.matchingRowIds request.filter txn visible candidates
  matching.foldlM (fun results rowId => do return results ++ [← v.projectRow projection txn rowId]) []

def search (v : View) (request : SearchRequest) (txn : Transaction)
    (accessPath : Option AccessPath) : Except DataBaseErrors (List SearchResult) :=
  let visible := visibleColumns v.columns txn
  match request.aggregate with
  | some (.countStar outputName) => v.searchCount request outputName txn visible
  | none => v.searchRows request txn accessPath visible

/-- Does the row match, as far as `txn` sees it? -/
def verdict (filter : Option SearchExpression) (txn : Transaction)
    (visible : BTreeMap String ColumnID) (x : RowID × Row) : Except DataBaseErrors Bool :=
  match x.2.getVersionedRow txn with
  | some version => matchesFilter visible filter version
  | none => .ok false

/-- The filter of the search fails with `e` on a row that `txn` sees. -/
def FilterFails (v : View) (filter : Option SearchExpression) (txn : Transaction)
    (e : DataBaseErrors) : Prop :=
  ∃ x ∈ v.rows.toList, verdict filter txn (visibleColumns v.columns txn) x = .error e

/-- `txn` sees a version of the row. -/
def Sees (v : View) (txn : Transaction) (rowId : RowID) : Prop :=
  ∃ row version, v.withRow rowId = .ok (some row) ∧ row.getVersionedRow txn = some version

end View

/-! ## Results up to order -/

/-- The same rows in some order, or the same error; of the errors in `fails` any counts for
    another. -/
inductive SameRows {α : Type} (fails : DataBaseErrors → Prop) :
    Except Fault (List α) → Except Fault (List α) → Prop
  | ok {rows rows'} (h : rows.Perm rows') : SameRows fails (.ok rows) (.ok rows')
  | error (e) : SameRows fails (.error e) (.error e)
  | fails {e e'} (h : fails e) (h' : fails e') : SameRows fails (.error (.err e)) (.error (.err e'))

namespace SameRows

variable {α : Type} {fails : DataBaseErrors → Prop} {a b c : Except Fault (List α)}

theorem refl (a : Except Fault (List α)) : SameRows fails a a := by
  cases a with
  | ok rows => exact ok (List.Perm.refl rows)
  | error e => exact error e

theorem symm (h : SameRows fails a b) : SameRows fails b a := by
  cases h with
  | ok h => exact ok h.symm
  | error e => exact error e
  | fails h h' => exact .fails h' h

theorem trans (h : SameRows fails a b) (h' : SameRows fails b c) : SameRows fails a c := by
  cases h with
  | ok h => cases h' with | ok h' => exact ok (h.trans h')
  | error e => exact h'
  | fails h hb =>
    cases h' with
    | error => exact .fails h hb
    | fails _ h' => exact .fails h h'

end SameRows

namespace Table

open Call TableM View

variable {held : Option PageID} {ρ : RowMap} {v : View} {t : Table} {α β : Type}
  {rowId : RowID} {txn : Transaction} {value : DataBaseDataEntry} {filter : Option SearchExpression}
  {visible : BTreeMap String ColumnID} {request : SearchRequest} {accessPath : Option AccessPath}

/-! ## Candidates -/

theorem yields_indexLookupCandidates {columnName : String} :
    Yields held ρ v (indexLookupCandidates columnName value txn visible)
      (v.indexLookupCandidates columnName value txn visible) := by
  unfold indexLookupCandidates View.indexLookupCandidates
  cases visible[columnName]? with
  | none => exact Computes.pure
  | some columnId =>
    refine Computes.get fun t ht => ?_
    obtain ⟨-, -, rfl⟩ := ht
    show Computes _ _ _ (match t.columns[columnId]? with | none => _ | some column => _)
    cases t.columns[columnId]? with
    | none => exact yields_throw _
    | some column =>
      dsimp only
      cases column.indexLookup value txn with
      | none => exact Computes.pure
      | some rowIds => exact yields_filterVisibleIndexCandidates.bind fun _ _ => Computes.pure

theorem yields_equalityCandidates : Yields held ρ v (equalityCandidates filter txn visible)
    (v.equalityCandidates filter txn visible) := by
  unfold equalityCandidates View.equalityCandidates
  cases filter.bind (·.equalityLookup) with
  | none => exact Computes.pure
  | some x => exact yields_indexLookupCandidates

theorem yields_candidateRowIds : Yields held ρ v (candidateRowIds request txn accessPath visible)
    (v.candidateRowIds request txn accessPath visible) := by
  unfold candidateRowIds View.candidateRowIds
  rcases accessPath with _ | _ | ⟨columnName, value⟩
  · exact yields_equalityCandidates
  · exact Computes.pure
  · exact yields_indexLookupCandidates

/-! ## Matching rows -/

def matched (filter : Option SearchExpression) (txn : Transaction)
    (visible : BTreeMap String ColumnID) (x : RowID × Row) : Bool :=
  match verdict filter txn visible x with
  | .ok found => found
  | .error _ => false

/-- A scan of the rows stops at the first that fails the filter. -/
theorem scan_verdict (l : List (RowID × Row)) (found : List RowID) :
    match l.foldlM (visit txn (pushMatchingRow visible filter)) found with
    | .ok rowIds => (∀ x ∈ l, ∀ e, verdict filter txn visible x ≠ .error e) ∧
        rowIds = found ++ (l.filter (matched filter txn visible)).map Prod.fst
    | .error e => ∃ x ∈ l, verdict filter txn visible x = .error e := by
  induction l generalizing found with
  | nil => exact ⟨by simp, by simp⟩
  | cons x l ih =>
    have hx : visit txn (pushMatchingRow visible filter) found x =
        (verdict filter txn visible x).map fun b => if b then found ++ [x.1] else found := by
      unfold visit verdict pushMatchingRow
      cases x.2.getVersionedRow txn with
      | none => rfl
      | some version => cases matchesFilter visible filter version <;> rfl
    rw [List.foldlM_cons, hx]
    cases hv : verdict filter txn visible x with
    | error e => exact ⟨x, by simp, hv⟩
    | ok b =>
      have ih := ih (if b then found ++ [x.1] else found)
      show match l.foldlM (visit txn (pushMatchingRow visible filter)) _ with
        | .ok rowIds => _
        | .error e => _
      generalize l.foldlM (visit txn (pushMatchingRow visible filter)) _ = r at ih
      cases r with
      | error e => obtain ⟨y, hy, he⟩ := ih; exact ⟨y, by simp [hy], he⟩
      | ok rowIds =>
        refine ⟨fun y hy e => ?_, ?_⟩
        · rcases List.mem_cons.1 hy with rfl | hy
          · rw [hv]; nofun
          · exact ih.1 y hy e
        · rw [ih.2, List.filter_cons, matched, hv]
          cases b <;> simp

/-- The order of the rows does not matter to what a scan finds. -/
theorem scan_same {l l' : List (RowID × Row)} (h : l.Perm l') :
    SameRows (fun e => ∃ x ∈ l', verdict filter txn visible x = .error e)
      ((l.foldlM (visit txn (pushMatchingRow visible filter)) []).mapError Fault.err)
      ((l'.foldlM (visit txn (pushMatchingRow visible filter)) []).mapError Fault.err) := by
  have h1 := @scan_verdict txn filter visible l []
  have h2 := @scan_verdict txn filter visible l' []
  generalize l.foldlM (visit txn (pushMatchingRow visible filter)) [] = r at h1
  generalize l'.foldlM (visit txn (pushMatchingRow visible filter)) [] = r' at h2
  cases r with
  | ok rowIds =>
    cases r' with
    | ok rowIds' =>
      obtain ⟨-, rfl⟩ := h1
      obtain ⟨-, rfl⟩ := h2
      exact SameRows.ok ((h.filter _).map _)
    | error e =>
      obtain ⟨x, hx, he⟩ := h2
      exact absurd he (h1.1 x (h.mem_iff.2 hx) e)
  | error e =>
    obtain ⟨x, hx, he⟩ := h1
    cases r' with
    | ok rowIds' => exact absurd he (h2.1 x (h.mem_iff.1 hx) e)
    | error e' => exact SameRows.fails ⟨x, h.mem_iff.1 hx, he⟩ h2

theorem sees_of_visible {row : Row} {version : InternalRow}
    (hrow : t.view.rows[rowId]? = some row) (hv : row.getVersionedRow txn = some version) :
    t.view.Sees txn rowId := by
  obtain ⟨p, hp⟩ := mapped_of_row hrow
  refine ⟨row, version, ?_, hv⟩
  rw [View.withRow, if_pos (mem_rowIds.2 (BTreeMap.mem_of_get hp)), hrow]

theorem sees_of_matched {x : RowID × Row} (hx : x ∈ t.view.rows.toList)
    (hm : matched filter txn visible x = true) : t.view.Sees txn x.1 := by
  unfold matched verdict at hm
  cases hv : x.2.getVersionedRow txn with
  | none => rw [hv] at hm; cases hm
  | some version => exact sees_of_visible (BTreeMap.mem_toList.1 hx) hv

theorem checkCandidate_ok {found found' : List RowID}
    (h : v.checkCandidate filter txn visible found rowId = .ok found') :
    found' = found ∨ found' = found ++ [rowId] ∧ v.Sees txn rowId := by
  unfold View.checkCandidate at h
  cases hrow : v.withRow rowId with
  | error e => rw [hrow] at h; cases h
  | ok row =>
    rw [hrow] at h
    cases hv : row.bind (·.getVersionedRow txn) with
    | none =>
      change (match row.bind (·.getVersionedRow txn) with
        | some version => pushMatchingRow visible filter found rowId version
        | none => .ok found) = _ at h
      rw [hv] at h
      exact Or.inl (Except.ok.inj h).symm
    | some version =>
      obtain ⟨row, rfl, hv'⟩ := Option.bind_eq_some_iff.1 hv
      change (match Option.bind (some row) (·.getVersionedRow txn) with
        | some version => pushMatchingRow visible filter found rowId version
        | none => .ok found) = _ at h
      rw [hv] at h
      dsimp only [pushMatchingRow] at h
      cases hm : matchesFilter visible filter version with
      | error e => rw [hm] at h; cases h
      | ok b =>
        rw [hm] at h
        obtain rfl := Except.ok.inj h
        cases b with
        | false => exact Or.inl rfl
        | true => exact Or.inr ⟨rfl, row, version, hrow, hv'⟩

/-- Candidates that match are visible. -/
theorem sees_of_candidate {rowIds found found' : List RowID} (hs : ∀ r ∈ found, v.Sees txn r)
    (h : rowIds.foldlM (v.checkCandidate filter txn visible) found = .ok found') :
    ∀ r ∈ found', v.Sees txn r := by
  induction rowIds generalizing found with
  | nil => obtain rfl := Except.ok.inj h; exact hs
  | cons rowId rowIds ih =>
    rw [List.foldlM_cons] at h
    cases hc : v.checkCandidate filter txn visible found rowId with
    | error e => rw [hc] at h; cases h
    | ok found₁ =>
      rw [hc] at h
      refine ih (fun r hr => ?_) h
      rcases checkCandidate_ok hc with rfl | ⟨rfl, hsees⟩
      · exact hs r hr
      · rcases List.mem_append.1 hr with hr | hr
        · exact hs r hr
        · exact List.mem_singleton.1 hr ▸ hsees

/-- The rows that match are those of the view, and visible. -/
theorem framed_matchingRowIds {candidates : Option (List RowID)} :
    Framed (reading held ρ v)
      (matchingRowIds filter txn (visibleColumns v.columns txn) candidates) fun r =>
      SameRows (v.FilterFails filter txn) r
          ((v.matchingRowIds filter txn (visibleColumns v.columns txn) candidates).mapError .err) ∧
        ∀ rowIds, r = .ok rowIds → ∀ rowId ∈ rowIds, v.Sees txn rowId := by
  cases candidates with
  | none =>
    refine Framed.assuming fun t ht => ?_
    obtain ⟨-, rfl, rfl⟩ := ht
    refine Framed.mono yields_scanVisible ?_
    rintro _ rfl
    refine ⟨scan_same scan_perm, fun rowIds h rowId hr => ?_⟩
    have hscan := @scan_verdict txn filter (visibleColumns t.view.columns txn)
      (scanOrder t.rowLocations t.view) []
    cases hf : (scanOrder t.rowLocations t.view).foldlM
        (visit txn (pushMatchingRow (visibleColumns t.view.columns txn) filter)) [] with
    | error e => rw [hf] at h; cases h
    | ok found =>
      rw [hf] at h hscan
      obtain rfl := Except.ok.inj h
      rw [hscan.2, List.nil_append] at hr
      obtain ⟨x, hx, rfl⟩ := List.mem_map.1 hr
      obtain ⟨hx, hm⟩ := List.mem_filter.1 hx
      exact sees_of_matched (scan_perm.mem_iff.1 hx) hm
  | some rowIds =>
    have hy : Yields held ρ v
        (matchingRowIds filter txn (visibleColumns v.columns txn) (some rowIds))
        (v.matchingRowIds filter txn (visibleColumns v.columns txn) (some rowIds)) := by
      refine Computes.foldlM fun found r _ => yields_withRow.bind fun row _ => ?_
      cases row.bind (·.getVersionedRow txn) with
      | none => exact Computes.pure
      | some version => exact yields_ofResult _
    refine Framed.mono hy ?_
    rintro _ rfl
    refine ⟨SameRows.refl _, fun found h => ?_⟩
    cases hf : v.matchingRowIds filter txn (visibleColumns v.columns txn) (some rowIds) with
    | error e => rw [hf] at h; cases h
    | ok found' =>
      rw [hf] at h
      obtain rfl := Except.ok.inj h
      exact sees_of_candidate (by simp) hf

/-! ## Sorting and projecting -/

theorem framed_sortsAfter {a b : RowID} (ha : v.Sees txn a) (hb : v.Sees txn b)
    (columns : List (ColumnID × OrderBy)) :
    Framed (reading held ρ v) (sortsAfter columns txn a b) fun r => ∃ after, r = .ok after := by
  have hread : ∀ r columnId, v.Sees txn r → Framed (reading held ρ v)
      ((withVersionedColumnEntry r columnId txn).expect unreadableDuringSort) fun r =>
        ∃ entry, r = .ok entry := by
    rintro r columnId ⟨row, version, hrow, hv⟩
    refine Framed.handling yields_withVersionedColumnEntry (fun entry _ => ⟨entry, rfl⟩)
      (fun e he s => by rw [he.1]; rfl) fun e he => ?_
    rw [View.withVersionedColumnEntry, hrow] at he
    cases he
  induction columns with
  | nil => exact Framed.pure ⟨_, rfl⟩
  | cons column columns ih =>
    refine (hread a _ ha).bind (fun left _ => (hread b _ hb).bind (fun right _ => ?_) ?_) ?_
    · obtain ⟨columnId, orderBy⟩ := column
      dsimp only
      cases (left.getD .null).cmp (right.getD .null) with
      | eq => exact ih
      | lt => cases orderBy <;> exact Framed.pure ⟨_, rfl⟩
      | gt => cases orderBy <;> exact Framed.pure ⟨_, rfl⟩
    · rintro e ⟨_, h⟩; cases h
    · rintro e ⟨_, h⟩; cases h

theorem framed_insertSorted {columns : List (ColumnID × OrderBy)} {a : RowID}
    (ha : v.Sees txn a) {sorted : List RowID} (hs : ∀ r ∈ sorted, v.Sees txn r) :
    Framed (reading held ρ v) (insertSorted columns txn a sorted) fun r =>
      ∃ sorted', r = .ok sorted' ∧ sorted'.Perm (a :: sorted) := by
  induction sorted with
  | nil => exact Framed.pure ⟨_, rfl, List.Perm.refl _⟩
  | cons b sorted ih =>
    have ih := ih fun r hr => hs r (List.mem_cons_of_mem _ hr)
    refine (framed_sortsAfter ha (hs b (by simp)) columns).bind (fun after _ => ?_) ?_
    · cases after with
      | false => exact Framed.pure ⟨_, rfl, List.Perm.refl _⟩
      | true =>
        refine ih.bind ?_ ?_
        · rintro _ ⟨sorted', h, hperm⟩
          obtain rfl := Except.ok.inj h
          exact Framed.pure ⟨_, rfl, (hperm.cons b).trans (List.Perm.swap a b sorted)⟩
        · rintro e ⟨_, h, -⟩; cases h
    · rintro e ⟨_, h⟩; cases h

/-- Sorting rows that can be read permutes them. -/
theorem framed_sortRowIds {columns : List (ColumnID × OrderBy)} {rowIds : List RowID}
    (hs : ∀ r ∈ rowIds, v.Sees txn r) :
    Framed (reading held ρ v) (sortRowIds columns txn rowIds) fun r =>
      ∃ sorted, r = .ok sorted ∧ sorted.Perm rowIds := by
  induction rowIds with
  | nil => exact Framed.pure ⟨_, rfl, List.Perm.refl _⟩
  | cons a rowIds ih =>
    refine (ih fun r hr => hs r (List.mem_cons_of_mem _ hr)).bind ?_ ?_
    · rintro _ ⟨sorted, h, hperm⟩
      obtain rfl := Except.ok.inj h
      refine (framed_insertSorted (hs a (by simp)) fun r hr => ?_).mono ?_
      · exact hs r (List.mem_cons_of_mem _ (hperm.mem_iff.1 hr))
      · rintro _ ⟨sorted', rfl, hperm'⟩
        exact ⟨sorted', rfl, hperm'.trans (hperm.cons a)⟩
    · rintro e ⟨_, h, -⟩; cases h

theorem framed_sortMatching {columns : List (ColumnID × OrderBy)} {rowIds : List RowID}
    (hs : ∀ r ∈ rowIds, v.Sees txn r) :
    Framed (reading held ρ v) (sortMatching columns txn rowIds) fun r =>
      ∃ sorted, r = .ok sorted ∧ sorted.Perm rowIds := by
  unfold sortMatching
  split_ifs
  · exact Framed.pure ⟨_, rfl, List.Perm.refl _⟩
  · exact framed_sortRowIds hs

theorem yields_projectRow {projection : List (String × ColumnID)} :
    Yields held ρ v (projectRow projection txn rowId) (v.projectRow projection txn rowId) := by
  refine yields_withRow.bind fun row _ => ?_
  cases row.bind (·.getVersionedRow txn) with
  | none => exact yields_throw _
  | some version => exact Computes.pure

theorem projectRow_ok {projection : List (String × ColumnID)} (h : v.Sees txn rowId) :
    ∃ result, v.projectRow projection txn rowId = .ok result := by
  obtain ⟨row, version, hrow, hv⟩ := h
  simp [View.projectRow, hrow, hv, bind, Except.bind, pure, Except.pure]

/-- Rows that can be read are projected one by one. -/
theorem projectRows_ok {projection : List (String × ColumnID)} :
    ∃ project : RowID → SearchResult, ∀ rowIds : List RowID, (∀ r ∈ rowIds, v.Sees txn r) →
      ∀ results, rowIds.foldlM (fun results rowId => do
          return results ++ [← v.projectRow projection txn rowId]) results =
        .ok (results ++ rowIds.map project) := by
  refine ⟨fun rowId => ((v.projectRow projection txn rowId).toOption).getD ⟨rowId, ∅⟩,
    fun rowIds hs => ?_⟩
  induction rowIds with
  | nil => intro results; simp; rfl
  | cons a rowIds ih =>
    intro results
    obtain ⟨result, hproject⟩ := projectRow_ok (hs a (by simp))
    rw [List.foldlM_cons, hproject]
    show List.foldlM _ (results ++ [result]) rowIds = _
    rw [ih (fun r hr => hs r (List.mem_cons_of_mem _ hr))]
    simp [hproject, Except.toOption]

/-! ## The search -/

/-- What follows the matching of the rows may not depend on their order. -/
theorem framed_matching {filter : Option SearchExpression} {candidates : Option (List RowID)}
    {f : List RowID → TableM (List β)} {g : List RowID → Except DataBaseErrors (List β)} {C : Prop}
    (hf : ∀ rowIds rowIds', rowIds.Perm rowIds' → (∀ r ∈ rowIds, v.Sees txn r) →
      Framed (reading held ρ v) (f rowIds) fun r =>
        C → SameRows (v.FilterFails filter txn) r ((g rowIds').mapError .err)) :
    Framed (reading held ρ v)
      (matchingRowIds filter txn (visibleColumns v.columns txn) candidates >>= f) fun r =>
        C → SameRows (v.FilterFails filter txn) r
          ((v.matchingRowIds filter txn (visibleColumns v.columns txn) candidates >>= g).mapError
            .err) := by
  refine framed_matchingRowIds.bind (fun rowIds h => ?_) fun e h => ?_
  · obtain ⟨hsame, hsees⟩ := h
    cases hv : v.matchingRowIds filter txn (visibleColumns v.columns txn) candidates with
    | error e => rw [hv] at hsame; cases hsame
    | ok rowIds' =>
      rw [hv] at hsame
      cases hsame with
      | ok hperm => exact hf rowIds rowIds' hperm (hsees rowIds rfl)
  · obtain ⟨hsame, -⟩ := h
    intro _
    cases hv : v.matchingRowIds filter txn (visibleColumns v.columns txn) candidates with
    | ok rowIds' => rw [hv] at hsame; cases hsame
    | error e' =>
      rw [hv] at hsame
      cases hsame with
      | error => exact SameRows.error _
      | fails h h' => exact SameRows.fails h h'

theorem framed_searchCount {outputName : String} :
    Framed (reading held ρ v) (searchCount request outputName txn (visibleColumns v.columns txn))
      fun r => True → SameRows (v.FilterFails request.filter txn) r
        ((v.searchCount request outputName txn (visibleColumns v.columns txn)).mapError .err) := by
  unfold searchCount View.searchCount
  by_cases hsort : request.orderBy ≠ []
  · rw [if_pos hsort, if_pos hsort]
    exact Framed.fail fun _ => SameRows.refl _
  rw [if_neg hsort, if_neg hsort]
  refine yields_equalityCandidates.followed (fun candidates hc => ?_) fun e he => ?_
  · rw [hc]
    refine framed_matching fun rowIds rowIds' hperm _ => Framed.pure fun _ => ?_
    rw [hperm.length_eq]
    exact SameRows.refl _
  · rw [he]; exact fun _ => SameRows.refl _

theorem framed_searchRows :
    Framed (reading held ρ v) (searchRows request txn accessPath (visibleColumns v.columns txn))
      fun r => request.limit = none ∧ request.offset = none →
        SameRows (v.FilterFails request.filter txn) r
          ((v.searchRows request txn accessPath (visibleColumns v.columns txn)).mapError .err) := by
  unfold searchRows View.searchRows
  refine (yields_ofResult _).followed (fun projection hp => ?_) fun e he => ?_
  · rw [hp]
    refine (yields_ofResult _).followed (fun sort hs => ?_) fun e he => ?_
    · rw [hs]
      refine yields_candidateRowIds.followed (fun candidates hc => ?_) fun e he => ?_
      · rw [hc]
        refine framed_matching fun rowIds rowIds' hperm hsees => ?_
        refine (framed_sortMatching hsees).bind ?_ ?_
        · rintro _ ⟨sorted, h, hsort⟩
          obtain rfl := Except.ok.inj h
          obtain ⟨project, hproject⟩ := projectRows_ok (v := v)
          refine Framed.mono (Computes.foldlM (g := fun results rowId => do
              return results ++ [← v.projectRow projection txn rowId]) fun results r _ =>
            yields_projectRow.bind fun result _ => Computes.pure) ?_
          rintro _ rfl ⟨hlimit, hoffset⟩
          rw [hlimit, hoffset]
          dsimp only [Option.getD_none]
          rw [List.drop_zero, hproject _ fun r hr => hsees r (hsort.mem_iff.1 hr),
            hproject _ fun r hr => hsees r (hperm.mem_iff.2 hr)]
          exact SameRows.ok (((hsort.trans hperm).map _).append_left _)
        · rintro e ⟨_, h, -⟩; cases h
      · rw [he]; exact fun _ => SameRows.refl _
    · rw [he]; exact fun _ => SameRows.refl _
  · rw [he]; exact fun _ => SameRows.refl _

/-- **A search finds what its view says**, in some order. -/
theorem framed_search : Framed (reading held ρ v) (search request txn accessPath) fun r =>
    request.limit = none ∧ request.offset = none →
      SameRows (v.FilterFails request.filter txn) r
        ((v.search request txn accessPath).mapError .err) := by
  refine Framed.get fun t ht => ?_
  obtain ⟨-, -, rfl⟩ := ht
  unfold View.search
  show Framed _ (match request.aggregate with | some (.countStar outputName) => _ | none => _) _
  rcases request.aggregate with _ | ⟨outputName⟩
  · exact framed_searchRows
  · exact framed_searchCount.mono fun r h _ => h trivial

end Table

end AntDb
