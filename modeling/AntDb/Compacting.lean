/-
  Compaction repacks rows into fresh pages: each row ends on one page, under the id the
  new row map gives for it, and nothing else does.
-/
import AntDb.Flushing

namespace AntDb.Table

open Call TableM

/-- The pages filled so far hold the rows of `m`, each where the new row map says. -/
structure Compaction.Holds (c : Compaction) (m : BTreeMap RowID Row) : Prop where
  homed : ∀ p page, c.space.get? p = some page → ∀ (r : RowID) (row : Row),
    page.rows[r]? = some row → c.locations[r]? = some p ∧ m[r]? = some row
  placed : ∀ (r : RowID) (row : Row), m[r]? = some row → ∃ p page,
    c.locations[r]? = some p ∧ c.space.get? p = some page ∧ page.rows[r]? = some row
  located : ∀ (r : RowID) (p : PageID), c.locations[r]? = some p → r ∈ m
  lt : ∀ p page, c.space.get? p = some page → p < c.nextPageId

namespace Compaction.Holds

variable {c : Compaction} {m : BTreeMap RowID Row} {pageSize : ℕ} {p : PageID} {page : Page}
  {r : RowID} {row : Row} {f : Page → Page} {hf : ∀ page, (f page).pageId = page.pageId}

theorem empty : Compaction.Holds ⟨.empty, ∅, 0⟩ ∅ where
  homed p page h := by simp at h
  placed r row h := by simp at h
  located r p h := by simp at h
  lt p page h := by simp at h

theorem get_allocPage (q : PageID) : (c.allocPage pageSize).space.get? q =
    if c.nextPageId = q then some (Page.new c.nextPageId pageSize) else c.space.get? q :=
  PageMap.get?_insert

theorem allocPage (h : c.Holds m) : (c.allocPage pageSize).Holds m := by
  have hne : ∀ p page, c.space.get? p = some page → c.nextPageId ≠ p := fun p page hp =>
    (h.lt p page hp).ne'
  constructor
  · intro p page hp r row hr
    rw [get_allocPage] at hp
    split_ifs at hp
    · obtain rfl := Option.some.inj hp
      simp [Page.new] at hr
    · exact h.homed p page hp r row hr
  · intro r row hr
    obtain ⟨p, page, hl, hp, hrow⟩ := h.placed r row hr
    exact ⟨p, page, hl, by rw [get_allocPage, if_neg (hne p page hp), hp], hrow⟩
  · exact h.located
  · intro p page hp
    show p < c.nextPageId + 1
    rw [get_allocPage] at hp
    split_ifs at hp with hq
    · exact hq ▸ Nat.lt_succ_self _
    · exact Nat.lt_succ_of_lt (h.lt p page hp)

/-- Changing pages in anything but their rows. -/
theorem retouched (h : c.Holds m) (hrows : ∀ page, (f page).rows = page.rows) :
    ({ c with space := c.space.update p f hf } : Compaction).Holds m := by
  have hget : ∀ q, (c.space.update p f hf).get? q =
      if p = q then (c.space.get? q).map f else c.space.get? q := fun q => @PageMap.get?_update _ _ _ _ hf
  have hsome : ∀ q page', (c.space.update p f hf).get? q = some page' →
      ∃ page, c.space.get? q = some page ∧ page'.rows = page.rows := by
    intro q page' hq
    rw [hget] at hq
    split_ifs at hq
    · obtain ⟨page, hpage, rfl⟩ := Option.map_eq_some_iff.1 hq
      exact ⟨page, hpage, hrows page⟩
    · exact ⟨page', hq, rfl⟩
  constructor
  · intro q page' hq r row hr
    obtain ⟨page, hpage, e⟩ := hsome q page' hq
    exact h.homed q page hpage r row (e ▸ hr)
  · intro r row hr
    obtain ⟨q, page, hl, hq, hrow⟩ := h.placed r row hr
    by_cases hpq : p = q
    · exact ⟨q, f page, hl, by rw [hget, if_pos hpq, hq]; rfl, by rw [hrows, hrow]⟩
    · exact ⟨q, page, hl, by rw [hget, if_neg hpq, hq], hrow⟩
  · exact h.located
  · intro q page' hq
    obtain ⟨page, hpage, -⟩ := hsome q page' hq
    exact h.lt q page hpage

theorem appendTo (h : c.Holds m) (hp : c.space.get? p = some page) (hr : r ∉ m) :
    (c.appendTo p r row).Holds (m.insert r row) := by
  have hget : ∀ q, (c.appendTo p r row).space.get? q =
      if p = q then (c.space.get? q).map (·.append r row row.sizeBytes) else c.space.get? q :=
    fun q => @PageMap.get?_update _ _ _ _ (pageId_append r row row.sizeBytes)
  have hloc : ∀ r' : RowID, (c.appendTo p r row).locations[r']? =
      if r = r' then some p else c.locations[r']? := fun r' => BTreeMap.get_insert _ _ _ _
  have hrow : ∀ r' : RowID, (page.append r row row.sizeBytes).rows[r']? =
      if r = r' then some row else page.rows[r']? := fun r' => BTreeMap.get_insert _ _ _ _
  constructor
  · intro q page' hq r' row' hr'
    rw [hget] at hq
    rw [hloc, BTreeMap.get_insert]
    split_ifs at hq with hpq
    · subst hpq
      rw [hp] at hq
      obtain rfl := Option.some.inj hq
      rw [hrow] at hr'
      split_ifs at hr' ⊢ with he
      · exact ⟨rfl, hr'⟩
      · exact h.homed p page hp r' row' hr'
    · obtain ⟨hl, hm⟩ := h.homed q page' hq r' row' hr'
      have he : r ≠ r' := fun he => hr (he ▸ BTreeMap.mem_of_get hm)
      rw [if_neg he, if_neg he]
      exact ⟨hl, hm⟩
  · intro r' row' hr'
    rw [BTreeMap.get_insert] at hr'
    split_ifs at hr' with he
    · subst he
      obtain rfl := Option.some.inj hr'
      exact ⟨p, _, by rw [hloc, if_pos rfl], by rw [hget, if_pos rfl, hp]; rfl, by rw [hrow, if_pos rfl]⟩
    · obtain ⟨q, page', hl, hq, hrow'⟩ := h.placed r' row' hr'
      by_cases hpq : p = q
      · subst hpq
        rw [hp] at hq
        obtain rfl := Option.some.inj hq
        exact ⟨p, _, by rw [hloc, if_neg he, hl], by rw [hget, if_pos rfl, hp]; rfl,
          by rw [hrow, if_neg he, hrow']⟩
      · exact ⟨q, page', by rw [hloc, if_neg he, hl], by rw [hget, if_neg hpq, hq], hrow'⟩
  · intro r' q hl
    rw [hloc] at hl
    rw [Std.ExtTreeMap.mem_insert, Std.LawfulEqOrd.compare_eq_iff_eq]
    split_ifs at hl with he
    · exact Or.inl he
    · exact Or.inr (h.located r' q hl)
  · intro q page' hq
    rw [hget] at hq
    split_ifs at hq
    · obtain ⟨page'', hpage, -⟩ := Option.map_eq_some_iff.1 hq
      exact h.lt q page'' hpage
    · exact h.lt q page' hq

theorem extendChain (h : c.Holds m) (n : ℕ) (previous : PageID) :
    (c.extendChain pageSize n previous).Holds m := by
  induction n generalizing c previous with
  | zero => exact h
  | succ n ih =>
    have hmarked : ({ c.allocPage pageSize with
        space := (c.allocPage pageSize).space.update c.nextPageId fun page =>
          { page with isOverflow := true, usedBytes := page.capacity } } : Compaction).Holds m :=
      retouched (allocPage h) fun _ => rfl
    exact ih (@retouched _ m previous (fun page => { page with nextPage := some c.nextPageId })
      (fun _ => rfl) hmarked fun _ => rfl) _

theorem placeRow (h : c.Holds m) (hr : r ∉ m) :
    (Compaction.placeRow pageSize c (r, row)).Holds (m.insert r row) := by
  have hfresh : (c.allocPage pageSize).space.get? c.nextPageId =
      some (Page.new c.nextPageId pageSize) := by rw [get_allocPage, if_pos rfl]
  unfold Compaction.placeRow
  split_ifs
  · exact extendChain (appendTo (allocPage h) hfresh hr) _ _
  · cases htail : (c.space.keys.getLast?.bind c.space.get?).filter (·.hasRoomFor row.sizeBytes) with
    | none => exact appendTo (allocPage h) hfresh hr
    | some tail =>
      obtain ⟨htail, -⟩ := Option.filter_eq_some_iff.1 htail
      obtain ⟨p, -, hp⟩ := Option.bind_eq_some_iff.1 htail
      obtain rfl := PageMap.pageId_of_get hp
      exact appendTo h hp hr

end Compaction.Holds

/-! ## The rows compaction finds -/

/-- Each row id is on at most one resident page. -/
def OneHome (t : Table) : Prop :=
  ∀ p p' page page', t.rowSpace.get? p = some page → t.rowSpace.get? p' = some page' →
    ∀ r, r ∈ page.rows → r ∈ page'.rows → p = p'

/-- The row is on a resident page, with a version. -/
def Live (t : Table) (r : RowID) (row : Row) : Prop :=
  row.versions ≠ [] ∧ ∃ p page, t.rowSpace.get? p = some page ∧ page.rows[r]? = some row

theorem mem_liveRows {t : Table} {r : RowID} {row : Row} : (r, row) ∈ t.liveRows ↔ t.Live r row := by
  rw [liveRows, List.mem_insertionSort, List.mem_filter, List.mem_flatMap, and_comm, Live]
  refine and_congr decide_eq_true_iff ⟨?_, ?_⟩
  · rintro ⟨page, hpage, hrow⟩
    exact ⟨page.pageId, page, PageMap.mem_values.1 hpage, BTreeMap.mem_toList.1 hrow⟩
  · rintro ⟨p, page, hp, hrow⟩
    have hid := PageMap.pageId_of_get hp
    exact ⟨page, PageMap.mem_values.2 (by rw [hid, hp]), BTreeMap.mem_toList.2 hrow⟩

theorem OneHome.nodup_liveRows {t : Table} (h : t.OneHome) : (t.liveRows.map Prod.fst).Nodup := by
  have hall : ((t.rowSpace.values.flatMap fun page => page.rows.toList).map Prod.fst).Nodup := by
    rw [List.map_flatMap]
    refine List.nodup_flatMap.2 ⟨fun page _ => BTreeMap.nodup_keys page.rows, ?_⟩
    have hpages : t.rowSpace.values.Pairwise fun page page' => page.pageId ≠ page'.pageId := by
      rw [PageMap.values, List.pairwise_map]
      refine Std.ExtTreeMap.distinct_keys_toList.imp_of_mem fun {x y} hx hy hne he => hne ?_
      rw [Std.LawfulEqOrd.compare_eq_iff_eq,
        ← t.rowSpace.named x.1 x.2 (BTreeMap.mem_toList.1 hx),
        ← t.rowSpace.named y.1 y.2 (BTreeMap.mem_toList.1 hy), he]
    refine hpages.imp_of_mem fun {page page'} hp hp' hne => ?_
    rw [Function.onFun, List.disjoint_left]
    intro r hr hr'
    rw [Std.ExtTreeMap.map_fst_toList_eq_keys, Std.ExtTreeMap.mem_keys] at hr hr'
    exact hne (h _ _ page page' (PageMap.mem_values.1 hp) (PageMap.mem_values.1 hp') r hr hr')
  refine ((List.perm_insertionSort _ _).map Prod.fst).nodup_iff.2 ?_
  exact hall.sublist ((List.filter_sublist).map _)

/-- The rows are found in the order of their ids. -/
theorem OneHome.sorted_liveRows {t : Table} (h : t.OneHome) :
    (t.liveRows.map Prod.fst).Pairwise (· < ·) := by
  have hle : (t.liveRows.map Prod.fst).Pairwise (· ≤ ·) :=
    List.pairwise_map.2 (List.pairwise_insertionSort (fun a b : RowID × Row => a.1 ≤ b.1) _)
  exact (hle.and h.nodup_liveRows).imp fun ⟨hle, hne⟩ => lt_of_le_of_ne hle hne

/-! ## The rows one after the other -/

/-- **The rule for compaction.**  What placing a row that follows the rows held keeps, with the row
    held as well, holds when all rows have been placed. -/
theorem Compaction.foldl_placeRow {pageSize : ℕ} {I : Compaction → BTreeMap RowID Row → Prop}
    (hstep : ∀ c m r row, I c m → (∀ r' ∈ m, r' < r) →
      I (placeRow pageSize c (r, row)) (m.insert r row)) {l : List (RowID × Row)} {c : Compaction}
    {m : BTreeMap RowID Row} (h : I c m) (hsorted : (l.map Prod.fst).Pairwise (· < ·))
    (hnew : ∀ x ∈ l, ∀ r ∈ m, r < x.1) :
    ∃ m' : BTreeMap RowID Row, I (l.foldl (placeRow pageSize) c) m' ∧
      ∀ (r : RowID) (row : Row), m'[r]? = some row ↔ (r, row) ∈ l ∨ m[r]? = some row := by
  induction l generalizing c m with
  | nil => exact ⟨m, h, fun r row => by simp⟩
  | cons x l ih =>
    obtain ⟨r, row⟩ := x
    rw [List.map_cons, List.pairwise_cons] at hsorted
    have hlater : ∀ x ∈ l, r < x.1 := fun x hx => hsorted.1 x.1 (List.mem_map.2 ⟨x, hx, rfl⟩)
    have hr : r ∉ m := fun hr => lt_irrefl r (hnew (r, row) (by simp) r hr)
    obtain ⟨m', hm', hmem⟩ := ih (hstep c m r row h (hnew (r, row) (by simp))) hsorted.2
      fun x hx r' hr' => by
        rw [Std.ExtTreeMap.mem_insert, Std.LawfulEqOrd.compare_eq_iff_eq] at hr'
        rcases hr' with rfl | hr'
        · exact hlater x hx
        · exact hnew x (by simp [hx]) r' hr'
    refine ⟨m', hm', fun r' row' => ?_⟩
    rw [hmem, BTreeMap.get_insert, List.mem_cons, Prod.mk.injEq]
    by_cases he : r = r'
    · subst he
      have hnot : (r, row') ∉ l := fun h => lt_irrefl r (hlater _ h)
      have hnone : m[r]? = none := Std.ExtTreeMap.getElem?_eq_none hr
      simp [hnot, hnone, eq_comm]
    · simp [he, Ne.symm he]

/-- The rows placed are the rows found, each on the page it is mapped to. -/
theorem OneHome.compacted {t : Table} {I : Compaction → BTreeMap RowID Row → Prop} (h : t.OneHome)
    (hempty : I ⟨.empty, ∅, 0⟩ ∅)
    (hstep : ∀ c m r row, c.Holds m → I c m → (∀ r' ∈ m, r' < r) →
      I (Compaction.placeRow t.pageSize c (r, row)) (m.insert r row)) :
    ∃ (c : Compaction) (m : BTreeMap RowID Row), t.compact.rowSpace = c.space ∧
      t.compact.rowLocations = c.locations ∧ t.compact.nextPageId = c.nextPageId ∧
      c.Holds m ∧ I c m ∧ ∀ (r : RowID) (row : Row), m[r]? = some row ↔ t.Live r row := by
  obtain ⟨m, ⟨hholds, hI⟩, hmem⟩ := Compaction.foldl_placeRow
    (I := fun c m => c.Holds m ∧ I c m) (c := ⟨.empty, ∅, 0⟩) (m := ∅)
    (fun c m r row ⟨hholds, hI⟩ hlater =>
      ⟨hholds.placeRow fun hr => lt_irrefl r (hlater r hr), hstep c m r row hholds hI hlater⟩)
    ⟨Compaction.Holds.empty, hempty⟩ h.sorted_liveRows (fun x _ r hr => by simp at hr)
  refine ⟨_, m, rfl, rfl, rfl, hholds, hI, fun r row => ?_⟩
  rw [hmem, mem_liveRows, Std.ExtTreeMap.getElem?_empty]
  exact or_iff_left nofun

end AntDb.Table
