/-
  What `flush_all_pages` and `persist_dirty_pages` leave in memory and in the page file.
-/
import AntDb.Writing

namespace AntDb

open LastMatch

namespace PageMap

variable {s : PageMap} {p : PageID} {page : Page} {l : List Page}

/-- The last of the pages written under an id is the one read back. -/
theorem get?_foldl_insert :
    (l.foldl insert s).get? p = (findLast (·.pageId = p) l).or (s.get? p) := by
  induction l generalizing s with
  | nil => rfl
  | cons page l ih =>
    rw [List.foldl_cons, ih, get?_insert, ← List.singleton_append, findLast_append, Option.or_assoc]
    congr 1
    by_cases h : page.pageId = p <;> simp [findLast, h]

theorem findLast_values : findLast (·.pageId = p) s.values = s.get? p := by
  cases hp : s.get? p with
  | none =>
    refine findLast_none.2 fun page hpage => decide_eq_false fun h => ?_
    rw [mem_values, h, hp] at hpage; cases hpage
  | some page =>
    have hid := pageId_of_get hp
    have hmem : page ∈ s.values := mem_values.2 (by rw [hid, hp])
    obtain ⟨page', hpage'⟩ := Option.isSome_iff_exists.1
      ((findLast_isSome (p := fun page => decide (page.pageId = p))).2 ⟨page, hmem, by simpa using hid⟩)
    obtain ⟨pre, post, hlast⟩ := findLast_some.1 hpage'
    have hget := mem_values.1 hlast.mem
    rw [of_decide_eq_true hlast.holds, hp] at hget
    rw [hpage', Option.some.inj hget]

end PageMap

namespace Table

open Call TableM

variable {t t' : Table} {ρ : RowMap} {p : PageID} {page page' : Page} {held : Option PageID}
  {L : PageID → Prop}

/-! ## The flush -/

/-- The resident pages, all of them clean. -/
theorem pageId_cleaned (page : Page) :
    ({ page with isDirty := false } : Page).pageId = page.pageId := rfl

def cleaned (t : Table) : PageMap :=
  t.rowSpace.map (fun page => { page with isDirty := false }) pageId_cleaned

/-- The records of pages that are not resident; the flush keeps them. -/
def keptRecords (t : Table) : List Page :=
  (t.pageStore.pages.keys.filter fun p => p ∉ t.rowSpace.pages).filterMap t.pageStore.pages.get?

def flushed (t : Table) : Table :=
  { t with
    rowSpace := t.cleaned
    pageStore := t.pageStore.wrote none
      ((t.keptRecords ++ t.cleaned.values).foldl PageMap.insert .empty) t.rowLocations
    onDiskPages := .ofList ((t.keptRecords ++ t.cleaned.values).map (·.pageId)) compare }

/-- Reading the table, when there is something to read. -/
theorem read_run {α : Type} {f : Table → Except DataBaseErrors α} {a : α} (h : f t = .ok a) :
    TableM.read f held t = (.ok a, t) := by
  unfold TableM.read
  rw [get_bind, h]; rfl

theorem reading_ok {α : Type} {store : PageStore} (hr : store.readFault = none) (a : α) :
    store.reading a = .ok a := by
  rw [PageStore.reading, hr]

theorem writing_ok {store store' : PageStore} (hw : store.writeFault = none) :
    store.writing store' = .ok store' := by
  rw [PageStore.writing, hw]

theorem keepRecord_run (hr : t.pageStore.readFault = none) (kept : List Page) :
    keepRecord kept p held t = (.ok (kept ++ (t.pageStore.pages.get? p).toList), t) := by
  have hread : t.pageStore.readPage p = .ok (t.pageStore.pages.get? p) := reading_ok hr _
  unfold keepRecord
  rw [bind_ok (read_run hread)]
  cases t.pageStore.pages.get? p with
  | none => rw [Option.toList_none, List.append_nil]; rfl
  | some page => rfl

theorem keepRecords_run (hr : t.pageStore.readFault = none) (l : List PageID) (kept : List Page) :
    l.foldlM keepRecord kept held t = (.ok (kept ++ l.filterMap t.pageStore.pages.get?), t) := by
  induction l generalizing kept with
  | nil => rw [List.filterMap_nil, List.append_nil]; rfl
  | cons p l ih =>
    rw [List.foldlM_cons, bind_ok (keepRecord_run hr kept), ih, List.append_assoc]
    cases hp : t.pageStore.pages.get? p with
    | none => rw [List.filterMap_cons_none hp]; rfl
    | some page => rw [List.filterMap_cons_some hp]; rfl

theorem flushAllPages_run (hr : t.pageStore.readFault = none) (hw : t.pageStore.writeFault = none) :
    flushAllPages held t = (.ok (), t.flushed) := by
  have hlist : t.pageStore.listPageIds = .ok t.pageStore.pages.keys := reading_ok hr _
  have hwrite : ∀ pages ρ, t.pageStore.writeAll pages ρ =
      .ok (t.pageStore.wrote none (pages.foldl PageMap.insert .empty) ρ) :=
    fun pages ρ => writing_ok hw
  unfold flushAllPages
  rw [get_bind, bind_ok (read_run hlist), bind_ok (keepRecords_run hr _ _), modify_bind, get_bind,
    bind_ok (read_run (hwrite _ _))]
  rfl

theorem get_cleaned : t.cleaned.get? p = (t.rowSpace.get? p).map fun page =>
    { page with isDirty := false } :=
  PageMap.get?_map

theorem resident_iff_mem : t.Resident p ↔ p ∈ t.rowSpace.pages := BTreeMap.mem_iff_get.symm

/-- After a flush the page file has the resident pages and the records of the others. -/
theorem flushed_record :
    t.flushed.pageStore.pages.get? p = (t.cleaned.get? p).or (t.pageStore.pages.get? p) := by
  show ((t.keptRecords ++ t.cleaned.values).foldl PageMap.insert .empty).get? p = _
  rw [PageMap.get?_foldl_insert, PageMap.get?_empty, Option.or_none, findLast_append,
    PageMap.findLast_values]
  cases hc : t.cleaned.get? p with
  | some page => rfl
  | none =>
    rw [Option.none_or, Option.none_or]
    have hnot : p ∉ t.rowSpace.pages := fun hmem => by
      obtain ⟨page, hpage⟩ := resident_iff_mem.2 hmem
      rw [get_cleaned, hpage] at hc; cases hc
    have hmem : ∀ page, page ∈ t.keptRecords → page.pageId = p →
        t.pageStore.pages.get? p = some page := by
      intro page hpage hid
      obtain ⟨q, -, hq⟩ := List.mem_filterMap.1 hpage
      rw [← hid, PageMap.pageId_of_get hq, hq]
    cases hp : t.pageStore.pages.get? p with
    | none =>
      refine findLast_none.2 fun page hpage => decide_eq_false fun hid => ?_
      rw [hmem page hpage hid] at hp; cases hp
    | some page =>
      have hkept : page ∈ t.keptRecords := List.mem_filterMap.2
        ⟨p, List.mem_filter.2 ⟨PageMap.mem_keys.2 ⟨page, hp⟩, by simpa using hnot⟩, hp⟩
      obtain ⟨page', hpage'⟩ := Option.isSome_iff_exists.1
        ((findLast_isSome (p := fun page => decide (page.pageId = p))).2
          ⟨page, hkept, decide_eq_true (PageMap.pageId_of_get hp)⟩)
      obtain ⟨pre, post, hlast⟩ := findLast_some.1 hpage'
      rw [hpage', ← hmem page' hlast.mem (of_decide_eq_true hlast.holds), hp]

/-- A flush keeps the rows of every page. -/
theorem keepsRows_flushed : KeepsRows ρ t t.flushed where
  readFault := rfl
  writeFault := rfl
  filed _ p hp := by
    rw [flushed_record]
    have hp : p ∈ (t.keptRecords ++ t.cleaned.values).map (·.pageId) :=
      List.contains_iff_mem.1 (Std.ExtTreeSet.mem_ofList.1 hp)
    obtain ⟨page, hpage, rfl⟩ := List.mem_map.1 hp
    rcases List.mem_append.1 hpage with hpage | hpage
    · obtain ⟨q, -, hq⟩ := List.mem_filterMap.1 hpage
      rw [PageMap.pageId_of_get hq, hq]
      cases t.cleaned.get? q <;> exact ⟨_, rfl⟩
    · rw [PageMap.mem_values.1 hpage]; exact ⟨page, rfl⟩
  resident p := fun ⟨page, hp⟩ => by
    obtain ⟨page', hpage', -⟩ := Option.map_eq_some_iff.1 (get_cleaned.symm.trans hp)
    exact Or.inl ⟨page', hpage'⟩
  stored p page' hs := by
    have hrow : t.flushed.rowSpace.get? p = t.cleaned.get? p := rfl
    rw [Stored, hrow, flushed_record] at hs
    cases hp : t.rowSpace.get? p with
    | some page =>
      have hc : t.cleaned.get? p = some { page with isDirty := false } := by rw [get_cleaned, hp]; rfl
      rw [hc] at hs
      rcases hs with hs | ⟨hs, -⟩
      · exact ⟨page, Or.inl hp, by rw [← Option.some.inj hs]⟩
      · exact ⟨page, Or.inl hp, by rw [← Option.some.inj hs]⟩
    | none =>
      have hc : t.cleaned.get? p = none := by rw [get_cleaned, hp]; rfl
      rw [hc] at hs
      rcases hs with hs | ⟨hs, -⟩
      · cases hs
      · exact ⟨page', (stored_absent hp).2 hs, rfl⟩
  present _ _ p hp := by
    have hrow : t.flushed.rowSpace.get? p = t.cleaned.get? p := rfl
    rw [content, hrow, flushed_record, get_cleaned]
    rw [content] at hp
    cases ht : t.rowSpace.get? p with
    | some page => rfl
    | none => rw [ht] at hp; exact hp
  nextPageId := le_rfl
  nextRowId := le_rfl

/-- **A flush** keeps the view. -/
theorem good_flushed (hg : t.Good) : t.flushed.Good ∧ t.flushed.view = t.view :=
  ⟨hg.keepsRows keepsRows_flushed, view_ext rfl (fun _ => Iff.rfl)
    (fun r => by
      show (viewIn _ t.rowLocations).rows[r]? = _
      rw [viewIn_get, viewIn_get, hg.rowIn_keepsRows keepsRows_flushed]) rfl rfl⟩

/-! ## Persisting -/

/-- The table with the page's record rewritten from memory. -/
def persisted (t : Table) (page : Page) : Table :=
  { t with pageStore := t.pageStore.wrote (some page) (t.pageStore.pages.insert page) t.rowLocations }

theorem get_persisted {q : PageID} : (t.persisted page).pageStore.pages.get? q =
    if page.pageId = q then some page else t.pageStore.pages.get? q :=
  PageMap.get?_insert

theorem moved_persisted (hp : t.rowSpace.get? page.pageId = some page) :
    Moved L t (t.persisted page) where
  rest := rfl
  stored q page' h := by
    rw [Stored, get_persisted] at h
    rcases h with h | ⟨h, hm⟩
    · exact Or.inl h
    · split_ifs at h with hq
      · obtain rfl := Option.some.inj h
        exact Or.inl (hq ▸ hp)
      · exact Or.inr ⟨h, hm⟩
  kept _ _ h := Or.inl h
  filed hf q hq := by
    rw [get_persisted]
    split_ifs
    · exact ⟨page, rfl⟩
    · exact hf q hq
  present _ _ q h := by
    have hrow : (t.persisted page).rowSpace = t.rowSpace := rfl
    rw [content, hrow, get_persisted]
    rw [content] at h
    split_ifs with hq
    · subst hq; rw [hp]; rfl
    · exact h
  writes := ⟨[_], rfl, fun w hw => by
    obtain rfl := List.mem_singleton.1 hw
    exact ⟨rfl, page, rfl, rfl, Or.inl hp⟩⟩

/-- Page `p` is resident and dirty, and the page file has a record of it. -/
def DirtyOnFile (t : Table) (p : PageID) : Prop :=
  ∃ page record, t.rowSpace.get? p = some page ∧ page.isDirty = true ∧
    t.pageStore.pages.get? p = some record

/-- One round of `persist_dirty_pages`. -/
def persistPage (flushed : List PageID) (page : Page) : TableM (List PageID) := do
  if page.isDirty then
    let store ← read fun t => t.pageStore.mergePage page t.rowLocations
    modify fun t => { t with pageStore := store }
    return flushed ++ [page.pageId]
  else return flushed

theorem persistPage_run (hw : t.pageStore.writeFault = none) (flushed : List PageID) :
    persistPage flushed page held t =
      if page.isDirty then (.ok (flushed ++ [page.pageId]), t.persisted page) else (.ok flushed, t) := by
  have hmerge : t.pageStore.mergePage page t.rowLocations = .ok (t.persisted page).pageStore :=
    writing_ok hw
  unfold persistPage
  split_ifs
  · rw [bind_ok (read_run hmerge)]; rfl
  · rfl

theorem persistPages_run (l : List Page) (hl : ∀ page ∈ l, t.rowSpace.get? page.pageId = some page)
    (hw : t.pageStore.writeFault = none) (flushed : List PageID)
    (hf : ∀ p ∈ flushed, t.DirtyOnFile p) : ∃ flushed' t',
      l.foldlM persistPage flushed held t = (.ok flushed', t') ∧ Moved L t t' ∧
        ∀ p ∈ flushed', t'.DirtyOnFile p := by
  induction l generalizing t flushed with
  | nil => exact ⟨flushed, t, rfl, Moved.refl L t, hf⟩
  | cons page l ih =>
    rw [List.foldlM_cons]
    have hrun := @persistPage_run t page held hw flushed
    split_ifs at hrun with hdirty
    · have hp := hl page (by simp)
      obtain ⟨flushed', t', hrun', hm, hf'⟩ := ih (t := t.persisted page)
        (fun q hq => hl q (List.mem_cons_of_mem _ hq)) hw (flushed ++ [page.pageId]) (by
          intro p hmem
          rcases List.mem_append.1 hmem with hmem | hmem
          · obtain ⟨page', record, h₁, h₂, h₃⟩ := hf p hmem
            rw [DirtyOnFile, get_persisted]
            split_ifs
            · exact ⟨page', page, h₁, h₂, rfl⟩
            · exact ⟨page', record, h₁, h₂, h₃⟩
          · obtain rfl := List.mem_singleton.1 hmem
            exact ⟨page, page, hp, hdirty, by rw [get_persisted, if_pos rfl]⟩)
      exact ⟨flushed', t', by rw [bind_ok hrun, hrun'], (moved_persisted hp).trans hm, hf'⟩
    · obtain ⟨flushed', t', hrun', h⟩ := ih (fun q hq => hl q (List.mem_cons_of_mem _ hq)) hw flushed hf
      exact ⟨flushed', t', by rw [bind_ok hrun, hrun'], h⟩

theorem mem_foldl_insert {l : List PageID} {s : BTreeSet PageID} {p : PageID} :
    p ∈ l.foldl (·.insert ·) s ↔ p ∈ l ∨ p ∈ s := by
  induction l generalizing s with
  | nil => simp
  | cons q l ih => rw [List.foldl_cons, ih, BTreeSet.mem_insert, List.mem_cons]; tauto

/-- **Persisting the dirty pages** moves nothing. -/
theorem persistDirtyPages_run (hw : t.pageStore.writeFault = none) :
    ∃ t', persistDirtyPages held t = (.ok (), t') ∧ Moved L t t' := by
  obtain ⟨flushed, t', hrun, hm, hf⟩ := persistPages_run (L := L)
    t.rowSpace.values (fun page hpage => PageMap.mem_values.1 hpage) hw [] (by simp)
  refine ⟨{ t' with onDiskPages := flushed.foldl (·.insert ·) t'.onDiskPages }, ?_, hm.trans ?_⟩
  · show (Call.get >>= fun t => t.rowSpace.values.foldlM persistPage [] >>= _ : TableM Unit) held t = _
    rw [get_bind, bind_ok hrun]; rfl
  · constructor
    · rfl
    · rintro p page (h | ⟨h, hm⟩)
      · exact Or.inl h
      · refine Or.inr ⟨h, fun page' hpage' => ⟨(hm page' hpage').1, ?_⟩⟩
        refine (hm page' hpage').2.imp_left fun ⟨hclean, hon⟩ => ⟨hclean, ?_⟩
        refine (mem_foldl_insert.1 hon).resolve_left fun hmem => ?_
        obtain ⟨page'', -, h₁, h₂, -⟩ := hf p hmem
        obtain rfl := Option.some.inj (h₁.symm.trans hpage')
        rw [h₂] at hclean; cases hclean
    · exact fun p page h => Or.inl h
    · intro hfiled p hp
      rcases mem_foldl_insert.1 hp with hp | hp
      · obtain ⟨-, record, -, -, h⟩ := hf p hp; exact ⟨record, h⟩
      · exact hfiled p hp
    · exact fun _ _ p h => h
    · exact ⟨[], rfl, by simp⟩

end Table

end AntDb
