/-
  The layout of a table, and of the pages compaction has filled so far.

  Compaction, and a table that evicts nothing, place rows as layouts do.
-/
import AntDb.Layout
import AntDb.Pruning

namespace AntDb

def Page.outline (page : Page) : Outline where
  rows := page.rows.keys.toFinset
  usedBytes := page.usedBytes
  capacity := page.capacity
  nextPage := page.nextPage
  isOverflow := page.isOverflow

/-- The layout of pages with the row map `ρ`. -/
def PageMap.layout (s : PageMap) (ρ : BTreeMap RowID PageID) (fresh : PageID) : Layout where
  page p := (s.get? p).map Page.outline
  home r := ρ[r]?
  fresh := fresh

section Outline

variable {page page' : Page} {r : RowID} {row : Row} {size : ℕ}

@[simp] theorem Page.mem_outline : r ∈ page.outline.rows ↔ r ∈ page.rows := by
  rw [outline, List.mem_toFinset, Std.ExtTreeMap.mem_keys]

/-- A page with one row. -/
theorem Page.keys_of_outline (h : page.outline.rows = {r}) : page.rows.keys = [r] := by
  refine List.perm_singleton.1 (List.perm_of_nodup_nodup_toFinset_eq Std.ExtTreeMap.nodup_keys
    (List.nodup_singleton r) ?_)
  rw [List.toFinset_cons, List.toFinset_nil]
  exact h

/-- A page without rows. -/
theorem Page.rows_of_outline (h : page.outline.rows = ∅) : page.rows = ∅ :=
  Std.ExtTreeMap.keys_eq_nil_iff.1 ((List.toFinset_eq_empty_iff _).1 h)

/-- An outline only knows which rows there are. -/
theorem Page.outline_congr (hrows : ∀ r, r ∈ page'.rows ↔ r ∈ page.rows)
    (hused : page'.usedBytes = page.usedBytes) (hcapacity : page'.capacity = page.capacity)
    (hnext : page'.nextPage = page.nextPage) (hover : page'.isOverflow = page.isOverflow) :
    page'.outline = page.outline := by
  ext r
  · rw [mem_outline, mem_outline, hrows]
  · rw [outline, outline, hused]
  · rw [outline, outline, hcapacity]
  · rw [outline, outline, hnext]
  · rw [outline, outline, hover]

theorem Page.outline_append : (page.append r row size).outline = page.outline.append r size := by
  ext r' <;> try rfl
  rw [mem_outline, Outline.append, Finset.mem_insert, mem_outline, append, Std.ExtTreeMap.mem_insert,
    Std.LawfulEqOrd.compare_eq_iff_eq, eq_comm]

theorem Page.outline_new {p : PageID} {capacity : ℕ} : (Page.new p capacity).outline = .blank capacity :=
  rfl

end Outline

namespace PageMap

variable {s s' : PageMap} {ρ : BTreeMap RowID PageID} {p q fresh previous : PageID} {page : Page} {r : RowID}
  {row : Row} {size ps : ℕ} {f : Page → Page}

theorem page_layout : (s.layout ρ fresh).page p = (s.get? p).map Page.outline := rfl

/-- The last key is the greatest. -/
theorem le_of_last (h : s.keys.getLast? = some p) (hq : s.get? q = some page) : q ≤ p := by
  rw [keys, ← Std.ExtTreeMap.maxKey?_eq_getLast?_keys] at h
  exact Nat.isLE_compare.1
    (((Std.ExtTreeMap.maxKey?_eq_some_iff_mem_and_forall).1 h).2 q (BTreeMap.mem_of_get (m := s.pages) hq))

theorem layout_insert_new :
    (s.insert (.new fresh ps)).layout ρ (fresh + 1) = (s.layout ρ fresh).opened (.blank ps) := by
  refine Layout.ext (funext fun q => ?_) rfl rfl
  have hget : (s.insert (.new fresh ps)).get? q = if fresh = q then _ else s.get? q := get?_insert
  have hfresh : (s.layout ρ fresh).fresh = fresh := rfl
  rw [page_layout, hget, Layout.page_opened, hfresh]
  by_cases hq : q = fresh
  · rw [if_pos hq.symm, if_pos hq, Option.map_some, Page.outline_new]
  · rw [if_neg (Ne.symm hq), if_neg hq, page_layout]

theorem layout_append :
    (s.update p (·.append r row size) (fun _ => rfl)).layout (ρ.insert r p) fresh =
      (s.layout ρ fresh).put p r size := by
  refine Layout.ext (funext fun q => ?_) (funext fun r' => ?_) rfl
  · have hget := @get?_update s p q (·.append r row size) fun _ => rfl
    rw [page_layout, hget, Layout.page_put]
    by_cases hq : q = p
    · subst hq
      rw [if_pos rfl, if_pos rfl, page_layout, Option.map_map, Option.map_map]
      exact congrArg (Option.map · _) (funext fun _ => Page.outline_append)
    · rw [if_neg (Ne.symm hq), if_neg hq, page_layout]
  · rw [Layout.home_put]
    exact (BTreeMap.get_insert ρ r r' p).trans (if_congr eq_comm rfl rfl)

/-- Pages rewritten in what outlines do not show. -/
theorem layout_congr (h : ∀ q, (s'.get? q).map Page.outline = (s.get? q).map Page.outline) :
    s'.layout ρ fresh = s.layout ρ fresh :=
  Layout.ext (funext h) rfl rfl

theorem layout_map (hf : ∀ page, (f page).pageId = page.pageId)
    (h : ∀ page, (f page).outline = page.outline) :
    (s.map f hf).layout ρ fresh = s.layout ρ fresh :=
  layout_congr fun q => by
    rw [get?_map, Option.map_map]
    exact congrArg (Option.map · _) (funext h)

theorem layout_update (hf : ∀ page, (f page).pageId = page.pageId)
    (h : ∀ page, (f page).outline = page.outline) :
    (s.update p f hf).layout ρ fresh = s.layout ρ fresh :=
  layout_congr fun q => by
    rw [get?_update]
    split_ifs
    · rw [Option.map_map]
      exact congrArg (Option.map · _) (funext h)
    · rfl

/-- A fresh page becomes the continuation page behind `previous`. -/
theorem layout_extended (hf : ∀ page, (f page).pageId = page.pageId)
    (hcontinuation : (f (.new fresh ps)).outline = .continuation ps) (hne : previous ≠ fresh) :
    (((s.insert (.new fresh ps)).update fresh f hf).update previous
      (fun page => { page with nextPage := some fresh }) (fun _ => rfl)).layout ρ (fresh + 1) =
        (s.layout ρ fresh).extended ps previous := by
  refine Layout.ext (funext fun q => ?_) rfl rfl
  have hinsert : (s.insert (.new fresh ps)).get? q = if fresh = q then _ else s.get? q := get?_insert
  have hgrown := @get?_update (s.insert (.new fresh ps)) fresh q f hf
  have hlinked := @get?_update ((s.insert (.new fresh ps)).update fresh f hf) previous q
    (fun page => { page with nextPage := some fresh }) fun _ => rfl
  have hfresh : (s.layout ρ fresh).fresh = fresh := rfl
  rw [page_layout, hlinked, hgrown, hinsert, Layout.page_extended, hfresh]
  by_cases hq : q = previous
  · subst hq
    rw [if_pos rfl, if_pos rfl, if_neg (Ne.symm hne), if_neg (Ne.symm hne), page_layout, Option.map_map,
      Option.map_map]
    rfl
  · rw [if_neg (Ne.symm hq), if_neg hq]
    by_cases hf : q = fresh
    · rw [if_pos hf.symm, if_pos hf.symm, if_pos hf, Option.map_some, Option.map_some, hcontinuation]
    · rw [if_neg (Ne.symm hf), if_neg (Ne.symm hf), if_neg hf, page_layout]

end PageMap

namespace Table

open Call TableM

variable {c : Compaction} {t t' : Table} {ρ : RowMap} {ps n size : ℕ} {p previous : PageID} {r : RowID}
  {row : Row} {x : RowID × Row} {page : Page}

def layout (t : Table) : Layout := t.rowSpace.layout t.rowLocations t.nextPageId

/-- The page a page is followed by. -/
def nextPageOf (t : Table) (p : PageID) : Option PageID := (t.rowSpace.get? p).bind (·.nextPage)

/-- Row `r` is alone on page `p`, which is followed by the continuation pages `qs`. -/
structure Chain (t : Table) (r : RowID) (p : PageID) (qs : List PageID) : Prop where
  head : ∃ page, t.rowSpace.get? p = some page ∧ page.rows.keys = [r]
  links : Linked.Follows t.nextPageOf p qs
  distinct : (p :: qs).Nodup
  continuation : ∀ q ∈ qs, ∃ page, t.rowSpace.get? q = some page ∧ page.isOverflow = true ∧ page.rows = ∅

theorem link_layout : t.layout.link = t.nextPageOf := by
  funext p
  rw [Layout.link, layout, PageMap.page_layout, nextPageOf]
  cases t.rowSpace.get? p <;> rfl

theorem page_layout_of_get (hp : t.rowSpace.get? p = some page) : t.layout.page p = some page.outline := by
  rw [layout, PageMap.page_layout, hp, Option.map_some]

theorem get_of_page_layout {o : Outline} (hp : t.layout.page p = some o) :
    ∃ page, t.rowSpace.get? p = some page ∧ page.outline = o :=
  Option.map_eq_some_iff.1 hp

theorem chain_of_heads {qs : List PageID} (hs : t.layout.Sound) (h : t.layout.Heads r p qs) :
    t.Chain r p qs := by
  obtain ⟨⟨o, hp, hrows⟩, hfollows⟩ := h
  obtain ⟨page, hpage, rfl⟩ := get_of_page_layout hp
  refine ⟨⟨page, hpage, Page.keys_of_outline hrows⟩, link_layout ▸ hfollows,
    Linked.Follows.nodup hs.forward hfollows, fun q hq => ?_⟩
  obtain ⟨a, -, hlink⟩ := hfollows.exists_link hq
  obtain ⟨o', hq', hover⟩ := hs.target a q hlink
  obtain ⟨page', hpage', rfl⟩ := get_of_page_layout hq'
  exact ⟨page', hpage', hover, Page.rows_of_outline (hs.vacant q _ hq' hover)⟩

theorem Chain.heads {qs : List PageID} (h : t.Chain r p qs) : t.layout.Heads r p qs := by
  obtain ⟨page, hp, hkeys⟩ := h.head
  refine ⟨⟨page.outline, page_layout_of_get hp, ?_⟩, link_layout ▸ h.links⟩
  rw [Page.outline, hkeys]
  rfl

def Compaction.layout (c : Compaction) : Layout := c.space.layout c.locations c.nextPageId

/-- The last page, if it has room. -/
theorem tail_of_filter {s : PageMap} {tail : Page}
    (h : (s.keys.getLast?.bind s.get?).filter (·.hasRoomFor size) = some tail) :
    s.get? tail.pageId = some tail ∧ (∀ q page, s.get? q = some page → q ≤ tail.pageId) ∧
      tail.isOverflow = false ∧ saturatingAdd tail.usedBytes size ≤ tail.capacity := by
  obtain ⟨htail, hroom⟩ := Option.filter_eq_some_iff.1 h
  obtain ⟨p, hlast, hp⟩ := Option.bind_eq_some_iff.1 htail
  obtain rfl := PageMap.pageId_of_get hp
  rw [Page.hasRoomFor, Bool.and_eq_true, Bool.not_eq_true', decide_eq_true_eq] at hroom
  exact ⟨hp, fun q page hq => PageMap.le_of_last hlast hq, hroom.1, hroom.2⟩

/-- Appending to the last page if it has room. -/
theorem placed_tail {s : PageMap} {tail : Page} {fresh : PageID} (hsize : ¬ size > ps)
    (h : (s.keys.getLast?.bind s.get?).filter (·.hasRoomFor size) = some tail) :
    Layout.Placed ps (s.layout ρ fresh) r size
      ((s.update tail.pageId (·.append r row size) fun _ => rfl).layout (ρ.insert r tail.pageId)
        fresh) := by
  obtain ⟨hp, hlast, hplain, hroom⟩ := tail_of_filter h
  rw [PageMap.layout_append]
  refine .tail (not_lt.1 hsize) (by rw [PageMap.page_layout, hp]; rfl) (fun q o hq => ?_) hplain hroom
  obtain ⟨page, hpage, -⟩ := Option.map_eq_some_iff.1 hq
  exact hlast q page hpage

namespace Compaction

theorem layout_allocPage : (c.allocPage ps).layout = c.layout.opened (.blank ps) :=
  PageMap.layout_insert_new

theorem layout_appendTo : (c.appendTo p r row).layout = c.layout.put p r row.sizeBytes :=
  PageMap.layout_append

theorem layout_extendChain (hlt : previous < c.nextPageId) :
    (c.extendChain ps n previous).layout = c.layout.chained ps n previous := by
  induction n generalizing c previous with
  | zero => rfl
  | succ n ih =>
    let reserve : Page → Page := fun page => { page with isOverflow := true, usedBytes := page.capacity }
    have hextended : (((c.allocPage ps).space.update c.nextPageId reserve fun _ => rfl).update previous
        (fun page => { page with nextPage := some c.nextPageId }) fun _ => rfl).layout c.locations
          (c.nextPageId + 1) = c.layout.extended ps previous :=
      PageMap.layout_extended (f := reserve) (fun _ => rfl) rfl hlt.ne
    exact (ih (Nat.lt_succ_self c.nextPageId)).trans
      (congrArg (Layout.chained ps n c.nextPageId) hextended)

theorem placed_placeRow : Layout.Placed ps c.layout x.1 x.2.sizeBytes (placeRow ps c x).layout := by
  unfold placeRow
  split_ifs with hsize
  · dsimp only
    rw [layout_extendChain (Nat.lt_succ_self c.nextPageId), layout_appendTo, layout_allocPage]
    exact .chain hsize
  · cases htail : (c.space.keys.getLast?.bind c.space.get?).filter (·.hasRoomFor x.2.sizeBytes) with
    | some tail => exact placed_tail hsize htail
    | none =>
      dsimp only
      rw [layout_appendTo, layout_allocPage]
      exact .fresh (not_lt.1 hsize)

end Compaction

/-! ## Without eviction -/

theorem registerPage_unlimited (h : t.memoryLimit = 0) :
    registerPage none t = (.ok t.nextPageId, t.opened) := by
  rw [registerPage_run, bind_ok (maybeEvictPages_idle (t := t.opened) (Or.inl h))]
  rfl

theorem extendOverflowChain_unlimited (h : t.memoryLimit = 0) (hlt : previous < t.nextPageId) :
    ∃ t', extendOverflowChain n previous none t = (.ok (), t') ∧ t.SameTable t' ∧
      t'.rowSpace.layout ρ t'.nextPageId =
        (t.rowSpace.layout ρ t.nextPageId).chained t.pageSize n previous := by
  induction n generalizing t previous with
  | zero => exact ⟨t, rfl, SameTable.of_moved (Moved.refl (fun _ => False) t), rfl⟩
  | succ n ih =>
    let reserve : Page → Page := fun page =>
      { page with isOverflow := true, usedBytes := page.capacity, isDirty := true }
    let t₁ := (t.opened.rewritten t.nextPageId reserve fun _ => rfl).rewritten previous
      (fun page => { page with nextPage := some t.nextPageId }) fun _ => rfl
    have hsame : t.SameTable t₁ := rfl
    have hextended : t₁.rowSpace.layout ρ (t.nextPageId + 1) =
        (t.rowSpace.layout ρ t.nextPageId).extended t.pageSize previous :=
      PageMap.layout_extended (f := reserve) (fun _ => rfl) rfl hlt.ne
    obtain ⟨t', hrun, hsame', hlayout⟩ := ih (t := t₁) h (Nat.lt_succ_self t.nextPageId)
    refine ⟨t', ?_, hsame.trans hsame', hlayout.trans ?_⟩
    · unfold extendOverflowChain
      rw [bind_ok (registerPage_unlimited h), modify_bind, modify_bind]
      exact hrun
    · exact congrArg (Layout.chained t.pageSize n t.nextPageId) hextended

/-- **A row is placed** as in a layout. -/
theorem placeNewRow_unlimited (h : t.memoryLimit = 0) :
    ∃ p t', placeNewRow r row size none t = (.ok p, t') ∧ t.SameTable t' ∧
      Layout.Placed t.pageSize t.layout r size
        (t'.rowSpace.layout (t.rowLocations.insert r p) t'.nextPageId) := by
  have hput : (t.opened.rewritten t.nextPageId (·.append r row size) (pageId_append r row size)).rowSpace.layout
      (t.rowLocations.insert r t.nextPageId) (t.nextPageId + 1) =
        (t.layout.opened (.blank t.pageSize)).put t.nextPageId r size :=
    PageMap.layout_append.trans (congrArg (Layout.put · t.nextPageId r size) PageMap.layout_insert_new)
  unfold placeNewRow
  rw [get_bind]
  split_ifs with hsize
  · obtain ⟨t', hrun, hsame, hlayout⟩ := extendOverflowChain_unlimited
      (t := t.opened.rewritten t.nextPageId (·.append r row size) (pageId_append r row size))
      (ρ := t.rowLocations.insert r t.nextPageId) (n := extraPages size t.pageSize) h
      (Nat.lt_succ_self t.nextPageId)
    refine ⟨t.nextPageId, t', ?_, SameTable.opened.trans hsame, ?_⟩
    · unfold insertOverflowRow
      rw [bind_ok (registerPage_unlimited h), bind_ok forceAppendToPage_run, get_bind]
      exact bind_ok hrun
    · rw [hlayout]
      exact hput ▸ .chain hsize
  · unfold insertRowIntoPage
    cases htail : (t.rowSpace.keys.getLast?.bind t.rowSpace.get?).filter (·.hasRoomFor size) with
    | some tail =>
      have hrun := @tryAppendToTailPage_run t r row size
      rw [htail] at hrun
      exact ⟨tail.pageId, (t.rewritten tail.pageId (·.append r row size)
        (pageId_append r row size)).touchPage tail.pageId, by rw [bind_ok hrun]; rfl, rfl,
        placed_tail hsize htail⟩
    | none =>
      have hrun := @tryAppendToTailPage_run t r row size
      rw [htail] at hrun
      refine ⟨t.nextPageId, t.opened.rewritten t.nextPageId (·.append r row size)
        (pageId_append r row size), ?_, rfl, ?_⟩
      · rw [bind_ok hrun]
        show ((tryAppendToTailPage r row size >>= _ : TableM PageID) none t) = _
        rw [bind_ok hrun]
        show ((registerPage >>= _ : TableM PageID) none t) = _
        rw [bind_ok (registerPage_unlimited h), bind_ok forceAppendToPage_run]
        rfl
      · exact hput ▸ .fresh (not_lt.1 hsize)

end Table

end AntDb
