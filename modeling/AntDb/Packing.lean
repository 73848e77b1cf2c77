/-
  Compaction packs the rows in the order of their ids, into pages numbered from zero.

  `Layout.Packed` is what placing rows in that order keeps; compaction starts from no page at all.
-/
import AntDb.Outlines

namespace AntDb

open Linked

namespace Layout

variable {ps size : ℕ} {sizes : RowID → ℕ} {s s' : Layout} {p q : PageID} {r : RowID} {o : Outline}

/-- The rows laid out in the order of their ids, on all the pages below the fresh one.  What a plain
    page uses are the sizes of its rows, a page at most unless a single larger row heads a chain. -/
structure Packed (s : Layout) (ps : ℕ) (sizes : RowID → ℕ) : Prop where
  laid : s.Laid ps sizes
  dense : ∀ p, p < s.fresh → ∃ o, s.page p = some o
  ordered : ∀ p q o o', s.page p = some o → s.page q = some o' → p < q →
    ∀ r ∈ o.rows, ∀ r' ∈ o'.rows, r < r'
  capacity : ∀ p o, s.page p = some o → o.capacity = ps
  filled : ∀ p o, s.page p = some o → o.isOverflow = false →
    o.usedBytes = min (∑ r ∈ o.rows, sizes r) (2 ^ 64 - 1)
  fits : ∀ p o, s.page p = some o → o.isOverflow = false →
    (o.usedBytes ≤ ps ∧ o.nextPage = none) ∨ ∃ r, o.rows = {r} ∧ ps < sizes r
  behind : ∀ q o, s.page q = some o → o.isOverflow = true →
    ∃ r p qs, ps < sizes r ∧ s.Heads r p qs ∧ q ∈ qs

namespace Packed

theorem empty : Packed ⟨fun _ => none, fun _ => none, 0⟩ ps sizes where
  laid := ⟨⟨nofun, nofun, nofun, nofun, nofun, nofun, nofun⟩, nofun⟩
  dense _ h := absurd h (Nat.not_lt_zero _)
  ordered := nofun
  capacity := nofun
  filled := nofun
  fits := nofun
  behind := nofun

section Later

variable (h : s.Packed ps sizes) (hlater : ∀ r' p, s.home r' = some p → r' < r)
include h hlater

/-- A later row is on no page yet. -/
theorem notMem_rows (hp : s.page p = some o) : r ∉ o.rows := fun hr =>
  lt_irrefl r (hlater r p (h.laid.sound.homed p o hp r hr))

omit h in
theorem home_none : s.home r = none := by
  cases hr : s.home r with
  | none => rfl
  | some p => exact absurd (hlater r p hr) (lt_irrefl r)

theorem sum_update (hp : s.page p = some o) :
    ∑ r' ∈ o.rows, Function.update sizes r size r' = ∑ r' ∈ o.rows, sizes r' :=
  Finset.sum_update_of_notMem (h.notMem_rows hlater hp) _ _

/-- A row that is alone on its page keeps its size. -/
theorem update_of_single {r' : RowID} (hp : s.page p = some o) (hrows : o.rows = {r'}) :
    Function.update sizes r size r' = sizes r' :=
  Function.update_of_ne (fun he => h.notMem_rows hlater hp (by rw [hrows, ← he]; exact Finset.mem_singleton_self _)) ..

/-- The row has gone to a fresh page, with what is behind it. -/
theorem of_opened (hlaid : s'.Laid ps (Function.update sizes r size))
    (hkept : ∀ q, q < s.fresh → s'.page q = s.page q)
    (hnew : ∃ o, s'.page s.fresh = some o ∧ o.rows = {r} ∧ o.usedBytes = min size (2 ^ 64 - 1) ∧
      o.capacity = ps ∧ o.isOverflow = false ∧ ((o.usedBytes ≤ ps ∧ o.nextPage = none) ∨ ps < size))
    (hbehind : ∀ q, s.fresh < q → q < s'.fresh → ∃ o, s'.page q = some o ∧ o.rows = ∅ ∧
      o.capacity = ps ∧ o.isOverflow = true ∧ ps < size ∧ ∃ qs, s'.Heads r s.fresh qs ∧ q ∈ qs) :
    s'.Packed ps (Function.update sizes r size) := by
  obtain ⟨o₀, hfresh, hrows₀, hused₀, hcapacity₀, hplain₀, hfits₀⟩ := hnew
  -- a page was there before, is the fresh one, or is behind it
  have hpage : ∀ q o, s'.page q = some o → (q < s.fresh ∧ s.page q = some o) ∨
      (q = s.fresh ∧ o = o₀) ∨ (s.fresh < q ∧ q < s'.fresh) := by
    intro q o hq
    rcases lt_trichotomy q s.fresh with hlt | rfl | hgt
    · exact Or.inl ⟨hlt, (hkept q hlt).symm.trans hq⟩
    · exact Or.inr (Or.inl ⟨rfl, Option.some.inj (hq.symm.trans hfresh)⟩)
    · exact Or.inr (Or.inr ⟨hgt, hlaid.sound.lt q o hq⟩)
  have hvacant : ∀ q o, s'.page q = some o → s.fresh < q ∧ q < s'.fresh →
      o.rows = ∅ ∧ o.capacity = ps ∧ o.isOverflow = true := by
    intro q o hq hlt
    obtain ⟨o', hq', hrows, hcapacity, hover, -⟩ := hbehind q hlt.1 hlt.2
    obtain rfl := Option.some.inj (hq.symm.trans hq')
    exact ⟨hrows, hcapacity, hover⟩
  constructor
  · exact hlaid
  · intro q hq
    rcases lt_trichotomy q s.fresh with hlt | rfl | hgt
    · rw [hkept q hlt]
      exact h.dense q hlt
    · exact ⟨o₀, hfresh⟩
    · obtain ⟨o, ho, -⟩ := hbehind q hgt hq
      exact ⟨o, ho⟩
  · intro a b oa ob ha hb hlt x hx y hy
    rcases hpage a oa ha with ⟨halt, ha'⟩ | ⟨rfl, rfl⟩ | habove
    · rcases hpage b ob hb with ⟨-, hb'⟩ | ⟨-, rfl⟩ | habove
      · exact h.ordered a b oa ob ha' hb' hlt x hx y hy
      · rw [hrows₀, Finset.mem_singleton] at hy
        exact hy ▸ hlater x a (h.laid.sound.homed a oa ha' x hx)
      · rw [(hvacant b ob hb habove).1] at hy
        exact absurd hy (Finset.notMem_empty y)
    · rcases hpage b ob hb with ⟨hblt, -⟩ | ⟨rfl, -⟩ | habove
      · exact absurd hlt (not_lt.2 hblt.le)
      · exact absurd hlt (lt_irrefl _)
      · rw [(hvacant b ob hb habove).1] at hy
        exact absurd hy (Finset.notMem_empty y)
    · rw [(hvacant a oa ha habove).1] at hx
      exact absurd hx (Finset.notMem_empty x)
  · intro q o hq
    rcases hpage q o hq with ⟨-, hq'⟩ | ⟨-, rfl⟩ | habove
    · exact h.capacity q o hq'
    · exact hcapacity₀
    · exact (hvacant q o hq habove).2.1
  · intro q o hq hplain
    rcases hpage q o hq with ⟨-, hq'⟩ | ⟨-, rfl⟩ | habove
    · rw [h.sum_update hlater hq']
      exact h.filled q o hq' hplain
    · rw [hused₀, hrows₀, Finset.sum_singleton, Function.update_self]
    · exact absurd (hplain.symm.trans (hvacant q o hq habove).2.2) Bool.false_ne_true
  · intro q o hq hplain
    rcases hpage q o hq with ⟨-, hq'⟩ | ⟨-, rfl⟩ | habove
    · refine (h.fits q o hq' hplain).imp_right ?_
      rintro ⟨r', hrows, hbig⟩
      exact ⟨r', hrows, by rwa [h.update_of_single hlater hq' hrows]⟩
    · exact hfits₀.imp_right fun hbig => ⟨r, hrows₀, by rwa [Function.update_self]⟩
    · exact absurd (hplain.symm.trans (hvacant q o hq habove).2.2) Bool.false_ne_true
  · intro q o hq hover
    rcases hpage q o hq with ⟨-, hq'⟩ | ⟨-, rfl⟩ | habove
    · obtain ⟨r', p, qs, hbig, hheads, hmem⟩ := h.behind q o hq' hover
      obtain ⟨o', hp, hrows⟩ := hheads.1
      refine ⟨r', p, qs, ?_, hheads.congr fun x hx => ?_, hmem⟩
      · rwa [h.update_of_single hlater hp hrows]
      · obtain ⟨ox, hx⟩ := hheads.exists_page h.laid.sound hx
        exact hkept x (h.laid.sound.lt x ox hx)
    · exact absurd (hplain₀.symm.trans hover) Bool.false_ne_true
    · obtain ⟨o', -, -, -, -, hbig, qs, hheads, hmem⟩ := hbehind q habove.1 habove.2
      exact ⟨r, s.fresh, qs, by rwa [Function.update_self], hheads, hmem⟩

/-- The row has gone to the last page. -/
theorem of_put (hps : 1 ≤ ps) (hlaid : (s.put p r size).Laid ps (Function.update sizes r size))
    (hp : s.page p = some o) (hlast : ∀ q o', s.page q = some o' → q ≤ p) (hplain : o.isOverflow = false)
    (hroom : saturatingAdd o.usedBytes size ≤ o.capacity) :
    (s.put p r size).Packed ps (Function.update sizes r size) := by
  have hself : (s.put p r size).page p = some (o.append r size) := page_put_self hp
  -- no chain of several pages goes through the last one
  have haway : ∀ r' p' qs, s.Heads r' p' qs → ps < sizes r' → qs.length = Table.extraPages (sizes r') ps →
      ∀ x ∈ p' :: qs, x ≠ p := fun r' p' qs hheads hbig hlen x hx =>
    hheads.ne_tail h.laid.sound (hlen ▸ extraPages_pos hps hbig) hp hplain hlast hx
  have hpage : ∀ q o', (s.put p r size).page q = some o' →
      (q ≠ p ∧ s.page q = some o') ∨ (q = p ∧ o' = o.append r size) := by
    intro q o' hq
    by_cases hqp : q = p
    · exact Or.inr ⟨hqp, Option.some.inj ((hqp ▸ hq).symm.trans hself)⟩
    · exact Or.inl ⟨hqp, (page_put_of_ne hqp).symm.trans hq⟩
  constructor
  · exact hlaid
  · intro q hq
    obtain ⟨o', ho'⟩ := h.dense q hq
    by_cases hqp : q = p
    · subst hqp
      exact ⟨_, hself⟩
    · exact ⟨o', (page_put_of_ne hqp).trans ho'⟩
  · intro a b oa ob ha hb hlt x hx y hy
    rcases hpage b ob hb with ⟨-, hb'⟩ | ⟨rfl, rfl⟩
    · rcases hpage a oa ha with ⟨-, ha'⟩ | ⟨rfl, -⟩
      · exact h.ordered a b oa ob ha' hb' hlt x hx y hy
      · exact absurd hlt (not_lt.2 (hlast b ob hb'))
    · rcases hpage a oa ha with ⟨-, ha'⟩ | ⟨rfl, -⟩
      · rcases Finset.mem_insert.1 hy with rfl | hy
        · exact hlater x a (h.laid.sound.homed a oa ha' x hx)
        · exact h.ordered a b oa o ha' hp hlt x hx y hy
      · exact absurd hlt (lt_irrefl _)
  · intro q o' hq
    rcases hpage q o' hq with ⟨-, hq'⟩ | ⟨-, rfl⟩
    · exact h.capacity q o' hq'
    · exact h.capacity p o hp
  · intro q o' hq hplain'
    rcases hpage q o' hq with ⟨-, hq'⟩ | ⟨-, rfl⟩
    · rw [h.sum_update hlater hq']
      exact h.filled q o' hq' hplain'
    · have hfilled := h.filled p o hp hplain
      have hsum : ∑ r' ∈ (o.append r size).rows, Function.update sizes r size r' =
          size + ∑ r' ∈ o.rows, sizes r' := by
        rw [Outline.append, Finset.sum_insert (h.notMem_rows hlater hp), h.sum_update hlater hp,
          Function.update_self]
      have hused : (o.append r size).usedBytes = min (o.usedBytes + size) (2 ^ 64 - 1) := rfl
      rw [hsum, hused, hfilled]
      omega
  · intro q o' hq hplain'
    rcases hpage q o' hq with ⟨-, hq'⟩ | ⟨-, rfl⟩
    · refine (h.fits q o' hq' hplain').imp_right ?_
      rintro ⟨r', hrows, hbig⟩
      exact ⟨r', hrows, by rwa [h.update_of_single hlater hq' hrows]⟩
    · rcases h.fits p o hp hplain with ⟨-, hend⟩ | ⟨r', hrows, hbig⟩
      · exact Or.inl ⟨(h.capacity p o hp) ▸ hroom, hend⟩
      · have hhome := h.laid.sound.homed p o hp r' (hrows ▸ Finset.mem_singleton_self r')
        obtain ⟨qs, hheads, hlen⟩ := h.laid.chained r' p hhome hbig
        exact absurd rfl (haway r' p qs hheads hbig hlen p (List.mem_cons_self ..))
  · intro q o' hq hover
    rcases hpage q o' hq with ⟨-, hq'⟩ | ⟨-, rfl⟩
    · obtain ⟨r', p', qs, hbig, hheads, hmem⟩ := h.behind q o' hq' hover
      obtain ⟨o'', hp', hrows⟩ := hheads.1
      have hhome := h.laid.sound.homed p' o'' hp' r' (hrows ▸ Finset.mem_singleton_self r')
      obtain ⟨qs', hheads', hlen⟩ := h.laid.chained r' p' hhome hbig
      obtain rfl := hheads.2.unique hheads'.2
      refine ⟨r', p', qs, ?_, hheads.congr fun x hx => ?_, hmem⟩
      · rwa [h.update_of_single hlater hp' hrows]
      · exact page_put_of_ne (haway r' p' qs hheads hbig hlen x hx)
    · exact absurd (hplain.symm.trans hover) Bool.false_ne_true

/-- **A placement** of a later row keeps the rows packed. -/
theorem placed (hps : 1 ≤ ps) (hplaced : Placed ps s r size s') :
    s'.Packed ps (Function.update sizes r size) := by
  have hlaid := h.laid.placed hps (home_none hlater) hplaced
  have hblank : (s.opened (.blank ps)).page s.fresh = some (.blank ps) := page_opened_self
  have hhead : ((s.opened (.blank ps)).put s.fresh r size).page s.fresh =
      some ((Outline.blank ps).append r size) := page_put_self hblank
  have hold : ∀ q, q < s.fresh → ((s.opened (.blank ps)).put s.fresh r size).page q = s.page q :=
    fun q hq => (page_put_of_ne hq.ne).trans (page_opened_of_ne hq.ne)
  have hused : ((Outline.blank ps).append r size).usedBytes = min size (2 ^ 64 - 1) := by
    rw [Outline.append, Outline.blank, saturatingAdd, Nat.zero_add]
  cases hplaced with
  | tail hsize hp hlast hplain hroom => exact h.of_put hlater hps hlaid hp hlast hplain hroom
  | fresh hsize =>
    refine h.of_opened hlater hlaid hold ⟨_, hhead, rfl, hused, rfl, rfl, Or.inl ⟨?_, rfl⟩⟩
      fun q hgt hlt => absurd hlt (not_lt.2 hgt)
    rw [hused]
    exact (min_le_left ..).trans hsize
  | chain hsize =>
    have hsound : ((s.opened (.blank ps)).put s.fresh r size).Sound :=
      (h.laid.sound.opened rfl rfl).put (home_none hlater) hblank rfl
    have hchains := hsound.chained ps hhead rfl (Table.extraPages size ps)
    obtain ⟨o, ho, hrows, huse, hcapacity, hover⟩ := hchains.head _ hhead
    refine h.of_opened hlater hlaid (fun q hq => ?_)
      ⟨o, ho, hrows, huse.trans hused, hcapacity, hover, Or.inr hsize⟩ fun q hgt hlt => ?_
    · exact (hchains.frame q hq.ne (Nat.lt_succ_of_lt hq)).trans (hold q hq)
    · rw [hchains.fresh] at hlt
      obtain ⟨o', ho', hempty, hcapacity', hover'⟩ := hchains.behind q hgt hlt
      exact ⟨o', ho', hempty, hcapacity', hover', hsize, _, ⟨⟨o, ho, hrows⟩, hchains.follows⟩,
        List.mem_range'_1.2 ⟨hgt, hlt⟩⟩

end Later

end Packed

end Layout

/-- The sizes of the rows of a page. -/
def Page.rowBytes (page : Page) : ℕ := (page.rows.toList.map fun x => x.2.sizeBytes).sum

namespace Table

variable {t : Table} {c : Compaction} {m : BTreeMap RowID Row} {p : PageID} {page : Page} {r : RowID} {row : Row}

def sizesOf (m : BTreeMap RowID Row) (r : RowID) : ℕ := (m[r]?.map (·.sizeBytes)).getD 0

theorem sizesOf_of_get (h : m[r]? = some row) : sizesOf m r = row.sizeBytes := by
  rw [sizesOf, h]
  rfl

theorem sizesOf_insert : sizesOf (m.insert r row) = Function.update (sizesOf m) r row.sizeBytes := by
  funext r'
  rw [sizesOf, BTreeMap.get_insert, Function.update_apply]
  by_cases hr : r' = r
  · rw [if_pos hr.symm, if_pos hr]
    rfl
  · rw [if_neg (Ne.symm hr), if_neg hr, sizesOf]

/-- The sizes of the rows of a page whose rows are among those of `m`. -/
theorem sum_sizesOf (h : ∀ (r : RowID) (row : Row), page.rows[r]? = some row → m[r]? = some row) :
    ∑ r ∈ page.outline.rows, sizesOf m r = page.rowBytes := by
  have hkeys : page.outline.rows = (page.rows.toList.map Prod.fst).toFinset := by
    rw [Page.outline, Std.ExtTreeMap.map_fst_toList_eq_keys]
  rw [hkeys, List.sum_toFinset _ (BTreeMap.nodup_keys page.rows), List.map_map, Page.rowBytes]
  exact congrArg List.sum (List.map_congr_left fun x hx =>
    sizesOf_of_get (h x.1 x.2 (BTreeMap.mem_toList.1 hx)))

/-- **Compaction packs** the rows it finds. -/
theorem OneHome.packed (h : t.OneHome) (hps : 1 ≤ t.pageSize) :
    ∃ (c : Compaction) (m : BTreeMap RowID Row), t.compact.rowSpace = c.space ∧
      t.compact.rowLocations = c.locations ∧ t.compact.nextPageId = c.nextPageId ∧ c.Holds m ∧
      c.layout.Packed t.pageSize (sizesOf m) ∧
      ∀ (r : RowID) (row : Row), m[r]? = some row ↔ t.Live r row := by
  refine h.compacted (I := fun c m => c.layout.Packed t.pageSize (sizesOf m)) Layout.Packed.empty
    fun c m r row hholds hpacked hlater => ?_
  rw [sizesOf_insert]
  exact hpacked.placed (fun r' p hp => hlater r' (hholds.located r' p hp)) hps
    (Compaction.placed_placeRow (x := (r, row)))

/-- `t'` holds the rows of `t` that have a version, repacked. -/
structure Repacked (t t' : Table) : Prop where
  rows : ∀ r row, t.Live r row ↔ ∃! p, ∃ page, t'.rowSpace.get? p = some page ∧ page.rows[r]? = some row
  located : ∀ (r : RowID) p, t'.rowLocations[r]? = some p ↔
    ∃ page, t'.rowSpace.get? p = some page ∧ r ∈ page.rows
  dense : ∀ p, (∃ page, t'.rowSpace.get? p = some page) ↔ p < t'.nextPageId
  ordered : ∀ p p' page page', t'.rowSpace.get? p = some page → t'.rowSpace.get? p' = some page' →
    p < p' → ∀ r ∈ page.rows, ∀ r' ∈ page'.rows, r < r'
  /-- the sum is exact as long as 64 bits hold it -/
  filled : ∀ p page, t'.rowSpace.get? p = some page → page.isOverflow = false →
    page.rowBytes < 2 ^ 64 → page.usedBytes = page.rowBytes
  fits : ∀ p page, t'.rowSpace.get? p = some page → page.isOverflow = false →
    (page.usedBytes ≤ t.pageSize ∧ page.nextPage = none) ∨
      ∃ r row, page.rows.toList = [(r, row)] ∧ t.pageSize < row.sizeBytes
  chained : ∀ p page r row, t'.rowSpace.get? p = some page → page.rows[r]? = some row →
    t.pageSize < row.sizeBytes →
      ∃ qs, t'.Chain r p qs ∧ qs.length = extraPages row.sizeBytes t.pageSize
  /-- there are no other continuation pages -/
  behind : ∀ q page, t'.rowSpace.get? q = some page → page.isOverflow = true →
    ∃ r row p qs, t.Live r row ∧ t.pageSize < row.sizeBytes ∧ t'.Chain r p qs ∧ q ∈ qs

/-- **Compaction repacks without loss.** -/
theorem compact_repacks (t : Table) (hps : 1 ≤ t.pageSize) (h : t.OneHome) : Repacked t t.compact := by
  obtain ⟨c, m, hspace, hloc, hnext, hc, hpacked, hlive⟩ := h.packed hps
  have hlayout : t.compact.layout = c.layout := by rw [layout, hspace, hloc, hnext]; rfl
  have hsound : t.compact.layout.Sound := hlayout ▸ hpacked.laid.sound
  have hpage : ∀ {p page}, t.compact.rowSpace.get? p = some page → c.layout.page p = some page.outline :=
    fun hp => hlayout ▸ page_layout_of_get hp
  have hheld : ∀ {p page}, t.compact.rowSpace.get? p = some page → ∀ (r : RowID) (row : Row),
      page.rows[r]? = some row → c.locations[r]? = some p ∧ m[r]? = some row := fun hp =>
    hc.homed _ _ (hspace ▸ hp)
  have hmem : ∀ {p page}, t.compact.rowSpace.get? p = some page → ∀ r ∈ page.rows,
      c.locations[r]? = some p := fun hp r hr => by
    obtain ⟨row, hrow⟩ := BTreeMap.mem_iff_get.1 hr
    exact (hheld hp r row hrow).1
  have hon : ∀ (r : RowID) p, c.locations[r]? = some p → ∃ page row, t.compact.rowSpace.get? p = some page ∧
      page.rows[r]? = some row ∧ m[r]? = some row := by
    intro r p hp
    obtain ⟨row, hrow⟩ := BTreeMap.mem_iff_get.1 (hc.located r p hp)
    obtain ⟨p', page, hp', hpage, hr⟩ := hc.placed r row hrow
    obtain rfl := Option.some.inj (hp.symm.trans hp')
    exact ⟨page, row, hspace ▸ hpage, hr, hrow⟩
  have hchain : ∀ {r : RowID} {p}, c.locations[r]? = some p → ∀ row, m[r]? = some row →
      t.pageSize < row.sizeBytes →
        ∃ qs, t.compact.Chain r p qs ∧ qs.length = extraPages row.sizeBytes t.pageSize := by
    intro r p hp row hrow hbig
    rw [← sizesOf_of_get hrow] at hbig ⊢
    obtain ⟨qs, hheads, hlen⟩ := hpacked.laid.chained r p hp hbig
    exact ⟨qs, chain_of_heads hsound (hlayout ▸ hheads), hlen⟩
  constructor
  · intro r row
    rw [← hlive]
    constructor
    · intro hrow
      obtain ⟨p, page, hp, hpage', hr⟩ := hc.placed r row hrow
      refine ⟨p, ⟨page, hspace ▸ hpage', hr⟩, ?_⟩
      rintro p' ⟨page', hpage'', hr'⟩
      exact Option.some.inj ((hheld hpage'' r row hr').1.symm.trans hp)
    · rintro ⟨p, ⟨page, hp, hr⟩, -⟩
      exact (hheld hp r row hr).2
  · intro r p
    rw [hloc]
    constructor
    · intro hp
      obtain ⟨page, row, hpage', hr, -⟩ := hon r p hp
      exact ⟨page, hpage', BTreeMap.mem_of_get hr⟩
    · rintro ⟨page, hp, hr⟩
      exact hmem hp r hr
  · intro p
    rw [hnext]
    constructor
    · rintro ⟨page, hp⟩
      exact hpacked.laid.sound.lt p _ (hpage hp)
    · intro hp
      obtain ⟨o, ho⟩ := hpacked.dense p hp
      obtain ⟨page, hp, -⟩ := get_of_page_layout (hlayout ▸ ho)
      exact ⟨page, hp⟩
  · intro p p' page page' hp hp' hlt r hr r' hr'
    exact hpacked.ordered p p' _ _ (hpage hp) (hpage hp') hlt r (Page.mem_outline.2 hr) r'
      (Page.mem_outline.2 hr')
  · intro p page hp hplain hbytes
    have hfilled := hpacked.filled p _ (hpage hp) hplain
    rw [sum_sizesOf fun r row hr => (hheld hp r row hr).2] at hfilled
    exact hfilled.trans (min_eq_left (Nat.le_sub_one_of_lt hbytes))
  · intro p page hp hplain
    refine (hpacked.fits p _ (hpage hp) hplain).imp_right ?_
    rintro ⟨r, hrows, hbig⟩
    obtain ⟨row, hrow⟩ : ∃ row, page.rows[r]? = some row := BTreeMap.mem_iff_get.1
      (Page.mem_outline.1 (hrows ▸ Finset.mem_singleton_self r))
    have hkeys := Page.keys_of_outline hrows
    rw [← Std.ExtTreeMap.map_fst_toList_eq_keys] at hkeys
    obtain ⟨x, hx, rfl⟩ := List.map_eq_singleton_iff.1 hkeys
    have hlast : page.rows[x.1]? = some x.2 := BTreeMap.mem_toList.1 (by rw [hx]; simp)
    rw [sizesOf_of_get (hheld hp x.1 x.2 hlast).2] at hbig
    exact ⟨x.1, x.2, hx, hbig⟩
  · intro p page r row hp hr hbig
    obtain ⟨hr', hrow⟩ := hheld hp r row hr
    exact hchain hr' row hrow hbig
  · intro q page hq hover
    obtain ⟨r, p, qs, hbig, hheads, hmem'⟩ := hpacked.behind q _ (hpage hq) hover
    have hchain' := chain_of_heads hsound (hlayout ▸ hheads)
    obtain ⟨page', hp, hkeys⟩ := hchain'.head
    obtain ⟨row, hrow⟩ : ∃ row, page'.rows[r]? = some row := BTreeMap.mem_iff_get.1
      (Std.ExtTreeMap.mem_keys.1 (hkeys ▸ List.mem_singleton_self r))
    have hm := (hheld hp r row hrow).2
    exact ⟨r, row, p, qs, (hlive r row).1 hm, sizesOf_of_get hm ▸ hbig, hchain', hmem'⟩

/-- A table with one row, on page 7. -/
def holdsOne : Table :=
  { new 0 10 0 .empty with
    rowSpace := PageMap.empty.insert ((Page.new 7 10).append 5 (.new ⟨1, .default⟩ ∅) 30) }

theorem holdsOne_repacks : Repacked holdsOne holdsOne.compact := by
  refine compact_repacks holdsOne (by decide) fun p p' page page' hp hp' r _ _ => ?_
  have hseven : ∀ q page, holdsOne.rowSpace.get? q = some page → q = 7 := fun q page hq => by
    rw [holdsOne, PageMap.get?_insert, PageMap.get?_empty] at hq
    split_ifs at hq with h
    exact h.symm
  rw [hseven p page hp, hseven p' page' hp']

end Table

end AntDb
