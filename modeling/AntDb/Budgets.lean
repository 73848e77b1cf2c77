/-
  The bytes a page has used against the rows on it.

  Appending a row counts it; what is done to a row of the page afterwards is not counted.
  `KeepsBudgets` says of a call that it changes the size of no page that stays.
-/
import AntDb.Numbering
import AntDb.Placement
import AntDb.Sizes
import AntDb.Swapping

namespace AntDb

open Call TableM

/-- A page that continues no other counts its rows, as far as 64 bits go, and they fit on it, unless
    it heads the chain of a single row. -/
def Page.Budgeted (page : Page) : Prop := page.isOverflow = false →
  page.usedBytes = min page.rowBytes (2 ^ 64 - 1) ∧
    (page.usedBytes ≤ page.capacity ∨ ((∃ r, page.rows.keys = [r]) ∧ page.capacity < page.rowBytes))

namespace Page

/-- The page continues a chain, or has a row larger than itself and heads one. -/
def InChain (page : Page) : Prop :=
  page.isOverflow = true ∨ ∃ x ∈ page.rows.toList, page.capacity < x.2.sizeBytes

instance (page : Page) : Decidable page.InChain := by unfold InChain; infer_instance

/-- The bytes used are those of the rows, as far as 64 bits go, the page holds them, and they decide
    what it has room for. -/
structure RespectsBudget (page : Page) : Prop where
  used : page.usedBytes = min page.rowBytes (2 ^ 64 - 1)
  fits : page.usedBytes ≤ page.capacity
  decides : ∀ size, page.hasRoomFor size = true ↔ min (page.rowBytes + size) (2 ^ 64 - 1) ≤ page.capacity

variable {page page' : Page} {r : RowID} {row : Row} {txn : Transaction} {size : ℕ}

theorem Budgeted.of_same (h : page.Budgeted) (hover : page'.isOverflow = page.isOverflow)
    (hcapacity : page'.capacity = page.capacity) (hused : page'.usedBytes = page.usedBytes)
    (hbytes : page'.rowBytes = page.rowBytes) (hkeys : page'.rows.keys = page.rows.keys) :
    page'.Budgeted := by
  intro hplain
  rw [hused, hbytes, hcapacity, hkeys]
  exact h (hover.symm.trans hplain)

theorem budgeted_overflow (h : page.isOverflow = true) : page.Budgeted := fun hplain => by
  rw [h] at hplain; cases hplain

theorem budgeted_new (pageId : PageID) (capacity : ℕ) : (Page.new pageId capacity).Budgeted := fun _ =>
  ⟨rfl, Or.inl (Nat.zero_le _)⟩

theorem rowBytes_append (hr : r ∉ page.rows) :
    (page.append r row row.sizeBytes).rowBytes = row.sizeBytes + page.rowBytes :=
  BTreeMap.total_insert (Std.ExtTreeMap.getElem?_eq_none hr)

theorem saturatingAdd_min (a b : ℕ) : saturatingAdd (min a (2 ^ 64 - 1)) b = min (b + a) (2 ^ 64 - 1) := by
  unfold saturatingAdd
  omega

theorem Budgeted.respects (h : page.Budgeted) (hchain : ¬ page.InChain) : page.RespectsBudget := by
  obtain ⟨hover, hrows⟩ := not_or.1 hchain
  have hplain : page.isOverflow = false := Bool.eq_false_iff.2 hover
  obtain ⟨hused, hfits⟩ := h hplain
  refine ⟨hused, hfits.resolve_right ?_, fun size => ?_⟩
  · rintro ⟨⟨r, hkeys⟩, hlarge⟩
    -- the single row is all of the page
    have hmap := page.rows.map_fst_toList_eq_keys.trans hkeys
    obtain ⟨x, hx, -⟩ := List.map_eq_singleton_iff.1 hmap
    refine hrows ⟨x, hx ▸ List.mem_singleton_self x, ?_⟩
    rw [rowBytes_eq, BTreeMap.total, hx, List.map_singleton, List.sum_singleton] at hlarge
    exact hlarge
  · rw [hasRoomFor, hplain, hused, saturatingAdd_min, Nat.add_comm]
    exact decide_eq_true_iff

/-- A page with room for a row has room for it after the row has been appended. -/
theorem Budgeted.append (h : page.Budgeted) (hr : r ∉ page.rows)
    (hroom : page.hasRoomFor row.sizeBytes = true) : (page.append r row row.sizeBytes).Budgeted := by
  intro hplain
  obtain ⟨hused, -⟩ := h hplain
  have hsum : (page.append r row row.sizeBytes).usedBytes = saturatingAdd page.usedBytes row.sizeBytes := rfl
  refine ⟨?_, Or.inl ?_⟩
  · rw [hsum, hused, saturatingAdd_min, rowBytes_append hr]
  · rw [hasRoomFor, Bool.and_eq_true, decide_eq_true_eq] at hroom
    exact hroom.2

/-- The first row of a page fits on it or heads a chain. -/
theorem budgeted_first (pageId : PageID) (capacity : ℕ) :
    ((Page.new pageId capacity).append r row row.sizeBytes).Budgeted := by
  have hr : r ∉ (Page.new pageId capacity).rows := Std.ExtTreeMap.not_mem_empty
  have hused : ((Page.new pageId capacity).append r row row.sizeBytes).usedBytes =
      saturatingAdd (min 0 (2 ^ 64 - 1)) row.sizeBytes := rfl
  have hbytes : ((Page.new pageId capacity).append r row row.sizeBytes).rowBytes = row.sizeBytes :=
    rowBytes_append hr
  intro _
  rw [hused, saturatingAdd_min, hbytes]
  refine ⟨rfl, ?_⟩
  by_cases hfits : row.sizeBytes ≤ capacity
  · exact Or.inl ((min_le_left ..).trans hfits)
  · refine Or.inr ⟨⟨r, ?_⟩, not_le.1 hfits⟩
    have hperm := BTreeMap.toList_insert_perm (v := row) (Std.ExtTreeMap.getElem?_eq_none hr)
    have hkeys := hperm.map Prod.fst
    rw [Std.ExtTreeMap.map_fst_toList_eq_keys] at hkeys
    exact List.perm_singleton.1 hkeys

theorem Budgeted.modify {g : Row → Row} (h : page.Budgeted) (hrow : page.rows[r]? = some row)
    (hsize : (g row).sizeBytes = row.sizeBytes) :
    ({ page with rows := page.rows.modify r g, isDirty := true } : Page).Budgeted := by
  refine h.of_same rfl rfl rfl (rowBytes_modify hrow hsize) (BTreeMap.keys_congr fun k => ?_)
  rw [BTreeMap.get_modify]
  split_ifs
  · rw [Option.isSome_map]
  · rfl

theorem pageId_rolledBack (txn : Transaction) (page : Page) : (page.rolledBack txn).pageId = page.pageId := rfl

theorem Budgeted.rolledBack (h : page.Budgeted) (hmarks : page.isOverflow = false →
    page.marksTaken txn = page.marksSet txn) : (page.rolledBack txn).Budgeted := by
  intro hplain
  have hbytes := @rowBytes_rolledBack page txn
  rw [hmarks hplain, Nat.add_right_cancel_iff] at hbytes
  exact h.of_same rfl rfl rfl hbytes Std.ExtTreeMap.keys_map hplain

end Page

namespace Table

variable {t t' : Table} {ρ : RowMap} {p : PageID} {page page' : Page} {n m : RowID} {r : RowID} {row : Row}
  {f : Page → Page} {hf : ∀ page, (f page).pageId = page.pageId} {oldest : TransactionID}
  {txn : Transaction}

/-- The page is in memory or in the page file. -/
def Knows (t : Table) (page : Page) : Prop :=
  t.rowSpace.get? page.pageId = some page ∨ t.pageStore.pages.get? page.pageId = some page

theorem knows_of_resident (h : t.rowSpace.get? p = some page) : t.Knows page :=
  Or.inl (by rwa [PageMap.pageId_of_get h])

theorem knows_of_record (h : t.pageStore.pages.get? p = some page) : t.Knows page :=
  Or.inr (by rwa [PageMap.pageId_of_get h])

/-- All pages are within their budgets, and have rows up to `n`. -/
structure Budgets (t : Table) (n : RowID) : Prop where
  pageSize : 1 ≤ t.pageSize
  budgeted : ∀ page, t.Knows page → page.Budgeted
  rows_le : ∀ page, t.Knows page → ∀ r ∈ page.rows, r ≤ n

theorem Budgets.mono (h : t.Budgets n) (hle : n ≤ m) : t.Budgets m :=
  ⟨h.pageSize, h.budgeted, fun page hpage r hr => (h.rows_le page hpage r hr).trans hle⟩

/-- The pages are those there were, or are like one of them. -/
theorem Budgets.of_knows (h : t.Budgets n) (hsize : t'.pageSize = t.pageSize)
    (hknows : ∀ page', t'.Knows page' → ∃ page, t.Knows page ∧ (page.Budgeted → page'.Budgeted) ∧
      ∀ r ∈ page'.rows, r ∈ page.rows) : t'.Budgets n where
  pageSize := hsize ▸ h.pageSize
  budgeted page' hpage' := by
    obtain ⟨page, hpage, hbudget, -⟩ := hknows page' hpage'
    exact hbudget (h.budgeted page hpage)
  rows_le page' hpage' r hr := by
    obtain ⟨page, hpage, -, hrows⟩ := hknows page' hpage'
    exact h.rows_le page hpage r (hrows r hr)

theorem Budgets.of_subset (h : t.Budgets n) (hsize : t'.pageSize = t.pageSize)
    (hknows : ∀ page, t'.Knows page → t.Knows page) : t'.Budgets n :=
  h.of_knows hsize fun page hpage => ⟨page, hknows page hpage, id, fun _ => id⟩

/-- A page is rewritten to one within its budget. -/
theorem Budgets.rewritten (h : t.Budgets n) (hle : n ≤ m)
    (hpage : ∀ page, t.rowSpace.get? p = some page → (f page).Budgeted ∧ ∀ r ∈ (f page).rows, r ≤ m) :
    (t.rewritten p f hf).Budgets m := by
  have hknows : ∀ page', (t.rewritten p f hf).Knows page' →
      t.Knows page' ∨ ∃ page, t.rowSpace.get? p = some page ∧ page' = f page := by
    rintro page' (hp | hp)
    · rw [get_rewritten] at hp
      split_ifs at hp with hq
      · obtain ⟨page, hpage, rfl⟩ := Option.map_eq_some_iff.1 hp
        exact Or.inr ⟨page, by rw [hq, hpage], rfl⟩
      · exact Or.inl (Or.inl hp)
    · exact Or.inl (Or.inr hp)
  constructor
  · exact h.pageSize
  · intro page' hpage'
    rcases hknows page' hpage' with hknown | ⟨page, hp, rfl⟩
    · exact h.budgeted page' hknown
    · exact (hpage page hp).1
  · intro page' hpage' r hr
    rcases hknows page' hpage' with hknown | ⟨page, hp, rfl⟩
    · exact (h.rows_le page' hknown r hr).trans hle
    · exact (hpage page hp).2 r hr

/-- Opening a page. -/
theorem Budgets.opened (h : t.Budgets n) : t.opened.Budgets n := by
  have hknows : ∀ page, t.opened.Knows page → t.Knows page ∨ page = Page.new t.nextPageId t.pageSize := by
    rintro page (hp | hp)
    · rw [get_opened] at hp
      split_ifs at hp
      · exact Or.inr (Option.some.inj hp).symm
      · exact Or.inl (Or.inl hp)
    · exact Or.inl (Or.inr hp)
  constructor
  · exact h.pageSize
  · intro page hpage
    rcases hknows page hpage with hknown | rfl
    · exact h.budgeted page hknown
    · exact Page.budgeted_new _ _
  · intro page hpage r hr
    rcases hknows page hpage with hknown | rfl
    · exact h.rows_le page hknown r hr
    · exact absurd hr Std.ExtTreeMap.not_mem_empty

theorem Budgets.cleaned (h : t.Budgets n) : ({ t with rowSpace := t.cleaned } : Table).Budgets n := by
  refine h.of_knows rfl fun page' hpage' => ?_
  rcases hpage' with hp | hp
  · obtain ⟨page, hpage, rfl⟩ := Option.map_eq_some_iff.1 (get_cleaned.symm.trans hp)
    exact ⟨page, knows_of_resident hpage, fun hb => hb.of_same rfl rfl rfl rfl rfl, fun _ => id⟩
  · exact ⟨page', Or.inr hp, id, fun _ => id⟩

theorem Budgets.flushed (h : t.Budgets n) : t.flushed.Budgets n := by
  refine h.cleaned.of_subset rfl fun page hpage => ?_
  rcases hpage with hp | hp
  · exact Or.inl hp
  · rw [flushed_record] at hp
    rcases Option.or_eq_some_iff.1 hp with hp | ⟨-, hp⟩
    · exact Or.inl hp
    · exact Or.inr hp

/-! ## Loads and evictions -/

/-- Tables whose pages stay within their budgets. -/
def budgeting (ρ : RowMap) : Frame (Option PageID) Table Fault where
  env := none
  inv t := t.rowLocations = ρ
  rel t t' := (∀ n, t.Budgets n → t'.Budgets n) ∧ t'.rowLocations = t.rowLocations ∧
    t'.memoryLimit = t.memoryLimit ∧ t'.nextRowId = t.nextRowId
  exempt e := e = .blocked
  refl _ := ⟨fun _ h => h, rfl, rfl, rfl⟩
  trans h h' := ⟨fun n ht => h'.1 n (h.1 n ht), h'.2.1.trans h.2.1, h'.2.2.1.trans h.2.2.1,
    h'.2.2.2.trans h.2.2.2⟩
  keep ht h := h.2.1.trans ht

theorem budgeting_subset (hsize : t'.pageSize = t.pageSize) (hknows : ∀ page, t'.Knows page → t.Knows page)
    (hρ : t'.rowLocations = t.rowLocations) (hlimit : t'.memoryLimit = t.memoryLimit)
    (hnext : t'.nextRowId = t.nextRowId) : (budgeting ρ).rel t t' :=
  ⟨fun _ h => h.of_subset hsize hknows, hρ, hlimit, hnext⟩

theorem knows_dropped (h : (t.dropped p).Knows page) : t.Knows page := by
  refine h.imp_left fun hp => ?_
  rw [get_dropped] at hp
  split_ifs at hp
  exact hp

theorem swaps_budgeting : Swaps (budgeting ρ) where
  limit h := h.2.2.1
  touched _ _ _ := budgeting_subset rfl (fun _ => id) rfl rfl rfl
  entered p page t _ hp hrecord := by
    refine budgeting_subset rfl (fun page' hpage' => ?_) rfl rfl rfl
    rcases hpage' with hp | hp
    · have hp : (t.entered page).rowSpace.get? page'.pageId = some page' := hp
      rw [get_entered] at hp
      split_ifs at hp
      · obtain rfl := Option.some.inj hp
        exact knows_of_record hrecord
      · exact Or.inl hp
    · exact Or.inr hp
  released p page t _ _ _ := budgeting_subset rfl (fun page' hpage' => knows_dropped hpage') rfl rfl rfl
  written p page t _ _ hp := by
    refine budgeting_subset rfl (fun page' hpage' => ?_) rfl rfl rfl
    rcases hpage' with hp' | hp'
    · exact @knows_dropped t p page' (Or.inl hp')
    · have hp' : (t.pageStore.pages.insert page).get? page'.pageId = some page' := hp'
      rw [PageMap.get?_insert] at hp'
      split_ifs at hp'
      · obtain rfl := Option.some.inj hp'
        exact knows_of_resident hp
      · exact Or.inr hp'
  lost p page t _ _ _ _ := budgeting_subset rfl (fun page' hpage' => knows_dropped hpage') rfl rfl rfl
  exempt _ := Iff.rfl

theorem follows_budgeting {op : PageOp} (hop : op.Quiet) : Follows (budgeting ρ) op.run := by
  refine PageOp.follows_quiet swaps_budgeting (fun _ ht => ht)
    (fun _ _ _ _ => budgeting_subset rfl (fun _ => id) rfl rfl rfl) (fun t page _ hp => ?_)
    (fun _ _ _ => budgeting_subset rfl (fun _ => id) rfl rfl rfl)
    (fun _ _ => ⟨fun _ h => h.cleaned, rfl, rfl, rfl⟩)
    (fun _ _ => ⟨fun _ h => h.flushed, rfl, rfl, rfl⟩) hop
  refine budgeting_subset rfl (fun page' hpage' => ?_) rfl rfl rfl
  rcases hpage' with hp' | hp'
  · exact Or.inl hp'
  · rw [get_persisted] at hp'
    split_ifs at hp'
    · obtain rfl := Option.some.inj hp'
      exact Or.inl hp
    · exact Or.inr hp'

/-! ## Inserts -/

/-- A sequence keeps the budgets if its parts do. -/
theorem budgets_bind {α β : Type} {x : TableM α} {f : α → TableM β}
    (hreturns : ((x >>= f) none t).1 ≠ .error .blocked)
    (hx : (x none t).1 ≠ .error .blocked → (x none t).2.Budgets n)
    (hf : ∀ a t', x none t = (.ok a, t') → (f a none t').1 ≠ .error .blocked → (f a none t').2.Budgets n) :
    ((x >>= f) none t).2.Budgets n := by
  rw [bind_run] at hreturns ⊢
  generalize hrun : x none t = outcome at hx hreturns ⊢
  obtain ⟨e | a, t'⟩ := outcome
  · exact hx fun he => hreturns (by rw [Except.error.inj he])
  · exact hf a t' hrun hreturns

theorem follows_registerPage_budgeting : Follows (budgeting ρ) registerPage := by
  intro held t ht
  have hopened : (budgeting ρ).rel t t.opened := ⟨fun _ h => h.opened, rfl, rfl, rfl⟩
  have hevict := ((swaps_budgeting.follows_maybeEvictPages none).bind fun _ =>
    (Follows.pure : Follows (budgeting ρ) (pure t.nextPageId : TableM PageID))) held t.opened
      ((budgeting ρ).keep ht hopened)
  exact hevict.imp_right fun hevict => ⟨trivial, (budgeting ρ).trans hopened hevict.2⟩

/-- A page that is registered has no rows yet, if it is still in memory. -/
theorem registerPage_blank {t₁ : Table} (hrun : registerPage none t = (.ok p, t₁))
    (hp : t₁.rowSpace.get? p = some page) : ∃ capacity, page = Page.new p capacity := by
  have h := @framed_maybeEvictPages (fun _ => False) none (fun _ => True) (fun _ _ => trivial) none t.opened trivial
  change (∃ e, (maybeEvictPages none none t.opened).1 = _ ∧ _) ∨ _ ∧
    Moved _ t.opened (maybeEvictPages none none t.opened).2 ∧ _ at h
  rw [registerPage_run, bind_run] at hrun
  generalize maybeEvictPages none none t.opened = outcome at h hrun
  obtain ⟨e | a, t'⟩ := outcome
  · cases hrun
  · obtain ⟨hid, rfl⟩ := Prod.mk.inj hrun
    obtain rfl := Except.ok.inj hid
    rcases h with ⟨-, -, -, hheld⟩ | ⟨-, hm, -⟩
    · exact absurd rfl hheld
    · have hkept := (hm.kept _ page hp).resolve_right id
      rw [get_opened, if_pos rfl] at hkept
      exact ⟨t.pageSize, (Option.some.inj hkept).symm⟩

theorem follows_extendOverflowChain_budgeting (k : ℕ) (p : PageID) :
    Follows (budgeting ρ) (extendOverflowChain k p) := by
  induction k generalizing p with
  | zero => exact Follows.pure
  | succ k ih =>
    refine follows_registerPage_budgeting.bind fun continuation => Follows.bind ?_ fun _ =>
      Follows.bind ?_ fun _ => ih continuation
    · refine Follows.modify fun t _ => ⟨fun n h => ?_, rfl, rfl, rfl⟩
      exact h.rewritten le_rfl fun page hp => ⟨Page.budgeted_overflow rfl, h.rows_le page (knows_of_resident hp)⟩
    · refine Follows.modify fun t _ => ⟨fun n h => ?_, rfl, rfl, rfl⟩
      exact h.rewritten le_rfl fun page hp => ⟨(h.budgeted page (knows_of_resident hp)).of_same rfl rfl rfl rfl rfl,
        h.rows_le page (knows_of_resident hp)⟩

/-- A new row on a page that was blank or has room for it. -/
theorem Budgets.appended (h : t.Budgets n) (hr : n < r) (hpage : ∀ page, t.rowSpace.get? p = some page →
    (∃ capacity, page = Page.new p capacity) ∨ page.hasRoomFor row.sizeBytes = true) :
    (t.rewritten p (·.append r row row.sizeBytes) (pageId_append r row row.sizeBytes)).Budgets r := by
  refine h.rewritten hr.le fun page hp => ⟨?_, fun r' hr' => ?_⟩
  · rcases hpage page hp with ⟨capacity, rfl⟩ | hroom
    · exact Page.budgeted_first _ _
    · exact (h.budgeted page (knows_of_resident hp)).append
        (fun hmem => absurd (h.rows_le page (knows_of_resident hp) r hmem) (not_le.2 hr)) hroom
  · rcases Std.ExtTreeMap.mem_insert.1 hr' with he | hmem
    · exact (Std.LawfulEqOrd.compare_eq_iff_eq.1 he).ge
    · exact (h.rows_le page (knows_of_resident hp) r' hmem).trans hr.le

/-- A row on a page opened for it, and what follows. -/
theorem budgets_firstRow {α : Type} {f : PageID → TableM α} (h : t.Budgets n) (hr : n < r)
    (hreturns : ((registerPage >>= fun p => forceAppendToPage p r row row.sizeBytes >>= fun _ => f p) none t).1 ≠
      .error .blocked)
    (hf : ∀ p t', t'.Budgets r → (f p none t').1 ≠ .error .blocked → (f p none t').2.Budgets r) :
    ((registerPage >>= fun p => forceAppendToPage p r row row.sizeBytes >>= fun _ => f p) none t).2.Budgets r := by
  have hregister : (registerPage none t).1 ≠ .error .blocked → (registerPage none t).2.Budgets n := fun hreturned =>
    ((@swaps_budgeting t.rowLocations).rel_of_returns follows_registerPage_budgeting rfl hreturned).1 n h
  refine budgets_bind hreturns (fun hreturned => (hregister hreturned).mono hr.le) fun p t₁ hrun hreturns => ?_
  rw [hrun] at hregister
  rw [bind_ok forceAppendToPage_run] at hreturns ⊢
  exact hf p _ ((hregister nofun).appended hr fun page hp => Or.inl (registerPage_blank hrun hp)) hreturns

theorem budgets_insertOverflowRow (h : t.Budgets n) (hr : n < r)
    (hreturns : (insertOverflowRow r row row.sizeBytes none t).1 ≠ .error .blocked) :
    (insertOverflowRow r row row.sizeBytes none t).2.Budgets r := by
  refine budgets_firstRow h hr hreturns fun p t' h' hreturns' => ?_
  have hchain : Follows (budgeting t'.rowLocations)
      (extendOverflowChain (extraPages row.sizeBytes t'.pageSize) p >>= fun _ => (pure p : TableM PageID)) :=
    (follows_extendOverflowChain_budgeting _ p).bind fun _ => Follows.pure
  exact (swaps_budgeting.rel_of_returns hchain rfl hreturns').1 r h'

theorem budgets_insertRowIntoPage (h : t.Budgets n) (hr : n < r)
    (hreturns : (insertRowIntoPage r row row.sizeBytes none t).1 ≠ .error .blocked) :
    (insertRowIntoPage r row row.sizeBytes none t).2.Budgets r := by
  have hrun := @tryAppendToTailPage_run t r row row.sizeBytes
  unfold insertRowIntoPage at hreturns ⊢
  cases htail : (t.rowSpace.keys.getLast?.bind t.rowSpace.get?).filter (·.hasRoomFor row.sizeBytes) with
  | some tail =>
    obtain ⟨hlast, hroom⟩ := Option.filter_eq_some_iff.1 htail
    obtain ⟨p, -, hp⟩ := Option.bind_eq_some_iff.1 hlast
    obtain rfl := PageMap.pageId_of_get hp
    have happended := h.appended (p := tail.pageId) hr fun page hpage => by
      obtain rfl := Option.some.inj (hp.symm.trans hpage)
      exact Or.inr hroom
    rw [htail] at hrun
    rw [bind_ok hrun]
    exact happended.of_subset rfl fun _ => id
  | none =>
    rw [htail] at hrun
    rw [bind_ok hrun] at hreturns ⊢
    dsimp only at hreturns ⊢
    rw [bind_ok hrun] at hreturns ⊢
    exact budgets_firstRow h hr hreturns fun p t' h' _ => h'

theorem budgets_placeNewRow (h : t.Budgets n) (hr : n < r)
    (hreturns : (placeNewRow r row row.sizeBytes none t).1 ≠ .error .blocked) :
    (placeNewRow r row row.sizeBytes none t).2.Budgets r := by
  unfold placeNewRow at hreturns ⊢
  rw [get_bind] at hreturns ⊢
  split_ifs at hreturns ⊢
  · exact budgets_insertOverflowRow h hr hreturns
  · exact budgets_insertRowIntoPage h hr hreturns

/-- **An insert** keeps the pages within their budgets. -/
theorem budgets_insertRow {data : RowData} {others : ForeignTables} (h : t.Budgets t.nextRowId)
    (hreturns : (insertRow data txn others none t).1 ≠ .error .blocked) :
    (insertRow data txn others none t).2.Budgets (insertRow data txn others none t).2.nextRowId := by
  have hswaps := @swaps_budgeting t.rowLocations
  have hchecked : (validateRowData data txn none (foreignKeyValueExists others txn) none t).1 ≠ .error .blocked → _ :=
    hswaps.rel_of_returns (follows_validateRowData (hswaps.loads fun _ ht => ht)) rfl
  unfold insertRow at hreturns ⊢
  rw [bind_run] at hreturns ⊢
  generalize validateRowData data txn none (foreignKeyValueExists others txn) none t = outcome
    at hchecked hreturns ⊢
  obtain ⟨e | a, t₁⟩ := outcome
  · obtain ⟨hbudgets, -, -, hnext⟩ := hchecked fun he => hreturns (by rw [Except.error.inj he])
    have hnext : t₁.nextRowId = t.nextRowId := hnext
    show t₁.Budgets t₁.nextRowId
    rw [hnext]
    exact hbudgets _ h
  · obtain ⟨hbudgets, -, -, hnext⟩ := hchecked nofun
    have h₁ : ({ t₁ with nextRowId := t₁.nextRowId + 1 } : Table).Budgets t₁.nextRowId := by
      have hnext : t₁.nextRowId = t.nextRowId := hnext
      rw [hnext]
      exact (hbudgets _ h).of_subset rfl fun _ => id
    dsimp only at hreturns ⊢
    rw [get_bind, modify_bind, bind_run] at hreturns ⊢
    have hplaced := @budgets_placeNewRow _ _ (t₁.nextRowId + 1) (Row.new txn data) h₁ (Nat.lt_succ_self _)
    have hcount : Follows (filingOnly (fun _ => True) t₁.rowLocations)
        (placeNewRow (t₁.nextRowId + 1) (Row.new txn data) (Row.new txn data).sizeBytes) :=
      follows_placeNewRow places_filingOnly trivial
    have hnext := hcount none { t₁ with nextRowId := t₁.nextRowId + 1 } ⟨rfl, fun _ _ _ _ _ _ _ _ _ _ => trivial⟩
    change (∃ e, (placeNewRow (t₁.nextRowId + 1) (Row.new txn data) (Row.new txn data).sizeBytes none
      { t₁ with nextRowId := t₁.nextRowId + 1 }).1 = .error e ∧ e = .blocked) ∨ True ∧ _ ∧
        (placeNewRow (t₁.nextRowId + 1) (Row.new txn data) (Row.new txn data).sizeBytes none
          { t₁ with nextRowId := t₁.nextRowId + 1 }).2.nextRowId = t₁.nextRowId + 1 ∧ _ at hnext
    generalize placeNewRow (t₁.nextRowId + 1) (Row.new txn data) (Row.new txn data).sizeBytes none
      { t₁ with nextRowId := t₁.nextRowId + 1 } = outcome at hplaced hnext hreturns ⊢
    obtain ⟨r, t₂⟩ := outcome
    have hreturned : r ≠ .error .blocked := by
      rintro rfl
      exact hreturns rfl
    have h₂ : t₂.Budgets t₂.nextRowId := by
      rcases hnext with ⟨e, he, rfl⟩ | ⟨-, -, hnext, -⟩
      · exact absurd he hreturned
      · have hnext : t₂.nextRowId = t₁.nextRowId + 1 := hnext
        rw [hnext]
        exact hplaced hreturned
    cases r with
    | error e => exact h₂
    | ok p => exact h₂.of_subset rfl fun _ => id

/-! ## Rollbacks and the vacuum -/

theorem budgets_rollback (h : t.Budgets n) (hmarks : ∀ page ∈ t.rowSpace.values,
    page.isOverflow = false → page.marksTaken txn = page.marksSet txn) :
    (t.rollbackTransaction txn).Budgets n := by
  have hpages : ∀ page', (t.rollbackTransaction txn).Knows page' → t.Knows page' ∨
      ∃ p page, t.rowSpace.get? p = some page ∧ page' = page.rolledBack txn := by
    rintro page' (hp | hp)
    · have hp : (t.rowSpace.map (·.rolledBack txn) (Page.pageId_rolledBack txn)).get? page'.pageId = some page' := hp
      rw [PageMap.get?_map] at hp
      obtain ⟨page, hpage, rfl⟩ := Option.map_eq_some_iff.1 hp
      exact Or.inr ⟨_, page, hpage, rfl⟩
    · exact Or.inl (Or.inr hp)
  constructor
  · exact h.pageSize
  · intro page' hpage'
    rcases hpages page' hpage' with hknown | ⟨p, page, hp, rfl⟩
    · exact h.budgeted page' hknown
    · exact (h.budgeted page (knows_of_resident hp)).rolledBack (hmarks page (PageMap.mem_values.2 (by rw [PageMap.pageId_of_get hp, hp])))
  · intro page' hpage' r hr
    rcases hpages page' hpage' with hknown | ⟨p, page, hp, rfl⟩
    · exact h.rows_le page' hknown r hr
    · exact h.rows_le page (knows_of_resident hp) r (Std.ExtTreeMap.mem_map.1 hr)

/-- **Compaction** counts its rows, each on one page. -/
theorem budgets_compact (hps : 1 ≤ t.pageSize) (hhome : t.OneHome)
    (hrecords : ∀ p page, t.pageStore.pages.get? p = some page → page.Budgeted ∧ ∀ r ∈ page.rows, r ≤ n)
    (hrows : ∀ p page, t.rowSpace.get? p = some page → ∀ r ∈ page.rows, r ≤ n) : t.compact.Budgets n := by
  obtain ⟨c, m, hspace, -, -, hc, hpacked, hlive⟩ := hhome.packed hps
  have hpage : ∀ {p page}, t.compact.rowSpace.get? p = some page →
      c.layout.page p = some page.outline ∧ ∀ (r : RowID) (row : Row), page.rows[r]? = some row → m[r]? = some row := by
    intro p page hp
    rw [hspace] at hp
    refine ⟨?_, fun r row hr => (hc.homed p page hp r row hr).2⟩
    rw [Compaction.layout, PageMap.page_layout, hp, Option.map_some]
  constructor
  · exact hps
  · rintro page (hp | hp)
    · obtain ⟨houtline, hheld⟩ := hpage hp
      intro hplain
      have hfilled := hpacked.filled _ _ houtline hplain
      rw [sum_sizesOf hheld] at hfilled
      have hcapacity : page.capacity = t.pageSize := hpacked.capacity _ _ houtline
      refine ⟨hfilled, ?_⟩
      rw [hcapacity]
      refine (hpacked.fits _ _ houtline hplain).imp And.left ?_
      rintro ⟨r, hone, hbig⟩
      refine ⟨⟨r, Page.keys_of_outline hone⟩, ?_⟩
      have hbytes := sum_sizesOf hheld
      rw [hone, Finset.sum_singleton] at hbytes
      exact hbytes ▸ hbig
    · exact (hrecords _ page hp).1
  · rintro page (hp | hp) r hr
    · obtain ⟨row, hrow⟩ := BTreeMap.mem_iff_get.1 hr
      obtain ⟨-, p', page', hp', hrow'⟩ := (hlive r row).1 ((hpage hp).2 r row hrow)
      exact hrows p' page' hp' r (BTreeMap.mem_of_get hrow')
    · exact (hrecords _ page hp).2 r hr

/-- If a vacuum loads the pages with rows, it has them in memory together, each row on one page. -/
def Collects (t : Table) : Prop := ∀ t', materializeAllPages none t = (.ok (), t') →
  (∀ p, t'.Referenced p → t'.Resident p) ∧ t'.OneHome

/-- A table without a memory limit has all its pages in memory. -/
theorem collects_of_sound (hs : t.layout.Sound) : t.Collects := by
  intro t' hrun
  have hres : ∀ p, t.Referenced p → t.Resident p := fun p ⟨r, hr⟩ => by
    obtain ⟨page, hp, -⟩ := resident_of_sound hs hr
    exact ⟨page, hp⟩
  obtain ⟨t₁, hrun₁, heq₁⟩ := materializeAllPages_resident hres
  obtain rfl : t₁ = t' := congrArg Prod.snd (hrun₁.symm.trans hrun)
  rw [heq₁]
  exact ⟨hres, oneHome_of_sound hs⟩

theorem Budgets.flushAllPages (h : t.Budgets n) : (flushAllPages none t).2.Budgets n ∧
    (flushAllPages none t).2.nextRowId = t.nextRowId := by
  rcases flushAllPages_cases none t with he | he | he <;> rw [he]
  · exact ⟨h, rfl⟩
  · exact ⟨h.cleaned, rfl⟩
  · exact ⟨h.flushed, rfl⟩

/-- **A vacuum** that has the rows in memory counts them afresh. -/
theorem budgets_prune (h : t.Budgets n) (hcollects : t.Collects)
    (hreturns : (prune oldest none t).1 ≠ .error .blocked) :
    (prune oldest none t).2.Budgets n ∧ (prune oldest none t).2.nextRowId = t.nextRowId := by
  have hswaps := @swaps_budgeting t.rowLocations
  obtain ⟨r, t₁, hrun, hreturned, hrest⟩ := prune_cases hreturns
  obtain ⟨hbudgets, -, -, hnext⟩ : (budgeting t.rowLocations).rel t t₁ := by
    have hrel : (materializeAllPages none t).1 ≠ .error .blocked → _ :=
      hswaps.rel_of_returns hswaps.follows_materializeAllPages rfl
    rw [hrun] at hrel
    exact hrel hreturned
  have h₁ := hbudgets n h
  rcases hrest with he | ⟨rfl, r₂, t₂, hrun₂, -, hend⟩
  · rw [he]
    exact ⟨h₁, hnext⟩
  obtain ⟨hres, hhome⟩ := hcollects t₁ hrun
  obtain ⟨t₂', hrun₂', heq₂⟩ := @pruneVersions_resident t₁ oldest hres
  obtain ⟨rfl, rfl⟩ := Prod.mk.inj (hrun₂'.symm.trans hrun₂)
  have hcompact : t₂'.compact.Budgets n := by
    refine budgets_compact ?_ ?_ (fun p page hp => ?_) fun p page hp r hr => ?_
    · rw [heq₂]
      exact h₁.pageSize
    · rw [heq₂]
      exact hhome.rowsPruned
    · rw [heq₂] at hp
      exact ⟨h₁.budgeted page (knows_of_record hp), h₁.rows_le page (knows_of_record hp)⟩
    · rw [heq₂] at hp
      obtain ⟨page', hp', rfl⟩ := Option.map_eq_some_iff.1 (get_prunedSpace.symm.trans hp)
      exact h₁.rows_le page' (knows_of_resident hp') r (mem_of_mem_pruneRows hr)
  rw [hend rfl]
  refine ⟨hcompact.flushAllPages.1, hcompact.flushAllPages.2.trans ?_⟩
  rw [← hnext]
  show t₂'.nextRowId = t₁.nextRowId
  rw [heq₂]
  rfl

end Table

/-! ## Runs -/

namespace PageOp

open Table

variable {t : Table} {op : PageOp}

/-- The call changes the size of no row that is counted, unless a vacuum counts it again. -/
def KeepsBudgets (t : Table) : PageOp → Prop
  | table (.call (.updateRow rowId data txn others)) => t.RefusesUpdate rowId data txn others
  | table (.call (.deleteRow rowId txn)) => t.OnlyRemarks rowId txn
  | table (.rollbackTransaction txn) => ∀ page ∈ t.rowSpace.values, page.isOverflow = false →
      page.marksTaken txn = page.marksSet txn
  | table (.prune _) => t.Collects
  | _ => True

/-- **A call** that changes the size of no counted row keeps the pages within their budgets. -/
theorem budgets_step (hreturns : op.Returns t) (hkeeps : op.KeepsBudgets t)
    (h : t.Budgets t.nextRowId) : (op.step t).Budgets (op.step t).nextRowId := by
  have hswaps := @swaps_budgeting t.rowLocations
  have of_rel : ∀ {t'}, (budgeting t.rowLocations).rel t t' → t'.Budgets t'.nextRowId := by
    rintro t' ⟨hbudgets, -, -, hnext⟩
    have hnext : t'.nextRowId = t.nextRowId := hnext
    rw [hnext]
    exact hbudgets _ h
  by_cases hquiet : op.Quiet
  · exact of_rel (hswaps.rel_of_returns (follows_budgeting hquiet) rfl hreturns)
  cases op with
  | table op =>
    cases op with
    | call c =>
      have hback := TableOp.call_returns hreturns
      show ((TableOp.call c).step t).Budgets ((TableOp.call c).step t).nextRowId
      rw [TableOp.step_call]
      cases c with
      | insertRow data txn others =>
        obtain ⟨hstep, hreturned⟩ := @RowCall.step_of_run t (.insertRow data txn others) _ _ .inserted rfl
        rw [hstep]
        exact budgets_insertRow h (hreturned hback)
      | updateRow rowId data txn others =>
        obtain ⟨hstep, hreturned⟩ := @RowCall.step_of_run t (.updateRow rowId data txn others) _ _
          (fun _ => .done) rfl
        rw [hstep]
        exact of_rel (hswaps.rel_updateRow (fun _ ht => ht) rfl hkeeps (hreturned hback))
      | deleteRow rowId txn =>
        obtain ⟨hstep, hreturned⟩ := @RowCall.step_of_run t (.deleteRow rowId txn) _ _ (fun _ => .done) rfl
        rw [hstep]
        refine of_rel (hswaps.rel_deleteRow (fun _ ht => ht) rfl hkeeps (fun t' page row _ hp hrow hmarked => ?_)
          (hreturned hback))
        refine ⟨fun n ht' => ht'.rewritten le_rfl fun page' hp' => ?_, rfl, rfl, rfl⟩
        obtain rfl := Option.some.inj (hp.symm.trans hp')
        exact ⟨(ht'.budgeted page (knows_of_resident hp)).modify hrow (Row.sizeBytes_remove hmarked),
          fun r hr => ht'.rows_le page (knows_of_resident hp) r (Std.ExtTreeMap.mem_modify.1 hr)⟩
      | getRow => exact absurd trivial hquiet
      | search => exact absurd trivial hquiet
    | rollbackTransaction txn => exact budgets_rollback h hkeeps
    | prune oldest =>
      obtain ⟨hbudgets, hnext⟩ := @budgets_prune t _ oldest h hkeeps hreturns
      show (prune oldest none t).2.Budgets (prune oldest none t).2.nextRowId
      rw [hnext]
      exact hbudgets
    | _ => exact absurd trivial hquiet
  | _ => exact absurd trivial hquiet

/-- **Pages respect their byte budget**, in memory and in the page file, in every state reached by
    calls that change the size of no counted row. -/
theorem pages_budgeted (tableId : TableID) (pageSize limit : ℕ) (store : PageStore)
    (columns : BTreeMap ColumnID Column) (hstore : store.pages = .empty) (ops : List PageOp)
    (hops : Runs.Each step (fun t op => op.Returns t ∧ op.KeepsBudgets t)
      (start tableId pageSize limit store columns) ops) (page : Page)
    (hpage : (Runs.exec step (start tableId pageSize limit store columns) ops).Knows page)
    (hchain : ¬ page.InChain) : page.RespectsBudget := by
  have hnew : ∀ page, ¬ (start tableId pageSize limit store columns).Knows page := by
    rintro page (hp | hp)
    · exact absurd hp nofun
    · rw [show (start tableId pageSize limit store columns).pageStore.pages = .empty from hstore] at hp
      exact absurd hp nofun
  have hbudgets := Runs.Each.invariant hops (I := fun t => t.Budgets t.nextRowId)
    ⟨le_max_right pageSize 1, fun page hp => absurd hp (hnew page), fun page hp => absurd hp (hnew page)⟩
    fun t op h ⟨hreturns, hkeeps⟩ => budgets_step hreturns hkeeps h
  exact (hbudgets.budgeted page hpage).respects hchain

/-- Three rows of 25 bytes, no mark of transaction 5, and a vacuum. -/
abbrev insertAndPrune : List PageOp := [.table .insertEmpty, .table .insertEmpty, .table .insertEmpty,
  .table (.rollbackTransaction ⟨5, .default⟩), .table (.prune 0), .ensurePageResident 0]

theorem pages_budgeted_pruned : ∃ page ∈ (Runs.exec step (start 0 57 0 .empty ∅) insertAndPrune).rowSpace.get? 0,
    page.rows.keys = [1, 2] ∧ page.RespectsBudget := by
  have hfound : ∃ page ∈ (Runs.exec step (start 0 57 0 .empty ∅) insertAndPrune).rowSpace.get? 0,
      page.rows.keys = [1, 2] ∧ ¬ page.InChain := by decide +kernel
  obtain ⟨page, hpage, hkeys, hchain⟩ := hfound
  have hcollects : (Runs.exec step (start 0 57 0 .empty ∅) [.table .insertEmpty, .table .insertEmpty,
      .table .insertEmpty, .table (.rollbackTransaction ⟨5, .default⟩)]).Collects :=
    collects_of_sound (@TableOp.arranged_run [.insertEmpty, .insertEmpty, .insertEmpty,
      .rollbackTransaction ⟨5, .default⟩] (start 0 57 0 .empty ∅, fun _ => 0)
      (Arranged.start 0 57 .empty ∅)).laid.sound
  have hmarks : ∀ page ∈ (Runs.exec step (start 0 57 0 .empty ∅) [.table .insertEmpty, .table .insertEmpty,
      .table .insertEmpty]).rowSpace.values, page.isOverflow = false →
        page.marksTaken ⟨5, .default⟩ = page.marksSet ⟨5, .default⟩ := by decide +kernel
  exact ⟨page, hpage, hkeys, pages_budgeted 0 57 0 .empty ∅ rfl insertAndPrune ⟨⟨by decide +kernel, trivial⟩,
    ⟨by decide +kernel, trivial⟩, ⟨by decide +kernel, trivial⟩, ⟨by decide +kernel, hmarks⟩,
    ⟨by decide +kernel, hcollects⟩, ⟨by decide +kernel, trivial⟩, trivial⟩ page (knows_of_resident hpage) hchain⟩

/-- The mark of the delete is not counted: the page takes another row, and has 58 bytes on 57. -/
theorem uncounted_mark : ¬ ∀ ops, ∀ page ∈ (Runs.exec step (start 0 57 0 .empty ∅) ops).rowSpace.get? 0,
    ¬ page.InChain → page.RespectsBudget := by
  intro h
  have hpage : ∃ page ∈ (Runs.exec step (start 0 57 0 .empty ∅) [.table .insertEmpty,
      .table (.call (.deleteRow 1 ⟨1, .default⟩))]).rowSpace.get? 0,
      ¬ page.InChain ∧ page.hasRoomFor 25 = true ∧ ¬ min (page.rowBytes + 25) (2 ^ 64 - 1) ≤ page.capacity := by
    decide +kernel
  obtain ⟨page, hp, hchain, hroom, hlarge⟩ := hpage
  exact hlarge (((h _ page hp hchain).decides 25).1 hroom)

end PageOp

end AntDb
