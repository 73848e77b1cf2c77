/-
  Where a table without a memory limit has its rows, in every state its calls reach.

  A run carries along the size each row had when it was last placed, by an insert or by a vacuum.
  Inserts place a row, a vacuum packs them all, and the other calls leave the layout alone.
-/
import AntDb.Histories
import AntDb.Packing

namespace AntDb

open Call TableM

namespace Table

variable {t t' : Table} {ρ : RowMap} {p : PageID} {page : Page} {r rowId : RowID} {row : Row}
  {data : RowData} {txn : Transaction} {others : ForeignTables} {oldest : TransactionID}

/-! ## Calls that leave the layout alone -/

structure SameLayout (t t' : Table) : Prop where
  layout : t'.layout = t.layout
  pageSize : t'.pageSize = t.pageSize
  memoryLimit : t'.memoryLimit = t.memoryLimit
  nextRowId : t'.nextRowId = t.nextRowId

namespace SameLayout

theorem refl (t : Table) : SameLayout t t := ⟨rfl, rfl, rfl, rfl⟩

theorem trans {t'' : Table} (h : SameLayout t t') (h' : SameLayout t' t'') : SameLayout t t'' :=
  ⟨h'.layout.trans h.layout, h'.pageSize.trans h.pageSize, h'.memoryLimit.trans h.memoryLimit,
    h'.nextRowId.trans h.nextRowId⟩

end SameLayout

theorem rowLocations_of_layout (h : t'.layout = t.layout) : t'.rowLocations = t.rowLocations :=
  Std.ExtTreeMap.ext_getElem? fun r => congrFun (congrArg Layout.home h) r

/-- Tables without a memory limit, laid out as `s`. -/
def resting (s : Layout) : Frame (Option PageID) Table Fault where
  env := none
  inv t := t.memoryLimit = 0 ∧ t.layout = s
  rel := SameLayout
  exempt _ := False
  refl := SameLayout.refl
  trans h h' := h.trans h'
  keep ht h := ⟨h.memoryLimit.trans ht.1, h.layout.trans ht.2⟩

/-- The page of a known row is resident. -/
theorem resident_of_sound (hs : t.layout.Sound) (hr : t.rowLocations[r]? = some p) :
    ∃ page, t.rowSpace.get? p = some page ∧ r ∈ page.rows := by
  obtain ⟨o, ho, hmem⟩ := hs.located r p hr
  obtain ⟨page, hp, rfl⟩ := get_of_page_layout ho
  exact ⟨page, hp, Page.mem_outline.1 hmem⟩

theorem loads_resting (hs : t.layout.Sound) : Loads (resting t.layout) t.rowLocations where
  locations _ ht' := rowLocations_of_layout ht'.2
  ensure p hp held t' ht' := by
    obtain ⟨r, hr⟩ := hp
    obtain ⟨hlimit, hlayout⟩ := ht'
    have hr' : t'.layout.home r = some p := by rw [hlayout]; exact hr
    obtain ⟨page, hpage, -⟩ := resident_of_sound (hlayout ▸ hs) hr'
    rw [ensurePageResident_run, hpage]
    exact Or.inr ⟨trivial, rfl, rfl, rfl, rfl⟩
  exempt _ h := h.elim

section Resting

variable {s : Layout} {f : Page → Page} {hf : ∀ page, (f page).pageId = page.pageId}

theorem sameLayout_update (h : ∀ page, (f page).outline = page.outline) :
    SameLayout t { t with rowSpace := t.rowSpace.update p f hf } :=
  ⟨PageMap.layout_update hf h, rfl, rfl, rfl⟩

theorem sameLayout_map (h : ∀ page, (f page).outline = page.outline) :
    SameLayout t { t with rowSpace := t.rowSpace.map f hf } :=
  ⟨PageMap.layout_map hf h, rfl, rfl, rfl⟩

theorem resting_columns (t : Table) (columns : BTreeMap ColumnID Column) (n : ColumnID)
    (_ : (resting s).inv t) : (resting s).rel t { t with columns := columns, nextColumnId := n } :=
  ⟨rfl, rfl, rfl, rfl⟩

theorem follows_writeRow_resting {g : Row → Row} : Follows (resting s) (writeRow p rowId g) :=
  Follows.modify fun _ _ => sameLayout_update fun _ =>
    Page.outline_congr (fun _ => Std.ExtTreeMap.mem_modify) rfl rfl rfl rfl

theorem follows_deleteRow_resting (hs : t.layout.Sound) :
    Follows (resting t.layout) (deleteRow rowId txn) := by
  refine (follows_pageForRow (loads_resting hs)).bind fun page => follows_lockPage.bind fun _ => ?_
  split_ifs
  · exact follows_writeRow_resting
  · exact follows_throw

theorem follows_updateRow_resting (hs : t.layout.Sound) :
    Follows (resting t.layout) (updateRow rowId data txn others) := by
  refine (follows_pageForRow (loads_resting hs)).bind fun page => follows_lockPage.bind fun _ => ?_
  cases page.rows[rowId]? with
  | none => exact follows_throw
  | some row =>
    exact (follows_validateRowData (loads_resting hs)).within.bind fun _ =>
      follows_writeRow_resting.bind fun _ => Follows.modify fun _ _ => ⟨rfl, rfl, rfl, rfl⟩

end Resting

/-! ## Flushing -/

section Flushing

variable {F : Frame (Option PageID) Table Fault}
  (hstore : ∀ t store ids, F.inv t → F.rel t { t with pageStore := store, onDiskPages := ids })
include hstore

theorem follows_persistDirtyPages : Follows F persistDirtyPages := by
  refine Follows.get fun t _ => Follows.bind (Follows.foldlM fun flushed page _ => ?_) fun _ =>
    Follows.modify fun t ht => hstore t t.pageStore _ ht
  split_ifs
  · exact follows_read.bind fun store => (Follows.modify fun t ht =>
      hstore t store t.onDiskPages ht).bind fun _ => Follows.pure
  · exact Follows.pure

theorem follows_flushAllPages (hclean : ∀ t, F.inv t →
    F.rel t { t with rowSpace := t.rowSpace.map fun page => { page with isDirty := false } }) :
    Follows F flushAllPages := by
  refine Follows.get fun t _ => follows_read.bind fun pageIds => Follows.bind
    (Follows.foldlM fun kept p _ => follows_read.bind fun found => ?_) fun kept =>
      (Follows.modify hclean).bind fun _ => Follows.get fun t _ => follows_read.bind fun store =>
        Follows.modify fun t ht => hstore t store _ ht
  cases found <;> exact Follows.pure

end Flushing

/-- Calls that leave the rows of all pages alone as well. -/
def cleaning : Frame (Option PageID) Table Fault where
  env := none
  inv _ := True
  rel t t' := SameLayout t t' ∧
    ∀ p, (t'.rowSpace.get? p).map (·.rows) = (t.rowSpace.get? p).map (·.rows)
  exempt _ := False
  refl t := ⟨SameLayout.refl t, fun _ => rfl⟩
  trans h h' := ⟨h.1.trans h'.1, fun p => (h'.2 p).trans (h.2 p)⟩
  keep _ _ := trivial

theorem outline_cleaned (page : Page) : ({ page with isDirty := false } : Page).outline = page.outline :=
  rfl

theorem cleaning_flushAllPages : Follows cleaning flushAllPages :=
  follows_flushAllPages (fun _ _ _ _ => ⟨⟨rfl, rfl, rfl, rfl⟩, fun _ => rfl⟩) fun t _ =>
    ⟨sameLayout_map outline_cleaned, fun p => by
      rw [@PageMap.get?_map t.rowSpace p (fun page => { page with isDirty := false }) fun _ => rfl,
        Option.map_map]
      rfl⟩

/-! ## Inserts -/

/-- An insert that is refused leaves the layout alone; another places its row. -/
theorem insertRow_layout (data : RowData) (txn : Transaction) (others : ForeignTables)
    (hlimit : t.memoryLimit = 0) (hs : t.layout.Sound) :
    (∃ e t', insertRow data txn others none t = (.error e, t') ∧ SameLayout t t') ∨
      ∃ t', insertRow data txn others none t = (.ok (t.nextRowId + 1), t') ∧
        Layout.Placed t.pageSize t.layout (t.nextRowId + 1) (Row.new txn data).sizeBytes t'.layout ∧
        t'.pageSize = t.pageSize ∧ t'.memoryLimit = t.memoryLimit ∧ t'.nextRowId = t.nextRowId + 1 ∧
        (∀ r ∈ t'.rowLocations, r = t.nextRowId + 1 ∨ r ∈ t.rowLocations) := by
  have hvalid : SameLayout t
      (validateRowData data txn none (foreignKeyValueExists others txn) none t).2 := by
    rcases follows_validateRowData (loads_resting hs) none t ⟨hlimit, rfl⟩ with
      ⟨-, -, ⟨⟩⟩ | ⟨-, hsame⟩
    exact hsame
  unfold insertRow
  generalize hval : validateRowData data txn none (foreignKeyValueExists others txn) none t = outcome
    at hvalid
  obtain ⟨e | _, t₁⟩ := outcome
  · exact Or.inl ⟨e, t₁, bind_error hval, hvalid⟩
  · right
    have hsame : SameLayout t t₁ := hvalid
    obtain ⟨p, t₂, hrun, hrest, hplaced⟩ := @placeNewRow_unlimited { t₁ with nextRowId := t₁.nextRowId + 1 }
      (Row.new txn data).sizeBytes (t₁.nextRowId + 1) (Row.new txn data)
      (hsame.memoryLimit.trans hlimit)
    rw [bind_ok hval, get_bind, modify_bind, bind_ok hrun, modify_bind, modify_bind]
    have hlayout : Layout.Placed t.pageSize t.layout (t.nextRowId + 1) (Row.new txn data).sizeBytes
        (t₂.rowSpace.layout (t₂.rowLocations.insert (t₁.nextRowId + 1) p) t₂.nextPageId) := by
      rw [hrest.rowLocations, ← hsame.layout, ← hsame.pageSize, ← hsame.nextRowId]
      exact hplaced
    refine ⟨_, congrArg (fun n => (Except.ok (n + 1), _)) hsame.nextRowId, hlayout,
      (SameTable.pageSize hrest).trans hsame.pageSize, hrest.memoryLimit.trans hsame.memoryLimit,
      hrest.nextRowId.trans (congrArg (· + 1) hsame.nextRowId), fun r hr => ?_⟩
    have hmem : r ∈ t₂.rowLocations.insert (t₁.nextRowId + 1) p := hr
    rw [Std.ExtTreeMap.mem_insert, Std.LawfulEqOrd.compare_eq_iff_eq, hsame.nextRowId,
      hrest.rowLocations] at hmem
    refine hmem.imp Eq.symm fun hmem => ?_
    rw [← rowLocations_of_layout hsame.layout]
    exact hmem

/-! ## The vacuum -/

/-- The resident pages are as they were. -/
theorem materializeAllPages_resident (hres : ∀ p, t.Referenced p → t.Resident p) :
    ∃ t', materializeAllPages none t = (.ok (), t') ∧
      t' = { t with lru := t'.lru, lruCounter := t'.lruCounter } := by
  have hall : ∀ (l : List PageID) (t : Table), (∀ p ∈ l, t.Resident p) →
      ∃ t', (l.forM fun p => do let _ ← ensurePageResident p : TableM Unit) none t = (.ok (), t') ∧
        t' = { t with lru := t'.lru, lruCounter := t'.lruCounter } := by
    intro l
    induction l with
    | nil => exact fun t _ => ⟨t, rfl, rfl⟩
    | cons p l ih =>
      intro t hl
      obtain ⟨page, hpage⟩ := hl p (List.mem_cons_self ..)
      obtain ⟨t', hrun, heq⟩ := ih (t.touchPage p) fun q hq => hl q (List.mem_cons_of_mem p hq)
      have hone : (do let _ ← ensurePageResident p : TableM Unit) none t = (.ok (), t.touchPage p) := by
        rw [bind_ok (ensurePageResident_run.trans (by rw [hpage]))]
        rfl
      exact ⟨t', (bind_ok hone).trans hrun, heq⟩
  unfold materializeAllPages
  rw [get_bind]
  exact hall _ t fun p hp => hres p (mem_referencedPages.1 (Std.ExtTreeSet.mem_toList.1 hp))

/-- The rows of a sound layout are on one page each. -/
theorem oneHome_of_sound (hs : t.layout.Sound) : t.OneHome := by
  have hhome : ∀ p page, t.rowSpace.get? p = some page → ∀ r ∈ page.rows, t.rowLocations[r]? = some p :=
    fun p page hp r hr => hs.homed p _ (page_layout_of_get hp) r (Page.mem_outline.2 hr)
  intro p p' page page' hp hp' r hr hr'
  exact Option.some.inj ((hhome p page hp r hr).symm.trans (hhome p' page' hp' r hr'))

/-- Rows stay on one page each when versions are dropped. -/
theorem OneHome.rowsPruned (h : t.OneHome) : (t.rowsPruned oldest).OneHome := by
  have hrows : ∀ p page, (t.rowsPruned oldest).rowSpace.get? p = some page →
      ∃ page', t.rowSpace.get? p = some page' ∧ ∀ r ∈ page.rows, r ∈ page'.rows := by
    intro p page hp
    obtain ⟨page', hp', rfl⟩ := Option.map_eq_some_iff.1 (get_prunedSpace.symm.trans hp)
    exact ⟨page', hp', fun r hr => mem_of_mem_pruneRows hr⟩
  intro p q page page' hp hq r hr hr'
  obtain ⟨page₁, hp₁, hrows₁⟩ := hrows p page hp
  obtain ⟨page₂, hq₂, hrows₂⟩ := hrows q page' hq
  exact h p q page₁ page₂ hp₁ hq₂ r (hrows₁ r hr) (hrows₂ r hr')

/-- What a logged call leaves is what the call leaves. -/
theorem logged_state {x : TableM Unit} :
    ((logged x >>= fun _ => pure () : TableM Unit) none t).2 = (x none t).2 := by
  have hlogged : (logged x none t).2 = (x none t).2 := by
    show (Call.handling _ _ none t).2 = _
    unfold Call.handling
    rw [bind_run]
    rcases x none t with ⟨e | a, t'⟩
    · cases e <;> rfl
    · rfl
  rw [bind_run, ← hlogged]
  rcases logged x none t with ⟨e | a, t'⟩ <;> rfl

/-- A vacuum that gets as far as compacting ends with a flush. -/
theorem prune_state {t₁ t₂ : Table} (hrun₁ : materializeAllPages none t = (.ok (), t₁))
    (hrun₂ : pruneVersions oldest none t₁ = (.ok (), t₂)) :
    (prune oldest none t).2 = (flushAllPages none t₂.compact).2 := by
  unfold prune
  rw [bind_ok (logged_run hrun₁)]
  show ((pruneVersions oldest >>= fun _ => _ : TableM Unit) none t₁).2 = _
  rw [bind_ok hrun₂, modify_bind]
  exact logged_state

/-- A vacuum packs the rows, with the sizes they have after it. -/
theorem prune_layout (oldest : TransactionID) (hlimit : t.memoryLimit = 0) (hps : 1 ≤ t.pageSize) (hs : t.layout.Sound) :
    (logged materializeAllPages none t).1 = .ok true ∧
      ∃ sizes, (prune oldest none t).2.layout.Laid t.pageSize sizes ∧
        (prune oldest none t).2.pageSize = t.pageSize ∧ (prune oldest none t).2.memoryLimit = 0 ∧
        (prune oldest none t).2.nextRowId = t.nextRowId ∧
        ∀ (r : RowID) p, (prune oldest none t).2.rowLocations[r]? = some p → r ∈ t.rowLocations ∧
          ∃ row, (prune oldest none t).2.rowAt r = some row ∧ sizes r = row.sizeBytes := by
  have hres : ∀ p, t.Referenced p → t.Resident p := fun p ⟨r, hr⟩ => by
    obtain ⟨page, hp, -⟩ := resident_of_sound hs hr
    exact ⟨page, hp⟩
  obtain ⟨t₁, hrun₁, heq₁⟩ := materializeAllPages_resident hres
  have hs₁ : t₁.layout.Sound := by rw [heq₁]; exact hs
  have hres₁ : ∀ p, t₁.Referenced p → t₁.Resident p := by rw [heq₁]; exact hres
  obtain ⟨t₂, hrun₂, heq₂⟩ := @pruneVersions_resident t₁ oldest hres₁
  have hone : t₂.OneHome := by rw [heq₂]; exact (oneHome_of_sound hs₁).rowsPruned
  have hps₂ : 1 ≤ t₂.pageSize := by rw [heq₂, heq₁]; exact hps
  obtain ⟨c, m, hspace, hloc, hnext, hc, hpacked, hlive⟩ := hone.packed hps₂
  have hlayout : t₂.compact.layout = c.layout := by rw [layout, hspace, hloc, hnext]; rfl
  -- the flush may fail, but it leaves the rows and the layout alone
  obtain ⟨hsame, hrows⟩ : cleaning.rel t₂.compact (flushAllPages none t₂.compact).2 := by
    rcases cleaning_flushAllPages none t₂.compact trivial with ⟨-, -, ⟨⟩⟩ | ⟨-, h⟩
    exact h
  rw [prune_state hrun₁ hrun₂]
  generalize (flushAllPages none t₂.compact).2 = t₃ at hsame hrows
  have hpageSize : t₂.pageSize = t.pageSize := by rw [heq₂, heq₁]; rfl
  have hlimit₂ : t₂.memoryLimit = 0 := by rw [heq₂, heq₁]; exact hlimit
  have hnext₂ : t₂.nextRowId = t.nextRowId := by rw [heq₂, heq₁]; rfl
  refine ⟨by rw [logged_run hrun₁], sizesOf m, ?_, hsame.pageSize.trans hpageSize,
    hsame.memoryLimit.trans hlimit₂, hsame.nextRowId.trans hnext₂, fun r p hp => ?_⟩
  · rw [hsame.layout, hlayout, ← hpageSize]
    exact hpacked.laid
  · have hp' : c.locations[r]? = some p := by
      rw [← hloc, ← rowLocations_of_layout hsame.layout, hp]
    obtain ⟨row, hrow⟩ := BTreeMap.mem_iff_get.1 (hc.located r p hp')
    obtain ⟨p', page, hp'', hpage, hr⟩ := hc.placed r row hrow
    obtain rfl := Option.some.inj (hp'.symm.trans hp'')
    have hkept := hrows p
    rw [hspace, hpage, Option.map_some] at hkept
    obtain ⟨page', hpage', hrows'⟩ := Option.map_eq_some_iff.1 hkept
    refine ⟨?_, row, ?_, sizesOf_of_get hrow⟩
    · obtain ⟨-, q, pruned, hq, hmem⟩ := (hlive r row).1 hrow
      rw [heq₂] at hq
      obtain ⟨page₁, hpage₁, rfl⟩ := Option.map_eq_some_iff.1 (get_prunedSpace.symm.trans hq)
      have hhome := hs₁.homed q _ (page_layout_of_get hpage₁) r
        (Page.mem_outline.2 (mem_of_mem_pruneRows (BTreeMap.mem_of_get hmem)))
      rw [heq₁] at hhome
      exact BTreeMap.mem_of_get hhome
    · rw [rowAt, rowIn, hp, Option.bind_some, content_of_resident hpage', Option.bind_some, hrows', hr]

/-- The rows of a table are where the row map says, and the larger ones head their chains; `sizes`
    are the sizes the rows had when they were placed. -/
structure Placement (t : Table) (sizes : RowID → ℕ) : Prop where
  named : ∀ p page, t.rowSpace.get? p = some page → page.pageId = p ∧ p < t.nextPageId
  located : ∀ (r : RowID) p, t.rowLocations[r]? = some p →
    ∀ q, (∃ page, t.rowSpace.get? q = some page ∧ r ∈ page.rows) ↔ q = p
  vacant : ∀ p page, t.rowSpace.get? p = some page → page.isOverflow = true → page.rows = ∅
  chained : ∀ (r : RowID) p, t.rowLocations[r]? = some p → t.pageSize < sizes r →
    ∃ qs, t.Chain r p qs ∧ qs.length = extraPages (sizes r) t.pageSize
  disjoint : ∀ r r' p p' qs qs', t.Chain r p qs → t.Chain r' p' qs' → r ≠ r' →
    List.Disjoint (p :: qs) (p' :: qs')

/-- What a run keeps of the table and the sizes of its rows. -/
structure Arranged (t : Table) (sizes : RowID → ℕ) : Prop where
  unlimited : t.memoryLimit = 0
  pageSize : 1 ≤ t.pageSize
  rowId_le : ∀ r ∈ t.rowLocations, r ≤ t.nextRowId
  laid : t.layout.Laid t.pageSize sizes

namespace Arranged

variable {sizes : RowID → ℕ}

theorem placement (h : t.Arranged sizes) : t.Placement sizes where
  named p page hp := ⟨PageMap.pageId_of_get hp, h.laid.sound.lt p _ (page_layout_of_get hp)⟩
  located r p hr q := by
    constructor
    · rintro ⟨page, hq, hmem⟩
      have hhome := h.laid.sound.homed q _ (page_layout_of_get hq) r (Page.mem_outline.2 hmem)
      exact Option.some.inj (hhome.symm.trans hr)
    · rintro rfl
      exact resident_of_sound h.laid.sound hr
  vacant p page hp hover :=
    Page.rows_of_outline (h.laid.sound.vacant p _ (page_layout_of_get hp) hover)
  chained r p hr hbig := by
    obtain ⟨qs, hheads, hlen⟩ := h.laid.chained r p hr hbig
    exact ⟨qs, chain_of_heads h.laid.sound hheads, hlen⟩
  disjoint r r' p p' qs qs' hchain hchain' hne :=
    Layout.Heads.disjoint h.laid.sound hchain.heads hchain'.heads hne

theorem start (tableId : TableID) (pageSize : ℕ) (store : PageStore) (columns : BTreeMap ColumnID Column) :
    (start tableId pageSize 0 store columns).Arranged sizes where
  unlimited := rfl
  pageSize := le_max_right pageSize 1
  rowId_le r hr := by simp [Table.start, new] at hr
  laid := (Layout.Packed.empty :).laid

theorem of_same (h : t.Arranged sizes) (hsame : SameLayout t t') : t'.Arranged sizes where
  unlimited := hsame.memoryLimit.trans h.unlimited
  pageSize := hsame.pageSize ▸ h.pageSize
  rowId_le := by rw [rowLocations_of_layout hsame.layout, hsame.nextRowId]; exact h.rowId_le
  laid := by rw [hsame.layout, hsame.pageSize]; exact h.laid

theorem of_follows {α : Type} {x : TableM α} (h : t.Arranged sizes) (hx : Follows (resting t.layout) x) :
    (x none t).2.Arranged sizes := by
  rcases hx none t ⟨h.unlimited, rfl⟩ with ⟨-, -, ⟨⟩⟩ | ⟨-, hsame⟩
  exact h.of_same hsame

theorem insertRow (h : t.Arranged sizes) : (Table.insertRow data txn others none t).2.Arranged
    (match (Table.insertRow data txn others none t).1 with
      | .ok rowId => Function.update sizes rowId (Row.new txn data).sizeBytes
      | .error _ => sizes) := by
  rcases insertRow_layout data txn others h.unlimited h.laid.sound with
    ⟨e, t', hrun, hsame⟩ | ⟨t', hrun, hplaced, hpageSize, hlimit, hnext, hrows⟩
  · rw [hrun]
    exact h.of_same hsame
  · rw [hrun]
    have hfresh : t.layout.home (t.nextRowId + 1) = none := Std.ExtTreeMap.getElem?_eq_none fun hmem =>
      Nat.not_succ_le_self _ (h.rowId_le _ hmem)
    refine ⟨hlimit.trans h.unlimited, hpageSize ▸ h.pageSize, fun r hr => ?_, ?_⟩
    · rw [hnext]
      rcases hrows r hr with rfl | hr
      · exact le_rfl
      · exact (h.rowId_le r hr).trans (Nat.le_succ _)
    · rw [hpageSize]
      exact h.laid.placed h.pageSize hfresh hplaced

theorem prune (h : t.Arranged sizes) : (Table.prune oldest none t).2.Arranged fun r =>
    (((Table.prune oldest none t).2.rowAt r).map (·.sizeBytes)).getD (sizes r) := by
  obtain ⟨-, placed, hlaid, hpageSize, hlimit, hnext, hrows⟩ :=
    prune_layout oldest h.unlimited h.pageSize h.laid.sound
  refine ⟨hlimit, hpageSize ▸ h.pageSize, fun r hr => ?_, ⟨hlaid.sound, fun r p hr hbig => ?_⟩⟩
  · rw [hnext]
    obtain ⟨p, hp⟩ := BTreeMap.mem_iff_get.1 hr
    exact h.rowId_le r (hrows r p hp).1
  · obtain ⟨-, row, hrow, hsize⟩ := hrows r p hr
    rw [hrow, Option.map_some, Option.getD_some, ← hsize] at hbig ⊢
    rw [hpageSize] at hbig ⊢
    exact hlaid.chained r p hr hbig

end Arranged

end Table

namespace TableOp

open Table

variable {t : Table} {sizes : RowID → ℕ} {op : TableOp}

/-- The sizes rows had when they were last placed: an insert places its row, a vacuum the rows it
    leaves. -/
def placedSizes (t : Table) (sizes : RowID → ℕ) : TableOp → RowID → ℕ
  | call (.insertRow data txn others) =>
    match (Table.insertRow data txn others none t).1 with
    | .ok rowId => Function.update sizes rowId (Row.new txn data).sizeBytes
    | .error _ => sizes
  | prune oldest =>
    if (logged materializeAllPages none t).1 = .ok true then
      fun r => (((step t (prune oldest)).rowAt r).map (·.sizeBytes)).getD (sizes r)
    else sizes
  | _ => sizes

/-- A call of the table, and the sizes after it. -/
def placing (s : Table × (RowID → ℕ)) (op : TableOp) : Table × (RowID → ℕ) :=
  (step s.1 op, placedSizes s.1 s.2 op)

/-- **A call** keeps the rows arranged. -/
theorem arranged_step (h : t.Arranged sizes) : (step t op).Arranged (placedSizes t sizes op) := by
  have hl := loads_resting h.laid.sound
  cases op with
  | call c =>
    rw [step_call]
    cases c with
    | insertRow data txn others =>
      rw [(RowCall.step_of_run rfl).1]
      exact h.insertRow
    | updateRow rowId data txn others =>
      exact h.of_follows ((follows_updateRow_resting h.laid.sound).bind fun _ => Follows.pure)
    | deleteRow rowId txn =>
      exact h.of_follows ((follows_deleteRow_resting h.laid.sound).bind fun _ => Follows.pure)
    | getRow rowId => exact h.of_follows ((follows_getRow hl).bind fun _ => Follows.pure)
    | search request txn accessPath =>
      exact h.of_follows ((follows_search hl).bind fun _ => Follows.pure)
  | createColumn columnName dataType constraints txn =>
    exact h.of_follows ((follows_createColumn hl resting_columns).bind fun _ => Follows.pure)
  | addColumnConstraints columnId extraConstraints txn =>
    exact h.of_follows (follows_addColumnConstraints hl resting_columns)
  | rollbackTransaction txn =>
    have hmap := @sameLayout_map t
      (fun page => { page with rows := page.rows.map fun _ row => row.rollbackTransaction txn })
      (fun _ => rfl) fun page => Page.outline_congr (fun r => Std.ExtTreeMap.mem_map) rfl rfl rfl rfl
    exact h.of_same ⟨hmap.layout, rfl, rfl, rfl⟩
  | persistDirtyPages => exact h.of_follows (follows_persistDirtyPages fun _ _ _ _ => ⟨rfl, rfl, rfl, rfl⟩)
  | flushAllPages =>
    exact h.of_follows (follows_flushAllPages (fun _ _ _ _ => ⟨rfl, rfl, rfl, rfl⟩) fun _ _ =>
      sameLayout_map outline_cleaned)
  | prune oldest =>
    have hloaded := (prune_layout oldest h.unlimited h.pageSize h.laid.sound).1
    rw [placedSizes, if_pos hloaded]
    exact h.prune

theorem arranged_run {ops : List TableOp} {s : Table × (RowID → ℕ)} (h : s.1.Arranged s.2) :
    (Runs.exec placing s ops).1.Arranged (Runs.exec placing s ops).2 := by
  induction ops generalizing s with
  | nil => exact h
  | cons op ops ih => exact ih (arranged_step h)

/-- **Rows stay placed** in every state the calls of a table without a memory limit reach. -/
theorem rows_stay_placed (tableId : TableID) (pageSize : ℕ) (store : PageStore)
    (columns : BTreeMap ColumnID Column) (ops : List TableOp) :
    let s := Runs.exec placing (start tableId pageSize 0 store columns, fun _ => 0) ops
    s.1.Placement s.2 :=
  (arranged_run (Arranged.start tableId pageSize store columns)).placement

end TableOp

end AntDb
