/-
  What eviction and loading of pages may change.

  `Stored p page` holds of every content page `p` can have after evictions and reloads: the
  resident page, and the record in the page file when the resident page may be dropped
  without being written.  Every call that only moves pages between memory and the page
  file stays within the contents stored before it (`Moved`).
-/
import AntDb.Vacuum

namespace AntDb.Table

open Call TableM

variable {t t' t'' : Table} {L L' : PageID → Prop} {p q : PageID} {page page' : Page}
  {held : Option PageID}

/-- Some row is mapped to page `p`. -/
def Referenced (t : Table) (p : PageID) : Prop := ∃ r : RowID, t.rowLocations[r]? = some p

def Resident (t : Table) (p : PageID) : Prop := ∃ page, t.rowSpace.get? p = some page

/-- Eviction may drop the resident copy of page `p`, if there is one, without writing it. -/
def MayRevert (t : Table) (p : PageID) : Prop := ∀ page, t.rowSpace.get? p = some page →
  t.memoryLimit ≠ 0 ∧
    ((page.isDirty = false ∧ p ∈ t.onDiskPages) ∨ t.pageStore.writeFault ≠ none)

/-- `page` is what page `p` holds, or may hold after evictions and reloads. -/
def Stored (t : Table) (p : PageID) (page : Page) : Prop :=
  t.rowSpace.get? p = some page ∨ (t.pageStore.pages.get? p = some page ∧ t.MayRevert p)

/-- What page `p` holds: the resident page or else its record in the page file. -/
def content (t : Table) (p : PageID) : Option Page :=
  (t.rowSpace.get? p).or (t.pageStore.pages.get? p)

/-- The pages thought to be on disk are. -/
def Filed (t : Table) : Prop := ∀ p ∈ t.onDiskPages, ∃ record, t.pageStore.pages.get? p = some record

/-- The table without the fields that evictions and loads change. -/
def rest (t : Table) : Table :=
  { t with
    rowSpace := .empty
    evictedPages := ∅
    onDiskPages := ∅
    lru := ∅
    lruCounter := 0
    memoryUsed := 0
    pageStore := { t.pageStore with pages := .empty, rowLocations := ∅, writes := [] } }

/-- A write that merges a page of `t` into the page file. -/
def Merges (t : Table) (w : FileWrite) : Prop :=
  w.rowLocations = t.rowLocations ∧ ∃ page, w.merged = some page ∧
    w.after = w.before.insert page ∧ t.Stored page.pageId page

/-- `t'` is `t` after evictions, and loads of pages in `L`. -/
structure Moved (L : PageID → Prop) (t t' : Table) : Prop where
  rest : t'.rest = t.rest
  stored : ∀ p page, t'.Stored p page → t.Stored p page
  kept : ∀ p page, t'.rowSpace.get? p = some page → t.rowSpace.get? p = some page ∨ L p
  filed : t.Filed → t'.Filed
  present : t.pageStore.writeFault = none → t.Filed →
    ∀ p, (t.content p).isSome = true → (t'.content p).isSome = true
  writes : ∃ ws, t'.pageStore.writes = ws ++ t.pageStore.writes ∧ ∀ w ∈ ws, t.Merges w

theorem stored_content (h : t.content p = some page) : t.Stored p page := by
  unfold content at h
  cases hr : t.rowSpace.get? p with
  | some q => rw [hr] at h; exact Or.inl (hr.trans h)
  | none => rw [hr] at h; exact Or.inr ⟨h, fun q hq => by rw [hr] at hq; cases hq⟩

theorem content_of_resident (h : t.rowSpace.get? p = some page) : t.content p = some page := by
  rw [content, h]; rfl

theorem stored_absent (h : t.rowSpace.get? p = none) :
    t.Stored p page ↔ t.pageStore.pages.get? p = some page := by
  refine ⟨fun hs => ?_, fun hs => Or.inr ⟨hs, fun q hq => by rw [h] at hq; cases hq⟩⟩
  rcases hs with hs | hs
  · rw [h] at hs; cases hs
  · exact hs.1

namespace Moved

theorem rowLocations (h : Moved L t t') : t'.rowLocations = t.rowLocations :=
  (congrArg Table.rowLocations h.rest :)

theorem columns (h : Moved L t t') : t'.columns = t.columns := (congrArg Table.columns h.rest :)

theorem nextRowId (h : Moved L t t') : t'.nextRowId = t.nextRowId := (congrArg Table.nextRowId h.rest :)

theorem nextPageId (h : Moved L t t') : t'.nextPageId = t.nextPageId :=
  (congrArg Table.nextPageId h.rest :)

theorem pageSize (h : Moved L t t') : t'.pageSize = t.pageSize := (congrArg Table.pageSize h.rest :)

theorem memoryLimit (h : Moved L t t') : t'.memoryLimit = t.memoryLimit :=
  (congrArg Table.memoryLimit h.rest :)

theorem tableId (h : Moved L t t') : t'.tableId = t.tableId := (congrArg Table.tableId h.rest :)

theorem readFault (h : Moved L t t') : t'.pageStore.readFault = t.pageStore.readFault :=
  congrArg (fun t => t.pageStore.readFault) h.rest

theorem writeFault (h : Moved L t t') : t'.pageStore.writeFault = t.pageStore.writeFault :=
  congrArg (fun t => t.pageStore.writeFault) h.rest

theorem referenced (h : Moved L t t') : t'.Referenced = t.Referenced := by
  unfold Referenced; rw [h.rowLocations]

theorem resident (h : Moved L t t') (hp : t'.Resident p) : t.Resident p ∨ L p := by
  obtain ⟨page, hp⟩ := hp
  exact (h.kept p page hp).imp_left fun h => ⟨page, h⟩

theorem refl (L : PageID → Prop) (t : Table) : Moved L t t where
  rest := rfl
  stored _ _ h := h
  kept _ _ h := Or.inl h
  filed h := h
  present _ _ _ h := h
  writes := ⟨[], rfl, by simp⟩

theorem merges (h : Moved L t t') {w : FileWrite} (hw : t'.Merges w) : t.Merges w := by
  obtain ⟨hρ, page, hm, ha, hs⟩ := hw
  exact ⟨hρ.trans h.rowLocations, page, hm, ha, h.stored _ _ hs⟩

theorem trans (h : Moved L t t') (h' : Moved L t' t'') : Moved L t t'' where
  rest := h'.rest.trans h.rest
  stored p page hs := h.stored p page (h'.stored p page hs)
  kept p page hp := (h'.kept p page hp).elim (h.kept p page) Or.inr
  filed hf := h'.filed (h.filed hf)
  present hw hf p hp := h'.present (h.writeFault.trans hw) (h.filed hf) p (h.present hw hf p hp)
  writes := by
    obtain ⟨ws, hws, hm⟩ := h.writes
    obtain ⟨ws', hws', hm'⟩ := h'.writes
    refine ⟨ws' ++ ws, by rw [hws', hws, List.append_assoc], fun w hw => ?_⟩
    exact (List.mem_append.1 hw).elim (fun hw => h.merges (hm' w hw)) (hm w)

theorem mono (h : Moved L t t') (hL : ∀ p, L p → L' p) : Moved L' t t' where
  rest := h.rest
  stored := h.stored
  kept p page hp := (h.kept p page hp).imp_right (hL p)
  filed := h.filed
  present := h.present
  writes := h.writes

/-- Changes of the bookkeeping alone. -/
theorem of_bookkeeping (hr : t'.rest = t.rest) (hs : t'.rowSpace = t.rowSpace)
    (hd : t'.onDiskPages = t.onDiskPages) (hp : t'.pageStore = t.pageStore) : Moved L t t' := by
  have hl : t'.memoryLimit = t.memoryLimit := (congrArg Table.memoryLimit hr :)
  constructor
  · exact hr
  · intro p page h
    rwa [Stored, MayRevert, hs, hd, hp, hl] at h
  · intro p page h
    rw [hs] at h; exact Or.inl h
  · intro h
    rwa [Filed, hd, hp]
  · intro _ _ p h
    rwa [content, hs, hp]
  · exact ⟨[], by rw [hp]; rfl, by simp⟩

end Moved

/-! ## Evicting a page -/

/-- The table after page `p` has left `row_space`. -/
def dropped (t : Table) (p : PageID) : Table := { t with rowSpace := t.rowSpace.erase p }

/-- The table after the page has been written to the page file. -/
def written (t : Table) (page : Page) : Table :=
  { t with
    pageStore := t.pageStore.wrote (some page) (t.pageStore.pages.insert page) t.rowLocations
    onDiskPages := t.onDiskPages.insert page.pageId }

/-- The table after the page has been taken out of the accounts. -/
def released (t : Table) (page : Page) : Table :=
  let t := t.untrackPageInMemory page
  { t with evictedPages := t.evictedPages.insert page.pageId }

theorem writePageToDisk_run : writePageToDisk page held t =
    match t.pageStore.writeFault with
    | some message => (.error (.err (.ioError message)), t)
    | none => (.ok (), t.written page) := by
  unfold writePageToDisk written
  rw [get_bind, bind_run]
  simp only [TableM.ofResult, PageStore.mergePage, PageStore.writing, Call.ofExcept]
  cases t.pageStore.writeFault <;> rfl

theorem flushAndEvictPage_run : flushAndEvictPage page held t =
    if held = some page.pageId then (.error .blocked, t)
    else if page.isDirty = true ∨ page.pageId ∉ t.onDiskPages then
      match t.pageStore.writeFault with
      | some message => (.error (.err (.ioError message)), t)
      | none => (.ok (), (t.written page).released page)
    else (.ok (), t.released page) := by
  unfold flushAndEvictPage
  rw [bind_run, lockPage]
  split_ifs with hlock hwrite
  · rfl
  · dsimp only
    rw [get_bind, if_pos hwrite]
    show (writePageToDisk page >>= _) held t = _
    rw [bind_run, writePageToDisk_run]
    cases t.pageStore.writeFault <;> rfl
  · dsimp only
    rw [get_bind, if_neg hwrite]; rfl

theorem evictPage_run : evictPage p held t =
    match t.rowSpace.get? p with
    | none => (.ok (), t)
    | some page => flushAndEvictPage page held (t.dropped p) := by
  unfold evictPage
  rw [get_bind]
  cases t.rowSpace.get? p <;> rfl

theorem get_dropped : (t.dropped p).rowSpace.get? q = if p = q then none else t.rowSpace.get? q :=
  PageMap.get?_erase

/-- A page that may be dropped without being written leaves its record behind. -/
theorem moved_dropped (h : t.MayRevert p) : Moved L t (t.dropped p) where
  rest := rfl
  stored q page hs := by
    by_cases hq : p = q
    · subst hq
      have hd := (stored_absent (by rw [get_dropped, if_pos rfl])).1 hs
      exact Or.inr ⟨hd, h⟩
    · rwa [Stored, MayRevert, get_dropped, if_neg hq] at hs
  kept q page hq := by
    rw [get_dropped] at hq
    split_ifs at hq
    exact Or.inl hq
  filed hf := hf
  present hw hf q hq := by
    rw [content, get_dropped]
    split_ifs with hpq
    · subst hpq
      rw [Option.none_or]
      cases hr : t.rowSpace.get? p with
      | none => rwa [content, hr, Option.none_or] at hq
      | some page =>
        obtain ⟨-, hon⟩ := (h page hr).2.resolve_right fun h => h hw
        obtain ⟨record, hrec⟩ := hf p hon
        have hrec : (t.dropped p).pageStore.pages.get? p = some record := hrec
        rw [hrec]; rfl
    · exact hq
  writes := ⟨[], rfl, by simp⟩

/-- A page that is written before it is dropped. -/
theorem moved_written (h : t.rowSpace.get? p = some page) :
    Moved L t ((t.dropped p).written page) := by
  obtain rfl := PageMap.pageId_of_get h
  have hrow : ∀ q, ((t.dropped page.pageId).written page).rowSpace.get? q =
      if page.pageId = q then none else t.rowSpace.get? q := fun q => PageMap.get?_erase
  have hdisk : ∀ q, ((t.dropped page.pageId).written page).pageStore.pages.get? q =
      if page.pageId = q then some page else t.pageStore.pages.get? q := fun q => PageMap.get?_insert
  have hon : ∀ q, q ∈ ((t.dropped page.pageId).written page).onDiskPages ↔
      q = page.pageId ∨ q ∈ t.onDiskPages := fun q => BTreeSet.mem_insert
  constructor
  · rfl
  · intro q page' hs
    by_cases hq : page.pageId = q
    · subst hq
      have hd := (stored_absent (by rw [hrow, if_pos rfl])).1 hs
      rw [hdisk, if_pos rfl] at hd
      exact Or.inl (h.trans hd)
    · rw [Stored, MayRevert, hrow, if_neg hq, hdisk, if_neg hq, hon, or_iff_right (Ne.symm hq)] at hs
      exact hs
  · intro q page' hq
    rw [hrow] at hq
    split_ifs at hq
    exact Or.inl hq
  · intro hf q hq
    rw [hdisk]
    split_ifs with hpq
    · exact ⟨page, rfl⟩
    · exact hf q (((hon q).1 hq).resolve_left (Ne.symm hpq))
  · intro _ _ q hq
    rw [content, hrow, hdisk]
    split_ifs with hpq
    · rfl
    · exact hq
  · refine ⟨[_], rfl, fun w hw => ?_⟩
    obtain rfl := List.mem_singleton.1 hw
    exact ⟨rfl, page, rfl, rfl, Or.inl h⟩

theorem moved_released : Moved L t (t.released page) := Moved.of_bookkeeping rfl rfl rfl rfl

/-- The page whose lock a call holds does not leave memory. -/
def Holds (held : Option PageID) (t t' : Table) : Prop :=
  ∀ p page, held = some p → t.rowSpace.get? p = some page → t'.rowSpace.get? p = some page

theorem Holds.refl (t : Table) : Holds held t t := fun _ _ _ h => h

theorem Holds.trans (h : Holds held t t') (h' : Holds held t' t'') : Holds held t t'' :=
  fun p page hp ht => h' p page hp (h p page hp ht)

/-- Evicting a page moves it only, unless the call waits for the page it holds. -/
theorem evictPage_spec (p : PageID) (held : Option PageID) (t : Table) (hlimit : t.memoryLimit ≠ 0) :
    ((evictPage p held t).1 = .error .blocked ∧ held ≠ none) ∨
      ((t.pageStore.writeFault = none → (evictPage p held t).1 = .ok ()) ∧
        Moved L t (evictPage p held t).2 ∧ Holds held t (evictPage p held t).2) := by
  rw [evictPage_run]
  cases hp : t.rowSpace.get? p with
  | none => exact Or.inr ⟨fun _ => rfl, Moved.refl L t, Holds.refl t⟩
  | some page =>
    have hid := PageMap.pageId_of_get hp
    dsimp only
    rw [flushAndEvictPage_run]
    by_cases hlock : held = some page.pageId
    · rw [if_pos hlock, hlock]; exact Or.inl ⟨rfl, nofun⟩
    have hholds : Holds held t (t.dropped p) := fun q page' hq hget => by
      rw [get_dropped, if_neg fun h => hlock (by rw [hq, ← h, hid]), hget]
    rw [if_neg hlock]
    split_ifs with hwrite
    · right
      cases hw : (t.dropped p).pageStore.writeFault with
      | some message =>
        have hw : t.pageStore.writeFault = some message := hw
        refine ⟨fun h => ?_, moved_dropped fun _ _ => ⟨hlimit, Or.inr ?_⟩, hholds⟩
        · rw [hw] at h; cases h
        · rw [hw]; simp
      | none => exact ⟨fun _ => rfl, (moved_written hp).trans moved_released, hholds⟩
    · obtain ⟨hclean, hon⟩ := not_or.1 hwrite
      refine Or.inr ⟨fun _ => rfl, (moved_dropped fun page' hp' => ⟨hlimit, Or.inl ?_⟩).trans
        moved_released, hholds⟩
      obtain rfl := Option.some.inj (hp.symm.trans hp')
      exact ⟨by simpa using hclean, hid ▸ not_not.1 hon⟩

/-! ## Frames of paging -/

/-- Evictions, and loads of pages in `L`, in tables that satisfy `I`; nothing is said of a call
    that waits for the page it holds. -/
def paging (held : Option PageID) (L : PageID → Prop) (I : Table → Prop)
    (keep : ∀ {t t'}, I t → Moved L t t' → I t') : Frame (Option PageID) Table Fault where
  env := held
  inv := I
  rel t t' := Moved L t t' ∧ Holds held t t'
  exempt e := e = .blocked ∧ held ≠ none
  refl t := ⟨Moved.refl L t, Holds.refl t⟩
  trans h h' := ⟨h.1.trans h'.1, h.2.trans h'.2⟩
  keep h h' := keep h h'.1

section Paging

variable {I : Table → Prop} {k : ∀ {t t'}, I t → Moved L t t' → I t'}

/-- A result that is `ok` unless the file system may fail. -/
def OkIfQuiet (I : Table → Prop) (r : Except Fault Unit) : Prop :=
  (∀ t, I t → t.pageStore.writeFault = none) → r = .ok ()

theorem okIfQuiet_ok : OkIfQuiet I (.ok ()) := fun _ => rfl

theorem framed_of_spec {α : Type} {x : TableM α} {P : Except Fault α → Prop}
    (h : ∀ t, I t → ((x held t).1 = .error .blocked ∧ held ≠ none) ∨
      (P (x held t).1 ∧ Moved L t (x held t).2 ∧ Holds held t (x held t).2)) :
    Framed (paging held L I k) x P := fun t ht =>
  (h t ht).imp_left fun h => ⟨.blocked, h.1, rfl, h.2⟩

theorem framed_evictPage (hlimit : ∀ t, I t → t.memoryLimit ≠ 0) :
    Framed (paging held L I k) (evictPage p) (OkIfQuiet I) :=
  framed_of_spec fun t ht =>
    (evictPage_spec p held t (hlimit t ht)).imp_right fun h => ⟨fun hI => h.1 (hI t ht), h.2⟩

theorem framed_evictDownTo (hlimit : ∀ t, I t → t.memoryLimit ≠ 0) (limit : ℕ)
    (pinned : Option PageID) (rounds : ℕ) :
    Framed (paging held L I k) (evictDownTo limit pinned rounds) (OkIfQuiet I) := by
  induction rounds with
  | zero => exact Framed.pure okIfQuiet_ok
  | succ rounds ih =>
    refine Framed.get fun t _ => ?_
    split_ifs
    · exact Framed.pure okIfQuiet_ok
    · cases t.pickLruVictim pinned with
      | none => exact Framed.pure okIfQuiet_ok
      | some victim =>
        exact (framed_evictPage hlimit).bind (fun _ _ => ih) fun e he hI => by cases he hI

theorem framed_maybeEvictPages (pinned : Option PageID) :
    Framed (paging held L I k) (maybeEvictPages pinned) (OkIfQuiet I) := by
  intro t ht
  unfold maybeEvictPages
  rw [get_bind]
  split_ifs with hlimit
  · exact Framed.pure okIfQuiet_ok t ht
  · refine (framed_evictDownTo (L := L) (I := fun t' => I t' ∧ t'.memoryLimit ≠ 0)
      (k := fun h hm => ⟨k h.1 hm, hm.memoryLimit ▸ h.2⟩) (fun t' ht' => ht'.2) t.memoryLimit pinned
      t.rowSpace.keys.length t ⟨ht, hlimit⟩).imp_right fun h => ⟨fun hI => ?_, h.2⟩
    exact h.1 fun t' ht' => hI t' ht'.1

end Paging

/-! ## The pinned page -/

theorem pickLruVictim_some {pinned : Option PageID} {victim : PageID}
    (h : t.pickLruVictim pinned = some victim) : pinned ≠ some victim ∧ t.Resident victim ∧
      ∃ seq, t.lru[victim]? = some seq ∧ ∀ q seq', pinned ≠ some q → t.Resident q →
        t.lru[q]? = some seq' → seq ≤ seq' := by
  have hmem : ∀ q seq, (q, seq) ∈ ((t.rowSpace.keys.filter fun p => pinned ≠ some p).filterMap
      fun p => t.lru[p]?.map fun seq => (p, seq)) ↔
        pinned ≠ some q ∧ t.Resident q ∧ t.lru[q]? = some seq := by
    intro q seq
    simp only [List.mem_filterMap, List.mem_filter, decide_eq_true_eq, Option.map_eq_some_iff,
      Prod.mk.injEq, PageMap.mem_keys]
    constructor
    · rintro ⟨q', ⟨hr, hne⟩, seq', hlru, rfl, rfl⟩; exact ⟨hne, hr, hlru⟩
    · rintro ⟨hne, hr, hlru⟩; exact ⟨q, ⟨hr, hne⟩, seq, hlru, rfl, rfl⟩
  obtain ⟨⟨victim', seq⟩, hmin, rfl⟩ := Option.map_eq_some_iff.1 h
  obtain ⟨hne, hr, hlru⟩ := (hmem victim' seq).1 (minByKey_mem hmin)
  exact ⟨hne, hr, seq, hlru, fun q seq' hq hrq hlq =>
    minByKey_le hmin (q, seq') ((hmem q seq').2 ⟨hq, hrq, hlq⟩)⟩

theorem get_evictPage (hq : p ≠ q) :
    (evictPage p held t).2.rowSpace.get? q = t.rowSpace.get? q := by
  have hdropped : (t.dropped p).rowSpace.get? q = t.rowSpace.get? q := by
    rw [get_dropped, if_neg hq]
  rw [evictPage_run]
  cases t.rowSpace.get? p with
  | none => rfl
  | some page =>
    dsimp only
    rw [flushAndEvictPage_run]
    split_ifs
    · exact hdropped
    · cases (t.dropped p).pageStore.writeFault <;> exact hdropped
    · exact hdropped

/-- Calls that do not evict page `p`. -/
def keeping (held : Option PageID) (p : PageID) : Frame (Option PageID) Table Fault where
  env := held
  inv _ := True
  rel t t' := ∀ page, t.rowSpace.get? p = some page → t'.rowSpace.get? p = some page
  exempt _ := False
  refl _ _ h := h
  trans h h' page hp := h' page (h page hp)
  keep _ _ := trivial

/-- The pinned page stays. -/
theorem keeping_maybeEvictPages : Framed (keeping held p) (maybeEvictPages (some p)) fun _ => True := by
  have hloop : ∀ limit rounds, Framed (keeping held p) (evictDownTo limit (some p) rounds)
      fun _ => True := by
    intro limit rounds
    induction rounds with
    | zero => exact Framed.pure trivial
    | succ rounds ih =>
      refine Framed.get fun t _ => ?_
      split_ifs
      · exact Framed.pure trivial
      · cases hv : t.pickLruVictim (some p) with
        | none => exact Framed.pure trivial
        | some victim =>
          have hne : victim ≠ p := fun h => (pickLruVictim_some hv).1 (congrArg some h.symm)
          refine Framed.bind (P := fun _ => True) (fun t _ => Or.inr ⟨trivial, fun page hp => ?_⟩)
            (fun _ _ => ih) fun _ _ => trivial
          rw [get_evictPage hne]; exact hp
  refine Framed.get fun t _ => ?_
  split_ifs
  · exact Framed.pure trivial
  · exact hloop _ _

/-! ## Loading a page -/

/-- The table after the page has been read in. -/
def entered (t : Table) (page : Page) : Table :=
  { t with
    rowSpace := t.rowSpace.insert page
    memoryUsed := wrappingAdd t.memoryUsed page.memoryBytes }

/-- The table after page `p` has been taken into the accounts. -/
def arrived (t : Table) (p : PageID) : Table :=
  { t.touchPage p with evictedPages := (t.touchPage p).evictedPages.erase p }

theorem get_entered : (t.entered page).rowSpace.get? q =
    if page.pageId = q then some page else t.rowSpace.get? q :=
  PageMap.get?_insert

theorem moved_entered (h : t.rowSpace.get? p = none) (hd : t.pageStore.pages.get? p = some page) :
    Moved (· = p) t (t.entered page) := by
  obtain rfl := PageMap.pageId_of_get hd
  constructor
  · rfl
  · rintro q page' (hs | ⟨hs, hrev⟩)
    · rw [get_entered] at hs
      split_ifs at hs with hq
      · subst hq; exact (stored_absent h).2 (hd.trans hs)
      · exact Or.inl hs
    · by_cases hq : page.pageId = q
      · subst hq; exact (stored_absent h).2 hs
      · refine Or.inr ⟨hs, fun q' hq' => hrev q' ?_⟩
        rwa [get_entered, if_neg hq]
  · intro q page' hq
    rw [get_entered] at hq
    split_ifs at hq with hpq
    · exact Or.inr hpq.symm
    · exact Or.inl hq
  · exact fun hf => hf
  · intro _ _ q hq
    rw [content, get_entered]
    split_ifs
    · rfl
    · exact hq
  · exact ⟨[], rfl, by simp⟩

theorem record_of_readPage (h : t.pageStore.readPage p = .ok (some page)) :
    t.pageStore.pages.get? p = some page := by
  unfold PageStore.readPage PageStore.reading at h
  cases hf : t.pageStore.readFault with
  | some message => rw [hf] at h; cases h
  | none => rw [hf] at h; exact Except.ok.inj h

theorem ensurePageResident_run : ensurePageResident p held t =
    match t.rowSpace.get? p with
    | some page => (.ok page, t.touchPage p)
    | none =>
      match t.pageStore.readPage p with
      | .error e => (.error (.err e), t)
      | .ok none => (.error (.err (.queryError s!"Page {p} not found on disk")), t)
      | .ok (some page) =>
        (maybeEvictPages (some p) >>= fun _ => (pure page : TableM Page)) held
          ((t.entered page).arrived p) := by
  unfold ensurePageResident
  rw [get_bind]
  cases t.rowSpace.get? p with
  | some page => rfl
  | none =>
    show (loadPageFromDisk p >>= _) held t = _
    rw [bind_run]
    have hload : loadPageFromDisk p held t =
        match t.pageStore.readPage p with
        | .error e => (.error (.err e), t)
        | .ok none => (.error (.err (.queryError s!"Page {p} not found on disk")), t)
        | .ok (some page) => (.ok page, t) := by
      unfold loadPageFromDisk TableM.read
      rw [bind_run, get_bind]
      simp only [TableM.ofResult, Call.ofExcept]
      rcases t.pageStore.readPage p with e | _ | page <;> rfl
    rw [hload]
    rcases t.pageStore.readPage p with e | _ | page <;> rfl

/-- Making a page resident moves pages only, gives a content the page was stored with, and
    succeeds if the page is there and the file system works. -/
theorem ensurePageResident_spec (p : PageID) (held : Option PageID) (t : Table) :
    ((ensurePageResident p held t).1 = .error .blocked ∧ held ≠ none) ∨
      ((∀ page, (ensurePageResident p held t).1 = .ok page → t.Stored p page) ∧
        (t.pageStore.readFault = none → t.pageStore.writeFault = none → (t.content p).isSome = true →
          ∃ page, (ensurePageResident p held t).1 = .ok page) ∧
        Moved (· = p) t (ensurePageResident p held t).2 ∧
        Holds held t (ensurePageResident p held t).2) := by
  rw [ensurePageResident_run]
  cases hp : t.rowSpace.get? p with
  | some page =>
    refine Or.inr ⟨fun page' h => ?_, fun _ _ _ => ⟨page, rfl⟩,
      Moved.of_bookkeeping rfl rfl rfl rfl, Holds.refl t⟩
    obtain rfl := Except.ok.inj h
    exact Or.inl hp
  | none =>
    dsimp only
    cases hr : t.pageStore.readFault with
    | some message =>
      rw [PageStore.readPage, PageStore.reading, hr]
      exact Or.inr ⟨fun page h => (by cases h), nofun, Moved.refl _ _, Holds.refl t⟩
    | none =>
      rw [PageStore.readPage, PageStore.reading, hr]
      cases hd : t.pageStore.pages.get? p with
      | none =>
        refine Or.inr ⟨fun page h => (by cases h), fun _ _ h => ?_, Moved.refl _ _, Holds.refl t⟩
        rw [content, hp, hd] at h; cases h
      | some page =>
        dsimp only
        have hm : Moved (· = p) t ((t.entered page).arrived p) :=
          (moved_entered hp hd).trans (Moved.of_bookkeeping rfl rfl rfl rfl)
        have hholds : Holds held t ((t.entered page).arrived p) := fun q page' _ hget => by
          show (t.entered page).rowSpace.get? q = _
          rw [get_entered, if_neg, hget]
          rintro rfl
          rw [PageMap.pageId_of_get hd, hp] at hget; cases hget
        generalize (t.entered page).arrived p = t₁ at hm hholds ⊢
        have hI := @framed_maybeEvictPages (· = p) held
          (fun t' => t'.pageStore.writeFault = t.pageStore.writeFault)
          (fun h hm => hm.writeFault.trans h) (some p) t₁ hm.writeFault
        change (∃ e, (maybeEvictPages (some p) held t₁).1 = _ ∧ _) ∨ OkIfQuiet _
          (maybeEvictPages (some p) held t₁).1 ∧ Moved _ t₁ (maybeEvictPages (some p) held t₁).2 ∧
            Holds held t₁ (maybeEvictPages (some p) held t₁).2 at hI
        rw [bind_run]
        generalize maybeEvictPages (some p) held t₁ = r at hI
        obtain ⟨e | a, t₂⟩ := r
        · rcases hI with ⟨e', he, rfl, hheld⟩ | ⟨hq, hm', hh'⟩
          · exact Or.inl ⟨congrArg _ (Except.error.inj he), hheld⟩
          · refine Or.inr ⟨fun page h => (by cases h), fun _ hw _ => ?_, hm.trans hm',
              hholds.trans hh'⟩
            cases hq fun t' ht' => ht'.trans hw
        · rcases hI with ⟨e', he, -⟩ | ⟨hq, hm', hh'⟩
          · cases he
          · refine Or.inr ⟨fun page' h => ?_, fun _ _ _ => ⟨page, rfl⟩, hm.trans hm',
              hholds.trans hh'⟩
            obtain rfl := Except.ok.inj h
            exact (stored_absent hp).2 hd

/-- The page made resident is resident. -/
theorem ensurePageResident_get (h : (ensurePageResident p held t).1 = .ok page) :
    (ensurePageResident p held t).2.rowSpace.get? p = some page := by
  rw [ensurePageResident_run] at h ⊢
  cases hp : t.rowSpace.get? p with
  | some page' =>
    rw [hp] at h
    obtain rfl := Except.ok.inj h
    exact hp
  | none =>
    rw [hp] at h
    dsimp only at h ⊢
    cases hr : t.pageStore.readPage p with
    | error e => rw [hr] at h; cases h
    | ok found =>
      cases found with
      | none => rw [hr] at h; cases h
      | some page' =>
        rw [hr] at h
        dsimp only at h ⊢
        have hd := record_of_readPage hr
        have hin : ((t.entered page').arrived p).rowSpace.get? p = some page' := by
          show (t.entered page').rowSpace.get? p = _
          rw [get_entered, if_pos (PageMap.pageId_of_get hd)]
        have hkeep := @keeping_maybeEvictPages p held ((t.entered page').arrived p) trivial
        change _ ∨ True ∧ ∀ page, ((t.entered page').arrived p).rowSpace.get? p = some page →
          (maybeEvictPages (some p) held ((t.entered page').arrived p)).2.rowSpace.get? p =
            some page at hkeep
        rw [bind_run] at h ⊢
        generalize maybeEvictPages (some p) held ((t.entered page').arrived p) = r at h hkeep ⊢
        obtain ⟨e | a, t'⟩ := r
        · cases h
        · obtain rfl := Except.ok.inj h
          rcases hkeep with ⟨_, -, hfalse⟩ | ⟨-, hkeep⟩
          · exact hfalse.elim
          · exact hkeep _ hin

end AntDb.Table
