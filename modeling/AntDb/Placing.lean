/-
  Placing a new row in a page: rewriting resident pages, opening fresh ones, and when a
  fresh page survives its own registration.

  `register_page` may evict the page it has just registered, before the row is appended;
  `CanOpenPage` says that evicting pages used longer ago brings the memory back under the
  limit first.
-/
import AntDb.Reading

namespace AntDb.Table

open Call TableM

variable {t t' : Table} {ρ ρ' : RowMap} {X : PageID → Prop} {p q : PageID} {page page' : Page}
  {r : RowID} {row : Row} {f : Page → Page} {held : Option PageID}

/-! ## Rewriting a resident page -/

def rewritten (t : Table) (p : PageID) (f : Page → Page)
    (hf : ∀ page, (f page).pageId = page.pageId) : Table :=
  { t with rowSpace := t.rowSpace.update p f hf }

variable {hf : ∀ page, (f page).pageId = page.pageId}

theorem get_rewritten : (t.rewritten p f hf).rowSpace.get? q =
    if p = q then (t.rowSpace.get? q).map f else t.rowSpace.get? q :=
  @PageMap.get?_update t.rowSpace p q f hf

/-- Rewriting a page that is not resident changes nothing. -/
theorem rewritten_absent (h : t.rowSpace.get? p = none) : t.rewritten p f hf = t := by
  have : t.rowSpace.update p f hf = t.rowSpace := by
    refine PageMap.ext_get fun q => ?_
    rw [PageMap.get?_update]
    split_ifs with hq
    · subst hq; rw [h]; rfl
    · rfl
  rw [rewritten, this]

theorem resident_rewritten : (t.rewritten p f hf).Resident q ↔ t.Resident q := by
  unfold Resident
  rw [get_rewritten]
  split_ifs with hq
  · cases t.rowSpace.get? q <;> simp
  · rfl

theorem content_rewritten (h : t.rowSpace.get? p = some page) :
    (t.rewritten p f hf).content q = if p = q then some (f page) else t.content q := by
  rw [content, get_rewritten]
  split_ifs with hq
  · subst hq; rw [h]; rfl
  · rfl

/-- What the other pages may hold stays. -/
theorem stored_rewritten_ne (hq : p ≠ q) : (t.rewritten p f hf).Stored q page' ↔ t.Stored q page' := by
  rw [Stored, MayRevert, get_rewritten, if_neg hq]; rfl

/-- A page rewritten dirty holds what was written. -/
theorem stored_rewritten (h : t.rowSpace.get? p = some page) (hd : (f page).isDirty = true)
    (hw : t.pageStore.writeFault = none) : (t.rewritten p f hf).Stored p page' ↔ page' = f page := by
  rw [Stored, MayRevert, get_rewritten, if_pos rfl, h]
  constructor
  · rintro (hs | ⟨-, hrev⟩)
    · exact (Option.some.inj hs).symm
    · rcases (hrev _ rfl).2 with ⟨hclean, -⟩ | hfault
      · rw [hd] at hclean; cases hclean
      · exact absurd hw hfault
  · rintro rfl; exact Or.inl rfl

/-- The row maps that differ from `ρ` in new rows of page `p` only. -/
def RowMap.Extends (ρ' ρ : RowMap) (p : PageID) : Prop :=
  ∀ r : RowID, ρ'[r]? = ρ[r]? ∨ (ρ[r]? = none ∧ ρ'[r]? = some p)

theorem RowMap.Extends.ne (h : RowMap.Extends ρ' ρ p) (hq : p ≠ q) :
    ρ'[r]? = some q ↔ ρ[r]? = some q := by
  rcases h r with h | ⟨h, h'⟩
  · rw [h]
  · rw [h, h']; simp [hq]

theorem RowMap.Extends.maps (h : RowMap.Extends ρ' ρ p) (hq : p ≠ q) : ρ'.Maps q ↔ ρ.Maps q :=
  exists_congr fun _ => h.ne hq

theorem RowMap.extends_refl (ρ : RowMap) (p : PageID) : RowMap.Extends ρ ρ p := fun _ => Or.inl rfl

theorem RowMap.extends_insert (hr : r ∉ ρ) : RowMap.Extends (ρ.insert r p) ρ p := by
  intro r'
  rw [BTreeMap.get_insert]
  split_ifs with h
  · subst h
    exact Or.inr ⟨Std.ExtTreeMap.getElem?_eq_none hr, rfl⟩
  · exact Or.inl rfl

/-- Writing rows of its own to a page keeps the pages housed, and houses the page if it was
    the one left out. -/
theorem Housed.rewritten (h : t.Housed ρ X) (hX : ∀ q, X q → q = p)
    (hp : t.rowSpace.get? p = some page) (hd : (f page).isDirty = true)
    (hρ : RowMap.Extends ρ' ρ p) (hrows : ∀ r ∈ (f page).rows, ρ'[r]? = some p)
    (hle : ∀ r ∈ ρ', r ≤ t.nextRowId) : (t.rewritten p f hf).Housed ρ' fun _ => False where
  readable := h.readable
  writable := h.writable
  filed := h.filed
  settled q hq _ page₁ page₂ h₁ h₂ := by
    by_cases hpq : p = q
    · subst hpq
      rw [(stored_rewritten hp hd h.writable).1 h₁, (stored_rewritten hp hd h.writable).1 h₂]
    · rw [resident_rewritten, hρ.maps hpq] at hq
      exact h.settled q hq (fun hXq => hpq (hX q hXq).symm) page₁ page₂
        ((stored_rewritten_ne hpq).1 h₁) ((stored_rewritten_ne hpq).1 h₂)
  homed q hq _ page₁ h₁ r hr := by
    by_cases hpq : p = q
    · subst hpq
      rw [(stored_rewritten hp hd h.writable).1 h₁] at hr
      exact hrows r hr
    · rw [resident_rewritten, hρ.maps hpq] at hq
      exact (hρ.ne hpq).2 (h.homed q hq (fun hXq => hpq (hX q hXq).symm) page₁
        ((stored_rewritten_ne hpq).1 h₁) r hr)
  located q hq := by
    rw [content_rewritten hp]
    split_ifs with hpq
    · exact ⟨_, rfl⟩
    · exact h.located q ((hρ.maps hpq).1 hq)
  unmapped _ hq := hq.elim
  resident_lt q hq := h.resident_lt q (resident_rewritten.1 hq)
  mapped_lt q hq := by
    by_cases hpq : p = q
    · subst hpq; exact h.resident_lt p ⟨page, hp⟩
    · exact h.mapped_lt q ((hρ.maps hpq).1 hq)
  rowId_le := hle

/-- Changing a page in anything but its rows. -/
theorem keepsRows_retouched (hrows : ∀ page, (f page).rows = page.rows)
    (hdirty : ∀ page, (f page).isDirty = page.isDirty) : KeepsRows ρ t (t.rewritten p f hf) where
  readFault := rfl
  writeFault := rfl
  filed h := h
  resident q hq := Or.inl (resident_rewritten.1 hq)
  stored q page' hs := by
    by_cases hpq : p = q
    · subst hpq
      rw [Stored, MayRevert, get_rewritten, if_pos rfl] at hs
      rcases hs with hs | ⟨hs, hrev⟩
      · obtain ⟨page, hpage, rfl⟩ := Option.map_eq_some_iff.1 hs
        exact ⟨page, Or.inl hpage, hrows page⟩
      · refine ⟨page', Or.inr ⟨hs, fun page hpage => ?_⟩, rfl⟩
        rw [← hdirty page]
        exact hrev (f page) (by rw [hpage]; rfl)
    · exact ⟨page', (stored_rewritten_ne hpq).1 hs, rfl⟩
  present _ _ q hq := by
    rw [content, get_rewritten]
    split_ifs with hpq
    · subst hpq
      rw [content] at hq
      cases hr : t.rowSpace.get? p with
      | none => rw [hr] at hq; exact hq
      | some page => rfl
    · exact hq
  nextPageId := le_rfl
  nextRowId := le_rfl

/-- The rows of the rewritten page are those written, and the others stay. -/
theorem rowIn_rewritten (hp : t.rowSpace.get? p = some page) (hρ : RowMap.Extends ρ' ρ p) :
    (t.rewritten p f hf).rowIn ρ' r =
      if ρ'[r]? = some p then (f page).rows[r]? else t.rowIn ρ r := by
  rw [rowIn, rowIn]
  split_ifs with hr
  · rw [hr, Option.bind_some, content_rewritten hp, if_pos rfl, Option.bind_some]
  · rcases hρ r with h | ⟨-, h⟩
    · rw [h]
      cases hq : ρ[r]? with
      | none => rfl
      | some q =>
        rw [Option.bind_some, Option.bind_some, content_rewritten hp, if_neg fun hpq => hr (by rw [h, hq, hpq])]
    · exact absurd h hr

/-! ## Opening a page -/

/-- The table with a fresh page registered, before anything is evicted. -/
def opened (t : Table) : Table :=
  ({ t.entered (Page.new t.nextPageId t.pageSize) with nextPageId := t.nextPageId + 1 }).touchPage
    t.nextPageId

theorem registerPage_run : registerPage held t =
    (maybeEvictPages none >>= fun _ => (pure t.nextPageId : TableM PageID)) held t.opened := rfl

theorem get_opened : t.opened.rowSpace.get? q =
    if t.nextPageId = q then some (Page.new t.nextPageId t.pageSize) else t.rowSpace.get? q :=
  PageMap.get?_insert

theorem stored_opened_ne (hq : t.nextPageId ≠ q) : t.opened.Stored q page ↔ t.Stored q page := by
  rw [Stored, MayRevert, get_opened, if_neg hq]; rfl

theorem content_opened_ne (hq : t.nextPageId ≠ q) : t.opened.content q = t.content q := by
  rw [content, get_opened, if_neg hq]; rfl

/-- A fresh page that the page file has no record of holds nothing. -/
theorem stored_opened (hw : t.pageStore.writeFault = none) (hd : t.nextPageId ∉ t.onDiskPages) :
    t.opened.Stored t.nextPageId page ↔ page = Page.new t.nextPageId t.pageSize := by
  rw [Stored, MayRevert, get_opened, if_pos rfl]
  constructor
  · rintro (hs | ⟨-, hrev⟩)
    · exact (Option.some.inj hs).symm
    · rcases (hrev _ rfl).2 with ⟨-, hon⟩ | hfault
      · exact absurd hon hd
      · exact absurd hw hfault
  · rintro rfl; exact Or.inl rfl

theorem Housed.fresh_ne (h : t.Housed ρ X) (hq : ρ.Maps q) : t.nextPageId ≠ q :=
  (h.mapped_lt q hq).ne'

/-- Opening a page keeps the pages housed; the fresh one is left out where an old record of
    its id may come back. -/
theorem Housed.opened (h : t.Housed ρ fun _ => False)
    (hX : ∀ q, X q → q = t.nextPageId) (hd : X t.nextPageId ∨ t.nextPageId ∉ t.onDiskPages) :
    t.opened.Housed ρ X where
  readable := h.readable
  writable := h.writable
  filed := h.filed
  settled q hq hXq page₁ page₂ h₁ h₂ := by
    by_cases hpq : t.nextPageId = q
    · subst hpq
      have hd := hd.resolve_left hXq
      rw [(stored_opened h.writable hd).1 h₁, (stored_opened h.writable hd).1 h₂]
    · rw [Resident, get_opened, if_neg hpq] at hq
      exact h.settled q hq not_false page₁ page₂ ((stored_opened_ne hpq).1 h₁)
        ((stored_opened_ne hpq).1 h₂)
  homed q hq hXq page₁ h₁ r hr := by
    by_cases hpq : t.nextPageId = q
    · subst hpq
      rw [(stored_opened h.writable (hd.resolve_left hXq)).1 h₁] at hr
      simp [Page.new] at hr
    · rw [Resident, get_opened, if_neg hpq] at hq
      exact h.homed q hq not_false page₁ ((stored_opened_ne hpq).1 h₁) r hr
  located q hq := by
    rw [content_opened_ne (h.fresh_ne hq)]
    exact h.located q hq
  unmapped q hXq hq := by
    rw [hX q hXq] at hq
    exact lt_irrefl _ (h.mapped_lt _ hq)
  resident_lt q hq := by
    show q < t.nextPageId + 1
    by_cases hpq : t.nextPageId = q
    · exact hpq ▸ Nat.lt_succ_self _
    · rw [Resident, get_opened, if_neg hpq] at hq
      exact Nat.lt_succ_of_lt (h.resident_lt q hq)
  mapped_lt q hq := Nat.lt_succ_of_lt (h.mapped_lt q hq)
  rowId_le := h.rowId_le

theorem Housed.rowIn_opened (h : t.Housed ρ X) (r : RowID) : t.opened.rowIn ρ r = t.rowIn ρ r := by
  rw [rowIn, rowIn]
  cases hr : ρ[r]? with
  | none => rfl
  | some q =>
    rw [Option.bind_some, Option.bind_some, content_opened_ne (h.fresh_ne ⟨r, hr⟩)]

/-! ## When the fresh page stays -/

/-- The bytes the pages `E` take, as eviction counts them. -/
def bytesOf (t : Table) (E : List PageID) : ℕ :=
  (E.map fun p => ((t.rowSpace.get? p).map (·.memoryBytes)).getD 0).sum

/-- `E` are resident pages, each used longer ago than every resident page that is not among
    them. -/
structure UsedBefore (t : Table) (E : List PageID) : Prop where
  nodup : E.Nodup
  resident : ∀ p ∈ E, t.Resident p
  before : ∀ p ∈ E, ∃ seq, t.lru[p]? = some seq ∧
    ∀ q, q ∉ E → t.Resident q → ∀ seq', t.lru[q]? = some seq' → seq < seq'

/-- Evicting some of the pages used longest ago makes room for a fresh page. -/
def CanOpenPage (t : Table) : Prop :=
  t.memoryLimit = 0 ∨ ∃ E, t.UsedBefore E ∧
    (∀ p ∈ E, ∀ seq, t.lru[p]? = some seq → seq < t.lruCounter) ∧
    wrappingSub (wrappingAdd t.memoryUsed (Page.new t.nextPageId t.pageSize).memoryBytes)
      (t.bytesOf E) ≤ t.memoryLimit

theorem evictPage_quiet (hp : t.rowSpace.get? p = some page) (hw : t.pageStore.writeFault = none) :
    ∃ t', evictPage p none t = (.ok (), t') ∧ t'.rowSpace = t.rowSpace.erase p ∧
      t'.lru = t.lru.erase p ∧ t'.memoryUsed = wrappingSub t.memoryUsed page.memoryBytes ∧
      t'.pageStore.writeFault = none := by
  obtain rfl := PageMap.pageId_of_get hp
  have hw' : (t.dropped page.pageId).pageStore.writeFault = none := hw
  rw [evictPage_run, hp]
  dsimp only
  rw [flushAndEvictPage_run, if_neg nofun, hw']
  split_ifs
  · exact ⟨_, rfl, rfl, rfl, rfl, hw⟩
  · exact ⟨_, rfl, rfl, rfl, rfl, hw⟩

/-- As long as pages of `E` are left to evict, no other page is. -/
theorem evictDownTo_keeps {limit rounds : ℕ} {E : List PageID} (hE : t.UsedBefore E)
    (hw : t.pageStore.writeFault = none) (hm : t.memoryUsed < 2 ^ 64)
    (hlimit : wrappingSub t.memoryUsed (t.bytesOf E) ≤ limit) (hq : q ∉ E) :
    (evictDownTo limit none rounds none t).2.rowSpace.get? q = t.rowSpace.get? q := by
  induction rounds generalizing t E with
  | zero => rfl
  | succ rounds ih =>
    unfold evictDownTo
    rw [get_bind]
    split_ifs with hfit
    · rfl
    · cases hv : t.pickLruVictim none with
      | none => rfl
      | some victim =>
        dsimp only
        obtain ⟨-, ⟨page, hpage⟩, seq, hlru, hmin⟩ := pickLruVictim_some hv
        have hvE : victim ∈ E := by
          by_contra hvE
          cases E with
          | nil =>
            simp only [bytesOf, wrappingSub, List.map_nil, List.sum_nil] at hlimit
            omega
          | cons p E =>
            obtain ⟨seq', hlru', hbefore⟩ := hE.before p (by simp)
            have h1 := hbefore victim hvE ⟨page, hpage⟩ seq hlru
            have h2 := hmin p seq' nofun (hE.resident p (by simp)) hlru'
            omega
        have hvq : victim ≠ q := fun h => hq (h ▸ hvE)
        obtain ⟨t', hrun, hspace, hlru', hused, hw'⟩ := evictPage_quiet hpage hw
        have hget : ∀ p, p ≠ victim → t'.rowSpace.get? p = t.rowSpace.get? p := fun p hp => by
          rw [hspace, PageMap.get?_erase, if_neg (Ne.symm hp)]
        have hseq : ∀ p, p ≠ victim → t'.lru[p]? = t.lru[p]? := fun p hp => by
          rw [hlru', BTreeMap.get_erase, if_neg (Ne.symm hp)]
        have hnot : ¬ t'.Resident victim := by
          rintro ⟨page', hpage'⟩
          rw [hspace, PageMap.get?_erase, if_pos rfl] at hpage'
          cases hpage'
        have hne : ∀ p ∈ E.erase victim, p ≠ victim := fun p hp =>
          ((List.Nodup.mem_erase_iff hE.nodup).1 hp).1
        have hE' : t'.UsedBefore (E.erase victim) := by
          refine ⟨hE.nodup.erase _, fun p hp => ?_, fun p hp => ?_⟩
          · rw [Resident, hget p (hne p hp)]
            exact hE.resident p (List.mem_of_mem_erase hp)
          · obtain ⟨seq, hlru, hbefore⟩ := hE.before p (List.mem_of_mem_erase hp)
            refine ⟨seq, (hseq p (hne p hp)).trans hlru, fun q' hq' hr seq' hlru' => ?_⟩
            have hqv : q' ≠ victim := fun h => hnot (h ▸ hr)
            rw [Resident, hget q' hqv] at hr
            rw [hseq q' hqv] at hlru'
            exact hbefore q' (fun h => hq' ((List.Nodup.mem_erase_iff hE.nodup).2 ⟨hqv, h⟩)) hr
              seq' hlru'
        have hbytes : t.bytesOf E = page.memoryBytes + t'.bytesOf (E.erase victim) := by
          have hperm := ((List.perm_cons_erase hvE).map fun p =>
            ((t.rowSpace.get? p).map (·.memoryBytes)).getD 0).sum_eq
          have hrest : (E.erase victim).map (fun p => ((t'.rowSpace.get? p).map (·.memoryBytes)).getD 0)
              = (E.erase victim).map fun p => ((t.rowSpace.get? p).map (·.memoryBytes)).getD 0 :=
            List.map_congr_left fun p hp => by rw [hget p (hne p hp)]
          rw [bytesOf, bytesOf, hperm, List.map_cons, List.sum_cons, hpage, hrest]
          rfl
        have hsub : wrappingSub t'.memoryUsed (t'.bytesOf (E.erase victim)) =
            wrappingSub t.memoryUsed (t.bytesOf E) := by
          rw [hused, hbytes]
          unfold wrappingSub
          omega
        rw [bind_ok hrun, ih hE' hw' (by rw [hused]; exact Nat.mod_lt _ (by norm_num))
          (by rw [hsub]; exact hlimit) (fun h => hq (List.mem_of_mem_erase h)), hget q (Ne.symm hvq)]

/-- A fresh page that can be opened stays resident through its own registration. -/
theorem Housed.fresh_stays (h : t.Housed ρ X) (hopen : t.CanOpenPage) :
    (registerPage none t).2.rowSpace.get? t.nextPageId = some (Page.new t.nextPageId t.pageSize) := by
  have hin : t.opened.rowSpace.get? t.nextPageId = some (Page.new t.nextPageId t.pageSize) := by
    rw [get_opened, if_pos rfl]
  have hevict : (registerPage none t).2 = (maybeEvictPages none none t.opened).2 := by
    rw [registerPage_run, bind_run]
    rcases maybeEvictPages none none t.opened with ⟨e | a, t'⟩ <;> rfl
  rw [hevict, maybeEvictPages, get_bind]
  split_ifs with hlimit
  · exact hin
  · obtain ⟨E, hE, hcounter, hfits⟩ := hopen.resolve_left hlimit
    have hfresh : t.nextPageId ∉ E := fun hmem =>
      lt_irrefl _ (h.resident_lt _ (hE.resident _ hmem))
    have hne : ∀ p ∈ E, t.nextPageId ≠ p := fun p hp he => hfresh (he ▸ hp)
    have hlru : ∀ p : PageID, t.opened.lru[p]? =
        if t.nextPageId = p then some t.lruCounter else t.lru[p]? := fun p => BTreeMap.get_insert _ _ _ _
    have hE' : t.opened.UsedBefore E := by
      refine ⟨hE.nodup, fun p hp => ?_, fun p hp => ?_⟩
      · rw [Resident, get_opened, if_neg (hne p hp)]
        exact hE.resident p hp
      · obtain ⟨seq, hseq, hbefore⟩ := hE.before p hp
        refine ⟨seq, by rw [hlru, if_neg (hne p hp), hseq], fun q hq hr seq' hseq' => ?_⟩
        rw [hlru] at hseq'
        split_ifs at hseq' with hqf
        · obtain rfl := Option.some.inj hseq'
          exact hcounter p hp seq hseq
        · rw [Resident, get_opened, if_neg hqf] at hr
          exact hbefore q hq hr seq' hseq'
    have hbytes : t.opened.bytesOf E = t.bytesOf E := by
      unfold bytesOf
      refine congrArg List.sum (List.map_congr_left fun p hp => ?_)
      rw [get_opened, if_neg (hne p hp)]
    have hused : t.opened.memoryUsed =
        wrappingAdd t.memoryUsed (Page.new t.nextPageId t.pageSize).memoryBytes := rfl
    rw [evictDownTo_keeps hE' h.writable (by rw [hused]; exact Nat.mod_lt _ (by norm_num))
      (by rw [hbytes]; exact hfits) hfresh, hin]

/-! ## Placing a row -/

theorem registerPage_spec (hw : t.pageStore.writeFault = none) :
    ∃ t', registerPage none t = (.ok t.nextPageId, t') ∧ Moved (fun _ => False) t.opened t' := by
  have h := @framed_maybeEvictPages (fun _ => False) none
    (fun t => t.pageStore.writeFault = none) (fun h hm => hm.writeFault.trans h) none t.opened hw
  change (∃ e, (maybeEvictPages none none t.opened).1 = _ ∧ _) ∨ OkIfQuiet _
    (maybeEvictPages none none t.opened).1 ∧ Moved _ t.opened (maybeEvictPages none none t.opened).2 ∧
      _ at h
  rw [registerPage_run, bind_run]
  generalize maybeEvictPages none none t.opened = result at h
  obtain ⟨result, t'⟩ := result
  rcases h with ⟨-, -, -, hheld⟩ | ⟨hok, hm, -⟩
  · exact absurd rfl hheld
  · obtain rfl := hok fun _ h => h
    exact ⟨t', rfl, hm⟩

theorem rest_opened : t.opened.rest = { t.rest with nextPageId := t.opened.nextPageId } := rfl

/-- What `t'` has of `t` when only pages have been added and moved. -/
def SameTable (t t' : Table) : Prop := t'.rest = { t.rest with nextPageId := t'.nextPageId }

namespace SameTable

theorem of_moved {L : PageID → Prop} (h : Moved L t t') : SameTable t t' := by
  have hp := h.nextPageId
  rw [SameTable, h.rest, hp]; rfl

theorem trans {t'' : Table} (h : SameTable t t') (h' : SameTable t' t'') : SameTable t t'' := by
  rw [SameTable, h', h]

theorem opened : SameTable t t.opened := rfl

theorem tableId (h : SameTable t t') : t'.tableId = t.tableId := (congrArg Table.tableId (show t'.rest = _ from h) :)

theorem columns (h : SameTable t t') : t'.columns = t.columns := (congrArg Table.columns (show t'.rest = _ from h) :)

theorem rowLocations (h : SameTable t t') : t'.rowLocations = t.rowLocations :=
  (congrArg Table.rowLocations (show t'.rest = _ from h) :)

theorem nextRowId (h : SameTable t t') : t'.nextRowId = t.nextRowId := (congrArg Table.nextRowId (show t'.rest = _ from h) :)

theorem memoryLimit (h : SameTable t t') : t'.memoryLimit = t.memoryLimit :=
  (congrArg Table.memoryLimit (show t'.rest = _ from h) :)

theorem pageSize (h : SameTable t t') : t'.pageSize = t.pageSize :=
  (congrArg Table.pageSize (show t'.rest = _ from h) :)

end SameTable

/-- Row `r` has been placed in page `p`, and held there if `kept`. -/
structure Placed (t : Table) (ρ : RowMap) (r : RowID) (row : Row) (kept : Prop) (p : PageID)
    (t' : Table) : Prop where
  housed : t'.Housed (ρ.insert r p) fun _ => False
  same : SameTable t t'
  others : ∀ r', r' ≠ r → t'.rowIn (ρ.insert r p) r' = t.rowIn ρ r'
  kept : kept → t'.rowIn (ρ.insert r p) r = some row

/-- A known row whose page does not hold it. -/
theorem Housed.lost (h : t.Housed ρ fun _ => False) (hle : r ≤ t.nextRowId)
    (hs : ∀ page, t.Stored p page → page.rows = ∅) (hc : ∃ page, t.content p = some page)
    (hlt : p < t.nextPageId) (hr : r ∉ ρ) : t.Housed (ρ.insert r p) fun _ => False := by
  have hρ := RowMap.extends_insert (p := p) hr
  constructor
  · exact h.readable
  · exact h.writable
  · exact h.filed
  · intro q hq _ page page' h₁ h₂
    by_cases hpq : p = q
    · subst hpq; rw [hs page h₁, hs page' h₂]
    · exact h.settled q (hq.imp_right (hρ.maps hpq).1) not_false page page' h₁ h₂
  · intro q hq _ page h₁ r' hr'
    by_cases hpq : p = q
    · subst hpq; rw [hs page h₁] at hr'; simp at hr'
    · exact (hρ.ne hpq).2 (h.homed q (hq.imp_right (hρ.maps hpq).1) not_false page h₁ r' hr')
  · intro q hq
    by_cases hpq : p = q
    · subst hpq; exact hc
    · exact h.located q ((hρ.maps hpq).1 hq)
  · exact fun _ hq => hq.elim
  · exact h.resident_lt
  · intro q hq
    by_cases hpq : p = q
    · exact hpq ▸ hlt
    · exact h.mapped_lt q ((hρ.maps hpq).1 hq)
  · intro r' hr'
    rcases Std.ExtTreeMap.mem_insert.1 hr' with he | hr'
    · rw [← Std.LawfulEqOrd.compare_eq_iff_eq.1 he]; exact hle
    · exact h.rowId_le r' hr'

theorem pageId_append (r : RowID) (row : Row) (size : ℕ) (page : Page) :
    (page.append r row size).pageId = page.pageId := rfl

/-- Appending to a resident page. -/
theorem Housed.appended {size : ℕ} (h : t.Housed ρ X) (hX : ∀ q, X q → q = p)
    (hp : t.rowSpace.get? p = some page) (hrows : ∀ r ∈ page.rows, ρ[r]? = some p) (hr : r ∉ ρ)
    (hle : r ≤ t.nextRowId) {kept : Prop} :
    Placed t ρ r row kept p (t.rewritten p (·.append r row size) (pageId_append r row size)) := by
  have hρ := RowMap.extends_insert (p := p) hr
  have hget : ∀ r' : RowID, (page.append r row size).rows[r']? =
      if r = r' then some row else page.rows[r']? := fun r' => BTreeMap.get_insert _ _ _ _
  refine ⟨h.rewritten hX hp rfl hρ (fun r' hr' => ?_) (fun r' hr' => ?_), rfl, fun r' hr' => ?_,
    fun _ => ?_⟩
  · rw [BTreeMap.get_insert]
    split_ifs with he
    · rfl
    · obtain ⟨row', hrow'⟩ := BTreeMap.mem_iff_get.1 hr'
      rw [hget, if_neg he] at hrow'
      exact hrows r' (BTreeMap.mem_of_get hrow')
  · rcases Std.ExtTreeMap.mem_insert.1 hr' with he | hr'
    · rw [← Std.LawfulEqOrd.compare_eq_iff_eq.1 he]; exact hle
    · exact h.rowId_le r' hr'
  · rw [rowIn_rewritten hp hρ, BTreeMap.get_insert, if_neg (Ne.symm hr')]
    split_ifs with hmap
    · rw [hget, if_neg (Ne.symm hr'), rowIn, hmap, Option.bind_some, content_of_resident hp,
        Option.bind_some]
    · rfl
  · rw [rowIn_rewritten hp hρ, BTreeMap.get_insert, if_pos rfl, if_pos rfl, hget, if_pos rfl]

/-- Opening a page for the row. -/
theorem place_fresh {size : ℕ} (h : t.Housed ρ fun _ => False) (hr : r ∉ ρ) (hle : r ≤ t.nextRowId)
    (hsafe : t.CanOpenPage ∨ t.nextPageId ∉ t.onDiskPages) :
    ∃ t', registerPage none t = (.ok t.nextPageId, t') ∧ t.SameTable t' ∧
      Placed t ρ r row t.CanOpenPage t.nextPageId
        (t'.rewritten t.nextPageId (·.append r row size) (pageId_append r row size)) := by
  obtain ⟨t', hrun, hm⟩ := registerPage_spec h.writable
  have hsame : t.SameTable t' := SameTable.opened.trans (SameTable.of_moved hm)
  have hle' : r ≤ t'.nextRowId := hsame.nextRowId ▸ hle
  have hm' : Moved ρ.Maps t.opened t' := hm.mono nofun
  have hrows : ∀ {X}, t.opened.Housed ρ X → ∀ r', t'.rowIn ρ r' = t.rowIn ρ r' := fun ho r' =>
    (ho.rowIn_moved hm' r').trans (h.rowIn_opened r')
  refine ⟨t', hrun, hsame, ?_⟩
  cases hget : t'.rowSpace.get? t.nextPageId with
  | some page =>
    have ho : t.opened.Housed ρ (· = t.nextPageId) := h.opened (fun _ => id) (Or.inl rfl)
    have hnew : page = Page.new t.nextPageId t.pageSize := by
      have := (hm.kept _ page hget).resolve_right not_false
      rw [get_opened, if_pos rfl] at this
      exact (Option.some.inj this).symm
    have hplaced : Placed t' ρ r row t.CanOpenPage t.nextPageId (t'.rewritten t.nextPageId
        (·.append r row size) (pageId_append r row size)) := (ho.moved hm').appended
      (fun _ => id) hget (fun r' hr' => by rw [hnew] at hr'; simp [Page.new] at hr') hr hle'
    exact ⟨hplaced.housed, hsame.trans hplaced.same,
      fun r' hr' => (hplaced.others r' hr').trans (hrows ho r'), hplaced.kept⟩
  | none =>
    -- the fresh page has been written out empty, and the row goes to a copy nobody reads
    have hnot : ¬ t.CanOpenPage := fun hopen => by
      have := h.fresh_stays hopen
      rw [hrun, hget] at this
      cases this
    have hd := hsafe.resolve_left hnot
    have ho : t.opened.Housed ρ fun _ => False := h.opened (fun _ hX => hX.elim) (Or.inr hd)
    have hempty : ∀ page, t'.Stored t.nextPageId page → page.rows = ∅ := fun page hs => by
      rw [(stored_opened h.writable hd).1 (hm.stored _ page hs)]; rfl
    rw [rewritten_absent hget]
    have hin : t.opened.rowSpace.get? t.nextPageId = some (Page.new t.nextPageId t.pageSize) := by
      rw [get_opened, if_pos rfl]
    have hcontent : ∃ page, t'.content t.nextPageId = some page :=
      Option.isSome_iff_exists.1 (hm.present ho.writable ho.filed _
        (by rw [content_of_resident hin]; rfl))
    refine ⟨(ho.moved hm').lost hle' hempty hcontent (by rw [hm.nextPageId]; exact Nat.lt_succ_self _)
      hr, hsame, fun r' hr' => ?_, fun hopen => absurd hopen hnot⟩
    rw [← hrows ho r', rowIn, rowIn, BTreeMap.get_insert, if_neg (Ne.symm hr')]

/-- The continuation pages leave the rows alone. -/
theorem extendOverflowChain_spec (h : t.Housed ρ fun _ => False) (n : ℕ) (previous : PageID) :
    ∃ t', extendOverflowChain n previous none t = (.ok (), t') ∧ t.SameTable t' ∧
      t'.Housed ρ (fun _ => False) ∧ ∀ r, t'.rowIn ρ r = t.rowIn ρ r := by
  induction n generalizing t previous with
  | zero => exact ⟨t, rfl, SameTable.of_moved (Moved.refl (fun _ => False) t), h, fun _ => rfl⟩
  | succ n ih =>
    obtain ⟨t₁, hrun, hm⟩ := registerPage_spec h.writable
    have ho : t.opened.Housed ρ (· = t.nextPageId) := h.opened (fun _ => id) (Or.inl rfl)
    have hm' : Moved ρ.Maps t.opened t₁ := hm.mono nofun
    have h₁ := ho.moved hm'
    have hsame : t.SameTable t₁ := SameTable.opened.trans (SameTable.of_moved hm)
    have hrows₁ : ∀ r, t₁.rowIn ρ r = t.rowIn ρ r := fun r =>
      (ho.rowIn_moved hm' r).trans (h.rowIn_opened r)
    let t₂ := t₁.rewritten t.nextPageId (fun page =>
      { page with isOverflow := true, usedBytes := page.capacity, isDirty := true }) fun _ => rfl
    have h₂ : t₂.Housed ρ (fun _ => False) ∧ ∀ r, t₂.rowIn ρ r = t₁.rowIn ρ r := by
      cases hget : t₁.rowSpace.get? t.nextPageId with
      | some page =>
        have hnew : page = Page.new t.nextPageId t.pageSize := by
          have := (hm.kept _ page hget).resolve_right not_false
          rw [get_opened, if_pos rfl] at this
          exact (Option.some.inj this).symm
        refine ⟨h₁.rewritten (fun _ => id) hget rfl (RowMap.extends_refl ρ _) (fun r hr => ?_)
          h₁.rowId_le, fun r => ?_⟩
        · rw [hnew] at hr; simp [Page.new] at hr
        · rw [rowIn_rewritten hget (RowMap.extends_refl ρ _)]
          split_ifs with hmap
          · exact absurd ⟨r, hmap⟩ (h₁.unmapped _ rfl)
          · rfl
      | none =>
        have : t₂ = t₁ := rewritten_absent hget
        rw [this]
        refine ⟨?_, fun _ => rfl⟩
        have hne : ∀ q, t₁.Resident q ∨ ρ.Maps q → q ≠ t.nextPageId := by
          rintro _ (⟨page, hpage⟩ | hq) rfl
          · rw [hget] at hpage; cases hpage
          · exact h₁.unmapped _ rfl hq
        exact ⟨h₁.readable, h₁.writable, h₁.filed, fun q hq _ => h₁.settled q hq (hne q hq),
          fun q hq _ => h₁.homed q hq (hne q hq), h₁.located, fun _ hq => hq.elim, h₁.resident_lt,
          h₁.mapped_lt, h₁.rowId_le⟩
    let t₃ := t₂.rewritten previous (fun page => { page with nextPage := some t.nextPageId })
      fun _ => rfl
    have hm₃ : KeepsRows ρ t₂ t₃ := keepsRows_retouched (fun _ => rfl) fun _ => rfl
    obtain ⟨t', hrun', hsame', h', hrows'⟩ := ih (h₂.1.keepsRows hm₃) t.nextPageId
    have hsame₃ : SameTable t₁ t₃ := rfl
    refine ⟨t', ?_, (hsame.trans hsame₃).trans hsame', h', fun r => ?_⟩
    · unfold extendOverflowChain
      rw [bind_ok hrun, modify_bind, modify_bind]
      exact hrun'
    · rw [hrows' r, h₂.1.rowIn_keepsRows hm₃ r, h₂.2 r, hrows₁ r]

end AntDb.Table
