/-
  Evictions that fail.

  A page leaves `row_space` before it is written, and leaves the accounts afterwards.
  `WriteFault` says whether a write fails before or after the page has got its record, and
  `victims` are the pages that an eviction takes out of memory, the failing one last.
-/
import AntDb.Histories
import AntDb.Retaining

namespace AntDb

open Call TableM

/-- An error of `write_page_to_disk`.  Once the bytes of the page are in the file the index
    kept in memory leads to them, also when the rest of the write fails. -/
inductive WriteFault where
  | early (error : DataBaseErrors)
  | late (error : DataBaseErrors)

abbrev WriteFaults : Type := PageID → Option WriteFault

/-- The file system reports its errors. -/
def WriteFaults.ofStore (store : PageStore) : WriteFaults := fun _ =>
  store.writeFault.map fun message => .early (.ioError message)

namespace Table

variable {t t' : Table} {p q : PageID} {page page' : Page} {held pinned : Option PageID}
  {faults : WriteFaults} {limit : ℕ} {r : RowID} {row : Row} {e : DataBaseErrors}

def writePageToDiskWith (faults : WriteFaults) (page : Page) : TableM Unit := do
  match faults page.pageId with
  | some (.early e) => throw e
  | some (.late e) =>
    modify fun t => { t with pageStore := { t.pageStore with
      pages := t.pageStore.pages.insert page
      rowLocations := t.rowLocations } }
    throw e
  | none =>
    modify fun t => { t with
      pageStore := t.pageStore.wrote (some page) (t.pageStore.pages.insert page) t.rowLocations
      onDiskPages := t.onDiskPages.insert page.pageId }

/-- `flush_and_evict_page`, with the errors of its write. -/
def flushAndEvictPageWith (faults : WriteFaults) (page : Page) : TableM Unit := do
  lockPage page.pageId
  let t ← get
  if page.isDirty ∨ page.pageId ∉ t.onDiskPages then writePageToDiskWith faults page
  modify fun t => t.untrackPageInMemory page
  modify fun t => { t with evictedPages := t.evictedPages.insert page.pageId }

def evictPageWith (faults : WriteFaults) (pageId : PageID) : TableM Unit := do
  match (← get).rowSpace.get? pageId with
  | none => return
  | some page =>
    modify fun t => { t with rowSpace := t.rowSpace.erase pageId }
    flushAndEvictPageWith faults page

def evictDownToWith (faults : WriteFaults) (limit : ℕ) (pinned : Option PageID) : ℕ → TableM Unit
  | 0 => return
  | rounds + 1 => do
    let t ← get
    if t.memoryUsed ≤ limit then return
    match t.pickLruVictim pinned with
    | none => return
    | some victim =>
      evictPageWith faults victim
      evictDownToWith faults limit pinned rounds

/-- `maybe_evict_pages`, with the errors of its writes. -/
def maybeEvictPagesWith (faults : WriteFaults) (pinned : Option PageID) : TableM Unit := do
  let t ← get
  if t.memoryLimit = 0 then return
  evictDownToWith faults t.memoryLimit pinned t.rowSpace.keys.length

/-! ## The errors of the file system -/

theorem writePageToDisk_eq :
    writePageToDisk page held t = writePageToDiskWith (.ofStore t.pageStore) page held t := by
  rw [writePageToDisk_run]
  unfold writePageToDiskWith WriteFaults.ofStore
  cases t.pageStore.writeFault <;> rfl

theorem flushAndEvictPage_eq :
    flushAndEvictPage page held t = flushAndEvictPageWith (.ofStore t.pageStore) page held t := by
  unfold flushAndEvictPage flushAndEvictPageWith
  rw [bind_run, bind_run, lockPage]
  split_ifs
  · rfl
  · dsimp only
    rw [get_bind, get_bind]
    split_ifs
    · show (writePageToDisk page >>= _) held t = (writePageToDiskWith _ page >>= _) held t
      rw [bind_run, bind_run, writePageToDisk_eq]
    · rfl

theorem evictPage_eq :
    evictPage p held t = evictPageWith (.ofStore t.pageStore) p held t := by
  unfold evictPageWith
  rw [evictPage_run, get_bind]
  cases t.rowSpace.get? p with
  | none => rfl
  | some page => exact flushAndEvictPage_eq (t := t.dropped p)

theorem writeFault_evictPage :
    (evictPage p held t).2.pageStore.writeFault = t.pageStore.writeFault := by
  rw [evictPage_run]
  cases t.rowSpace.get? p with
  | none => rfl
  | some page =>
    have hdropped : (t.dropped p).pageStore.writeFault = t.pageStore.writeFault := rfl
    dsimp only
    rw [flushAndEvictPage_run, hdropped]
    split_ifs
    · rfl
    · cases hw : t.pageStore.writeFault <;> exact hw
    · rfl

theorem evictDownTo_eq (rounds : ℕ) (t : Table) : evictDownTo limit pinned rounds held t =
    evictDownToWith (.ofStore t.pageStore) limit pinned rounds held t := by
  induction rounds generalizing t with
  | zero => rfl
  | succ rounds ih =>
    unfold evictDownTo evictDownToWith
    rw [get_bind, get_bind]
    split_ifs
    · rfl
    · cases t.pickLruVictim pinned with
      | none => rfl
      | some victim =>
        have hfault := @writeFault_evictPage t victim held
        dsimp only
        rw [bind_run, bind_run, ← evictPage_eq]
        generalize evictPage victim held t = result at hfault ⊢
        obtain ⟨_ | _, t₁⟩ := result
        · rfl
        · have hsame : WriteFaults.ofStore t₁.pageStore = .ofStore t.pageStore := by
            unfold WriteFaults.ofStore
            rw [hfault]
          rw [← hsame]
          exact ih t₁

/-- With the errors the file system reports they are the evictions. -/
theorem maybeEvictPages_eq : maybeEvictPages pinned held t =
    maybeEvictPagesWith (.ofStore t.pageStore) pinned held t := by
  unfold maybeEvictPages maybeEvictPagesWith
  rw [get_bind, get_bind]
  split_ifs
  · rfl
  · exact evictDownTo_eq _ _

/-! ## One page -/

/-- The page is written before it leaves memory for good. -/
def MustWrite (t : Table) (page : Page) : Prop := page.isDirty ∨ page.pageId ∉ t.onDiskPages

instance (t : Table) (page : Page) : Decidable (t.MustWrite page) := inferInstanceAs (Decidable (_ ∨ _))

def Fails (t : Table) (faults : WriteFaults) (page : Page) : Prop :=
  t.MustWrite page ∧ (faults page.pageId).isSome

instance (t : Table) (faults : WriteFaults) (page : Page) : Decidable (t.Fails faults page) :=
  inferInstanceAs (Decidable (_ ∧ _))

/-- The page leaves `row_space` and its record stays what it was. -/
def Unrecorded (t : Table) (faults : WriteFaults) (page : Page) : Prop :=
  t.MustWrite page → ∃ e, faults page.pageId = some (.early e)

/-- The table after the page has been evicted. -/
def evicted (t : Table) (page : Page) : Table :=
  if t.MustWrite page then ((t.dropped page.pageId).written page).released page
  else (t.dropped page.pageId).released page

/-- How the eviction of a page ends. -/
theorem evictPageWith_cases (hp : t.rowSpace.get? p = some page) :
    (evictPageWith faults p held t).1 = .error .blocked ∨
      (¬ t.Fails faults page ∧ evictPageWith faults p held t = (.ok (), t.evicted page)) ∨
      (t.Fails faults page ∧ ∃ error pages ρ, evictPageWith faults p held t =
          (.error (.err error), { t.dropped p with
            pageStore := { t.pageStore with pages := pages, rowLocations := ρ } }) ∧
        (t.Unrecorded faults page → pages = t.pageStore.pages) ∧
        (¬ t.Unrecorded faults page → pages = t.pageStore.pages.insert page)) := by
  obtain rfl := PageMap.pageId_of_get hp
  have hrun : evictPageWith faults page.pageId held t =
      flushAndEvictPageWith faults page held (t.dropped page.pageId) := by
    unfold evictPageWith
    rw [get_bind, hp]; rfl
  have hmust : (page.isDirty = true ∨ page.pageId ∉ (t.dropped page.pageId).onDiskPages) ↔
    t.MustWrite page := Iff.rfl
  rw [hrun]
  unfold flushAndEvictPageWith
  by_cases hlock : held = some page.pageId
  · left
    rw [bind_run, lockPage, if_pos hlock]
  right
  rw [bind_ok (show lockPage page.pageId held (t.dropped page.pageId) = (.ok (), _) by
    rw [lockPage, if_neg hlock]), get_bind]
  by_cases hwrite : t.MustWrite page
  · rw [if_pos (hmust.2 hwrite)]
    show _ ∧ (writePageToDiskWith faults page >>= _) held _ = _ ∨
      _ ∧ ∃ error pages ρ, (writePageToDiskWith faults page >>= _) held _ = _ ∧ _
    unfold writePageToDiskWith
    cases hfault : faults page.pageId with
    | none =>
      refine Or.inl ⟨fun h => ?_, ?_⟩
      · have h := h.2
        rw [hfault] at h; cases h
      · rw [evicted, if_pos hwrite]; rfl
    | some fault =>
      have hfails : t.Fails faults page := ⟨hwrite, by rw [hfault]; rfl⟩
      cases fault with
      | early error =>
        have hun : t.Unrecorded faults page := fun _ => ⟨error, hfault⟩
        exact Or.inr ⟨hfails, error, t.pageStore.pages, t.pageStore.rowLocations, rfl,
          fun _ => rfl, fun h => absurd hun h⟩
      | late error =>
        have hun : ¬ t.Unrecorded faults page := fun h => by
          obtain ⟨_, h⟩ := h hwrite
          rw [hfault] at h; cases h
        exact Or.inr ⟨hfails, error, t.pageStore.pages.insert page, t.rowLocations, rfl,
          fun h => absurd h hun, fun _ => rfl⟩
  · rw [if_neg (mt hmust.1 hwrite)]
    refine Or.inl ⟨fun h => hwrite h.1, ?_⟩
    rw [evicted, if_neg hwrite]; rfl

/-! ## Pages that have left -/

/-- The pages `left` have been taken out of the accounts. -/
structure Accounts (t : Table) (left : List Page) (t' : Table) : Prop where
  memoryUsed : t'.memoryUsed =
    left.foldl (fun used page => wrappingSub used page.memoryBytes) t.memoryUsed
  lru : t'.lru = left.foldl (fun lru page => lru.erase page.pageId) t.lru

/-- The pages `gone` have left memory: those without a record of their own hold what the page
    file had of them before, and the others what they held. -/
structure Departed (t : Table) (faults : WriteFaults) (gone : List Page) (t' : Table) : Prop where
  rowLocations : t'.rowLocations = t.rowLocations
  resident : ∀ page ∈ gone, t.rowSpace.get? page.pageId = some page
  kept : ∀ q, (∀ page ∈ gone, page.pageId = q → ¬ t.Unrecorded faults page) →
    t'.content q = t.content q
  reverted : ∀ page ∈ gone, t.Unrecorded faults page →
    t'.content page.pageId = t.pageStore.pages.get? page.pageId

theorem content_absent (h : t.rowSpace.get? p = none) : t.content p = t.pageStore.pages.get? p := by
  rw [content, h]; rfl

theorem content_congr (hrow : t'.rowSpace.get? p = t.rowSpace.get? p)
    (hrec : t'.pageStore.pages.get? p = t.pageStore.pages.get? p) : t'.content p = t.content p := by
  rw [content, content, hrow, hrec]

/-- The page `page` has left memory, and its record is its own unless it is not written. -/
theorem departed_one {pages : PageMap} (hp : t.rowSpace.get? page.pageId = some page)
    (hloc : t'.rowLocations = t.rowLocations)
    (hrow : ∀ q, t'.rowSpace.get? q = if page.pageId = q then none else t.rowSpace.get? q)
    (hpages : t'.pageStore.pages = pages)
    (hun : t.Unrecorded faults page → pages = t.pageStore.pages)
    (hrec : ¬ t.Unrecorded faults page → pages = t.pageStore.pages.insert page) :
    t.Departed faults [page] t' := by
  have hother : ∀ q, page.pageId ≠ q → pages.get? q = t.pageStore.pages.get? q := by
    intro q hq
    by_cases h : t.Unrecorded faults page
    · rw [hun h]
    · rw [hrec h, PageMap.get?_insert, if_neg hq]
  subst hpages
  constructor
  · exact hloc
  · rintro _ (_ | ⟨_, ⟨⟩⟩)
    exact hp
  · intro q hq
    by_cases h : page.pageId = q
    · subst h
      have hnot := hq page (by simp) rfl
      rw [content_absent (by rw [hrow, if_pos rfl]), hrec hnot, PageMap.get?_insert, if_pos rfl,
        content_of_resident hp]
    · exact content_congr (by rw [hrow, if_neg h]) (hother q h)
  · rintro _ (_ | ⟨_, ⟨⟩⟩) h
    rw [content_absent (by rw [hrow, if_pos rfl]), hun h]

theorem rowSpace_evicted : (t.evicted page).rowSpace = t.rowSpace.erase page.pageId := by
  unfold evicted
  split_ifs <;> rfl

theorem get_evicted : (t.evicted page).rowSpace.get? q =
    if page.pageId = q then none else t.rowSpace.get? q := by
  rw [rowSpace_evicted, PageMap.get?_erase]

theorem pages_evicted : (t.evicted page).pageStore.pages =
    if t.MustWrite page then t.pageStore.pages.insert page else t.pageStore.pages := by
  unfold evicted
  split_ifs <;> rfl

theorem record_evicted (h : page.pageId ≠ q) :
    (t.evicted page).pageStore.pages.get? q = t.pageStore.pages.get? q := by
  rw [pages_evicted]
  split_ifs
  · rw [PageMap.get?_insert, if_neg h]
  · rfl

theorem unrecorded_evicted (h : page.pageId ≠ page'.pageId) :
    (t.evicted page).Unrecorded faults page' ↔ t.Unrecorded faults page' := by
  have hon : page'.pageId ∈ (t.evicted page).onDiskPages ↔ page'.pageId ∈ t.onDiskPages := by
    rw [evicted]
    split_ifs
    · exact BTreeSet.mem_insert.trans (or_iff_right (Ne.symm h))
    · exact Iff.rfl
  rw [Unrecorded, Unrecorded, MustWrite, MustWrite, hon]

theorem departed_evicted (hp : t.rowSpace.get? page.pageId = some page)
    (hfails : ¬ t.Fails faults page) : t.Departed faults [page] (t.evicted page) := by
  have hloc : (t.evicted page).rowLocations = t.rowLocations := by
    unfold evicted
    split_ifs <;> rfl
  refine departed_one hp hloc (fun _ => get_evicted) pages_evicted (fun hun => ?_) fun hrec => ?_
  · have hmust : ¬ t.MustWrite page := fun h => by
      obtain ⟨_, hfault⟩ := hun h
      exact hfails ⟨h, by rw [hfault]; rfl⟩
    rw [if_neg hmust]
  · have hmust : t.MustWrite page := by
      by_contra h
      exact hrec fun h' => absurd h' h
    rw [if_pos hmust]

theorem Accounts.cons {left : List Page} (h : (t.evicted page).Accounts left t') :
    t.Accounts (page :: left) t' := by
  have hused : (t.evicted page).memoryUsed = wrappingSub t.memoryUsed page.memoryBytes := by
    unfold evicted
    split_ifs <;> rfl
  have hlru : (t.evicted page).lru = t.lru.erase page.pageId := by
    unfold evicted
    split_ifs <;> rfl
  constructor
  · rw [h.memoryUsed, hused, List.foldl_cons]
  · rw [h.lru, hlru, List.foldl_cons]

theorem Departed.cons {gone : List Page} (hp : t.rowSpace.get? page.pageId = some page)
    (hfails : ¬ t.Fails faults page) (h : (t.evicted page).Departed faults gone t') :
    t.Departed faults (page :: gone) t' := by
  have hone := departed_evicted hp hfails
  have hid : ∀ page' ∈ gone, page.pageId ≠ page'.pageId ∧
      t.rowSpace.get? page'.pageId = some page' := by
    intro page' hmem
    have hget := h.resident page' hmem
    rw [get_evicted] at hget
    split_ifs at hget with hne
    exact ⟨hne, hget⟩
  constructor
  · exact h.rowLocations.trans hone.rowLocations
  · intro page' hmem
    rcases List.mem_cons.1 hmem with rfl | hmem
    · exact hp
    · exact (hid page' hmem).2
  · intro q hq
    have hq₁ : ∀ page' ∈ gone, page'.pageId = q → ¬ (t.evicted page).Unrecorded faults page' := by
      intro page' hmem he hun
      exact hq page' (List.mem_cons_of_mem _ hmem) he ((unrecorded_evicted (hid page' hmem).1).1 hun)
    refine (h.kept q hq₁).trans (hone.kept q fun page' hmem => ?_)
    obtain rfl := List.mem_singleton.1 hmem
    exact hq page' (by simp)
  · intro page' hmem hun
    rcases List.mem_cons.1 hmem with rfl | hmem
    · rw [h.kept page'.pageId fun page₁ h₁ he => absurd he.symm (hid page₁ h₁).1]
      exact hone.reverted page' (by simp) hun
    · obtain ⟨hne, -⟩ := hid page' hmem
      rw [h.reverted page' hmem ((unrecorded_evicted hne).2 hun), record_evicted hne]

/-! ## The loop -/

/-- The pages that `maybe_evict_pages` takes out of `row_space`, until a write fails. -/
def victims (faults : WriteFaults) (limit : ℕ) (pinned : Option PageID) : ℕ → Table → List Page
  | 0, _ => []
  | rounds + 1, t =>
    if t.memoryUsed ≤ limit then [] else
    match (t.pickLruVictim pinned).bind t.rowSpace.get? with
    | none => []
    | some page =>
      page :: if t.Fails faults page then [] else victims faults limit pinned rounds (t.evicted page)

/-- A page whose write fails has left `row_space` and nothing else. -/
theorem evictPageWith_failed (hp : t.rowSpace.get? page.pageId = some page)
    (h : evictPageWith faults page.pageId held t = (.error (.err e), t')) :
    t.Fails faults page ∧ t.Departed faults [page] t' ∧ t.Accounts [] t' := by
  rcases @evictPageWith_cases t _ page held faults hp with hend | ⟨-, hrun⟩ | ⟨hfails, _, _, _, hrun, hpages⟩
  · rw [h] at hend
    cases Except.error.inj hend
  · rw [h] at hrun
    cases (Prod.mk.inj hrun).1
  · obtain rfl := (Prod.mk.inj (h.symm.trans hrun)).2
    exact ⟨hfails, departed_one hp rfl (fun _ => get_dropped) rfl hpages.1 hpages.2, ⟨rfl, rfl⟩⟩

theorem evictDownToWith_failed (rounds : ℕ)
    (h : evictDownToWith faults limit pinned rounds held t = (.error (.err e), t')) :
    victims faults limit pinned rounds t ≠ [] ∧
      t.Departed faults (victims faults limit pinned rounds t) t' ∧
      t.Accounts (victims faults limit pinned rounds t).dropLast t' := by
  induction rounds generalizing t with
  | zero => cases (Prod.mk.inj h).1
  | succ rounds ih =>
    unfold evictDownToWith at h
    rw [get_bind] at h
    rw [victims]
    split_ifs at h ⊢
    · cases (Prod.mk.inj h).1
    · cases hv : t.pickLruVictim pinned with
      | none => rw [hv] at h; cases (Prod.mk.inj h).1
      | some victim =>
        obtain ⟨-, ⟨page, hp⟩, -⟩ := pickLruVictim_some hv
        obtain rfl := PageMap.pageId_of_get hp
        rw [hv] at h
        rw [Option.bind_some, hp]
        dsimp only at h ⊢
        rcases @evictPageWith_cases t _ page held faults hp with
          hend | ⟨hfails, hrun⟩ | ⟨hfails, _, _, _, hrun, -⟩
        · rw [bind_run] at h
          generalize evictPageWith faults page.pageId held t = result at h hend
          obtain ⟨_ | _, t₁⟩ := result
          · obtain rfl := Except.error.inj hend
            cases (Prod.mk.inj h).1
          · cases hend
        · rw [bind_ok hrun] at h
          obtain ⟨hne, hgone, hleft⟩ := ih h
          rw [if_neg hfails, List.dropLast_cons_of_ne_nil hne]
          exact ⟨List.cons_ne_nil _ _, hgone.cons hp hfails, hleft.cons⟩
        · rw [bind_error hrun] at h
          obtain ⟨-, hgone, hleft⟩ := evictPageWith_failed hp (hrun.trans h)
          rw [if_pos hfails]
          exact ⟨List.cons_ne_nil _ _, hgone, hleft⟩

/-! ## Rows -/

/-- The row is read in a file system that works. -/
def ReadsRow (t : Table) (r : RowID) (row : Row) : Prop :=
  (withRow r none t.recovered).1 = .ok (some row)

theorem readsRow_iff : t.ReadsRow r row ↔ t.HoldsRow r row := by
  have hloc : t.recovered.rowLocations = t.rowLocations := rfl
  unfold ReadsRow withRow pageForRow HoldsRow
  rw [bind_run, get_bind, hloc]
  cases t.rowLocations[r]? with
  | none => exact ⟨nofun, nofun⟩
  | some p =>
    have hpage := fun page => @ensurePageResident_content t.recovered p page ⟨rfl, rfl⟩
    have hcontent : t.recovered.content p = t.content p := rfl
    rw [hcontent] at hpage
    dsimp only
    generalize ensurePageResident p none t.recovered = result at hpage
    obtain ⟨_ | page, t₁⟩ := result
    · refine ⟨nofun, fun ⟨q, page, hq, hc, _⟩ => ?_⟩
      rw [← Option.some.inj hq, ← hpage] at hc
      cases hc
    · have hc := (hpage page).1 rfl
      constructor
      · intro h
        exact ⟨p, page, rfl, hc, Except.ok.inj h⟩
      · rintro ⟨q, page', hq, hc', hrow⟩
        rw [← Option.some.inj hq, hc] at hc'
        obtain rfl := Option.some.inj hc'
        exact congrArg Except.ok hrow

end Table

/-- The evictions of a table. -/
inductive EvictionCall where
  | evictPage (pageId : PageID)
  | maybeEvictPages (pinned : Option PageID)

namespace EvictionCall

open Table

variable {t t' : Table} {held : Option PageID} {faults : WriteFaults} {e : DataBaseErrors}

def runWith (faults : WriteFaults) : EvictionCall → TableM Unit
  | evictPage pageId => evictPageWith faults pageId
  | maybeEvictPages pinned => maybeEvictPagesWith faults pinned

/-- The pages that the call takes out of `row_space`, until a write fails. -/
def victims (faults : WriteFaults) (t : Table) : EvictionCall → List Page
  | evictPage pageId => (t.rowSpace.get? pageId).toList
  | maybeEvictPages pinned => if t.memoryLimit = 0 then []
    else Table.victims faults t.memoryLimit pinned t.rowSpace.keys.length t

theorem runWith_failed {call : EvictionCall} (h : call.runWith faults held t = (.error (.err e), t')) :
    t.Departed faults (call.victims faults t) t' ∧
      t.Accounts (call.victims faults t).dropLast t' := by
  cases call with
  | evictPage pageId =>
    change evictPageWith faults pageId held t = _ at h
    rw [victims]
    cases hp : t.rowSpace.get? pageId with
    | none =>
      unfold evictPageWith at h
      rw [get_bind, hp] at h
      cases (Prod.mk.inj h).1
    | some page =>
      obtain rfl := PageMap.pageId_of_get hp
      exact (evictPageWith_failed hp h).2
  | maybeEvictPages pinned =>
    change maybeEvictPagesWith faults pinned held t = _ at h
    unfold maybeEvictPagesWith at h
    rw [get_bind] at h
    rw [victims]
    split_ifs at h ⊢
    · cases (Prod.mk.inj h).1
    · exact (evictDownToWith_failed _ h).2

/-- **A failed eviction** loses no row, and leaves the page that was not written in the
    accounts, exactly when the page file has the rows of the pages that left memory without
    being written. -/
theorem failed_loses_nothing_iff (call : EvictionCall)
    (h : call.runWith faults held t = (.error (.err e), t')) :
    ((∀ r row, t.ReadsRow r row → t'.ReadsRow r row) ∧ t.Accounts (call.victims faults t).dropLast t') ↔
      ∀ page ∈ call.victims faults t, t.Unrecorded faults page →
        ∀ (r : RowID) row, t.rowLocations[r]? = some page.pageId → page.rows[r]? = some row →
          ∃ record, t.pageStore.pages.get? page.pageId = some record ∧ record.rows[r]? = some row := by
  obtain ⟨hgone, hleft⟩ := runWith_failed h
  simp only [readsRow_iff, and_iff_left hleft]
  constructor
  · intro hkeeps page hmem hun r row hr hrow
    have hbefore : t.HoldsRow r row :=
      ⟨_, page, hr, content_of_resident (hgone.resident page hmem), hrow⟩
    obtain ⟨p, record, hp, hrec, hrow'⟩ := hkeeps r row hbefore
    rw [hgone.rowLocations, hr] at hp
    obtain rfl := Option.some.inj hp
    exact ⟨record, (hgone.reverted page hmem hun).symm.trans hrec, hrow'⟩
  · rintro hrecords r row ⟨p, page, hp, hpage, hrow⟩
    by_cases hun : ∃ page' ∈ call.victims faults t, page'.pageId = p ∧ t.Unrecorded faults page'
    · obtain ⟨page', hmem, rfl, hun⟩ := hun
      have hsame : page = page' :=
        Option.some.inj (hpage.symm.trans (content_of_resident (hgone.resident page' hmem)))
      subst hsame
      obtain ⟨record, hrec, hrow'⟩ := hrecords page hmem hun r row hp hrow
      exact ⟨_, record, hgone.rowLocations ▸ hp, (hgone.reverted page hmem hun).trans hrec, hrow'⟩
    · have hsame := hgone.kept p fun page' hmem he hun' => hun ⟨page', hmem, he, hun'⟩
      exact ⟨p, page, hgone.rowLocations ▸ hp, hsame.trans hpage, hrow⟩

/-- A row in page 0; page 1 has just been opened, and is one too many. -/
abbrev pageOpened : Table :=
  let t := Runs.exec TableOp.step (start 0 25 60 .empty ∅) [TableOp.insertEmpty]
  { (t.entered (.new 1 25)).arrived 1 with nextPageId := 2 }

def noSpaceLeft : DataBaseErrors := .ioError "No space left on device (os error 28)"

theorem failed_loses_nothing_noSpaceLeft :
    let faults : WriteFaults := fun _ => some (.late noSpaceLeft)
    let call := maybeEvictPages none
    let t' := (call.runWith faults none pageOpened).2
    ((∀ r row, pageOpened.ReadsRow r row → t'.ReadsRow r row) ∧
        pageOpened.Accounts (call.victims faults pageOpened).dropLast t') ↔
      ∀ page ∈ call.victims faults pageOpened, pageOpened.Unrecorded faults page →
        ∀ (r : RowID) row, pageOpened.rowLocations[r]? = some page.pageId → page.rows[r]? = some row →
          ∃ record, pageOpened.pageStore.pages.get? page.pageId = some record ∧
            record.rows[r]? = some row := by
  intro faults call t'
  have hfails : call.runWith faults none pageOpened = (.error (.err noSpaceLeft), t') :=
    Prod.ext (by decide +kernel) rfl
  exact failed_loses_nothing_iff call hfails

/-- Page 0 is in memory no more and never was on disk. -/
theorem failed_loses_row :
    let faults : WriteFaults := fun _ => some (.early noSpaceLeft)
    let t' := ((maybeEvictPages none).runWith faults none pageOpened).2
    ((maybeEvictPages none).runWith faults none pageOpened).1 = .error (.err noSpaceLeft) ∧
      (∀ r ∈ pageOpened.rowLocations, ∃ row, pageOpened.ReadsRow r row) ∧
      ¬ ∀ r row, pageOpened.ReadsRow r row → t'.ReadsRow r row := by
  intro faults t'
  have hread : pageOpened.ReadsRow 1 (.new ⟨1, .default⟩ ∅) := by
    unfold ReadsRow; decide +kernel
  have hrows : pageOpened.rowLocations.keys = [1] := by decide +kernel
  refine ⟨by decide +kernel, fun r hr => ?_, fun h => ?_⟩
  · rw [← Std.ExtTreeMap.mem_keys, hrows, List.mem_singleton] at hr
    exact ⟨_, hr ▸ hread⟩
  · have hlost : (withRow 1 none t'.recovered).1 ≠ .ok (some (.new ⟨1, .default⟩ ∅)) := by
      decide +kernel
    exact hlost (h 1 _ hread)

end EvictionCall

end AntDb
