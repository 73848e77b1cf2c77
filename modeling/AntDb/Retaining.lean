/-
  What is left of a page that leaves memory.

  `retained t p` is the page that is read back once page `p` has been evicted.  Paging does not
  change it while the file system works, so what a table may lose in evictions and reloads to
  come is a matter of the flags and the records of its resident pages (`Marked`).
-/
import AntDb.Lib.Runs
import AntDb.Paging

namespace AntDb

open Call TableM

/-- The pages differ in their dirty flags at most. -/
def Page.SameContent (page page' : Page) : Prop := { page with isDirty := page'.isDirty } = page'

instance (page page' : Page) : Decidable (page.SameContent page') :=
  inferInstanceAs (Decidable (_ = page'))

theorem Page.SameContent.refl (page : Page) : page.SameContent page := rfl

/-- Moves of pages between memory and the page file. -/
inductive PagingOp where
  | evict (pageId : PageID)
  | load (pageId : PageID)
  | makeRoom (pinned : Option PageID)

namespace PagingOp

def run : PagingOp → TableM Unit
  | evict pageId => Table.evictPage pageId
  | load pageId => do let _ ← Table.ensurePageResident pageId
  | makeRoom pinned => Table.maybeEvictPages pinned

def step (t : Table) (op : PagingOp) : Table := (op.run none t).2

end PagingOp

namespace Table

variable {t t' : Table} {p q : PageID} {page page' : Page} {pinned : Option PageID}

/-- What is read back of page `p` after it has left memory: the resident page, if it is written
    then, or else its record. -/
def retained (t : Table) (p : PageID) : Option Page :=
  match t.rowSpace.get? p with
  | some page => if page.isDirty ∨ p ∉ t.onDiskPages then some page else t.pageStore.pages.get? p
  | none => t.pageStore.pages.get? p

/-- The page file has the page as it is. -/
def Recorded (t : Table) (p : PageID) (page : Page) : Prop :=
  ∃ record, t.pageStore.pages.get? p = some record ∧ page.SameContent record

/-- The resident pages that are not in the page file as they are will be written when they
    leave memory. -/
def Marked (t : Table) : Prop := ∀ p page, t.rowSpace.get? p = some page →
  t.Recorded p page ∨ page.isDirty ∨ p ∉ t.onDiskPages

/-- The table once the file system works again. -/
def recovered (t : Table) : Table :=
  { t with pageStore := { t.pageStore with readFault := none, writeFault := none } }

/-- Evict page `p` and read it in. -/
def reload (p : PageID) : TableM Page := do
  evictPage p
  ensurePageResident p

/-- Whatever pages move before, each page that is resident now is read back with its content. -/
def Survives (t : Table) : Prop := ∀ (ops : List PagingOp) p page, t.rowSpace.get? p = some page →
  ∃ page', (reload p none (Runs.exec PagingOp.step t.recovered ops)).1 = .ok page' ∧
    page.SameContent page'

theorem retained_absent (h : t.rowSpace.get? p = none) :
    t.retained p = t.pageStore.pages.get? p := by
  rw [retained, h]

theorem retained_resident (h : t.rowSpace.get? p = some page) : t.retained p =
    if page.isDirty ∨ p ∉ t.onDiskPages then some page else t.pageStore.pages.get? p := by
  rw [retained, h]

theorem retained_congr (hrow : t'.rowSpace.get? p = t.rowSpace.get? p)
    (hon : p ∈ t'.onDiskPages ↔ p ∈ t.onDiskPages)
    (hrec : t'.pageStore.pages.get? p = t.pageStore.pages.get? p) : t'.retained p = t.retained p := by
  rw [retained, retained, hrow, hrec]
  simp only [hon]

/-- Calls after which every page is read back as before, in a file system that works. -/
def retaining : Frame (Option PageID) Table Fault where
  env := none
  inv t := t.pageStore.readFault = none ∧ t.pageStore.writeFault = none
  rel t t' := (t'.pageStore.readFault = t.pageStore.readFault ∧
    t'.pageStore.writeFault = t.pageStore.writeFault) ∧ ∀ p, t'.retained p = t.retained p
  exempt _ := False
  refl _ := ⟨⟨rfl, rfl⟩, fun _ => rfl⟩
  trans h h' := ⟨⟨h'.1.1.trans h.1.1, h'.1.2.trans h.1.2⟩, fun p => (h'.2 p).trans (h.2 p)⟩
  keep h h' := ⟨h'.1.1.trans h.1, h'.1.2.trans h.2⟩

theorem retaining_run {x : TableM Unit} (hx : Framed retaining x (· = .ok ())) (ht : retaining.inv t) :
    ∃ t', x none t = (.ok (), t') ∧ retaining.rel t t' := by
  rcases hx t ht with ⟨-, -, ⟨⟩⟩ | ⟨hok, hrel⟩
  exact ⟨_, Prod.ext hok rfl, hrel⟩

/-- A page that leaves memory without being written. -/
theorem retained_dropped (hp : t.rowSpace.get? p = some page)
    (hclean : ¬(page.isDirty ∨ p ∉ t.onDiskPages)) :
    ((t.dropped p).released page).retained q = t.retained q := by
  by_cases hq : p = q
  · subst hq
    have hgone : ((t.dropped p).released page).rowSpace.get? p = none := by
      show (t.dropped p).rowSpace.get? p = none
      rw [get_dropped, if_pos rfl]
    rw [retained_absent hgone, retained_resident hp, if_neg hclean]
    rfl
  · refine retained_congr ?_ Iff.rfl rfl
    show (t.dropped p).rowSpace.get? q = _
    rw [get_dropped, if_neg hq]

/-- A page that is written and leaves memory. -/
theorem retained_written (hp : t.rowSpace.get? p = some page)
    (hwrite : page.isDirty ∨ p ∉ t.onDiskPages) :
    (((t.dropped p).written page).released page).retained q = t.retained q := by
  have hid := PageMap.pageId_of_get hp
  have hrow : (((t.dropped p).written page).released page).rowSpace.get? q =
      if p = q then none else t.rowSpace.get? q := get_dropped
  have hrec : (((t.dropped p).written page).released page).pageStore.pages.get? q =
      if page.pageId = q then some page else t.pageStore.pages.get? q := PageMap.get?_insert
  have hon : q ∈ (((t.dropped p).written page).released page).onDiskPages ↔
      q = page.pageId ∨ q ∈ t.onDiskPages := BTreeSet.mem_insert
  rw [hid] at hrec hon
  by_cases hq : p = q
  · subst hq
    rw [if_pos rfl] at hrow hrec
    rw [retained_absent hrow, hrec, retained_resident hp, if_pos hwrite]
  · rw [if_neg hq] at hrow hrec
    exact retained_congr hrow (hon.trans (or_iff_right (Ne.symm hq))) hrec

theorem retaining_evictPage : Framed retaining (evictPage p) (· = .ok ()) := by
  intro t ht
  right
  change (evictPage p none t).1 = .ok () ∧ retaining.rel t (evictPage p none t).2
  rw [evictPage_run]
  cases hp : t.rowSpace.get? p with
  | none => exact ⟨rfl, retaining.refl t⟩
  | some page =>
    have hid := PageMap.pageId_of_get hp
    have hw : (t.dropped p).pageStore.writeFault = none := ht.2
    dsimp only
    rw [flushAndEvictPage_run, if_neg nofun, hw]
    split_ifs with hwrite
    · exact ⟨rfl, ⟨rfl, rfl⟩, fun q => retained_written hp (hid ▸ hwrite)⟩
    · exact ⟨rfl, ⟨rfl, rfl⟩, fun q => retained_dropped hp (hid ▸ hwrite)⟩

theorem evictPage_gone (hw : t.pageStore.writeFault = none) :
    (evictPage p none t).2.rowSpace.get? p = none := by
  have hgone : (t.dropped p).rowSpace.get? p = none := by rw [get_dropped, if_pos rfl]
  rw [evictPage_run]
  cases hp : t.rowSpace.get? p with
  | none => exact hp
  | some page =>
    have hw : (t.dropped p).pageStore.writeFault = none := hw
    dsimp only
    rw [flushAndEvictPage_run, if_neg nofun, hw]
    split_ifs <;> exact hgone

theorem retaining_evictDownTo (limit : ℕ) (rounds : ℕ) :
    Framed retaining (evictDownTo limit pinned rounds) (· = .ok ()) := by
  induction rounds with
  | zero => exact Framed.pure rfl
  | succ rounds ih =>
    refine Framed.get fun t _ => ?_
    split_ifs
    · exact Framed.pure rfl
    · cases t.pickLruVictim pinned with
      | none => exact Framed.pure rfl
      | some victim => exact retaining_evictPage.bind (fun _ _ => ih) nofun

theorem retaining_maybeEvictPages : Framed retaining (maybeEvictPages pinned) (· = .ok ()) := by
  refine Framed.get fun t _ => ?_
  split_ifs
  · exact Framed.pure rfl
  · exact retaining_evictDownTo _ _

/-- Reading a page in. -/
theorem retained_entered (h : t.rowSpace.get? p = none) (hd : t.pageStore.pages.get? p = some page) :
    ((t.entered page).arrived p).retained q = t.retained q := by
  have hrow : ((t.entered page).arrived p).rowSpace.get? q =
      if page.pageId = q then some page else t.rowSpace.get? q := get_entered
  rw [PageMap.pageId_of_get hd] at hrow
  by_cases hq : p = q
  · subst hq
    rw [if_pos rfl] at hrow
    have hrec : ((t.entered page).arrived p).pageStore.pages.get? p = some page := hd
    rw [retained_resident hrow, hrec, ite_self, retained_absent h, hd]
  · rw [if_neg hq] at hrow
    exact retained_congr hrow Iff.rfl rfl

/-- Reading in a page that is not in memory gives what is left of it. -/
theorem retaining_ensurePageResident : Framed retaining (ensurePageResident p) fun _ => True := by
  intro t ht
  right
  refine ⟨trivial, ?_⟩
  change retaining.rel t (ensurePageResident p none t).2
  rw [ensurePageResident_run]
  cases hp : t.rowSpace.get? p with
  | some page => exact ⟨⟨rfl, rfl⟩, fun q => retained_congr rfl Iff.rfl rfl⟩
  | none =>
    rw [PageStore.readPage, PageStore.reading, ht.1]
    cases hd : t.pageStore.pages.get? p with
    | none => exact retaining.refl t
    | some page =>
      have hin : retaining.rel t ((t.entered page).arrived p) :=
        ⟨⟨rfl, rfl⟩, fun q => retained_entered hp hd⟩
      have hroom : Framed retaining (maybeEvictPages (some p) >>= fun _ => (pure page : TableM Page))
          fun _ => True := retaining_maybeEvictPages.bind (fun _ _ => Framed.pure trivial) fun _ _ => trivial
      rcases hroom _ (retaining.keep ht hin) with ⟨-, -, ⟨⟩⟩ | ⟨-, hrel⟩
      exact retaining.trans hin hrel

theorem ensurePageResident_absent (ht : retaining.inv t) (hp : t.rowSpace.get? p = none) :
    (ensurePageResident p none t).1 = .ok page ↔ t.retained p = some page := by
  rw [ensurePageResident_run, hp, retained_absent hp, PageStore.readPage, PageStore.reading, ht.1]
  cases hd : t.pageStore.pages.get? p with
  | none => simp
  | some record =>
    have hinv : retaining.inv ((t.entered record).arrived p) := ht
    obtain ⟨t', hrun, -⟩ := retaining_run (@retaining_maybeEvictPages (some p)) hinv
    dsimp only
    rw [bind_ok hrun, pure_run]
    simp

/-- Making a page resident gives what it holds. -/
theorem ensurePageResident_content (ht : retaining.inv t) :
    (ensurePageResident p none t).1 = .ok page ↔ t.content p = some page := by
  cases hp : t.rowSpace.get? p with
  | none => rw [ensurePageResident_absent ht hp, retained_absent hp, content, hp, Option.none_or]
  | some page' =>
    rw [ensurePageResident_run, content_of_resident hp, hp]
    simp

theorem retaining_step (ht : retaining.inv t) (op : PagingOp) :
    retaining.inv (op.step t) ∧ ∀ p, (op.step t).retained p = t.retained p := by
  have hstep : Framed retaining op.run fun _ => True := by
    cases op with
    | evict p => exact retaining_evictPage.mono fun _ _ => trivial
    | load p => exact retaining_ensurePageResident.bind (fun _ _ => Framed.pure trivial) fun _ _ => trivial
    | makeRoom pinned => exact retaining_maybeEvictPages.mono fun _ _ => trivial
  rcases hstep t ht with ⟨-, -, ⟨⟩⟩ | ⟨-, hrel⟩
  exact ⟨retaining.keep ht hrel, hrel.2⟩

theorem reload_retained (ht : retaining.inv t) :
    (reload p none t).1 = .ok page ↔ t.retained p = some page := by
  obtain ⟨t', hrun, hrel⟩ := retaining_run (@retaining_evictPage p) ht
  have hgone : t'.rowSpace.get? p = none := by
    have h := @evictPage_gone t p ht.2
    rwa [hrun] at h
  unfold reload
  rw [bind_ok hrun, ensurePageResident_absent (retaining.keep ht hrel) hgone, hrel.2]

/-- **Evictions and reloads** to come lose nothing of a resident page exactly when it is in the
    page file as it is, or will be written. -/
theorem survives_iff : t.Survives ↔ t.Marked := by
  have hback : ∀ (ops : List PagingOp) p page',
      (reload p none (Runs.exec PagingOp.step t.recovered ops)).1 = .ok page' ↔
        t.retained p = some page' := by
    intro ops p page'
    have hrun : retaining.inv (Runs.exec PagingOp.step t.recovered ops) ∧
        ∀ p, (Runs.exec PagingOp.step t.recovered ops).retained p = t.retained p := by
      induction ops using List.reverseRecOn with
      | nil => exact ⟨⟨rfl, rfl⟩, fun p => retained_congr rfl Iff.rfl rfl⟩
      | append_singleton ops op ih =>
        rw [Runs.exec_snoc]
        obtain ⟨hinv, hsame⟩ := retaining_step ih.1 op
        exact ⟨hinv, fun p => (hsame p).trans (ih.2 p)⟩
    rw [reload_retained hrun.1, hrun.2]
  have hpage : ∀ p page, t.rowSpace.get? p = some page →
      ((∃ page', t.retained p = some page' ∧ page.SameContent page') ↔
        t.Recorded p page ∨ page.isDirty ∨ p ∉ t.onDiskPages) := by
    intro p page hp
    rw [retained_resident hp]
    split_ifs with hwrite
    · exact ⟨fun _ => Or.inr hwrite, fun _ => ⟨page, rfl, Page.SameContent.refl page⟩⟩
    · exact ⟨Or.inl, fun h => h.resolve_right hwrite⟩
  constructor
  · intro h p page hp
    obtain ⟨page', hback', hsame⟩ := h [] p page hp
    exact (hpage p page hp).1 ⟨page', (hback [] p page').1 hback', hsame⟩
  · intro h ops p page hp
    obtain ⟨page', hret, hsame⟩ := (hpage p page hp).2 (h p page hp)
    exact ⟨page', (hback ops p page').2 hret, hsame⟩

end Table

end AntDb
