/-
  The memory counter of a table against the pages in memory.

  A page is counted when it is opened or read in, and taken off the counter when it is evicted;
  what is written to it in between is not counted.  `KeepsSizes` says of a call that it writes
  nothing that changes the sizes of the pages in memory.
-/
import AntDb.Lib.Ledger
import AntDb.Sizes
import AntDb.Swapping

namespace AntDb

open Call TableM Ledger

/-! ## The counter -/

theorem wrappingAdd_mod (a b : ℕ) : wrappingAdd (a % 2 ^ 64) b = (a + b) % 2 ^ 64 := by
  rw [wrappingAdd, Nat.mod_add_mod]

theorem wrappingSub_mod {a b : ℕ} (h : b ≤ a) : wrappingSub (a % 2 ^ 64) b = (a - b) % 2 ^ 64 := by
  unfold wrappingSub
  omega

theorem saturatingAdd_foldl {α : Type} (size : α → ℕ) (l : List α) (n : ℕ) (hn : n < 2 ^ 64) :
    l.foldl (fun used a => saturatingAdd used (size a)) n = min (n + (l.map size).sum) (2 ^ 64 - 1) := by
  induction l generalizing n with
  | nil =>
    rw [List.foldl_nil, List.map_nil, List.sum_nil]
    omega
  | cons a l ih =>
    rw [List.foldl_cons, ih _ (by unfold saturatingAdd; omega), List.map_cons, List.sum_cons]
    unfold saturatingAdd
    omega

namespace PageMap

variable {s : PageMap} {p : PageID} {page : Page}

/-- The bytes of the pages. -/
def bytes (s : PageMap) : ℕ := (s.values.map Page.memoryBytes).sum

theorem bytes_eq : s.bytes = BTreeMap.total Page.memoryBytes s.pages := by
  rw [bytes, values, List.map_map]; rfl

theorem total_values : total Page.memoryBytes (s.values : Multiset Page) = s.bytes := total_coe

theorem values_insert (h : s.get? page.pageId = none) :
    ((s.insert page).values : Multiset Page) = page ::ₘ (s.values : Multiset Page) :=
  Multiset.coe_eq_coe.2 ((BTreeMap.toList_insert_perm h).map Prod.snd)

theorem values_erase (h : s.get? p = some page) :
    ((s.erase p).values : Multiset Page) = (s.values : Multiset Page).erase page := by
  obtain rfl := pageId_of_get h
  have hback : (s.erase page.pageId).insert page = s := by
    refine ext_get fun q => ?_
    rw [get?_insert, get?_erase]
    split_ifs with hq
    · rw [← hq, h]
    · rfl
  conv_rhs => rw [← hback]
  rw [values_insert (by rw [get?_erase, if_pos rfl]), Multiset.erase_cons_head]

theorem bytes_update {f : Page → Page} {hf} (h : s.get? p = some page)
    (hsize : (f page).memoryBytes = page.memoryBytes) : (s.update p f hf).bytes = s.bytes := by
  have htotal := BTreeMap.total_modify (w := Page.memoryBytes) (f := f) h
  rw [hsize, Nat.add_right_cancel_iff] at htotal
  rw [bytes_eq, bytes_eq]
  exact htotal

theorem bytes_map {f : Page → Page} {hf} :
    (s.map f hf).bytes = BTreeMap.total (fun page => (f page).memoryBytes) s.pages := by
  rw [bytes_eq]
  exact BTreeMap.total_map

end PageMap

namespace Table

variable {t t' t'' : Table} {ρ : RowMap} {p : PageID} {page : Page} {l : Ledger Page}
  {oldest : TransactionID} {txn : Transaction}

/-- The ledger has the pages in memory, and the counter of the table is its total on 64 bits. -/
structure Books (t : Table) (l : Ledger Page) : Prop where
  items : l.items = (t.rowSpace.values : Multiset Page)
  used : t.memoryUsed = l.used % 2 ^ 64

theorem Books.exact_iff (h : t.Books l) : l.Exact Page.memoryBytes ↔ l.used = t.rowSpace.bytes := by
  rw [Exact, h.items, PageMap.total_values]

/-- From the one table to the other no page is taken off the counter that was not counted, and the
    counter stays exact if it is. -/
def Accounted (t t' : Table) : Prop :=
  ∀ l, t.Books l → l.Covered Page.memoryBytes →
    ∃ l', Path Page.memoryBytes l l' ∧ t'.Books l' ∧ (l.Exact Page.memoryBytes → l'.Exact Page.memoryBytes)

namespace Accounted

theorem refl (t : Table) : t.Accounted t := fun l hl _ => ⟨l, .refl, hl, id⟩

theorem trans (h : t.Accounted t') (h' : t'.Accounted t'') : t.Accounted t'' := by
  intro l hl hcovered
  obtain ⟨l', hpath, hl', hexact⟩ := h l hl hcovered
  obtain ⟨l'', hpath', hl'', hexact'⟩ := h' l' hl' (covered_of_path hpath hcovered)
  exact ⟨l'', hpath.trans hpath', hl'', hexact' ∘ hexact⟩

/-- The pages are rewritten, and are as large together as before. -/
theorem of_bytes (hbytes : t'.rowSpace.bytes = t.rowSpace.bytes) (hused : t'.memoryUsed = t.memoryUsed) :
    t.Accounted t' := by
  intro l hl _
  have htotal : total Page.memoryBytes (t'.rowSpace.values : Multiset Page) =
      total Page.memoryBytes l.items := by
    rw [hl.items, PageMap.total_values, PageMap.total_values, hbytes]
  refine ⟨_, .single (Step.rewrite l _ htotal.le), ⟨rfl, hused.trans hl.used⟩, fun hexact => ?_⟩
  exact hexact.trans htotal.symm

theorem of_same (hspace : t'.rowSpace = t.rowSpace) (hused : t'.memoryUsed = t.memoryUsed) :
    t.Accounted t' := of_bytes (by rw [hspace]) hused

/-- A page is read in or opened, and counted. -/
theorem of_entered (h : t.rowSpace.get? page.pageId = none) (hspace : t'.rowSpace = t.rowSpace.insert page)
    (hused : t'.memoryUsed = wrappingAdd t.memoryUsed page.memoryBytes) : t.Accounted t' := by
  intro l hl _
  refine ⟨_, .single (Step.enter l page), ⟨?_, ?_⟩, fun hexact => hexact.enter page⟩
  · rw [hspace, PageMap.values_insert h, hl.items]
  · rw [hused, hl.used, wrappingAdd_mod]

/-- A page is dropped, and taken off the counter. -/
theorem of_dropped (h : t.rowSpace.get? p = some page) (hspace : t'.rowSpace = t.rowSpace.erase p)
    (hused : t'.memoryUsed = wrappingSub t.memoryUsed page.memoryBytes) : t.Accounted t' := by
  intro l hl hcovered
  have hmem : page ∈ l.items := by
    rw [hl.items, Multiset.mem_coe, PageMap.mem_values, PageMap.pageId_of_get h, h]
  refine ⟨_, .single (hcovered.leave hmem), ⟨?_, ?_⟩, fun hexact => hexact.leave hmem⟩
  · rw [hspace, PageMap.values_erase h, hl.items]
  · rw [hused, hl.used, wrappingSub_mod (hcovered.size_le hmem)]

end Accounted

/-! ## Loads and evictions -/

/-- An eviction does not stop at a page that cannot be written. -/
def EvictsSafely (t : Table) : Prop := t.memoryLimit = 0 ∨ t.pageStore.writeFault = none

/-- Tables whose counter is accounted for. -/
def accounting (ρ : RowMap) : Frame (Option PageID) Table Fault where
  env := none
  inv t := t.rowLocations = ρ ∧ t.EvictsSafely
  rel t t' := t.Accounted t' ∧ t'.rowLocations = t.rowLocations ∧ t'.memoryLimit = t.memoryLimit ∧
    t'.pageStore.writeFault = t.pageStore.writeFault
  exempt e := e = .blocked
  refl t := ⟨Accounted.refl t, rfl, rfl, rfl⟩
  trans h h' := ⟨h.1.trans h'.1, h'.2.1.trans h.2.1, h'.2.2.1.trans h.2.2.1, h'.2.2.2.trans h.2.2.2⟩
  keep hs h := ⟨h.2.1.trans hs.1, by unfold EvictsSafely; rw [h.2.2.1, h.2.2.2]; exact hs.2⟩

theorem swaps_accounting : Swaps (accounting ρ) where
  limit h := h.2.2.1
  touched p t _ := ⟨Accounted.of_same rfl rfl, rfl, rfl, rfl⟩
  entered p page t _ hp hrecord := by
    obtain rfl := PageMap.pageId_of_get hrecord
    exact ⟨Accounted.of_entered hp rfl rfl, rfl, rfl, rfl⟩
  released p page t _ _ hp := ⟨Accounted.of_dropped hp rfl rfl, rfl, rfl, rfl⟩
  written p page t _ _ hp := ⟨Accounted.of_dropped hp rfl rfl, rfl, rfl, rfl⟩
  lost p page t ht hlimit _ hfault := absurd (ht.2.resolve_left hlimit) hfault
  exempt _ := Iff.rfl

theorem accounting_rewritten {f : Page → Page} {hf} (hp : t.rowSpace.get? p = some page)
    (hsize : (f page).memoryBytes = page.memoryBytes) : (accounting ρ).rel t (t.rewritten p f hf) :=
  ⟨Accounted.of_bytes (@PageMap.bytes_update _ _ _ _ hf hp hsize) rfl, rfl, rfl, rfl⟩

theorem bytes_cleaned : t.cleaned.bytes = t.rowSpace.bytes := by
  rw [cleaned, PageMap.bytes_map, PageMap.bytes_eq]; rfl

theorem follows_accounting {op : PageOp} (hop : op.Quiet) : Follows (accounting ρ) op.run :=
  PageOp.follows_quiet swaps_accounting (fun _ ht => ht.1)
    (fun _ _ _ _ => ⟨Accounted.of_same rfl rfl, rfl, rfl, rfl⟩)
    (fun _ _ _ _ => ⟨Accounted.of_same rfl rfl, rfl, rfl, rfl⟩)
    (fun _ _ _ => ⟨Accounted.of_same rfl rfl, rfl, rfl, rfl⟩)
    (fun _ _ => ⟨Accounted.of_bytes bytes_cleaned rfl, rfl, rfl, rfl⟩)
    (fun _ _ => ⟨Accounted.of_bytes bytes_cleaned rfl, rfl, rfl, rfl⟩) hop

/-! ## Rolling back -/

/-- The marks a rollback of `txn` sets on the pages in memory. -/
def marksSet (t : Table) (txn : Transaction) : ℕ := BTreeMap.total (·.marksSet txn) t.rowSpace.pages

/-- The marks a rollback of `txn` takes off on the pages in memory. -/
def marksTaken (t : Table) (txn : Transaction) : ℕ := BTreeMap.total (·.marksTaken txn) t.rowSpace.pages

theorem bytes_rollback : (t.rollbackTransaction txn).rowSpace.bytes + 8 * t.marksTaken txn =
    t.rowSpace.bytes + 8 * t.marksSet txn := by
  have hbytes : (t.rollbackTransaction txn).rowSpace.bytes =
      BTreeMap.total (fun page => (page.rolledBack txn).memoryBytes) t.rowSpace.pages :=
    @PageMap.bytes_map t.rowSpace (·.rolledBack txn) fun _ => rfl
  rw [hbytes, PageMap.bytes_eq, marksTaken, marksSet, ← BTreeMap.total_mul, ← BTreeMap.total_mul,
    ← BTreeMap.total_add, ← BTreeMap.total_add]
  exact BTreeMap.total_congr fun _ page _ => page.memoryBytes_rolledBack

/-! ## The vacuum -/

/-- The pages are not larger after their rows have been pruned. -/
theorem bytes_rowsPruned_le : (t.rowsPruned oldest).rowSpace.bytes ≤ t.rowSpace.bytes := by
  have hbytes : (t.rowsPruned oldest).rowSpace.bytes = BTreeMap.total (fun page : Page =>
      ({ page with rows := pruneRows oldest page.rows } : Page).memoryBytes) t.rowSpace.pages :=
    @PageMap.bytes_map t.rowSpace _ (pageId_pruneRows oldest)
  rw [hbytes, PageMap.bytes_eq, BTreeMap.total, BTreeMap.total]
  exact List.sum_le_sum fun x _ => x.2.memoryBytes_pruned_le

/-- Compaction counts its pages afresh. -/
theorem memoryUsed_compact : t.compact.memoryUsed = min t.compact.rowSpace.bytes (2 ^ 64 - 1) := by
  have hcount := saturatingAdd_foldl Page.memoryBytes t.compact.rowSpace.values 0 (by norm_num)
  rw [Nat.zero_add] at hcount
  exact hcount

/-- **A vacuum** leaves the counter exact, as long as its pages can be counted. -/
theorem ledger_prune (ht : t.EvictsSafely) (hreturns : (prune oldest none t).1 ≠ .error .blocked)
    (hl : t.Books l) (hexact : l.Exact Page.memoryBytes)
    (hsmall : (prune oldest none t).2.rowSpace.bytes < 2 ^ 64) :
    ∃ l', Path Page.memoryBytes l l' ∧ (prune oldest none t).2.Books l' ∧ l'.Exact Page.memoryBytes := by
  have hswaps := @swaps_accounting t.rowLocations
  obtain ⟨r, t₁, hrun, hreturned, hrest⟩ := prune_cases hreturns
  have hload : (accounting t.rowLocations).rel t t₁ := by
    have hrel : (materializeAllPages none t).1 ≠ .error .blocked → _ :=
      hswaps.rel_of_returns hswaps.follows_materializeAllPages ⟨rfl, ht⟩
    rw [hrun] at hrel
    exact hrel hreturned
  obtain ⟨l₁, hpath₁, hl₁, hexact₁⟩ := hload.1 l hl hexact.covered
  rcases hrest with he | ⟨-, r₂, t₂, hrun₂, hreturned₂, hend⟩
  · rw [he]
    exact ⟨l₁, hpath₁, hl₁, hexact₁ hexact⟩
  -- the pages in memory shrink, which the counter does not notice yet
  have hle : total Page.memoryBytes ((t₁.rowsPruned oldest).rowSpace.values : Multiset Page) ≤
      total Page.memoryBytes l₁.items := by
    rw [hl₁.items, PageMap.total_values, PageMap.total_values]
    exact bytes_rowsPruned_le
  have hshrink := Step.rewrite l₁ _ hle
  have hinv : (accounting t.rowLocations).inv t₁ := (accounting t.rowLocations).keep ⟨rfl, ht⟩ hload
  have hprune := @pruneVersions_rel t₁ t.rowLocations _ oldest hswaps (fun _ ht => ht.1)
    (fun _ _ _ => ⟨Accounted.of_same rfl rfl, rfl, rfl, rfl⟩) hinv
  rw [hrun₂] at hprune
  obtain ⟨hok, haccounted, -⟩ := hprune hreturned₂
  obtain ⟨l₂, hpath₂, -, -⟩ := haccounted ⟨_, l₁.used⟩ ⟨rfl, hl₁.used⟩
    (hshrink.covered (covered_of_path hpath₁ hexact.covered))
  -- compaction counts its pages, and the flush does not change their sizes
  have hflush : (prune oldest none t).2.rowSpace.bytes = t₂.compact.rowSpace.bytes ∧
      (prune oldest none t).2.memoryUsed = t₂.compact.memoryUsed := by
    rw [hend hok]
    rcases flushAllPages_cases none t₂.compact with he | he | he <;> rw [he]
    · exact ⟨rfl, rfl⟩
    · exact ⟨bytes_cleaned, rfl⟩
    · exact ⟨bytes_cleaned, rfl⟩
  refine ⟨_, ((hpath₁.tail hshrink).trans hpath₂).tail
    (Step.recount l₂ ((prune oldest none t).2.rowSpace.values : Multiset Page)), ⟨rfl, ?_⟩, rfl⟩
  rw [hflush.2, memoryUsed_compact, ← hflush.1, PageMap.total_values, Nat.mod_eq_of_lt hsmall]
  exact min_eq_left (Nat.le_sub_one_of_lt hsmall)

end Table

/-! ## Runs -/

namespace PageOp

open Table

variable {t : Table} {op : PageOp} {l : Ledger Page}

/-- The call writes nothing to a page in memory that changes its size, and its evictions do not
    stop at a page they cannot write. -/
def KeepsSizes (t : Table) (op : PageOp) : Prop :=
  t.EvictsSafely ∧ match op with
    | table (.call (.insertRow data txn others)) => t.RefusesInsert data txn others
    | table (.call (.updateRow rowId data txn others)) => t.RefusesUpdate rowId data txn others
    | table (.call (.deleteRow rowId txn)) => t.OnlyRemarks rowId txn
    | table (.rollbackTransaction txn) => t.marksTaken txn = t.marksSet txn
    | _ => True

/-- A quiet call, and a call that keeps the sizes, are accounted for. -/
theorem accounted_step (hop : ∀ oldest, op ≠ table (.prune oldest)) (hreturns : op.Returns t)
    (hkeeps : op.KeepsSizes t) : t.Accounted (op.step t) := by
  obtain ⟨hsafe, hkeeps⟩ := hkeeps
  have hswaps := @swaps_accounting t.rowLocations
  have hρ : ∀ t', (accounting t.rowLocations).inv t' → t'.rowLocations = t.rowLocations := fun _ ht => ht.1
  by_cases hquiet : op.Quiet
  · exact (hswaps.rel_of_returns (follows_accounting hquiet) ⟨rfl, hsafe⟩ hreturns).1
  cases op with
  | table op =>
    cases op with
    | call c =>
      have hback := TableOp.call_returns hreturns
      show t.Accounted ((TableOp.call c).step t)
      rw [TableOp.step_call]
      cases c with
      | insertRow data txn others =>
        obtain ⟨hstep, hreturned⟩ := @RowCall.step_of_run t (.insertRow data txn others) _ _ .inserted rfl
        rw [hstep]
        exact (hswaps.rel_insertRow hρ ⟨rfl, hsafe⟩ hkeeps (hreturned hback)).1
      | updateRow rowId data txn others =>
        obtain ⟨hstep, hreturned⟩ := @RowCall.step_of_run t (.updateRow rowId data txn others) _ _
          (fun _ => .done) rfl
        rw [hstep]
        exact (hswaps.rel_updateRow hρ ⟨rfl, hsafe⟩ hkeeps (hreturned hback)).1
      | deleteRow rowId txn =>
        obtain ⟨hstep, hreturned⟩ := @RowCall.step_of_run t (.deleteRow rowId txn) _ _ (fun _ => .done) rfl
        rw [hstep]
        refine (hswaps.rel_deleteRow hρ ⟨rfl, hsafe⟩ hkeeps (fun t' page row _ hp hrow hmarked => ?_)
          (hreturned hback)).1
        exact accounting_rewritten hp (Page.memoryBytes_modify hrow (Row.sizeBytes_remove hmarked))
      | getRow => exact absurd trivial hquiet
      | search => exact absurd trivial hquiet
    | rollbackTransaction txn =>
      have hbytes := @bytes_rollback t txn
      have hmarks : t.marksTaken txn = t.marksSet txn := hkeeps
      exact Accounted.of_bytes (by
        show (t.rollbackTransaction txn).rowSpace.bytes = _
        omega) rfl
    | prune oldest => exact absurd rfl (hop oldest)
    | _ => exact absurd trivial hquiet
  | _ => exact absurd trivial hquiet

/-- **A call that keeps the sizes** keeps the counter exact. -/
theorem ledger_step (hreturns : op.Returns t) (hkeeps : op.KeepsSizes t) (hl : t.Books l)
    (hexact : l.Exact Page.memoryBytes) (hsmall : (op.step t).rowSpace.bytes < 2 ^ 64) :
    ∃ l', Path Page.memoryBytes l l' ∧ (op.step t).Books l' ∧ l'.Exact Page.memoryBytes := by
  by_cases hprune : ∃ oldest, op = table (.prune oldest)
  · obtain ⟨oldest, rfl⟩ := hprune
    exact ledger_prune hkeeps.1 hreturns hl hexact hsmall
  · obtain ⟨l', hpath, hl', hexact'⟩ := accounted_step (fun oldest he => hprune ⟨oldest, he⟩) hreturns hkeeps
      l hl hexact.covered
    exact ⟨l', hpath, hl', hexact' hexact⟩

end PageOp

namespace Table

/-- A table as it is created, or as it is bound to its page file. -/
inductive Opened : Table → Prop
  | start (tableId : TableID) (pageSize limit : ℕ) (store : PageStore) (columns : BTreeMap ColumnID Column) :
      Opened (start tableId pageSize limit store columns)
  | bound (t : Table) : Opened (bindPageStore none t.reopened).2

/-- Tables with no page in memory. -/
def idle : Frame (Option PageID) Table Fault where
  env := none
  inv t := t.rowSpace = .empty ∧ t.memoryUsed = 0
  rel t t' := t.rowSpace = .empty ∧ t.memoryUsed = 0 → t'.rowSpace = .empty ∧ t'.memoryUsed = 0
  exempt _ := False
  refl _ h := h
  trans h h' ht := h' (h ht)
  keep ht h := h ht

theorem idle_rebuild {t : Table} (ht : idle.inv t) : idle.rel t t.rebuildRuntimeState := fun _ =>
  ⟨ht.1, by rw [rebuildRuntimeState, ht.1]; rfl⟩

theorem follows_restorePageIndexFromDisk : Follows idle restorePageIndexFromDisk := by
  have hend : ∀ ρ : RowMap, Follows idle (do
      modify fun t => { t with rowLocations := ρ, rowSpace := .empty }
      modify rebuildRuntimeState) := by
    refine fun ρ => Follows.bind ?_ fun _ => Follows.modify fun t ht => idle_rebuild ht
    exact Follows.modify fun t ht h => ⟨rfl, h.2⟩
  refine follows_read.bind fun pageIds => (Follows.modify fun t _ => id).bind fun _ => ?_
  split_ifs
  · exact Follows.modify fun t ht => idle_rebuild ht
  · refine follows_read.bind fun stored => ?_
    dsimp only
    split_ifs
    · refine Follows.bind (Follows.foldlM fun locations p _ => Follows.bind ?_ fun page => Follows.pure) hend
      refine follows_read.bind fun found => ?_
      cases found with
      | none => exact follows_throw
      | some page => exact Follows.pure
    · exact hend _

theorem Opened.idle {t : Table} (h : t.Opened) : t.rowSpace = .empty ∧ t.memoryUsed = 0 := by
  cases h with
  | start => exact ⟨rfl, rfl⟩
  | bound t =>
    have hbind : Follows Table.idle bindPageStore :=
      (((follows_restorePageIndexFromDisk.bind fun _ => Follows.pure).handling
        (fun e => by cases e <;> first | exact Follows.pure | exact Follows.fail)
        fun e he => he.elim) : Follows Table.idle (logged restorePageIndexFromDisk)).bind fun _ => Follows.pure
    rcases hbind none t.reopened ⟨rfl, rfl⟩ with ⟨e, -, hfalse⟩ | ⟨-, hrel⟩
    · exact hfalse.elim
    · exact hrel ⟨rfl, rfl⟩

end Table

namespace PageOp

open Table

/-- **The memory counter is exact** in every state reached by calls that keep the sizes of the pages
    in memory, and no page has been taken off it that was not counted. -/
theorem memory_accounted {t : Table} (hopened : t.Opened) (ops : List PageOp)
    (hops : Runs.Each step (fun t op => t.rowSpace.bytes < 2 ^ 64 ∧ op.Returns t ∧ op.KeepsSizes t) t ops)
    (hsmall : (Runs.exec step t ops).rowSpace.bytes < 2 ^ 64) :
    (Runs.exec step t ops).memoryUsed = (Runs.exec step t ops).rowSpace.bytes ∧
      ∃ l, Path Page.memoryBytes .empty l ∧ (Runs.exec step t ops).Books l := by
  have hinvariant := Runs.Each.invariant hops (I := fun t => t.rowSpace.bytes < 2 ^ 64 →
      ∃ l, Path Page.memoryBytes .empty l ∧ t.Books l ∧ l.Exact Page.memoryBytes)
    (fun _ => ⟨.empty, .refl, ⟨by rw [hopened.idle.1]; rfl, hopened.idle.2⟩, exact_empty⟩)
    fun t op hI ⟨hbytes, hreturns, hkeeps⟩ hsmall => by
      obtain ⟨l, hpath, hl, hexact⟩ := hI hbytes
      obtain ⟨l', hpath', hl', hexact'⟩ := ledger_step hreturns hkeeps hl hexact hsmall
      exact ⟨l', hpath.trans hpath', hl', hexact'⟩
  obtain ⟨l, hpath, hl, hexact⟩ := hinvariant hsmall
  refine ⟨?_, l, hpath, hl⟩
  rw [hl.used, hl.exact_iff.1 hexact, Nat.mod_eq_of_lt hsmall]

/-- Transaction 1 inserts an empty row. -/
abbrev insertEmpty : PageOp := .table (.call (.insertRow ∅ ⟨1, .default⟩ fun _ => none))

/-- A table with one row, whose page is on disk. -/
abbrev rebound : Table :=
  (bindPageStore none (Runs.exec step (start 0 100 0 .empty ∅) [insertEmpty, .table .flushAllPages]).reopened).2

theorem memory_accounted_rebound :
    let ops : List PageOp := [.table (.call (.getRow 1)), .table (.rollbackTransaction ⟨5, .default⟩),
      .table (.prune 0)]
    (Runs.exec step rebound ops).memoryUsed = (Runs.exec step rebound ops).rowSpace.bytes ∧
      ∃ l, Path Page.memoryBytes .empty l ∧ (Runs.exec step rebound ops).Books l :=
  memory_accounted (.bound _) _ ⟨⟨by decide +kernel, by decide +kernel, Or.inl rfl, trivial⟩,
    ⟨by decide +kernel, by decide +kernel, Or.inl rfl, by decide +kernel⟩,
    ⟨by decide +kernel, by decide +kernel, Or.inl rfl, trivial⟩, trivial⟩ (by decide +kernel)

/-- The rows of the first page were not counted, and are taken off when it is evicted. -/
theorem counter_wraps : ¬ ∀ ops, (Runs.exec step (start 0 60 60 .empty ∅) ops).memoryUsed =
    (Runs.exec step (start 0 60 60 .empty ∅) ops).rowSpace.bytes := by
  intro h
  have hused : (Runs.exec step (start 0 60 60 .empty ∅) [insertEmpty, insertEmpty, insertEmpty]).memoryUsed =
      2 ^ 64 - 66 := by decide +kernel
  have hbytes : (Runs.exec step (start 0 60 60 .empty ∅)
      [insertEmpty, insertEmpty, insertEmpty]).rowSpace.bytes = 0 := by decide +kernel
  rw [h, hbytes] at hused
  cases hused

end PageOp

end AntDb
