/-
  What a table is after its page file has been bound again.

  The row map stored in the page file is taken as it is; if it is empty, the rows of every
  page the file lists are taken instead.
-/
import AntDb.Histories

namespace AntDb

namespace Table

open Call TableM

variable {t t' : Table} {ρ : RowMap} {p : PageID} {page : Page} {r : RowID} {row : Row}
  {held : Option PageID}

/-! ## Binding -/

/-- The rows of the listed pages, each under the last page that holds it. -/
def scannedRows (pages : PageMap) : List PageID → RowMap → RowMap
  | [], ρ => ρ
  | p :: l, ρ => scannedRows pages l
      (((pages.get? p).map fun page => page.rows.keys).getD []|>.foldl (·.insert · p) ρ)

/-- The row map that binding the page file gives. -/
def boundLocations (t : Table) : RowMap :=
  if t.pageStore.pages.keys = [] then t.rowLocations
  else if t.pageStore.rowLocations.isEmpty then
    scannedRows t.pageStore.pages t.pageStore.pages.keys t.pageStore.rowLocations
  else t.pageStore.rowLocations

/-- One round of the scan. -/
def scanPage (locations : RowMap) (p : PageID) : TableM RowMap := do
  let page ← loadPageFromDisk p
  return page.rows.keys.foldl (fun locations rowId => locations.insert rowId p) locations

theorem scanPages_run (hr : t.pageStore.readFault = none) (l : List PageID)
    (hl : ∀ p ∈ l, ∃ page, t.pageStore.pages.get? p = some page) (locations : RowMap) :
    l.foldlM scanPage locations held t = (.ok (scannedRows t.pageStore.pages l locations), t) := by
  induction l generalizing locations with
  | nil => rfl
  | cons p l ih =>
    obtain ⟨page, hpage⟩ := hl p (by simp)
    have hread : t.pageStore.readPage p = .ok (some page) := by
      rw [PageStore.readPage, hpage]; exact reading_ok hr _
    have hscan : scanPage locations p held t = (.ok (page.rows.keys.foldl (·.insert · p) locations), t) := by
      unfold scanPage loadPageFromDisk
      rw [bind_run, bind_ok (read_run hread)]; rfl
    rw [List.foldlM_cons, bind_ok hscan, ih fun q hq => hl q (List.mem_cons_of_mem _ hq), scannedRows,
      hpage]
    rfl

/-- A table without resident pages after `bind_page_store`. -/
def bound (t : Table) : Table :=
  ({ t with
    onDiskPages := .ofList t.pageStore.pages.keys compare
    rowLocations := t.boundLocations
    rowSpace := .empty } : Table).rebuildRuntimeState

theorem restorePageIndexFromDisk_run (hr : t.pageStore.readFault = none) (hs : t.rowSpace = .empty) :
    restorePageIndexFromDisk held t = (.ok (), t.bound) := by
  have hlist : t.pageStore.listPageIds = .ok t.pageStore.pages.keys := reading_ok hr _
  have hstored : t.pageStore.readRowLocations = .ok t.pageStore.rowLocations := reading_ok hr _
  have hscan := @scanPages_run { t with onDiskPages := .ofList t.pageStore.pages.keys compare } held
    hr t.pageStore.pages.keys
    (fun p hp => PageMap.mem_keys.1 hp) t.pageStore.rowLocations
  unfold restorePageIndexFromDisk bound boundLocations
  rw [bind_ok (read_run hlist), modify_bind]
  split_ifs with hnil hempty
  · rw [← hs]; rfl
  · rw [bind_ok (read_run (t := { t with onDiskPages := .ofList t.pageStore.pages.keys compare }) hstored),
      if_pos hempty]
    exact (bind_ok hscan).trans rfl
  · rw [bind_ok (read_run (t := { t with onDiskPages := .ofList t.pageStore.pages.keys compare }) hstored),
      if_neg hempty]
    rfl

theorem bindPageStore_run (hr : t.pageStore.readFault = none) (hs : t.rowSpace = .empty) :
    bindPageStore held t = (.ok (), t.bound) := by
  unfold bindPageStore
  rw [bind_ok (logged_run (restorePageIndexFromDisk_run hr hs))]; rfl

/-- Binding leaves every page on disk. -/
theorem content_bound : t.bound.content p = t.pageStore.pages.get? p := by
  show (PageMap.empty.get? p).or (t.pageStore.pages.get? p) = _
  rw [PageMap.get?_empty, Option.none_or]

/-! ## Flushing and reopening -/

/-- The table that comes back after a flush. -/
def reloaded (t : Table) : Table := t.flushed.reopened.bound

/-- Flushing the table and binding a table with its metadata to the page file. -/
theorem reload_run (hr : t.pageStore.readFault = none) (hw : t.pageStore.writeFault = none) :
    flushAllPages none t = (.ok (), t.flushed) ∧
      bindPageStore none t.flushed.reopened = (.ok (), t.reloaded) :=
  ⟨flushAllPages_run hr hw, bindPageStore_run hr rfl⟩

/-- Pages the file lists and that are not in memory have no rows. -/
def NoOldRows (t : Table) : Prop :=
  ∀ p record, t.pageStore.pages.get? p = some record → ¬ t.Resident p → record.rows = ∅

/-- The two tables know the same rows, with the same versions. -/
def SameRowsAs (t t' : Table) : Prop :=
  (∀ r, r ∈ t'.rowLocations ↔ r ∈ t.rowLocations) ∧ ∀ r row, t'.HoldsRow r row ↔ t.HoldsRow r row

theorem mem_foldl_insert_locations {l : List RowID} {ρ : RowMap} :
    r ∈ l.foldl (·.insert · p) ρ ↔ r ∈ l ∨ r ∈ ρ := by
  induction l generalizing ρ with
  | nil => simp
  | cons r' l ih =>
    rw [List.foldl_cons, ih, Std.ExtTreeMap.mem_insert, Std.LawfulEqOrd.compare_eq_iff_eq,
      List.mem_cons, eq_comm]
    tauto

theorem mem_scannedRows {pages : PageMap} {l : List PageID} {ρ : RowMap} :
    r ∈ scannedRows pages l ρ ↔
      r ∈ ρ ∨ ∃ p ∈ l, ∃ page, pages.get? p = some page ∧ r ∈ page.rows := by
  induction l generalizing ρ with
  | nil => simp [scannedRows]
  | cons p l ih =>
    rw [scannedRows, ih, mem_foldl_insert_locations]
    cases hp : pages.get? p with
    | none => simp [hp]
    | some page => simp [hp, or_assoc, or_left_comm]

/-- A reloaded page has the rows it had. -/
theorem rows_reloaded : (t.reloaded.content p).map (·.rows) = (t.content p).map (·.rows) := by
  rw [reloaded, content_bound]
  show (t.flushed.pageStore.pages.get? p).map _ = _
  rw [flushed_record, get_cleaned, content]
  cases t.rowSpace.get? p <;> rfl

theorem holdsRow_iff_rows : t.HoldsRow r row ↔
    ∃ p, t.rowLocations[r]? = some p ∧ ∃ rows, (t.content p).map (·.rows) = some rows ∧
      rows[r]? = some row := by
  constructor
  · rintro ⟨p, page, hr, hp, hrow⟩
    exact ⟨p, hr, page.rows, by rw [hp]; rfl, hrow⟩
  · rintro ⟨p, hr, rows, hp, hrow⟩
    obtain ⟨page, hpage, rfl⟩ := Option.map_eq_some_iff.1 hp
    exact ⟨p, page, hr, hpage, hrow⟩

theorem reloaded_locations (hg : t.Good) : t.reloaded.rowLocations =
    if t.rowLocations = ∅ then
      scannedRows t.flushed.pageStore.pages t.flushed.pageStore.pages.keys ∅ else t.rowLocations := by
  show boundLocations t.flushed.reopened = _
  have hstored : t.flushed.reopened.pageStore.rowLocations = t.rowLocations := rfl
  have hlocations : t.flushed.reopened.rowLocations = ∅ := rfl
  have hpages : t.flushed.reopened.pageStore.pages = t.flushed.pageStore.pages := rfl
  rw [boundLocations, hstored, hlocations, hpages]
  simp only [Std.ExtTreeMap.isEmpty_iff]
  split_ifs with hnil hempty hempty
  · rw [hnil]; rfl
  · obtain ⟨r, p, hr⟩ := BTreeMap.exists_get_of_ne_empty hempty
    obtain ⟨page, hpage⟩ := hg.located p ⟨r, hr⟩
    have hrows := rows_reloaded (t := t) (p := p)
    rw [hpage, reloaded, content_bound] at hrows
    obtain ⟨record, hrecord, -⟩ := Option.map_eq_some_iff.1 hrows
    have hmem : p ∈ t.flushed.pageStore.pages.keys := PageMap.mem_keys.2 ⟨record, hrecord⟩
    rw [hnil] at hmem; cases hmem
  · rw [hempty]
  · rfl

/-- **Flush and reload** give the table back if and only if it has rows or the file lists no old
    page with rows. -/
theorem reload_same_iff (hg : t.Good) :
    t.SameRowsAs t.reloaded ↔ t.rowLocations ≠ ∅ ∨ t.NoOldRows := by
  by_cases hempty : t.rowLocations = ∅
  · have hnone : ∀ r, r ∉ t.rowLocations := fun r hr => by rw [hempty] at hr; simp at hr
    have hunheld : ∀ r row, ¬ t.HoldsRow r row := fun r row ⟨p, _, hr, _⟩ =>
      hnone r (BTreeMap.mem_of_get hr)
    have hreloaded := reloaded_locations hg
    rw [if_pos hempty] at hreloaded
    rw [or_iff_right (not_not.2 hempty)]
    constructor
    · intro hsame p record hrecord hres
      by_contra hne
      obtain ⟨r, row, hrow⟩ := BTreeMap.exists_get_of_ne_empty hne
      have hc : t.cleaned.get? p = none := by
        rw [get_cleaned, Option.eq_none_iff_forall_not_mem.2 fun page hpage => hres ⟨page, hpage⟩]; rfl
      have hfile : t.flushed.pageStore.pages.get? p = some record := by
        rw [flushed_record, hc, hrecord]; rfl
      refine hnone r ((hsame.1 r).1 ?_)
      rw [hreloaded, mem_scannedRows]
      exact Or.inr ⟨p, PageMap.mem_keys.2 ⟨record, hfile⟩, record, hfile, BTreeMap.mem_of_get hrow⟩
    · intro hold
      have hnone' : ∀ r, r ∉ t.reloaded.rowLocations := by
        intro r hr
        rw [hreloaded, mem_scannedRows] at hr
        obtain hr | ⟨p, -, page, hpage, hr⟩ := hr
        · simp at hr
        rw [flushed_record, get_cleaned] at hpage
        cases hp : t.rowSpace.get? p with
        | some page' =>
          rw [hp] at hpage
          obtain rfl := Option.some.inj hpage
          exact hnone r (BTreeMap.mem_of_get
            (hg.homed p (Or.inl ⟨page', hp⟩) not_false page' (Or.inl hp) r hr))
        | none =>
          rw [hp] at hpage
          rw [hold p page hpage fun ⟨page', h⟩ => by rw [hp] at h; cases h] at hr
          simp at hr
      exact ⟨fun r => iff_of_false (hnone' r) (hnone r), fun r row => iff_of_false
        (fun ⟨p, _, hr, _⟩ => hnone' r (BTreeMap.mem_of_get hr)) (hunheld r row)⟩
  · have hreloaded := reloaded_locations hg
    rw [if_neg hempty] at hreloaded
    refine iff_of_true ⟨fun r => by rw [hreloaded], fun r row => ?_⟩ (Or.inl hempty)
    simp only [holdsRow_iff_rows, hreloaded, rows_reloaded]

end Table

namespace TableOp

open Call Table

/-- Without a memory limit a run is good as long as its calls return. -/
theorem good_unlimited {t : Table} {ops : List TableOp} (hg : t.Good) (hl : t.memoryLimit = 0)
    (h : Runs.Each step Returns t ops) :
    (Runs.exec step t ops).Good ∧ (Runs.exec step t ops).memoryLimit = 0 :=
  h.invariant (I := fun t => t.Good ∧ t.memoryLimit = 0) ⟨hg, hl⟩ fun t op hI hop => by
    obtain ⟨hg', hl'⟩ := good_step hI.1 hop (safe_unlimited hI.1 hI.2)
    exact ⟨hg', hl'.trans hI.2⟩

/-- **Flush and reload after any run** without a memory limit. -/
theorem reload_same_run_iff (tableId : TableID) (pageSize : ℕ) (store : PageStore)
    (columns : BTreeMap ColumnID Column) (ops : List TableOp)
    (hr : store.readFault = none) (hw : store.writeFault = none)
    (hops : Runs.Each step Returns (start tableId pageSize 0 store columns) ops) :
    let t := Runs.exec step (start tableId pageSize 0 store columns) ops
    let t' := (bindPageStore none (Table.flushAllPages none t).2.reopened).2
    (Table.flushAllPages none t).1 = .ok () ∧
      (t.SameRowsAs t' ↔ t.rowLocations ≠ ∅ ∨ t.NoOldRows) := by
  intro t t'
  have hg : t.Good := (good_unlimited (good_start hr hw) rfl hops).1
  obtain ⟨hflush, hbind⟩ := reload_run hg.readable hg.writable
  have ht' : t' = t.reloaded := by
    show (bindPageStore none (Table.flushAllPages none t).2.reopened).2 = _
    rw [hflush, hbind]
  rw [hflush, ht']
  exact ⟨rfl, reload_same_iff hg⟩

/-- Transaction 1 inserts an empty row, which is flushed and deleted; the vacuum follows. -/
abbrev insertFlushDeletePrune : List TableOp :=
  [insertEmpty, .flushAllPages, .call (.deleteRow 1 ⟨1, .default⟩), .prune 2]

theorem reload_same_run_emptied :
    let t := Runs.exec step (start 0 25 0 .empty ∅) insertFlushDeletePrune
    let t' := (bindPageStore none (Table.flushAllPages none t).2.reopened).2
    (Table.flushAllPages none t).1 = .ok () ∧
      (t.SameRowsAs t' ↔ t.rowLocations ≠ ∅ ∨ t.NoOldRows) :=
  reload_same_run_iff 0 25 .empty ∅ insertFlushDeletePrune rfl rfl (by decide +kernel)

/-- The row the vacuum removed is back after the reload. -/
theorem reload_revives_row :
    let t := Runs.exec step (start 0 25 0 .empty ∅) insertFlushDeletePrune
    let t' := (bindPageStore none (Table.flushAllPages none t).2.reopened).2
    ¬ t.SameRowsAs t' := by
  intro t t' h
  have hback : (1 : RowID) ∈ t'.rowLocations := by decide +kernel
  have hgone : (1 : RowID) ∉ t.rowLocations := by decide +kernel
  exact hgone ((h.1 1).1 hback)

end TableOp

end AntDb
