/-
  Flushes that fail.

  A flush clears the dirty flag of each resident page, then serializes it, and replaces the
  page file last: until the new file is renamed the old one stays.  `FlushFaults` says which
  of these steps fail.
-/
import AntDb.Reopening
import AntDb.Retaining

namespace AntDb

open Call TableM

/-- The errors of the steps of a flush. -/
structure FlushFaults where
  /-- of listing the pages of the page file -/
  list : Option DataBaseErrors
  /-- of reading the record of a page -/
  read : PageID → Option DataBaseErrors
  /-- of serializing a page -/
  serialize : PageID → Option String
  /-- of writing the new file, up to its renaming -/
  write : Option DataBaseErrors

/-- The file system reports its errors, and every page can be serialized. -/
def FlushFaults.ofStore (store : PageStore) : FlushFaults where
  list := store.readFault.map .ioError
  read _ := store.readFault.map .ioError
  serialize _ := none
  write := store.writeFault.map .ioError

/-- The pages of a list up to the first that cannot be serialized. -/
def FlushFaults.reached (faults : FlushFaults) : List PageID → List PageID
  | [] => []
  | p :: l => if faults.serialize p = none then p :: faults.reached l else [p]

theorem PageMap.sorted_keys (s : PageMap) : s.keys.Pairwise (· < ·) :=
  Std.ExtTreeMap.ordered_keys.imp fun h => Nat.compare_eq_lt.1 h

namespace Table

variable {t t' : Table} {p q : PageID} {page : Page} {held : Option PageID} {faults : FlushFaults}
  {l : List PageID} {kept : List Page} {e : Fault}

def failIf : Option DataBaseErrors → TableM Unit
  | some e => throw e
  | none => return

def keepRecordWith (faults : FlushFaults) (kept : List Page) (pageId : PageID) :
    TableM (List Page) := do
  failIf (faults.read pageId)
  match (← get).pageStore.pages.get? pageId with
  | some page =>
    failIf ((faults.serialize pageId).map .serializationError)
    return kept ++ [page]
  | none => return kept

def markClean (t : Table) (pageId : PageID) : Table :=
  { t with rowSpace :=
      t.rowSpace.update pageId (fun page => { page with isDirty := false }) pageId_cleaned }

def clearPage (faults : FlushFaults) (pageId : PageID) : TableM Unit := do
  modify fun t => t.markClean pageId
  failIf ((faults.serialize pageId).map .serializationError)

/-- `flush_all_pages`, with the errors it meets. -/
def flushAllPagesWith (faults : FlushFaults) : TableM Unit := do
  let t ← get
  failIf faults.list
  let kept ← (t.pageStore.pages.keys.filter fun p => p ∉ t.rowSpace.pages).foldlM
    (keepRecordWith faults) []
  t.rowSpace.keys.forM (clearPage faults)
  let pages := kept ++ (← get).rowSpace.values
  failIf faults.write
  modify fun t => { t with
    pageStore := t.pageStore.wrote none (pages.foldl PageMap.insert .empty) t.rowLocations
    onDiskPages := .ofList (pages.map (·.pageId)) compare }

/-! ## Clearing the flags -/

/-- The table after the flags of the pages `l` have been cleared. -/
def clearing (t : Table) (l : List PageID) : Table := l.foldl markClean t

theorem get_markClean : (t.markClean p).rowSpace.get? q =
    if p = q then (t.rowSpace.get? q).map fun page => { page with isDirty := false }
    else t.rowSpace.get? q :=
  @PageMap.get?_update t.rowSpace p q _ pageId_cleaned

theorem get_clearing : (t.clearing l).rowSpace.get? q =
    (t.rowSpace.get? q).map fun page => if q ∈ l then { page with isDirty := false } else page := by
  induction l generalizing t with
  | nil => simp [clearing]
  | cons p l ih =>
    show ((t.markClean p).clearing l).rowSpace.get? q = _
    rw [ih, get_markClean]
    by_cases hq : p = q
    · subst hq
      rw [if_pos rfl, Option.map_map]
      congr 1
      funext page
      by_cases hl : p ∈ l <;> simp [hl]
    · simp [hq, Ne.symm hq]

/-- Nothing but the resident pages is touched. -/
theorem clearing_eq : t.clearing l = { t with rowSpace := (t.clearing l).rowSpace } := by
  induction l generalizing t with
  | nil => rfl
  | cons p l ih => exact (@ih (t.markClean p) :)

theorem reached_all (h : ∀ p ∈ l, faults.serialize p = none) : faults.reached l = l := by
  induction l with
  | nil => rfl
  | cons p l ih =>
    rw [FlushFaults.reached, if_pos (h p (by simp)), ih fun p hp => h p (List.mem_cons_of_mem _ hp)]

theorem clearPages_run (l : List PageID) (t : Table) :
    ((∀ p ∈ l, faults.serialize p = none) ∧
        l.forM (clearPage faults) held t = (.ok (), t.clearing l)) ∨
      (¬(∀ p ∈ l, faults.serialize p = none) ∧
        ∃ e, l.forM (clearPage faults) held t = (.error e, t.clearing (faults.reached l))) := by
  induction l generalizing t with
  | nil => exact Or.inl ⟨nofun, pure_run⟩
  | cons p l ih =>
    rw [List.forall_mem_cons, FlushFaults.reached]
    show (_ ∧ (clearPage faults p >>= fun _ => l.forM (clearPage faults)) held t = _) ∨
      (_ ∧ ∃ e, (clearPage faults p >>= fun _ => l.forM (clearPage faults)) held t = _)
    cases hp : faults.serialize p with
    | some message =>
      have hrun : clearPage faults p held t =
          (.error (.err (.serializationError message)), t.clearing [p]) := by
        unfold clearPage
        rw [modify_bind, hp]; rfl
      exact Or.inr ⟨fun h => (nomatch h.1), _, bind_error hrun⟩
    | none =>
      have hrun : clearPage faults p held t = (.ok (), t.clearing [p]) := by
        unfold clearPage
        rw [modify_bind, hp]; rfl
      rw [bind_ok hrun]
      exact (ih (t.clearing [p])).imp (fun h => ⟨⟨rfl, h.1⟩, h.2⟩) fun h => ⟨fun h' => h.1 h'.2, h.2⟩

theorem mem_reached (hl : l.Pairwise (· < ·)) :
    p ∈ faults.reached l ↔ p ∈ l ∧ ∀ q ∈ l, q < p → faults.serialize q = none := by
  induction l with
  | nil => simp [FlushFaults.reached]
  | cons p' l ih =>
    obtain ⟨hhead, htail⟩ := List.pairwise_cons.1 hl
    have ih := ih htail
    rw [FlushFaults.reached]
    split_ifs with hs
    · rw [List.mem_cons, ih, List.mem_cons, List.forall_mem_cons]
      constructor
      · rintro (rfl | ⟨hp, hall⟩)
        · exact ⟨Or.inl rfl, fun h => absurd h (lt_irrefl p),
            fun q hq hlt => absurd hlt (hhead q hq).not_gt⟩
        · exact ⟨Or.inr hp, fun _ => hs, hall⟩
      · rintro ⟨hp, -, hall⟩
        exact hp.imp_right fun hp => ⟨hp, hall⟩
    · rw [List.mem_singleton, List.mem_cons, List.forall_mem_cons]
      constructor
      · rintro rfl
        exact ⟨Or.inl rfl, fun h => absurd h (lt_irrefl p),
          fun q hq hlt => absurd hlt (hhead q hq).not_gt⟩
      · rintro ⟨hp, hfirst, -⟩
        exact hp.resolve_right fun hp => hs (hfirst (hhead p hp))

/-! ## The flush with errors -/

/-- The records of pages that are not resident can be read and serialized. -/
def Keepable (t : Table) (faults : FlushFaults) : Prop :=
  ∀ p ∈ t.pageStore.pages.keys, p ∉ t.rowSpace.pages →
    faults.read p = none ∧ faults.serialize p = none

/-- The flush gets as far as clearing the flag of page `p`. -/
def Cleared (t : Table) (faults : FlushFaults) (p : PageID) : Prop :=
  faults.list = none ∧ t.Keepable faults ∧
    ∀ q ∈ t.rowSpace.keys, q < p → faults.serialize q = none

theorem keepRecordWith_run (hrecord : t.pageStore.pages.get? p = some page) :
    ((faults.read p = none ∧ faults.serialize p = none) ∧
        keepRecordWith faults kept p held t = (.ok (kept ++ [page]), t)) ∨
      (¬(faults.read p = none ∧ faults.serialize p = none) ∧
        ∃ e, keepRecordWith faults kept p held t = (.error e, t)) := by
  unfold keepRecordWith
  cases faults.read p with
  | some e => exact Or.inr ⟨nofun, _, rfl⟩
  | none =>
    rw [show ∀ f : Unit → TableM (List Page), (failIf none >>= f) held t = f () held t from
      fun _ => rfl, get_bind, hrecord]
    cases faults.serialize p with
    | some message => exact Or.inr ⟨nofun, _, rfl⟩
    | none => exact Or.inl ⟨⟨rfl, rfl⟩, rfl⟩

theorem keepRecordsWith_run (hl : ∀ p ∈ l, p ∈ t.pageStore.pages.keys) :
    ((∀ p ∈ l, faults.read p = none ∧ faults.serialize p = none) ∧
        l.foldlM (keepRecordWith faults) kept held t =
          (.ok (kept ++ l.filterMap t.pageStore.pages.get?), t)) ∨
      (¬(∀ p ∈ l, faults.read p = none ∧ faults.serialize p = none) ∧
        ∃ e, l.foldlM (keepRecordWith faults) kept held t = (.error e, t)) := by
  induction l generalizing kept with
  | nil => exact Or.inl ⟨nofun, by rw [List.filterMap_nil, List.append_nil]; rfl⟩
  | cons p l ih =>
    obtain ⟨record, hrecord⟩ := PageMap.mem_keys.1 (hl p (by simp))
    rw [List.foldlM_cons, List.filterMap_cons_some hrecord, List.forall_mem_cons]
    rcases @keepRecordWith_run t p record held faults kept hrecord with ⟨hp, hrun⟩ | ⟨hp, e, hrun⟩
    · rw [bind_ok hrun]
      exact (ih fun p hp => hl p (List.mem_cons_of_mem _ hp)).imp
        (fun h => ⟨⟨hp, h.1⟩, h.2.trans (by rw [List.append_assoc]; rfl)⟩)
        fun h => ⟨fun h' => h.1 h'.2, h.2⟩
    · exact Or.inr ⟨fun h => hp h.1, e, bind_error hrun⟩

theorem keepable_iff : t.Keepable faults ↔
    ∀ p ∈ t.pageStore.pages.keys.filter fun p => p ∉ t.rowSpace.pages,
      faults.read p = none ∧ faults.serialize p = none := by
  simp only [Keepable, List.mem_filter, decide_eq_true_eq, and_imp]

theorem pass_bind {α : Type} {f : Unit → TableM α} : (failIf none >>= f) held t = f () held t := rfl

theorem clearing_keys : t.clearing t.rowSpace.keys = { t with rowSpace := t.cleaned } := by
  rw [clearing_eq]
  congr 1
  refine PageMap.ext_get fun p => ?_
  rw [get_clearing, get_cleaned]
  cases hp : t.rowSpace.get? p with
  | none => rfl
  | some page =>
    rw [Option.map_some, if_pos (PageMap.mem_keys.2 ⟨page, hp⟩)]; rfl

/-- With the errors the file system reports it is the flush. -/
theorem flushAllPages_eq :
    flushAllPages held t = flushAllPagesWith (.ofStore t.pageStore) held t := by
  unfold flushAllPages flushAllPagesWith
  rw [get_bind, get_bind]
  cases hr : t.pageStore.readFault with
  | some message =>
    have hlist : t.pageStore.listPageIds = .error (.ioError message) := by
      rw [PageStore.listPageIds, PageStore.reading, hr]
    have hread : TableM.read (fun t => t.pageStore.listPageIds) held t =
        (.error (.err (.ioError message)), t) := by
      unfold TableM.read
      rw [get_bind]
      show TableM.ofResult t.pageStore.listPageIds held t = _
      rw [hlist]; rfl
    have hfail : failIf (FlushFaults.ofStore t.pageStore).list held t =
        (.error (.err (.ioError message)), t) := by
      rw [FlushFaults.ofStore, hr]; rfl
    rw [bind_error hread, bind_error hfail]
  | none =>
    have hlist : t.pageStore.listPageIds = .ok t.pageStore.pages.keys := reading_ok hr _
    have hpass : (FlushFaults.ofStore t.pageStore).list = none := by rw [FlushFaults.ofStore, hr]; rfl
    have hkept := @keepRecordsWith_run t held (.ofStore t.pageStore)
      (t.pageStore.pages.keys.filter fun p => p ∉ t.rowSpace.pages) []
      fun p hp => List.mem_of_mem_filter hp
    have hkept := (hkept.resolve_right fun h => h.1 fun p _ =>
      ⟨by rw [FlushFaults.ofStore, hr]; rfl, rfl⟩).2
    have hclear := @clearPages_run held (.ofStore t.pageStore) t.rowSpace.keys t
    have hclear := (hclear.resolve_right fun h => h.1 fun _ _ => rfl).2
    rw [clearing_keys] at hclear
    rw [bind_ok (read_run hlist), bind_ok (keepRecords_run hr _ _), modify_bind, get_bind, hpass,
      pass_bind, bind_ok hkept, bind_ok hclear, get_bind]
    unfold TableM.read PageStore.writeAll PageStore.writing FlushFaults.ofStore
    cases hw : t.pageStore.writeFault with
    | some message =>
      rw [bind_run, get_bind]
      simp only [hw]
      rfl
    | none =>
      rw [bind_run, get_bind]
      simp only [hw]
      rfl

/-- A flush that fails has done nothing but clear the flags of the pages it has reached. -/
theorem flushAllPagesWith_failed (h : flushAllPagesWith faults held t = (.error e, t')) :
    ∃ l, t' = t.clearing l ∧ ∀ p ∈ t.rowSpace.keys, p ∈ l ↔ t.Cleared faults p := by
  unfold flushAllPagesWith at h
  rw [get_bind] at h
  cases hlist : faults.list with
  | some error =>
    rw [hlist] at h
    exact ⟨[], (Prod.mk.inj h).2.symm, fun p _ => ⟨nofun, fun hc => nomatch hlist ▸ hc.1⟩⟩
  | none =>
    rw [hlist, pass_bind] at h
    rcases @keepRecordsWith_run t held faults (t.pageStore.pages.keys.filter fun p =>
        p ∉ t.rowSpace.pages) [] fun p hp => List.mem_of_mem_filter hp with ⟨hk, hrun⟩ | ⟨hk, _, hrun⟩
    · have hmem : ∀ p ∈ t.rowSpace.keys,
          p ∈ faults.reached t.rowSpace.keys ↔ t.Cleared faults p := by
        intro p hp
        rw [mem_reached t.rowSpace.sorted_keys, and_iff_right hp, Cleared, hlist,
          and_iff_right rfl, and_iff_right (keepable_iff.2 hk)]
      rcases @clearPages_run held faults t.rowSpace.keys t with ⟨hall, hclear⟩ | ⟨-, _, hclear⟩
      · rw [bind_ok hrun, bind_ok hclear, get_bind] at h
        rw [reached_all hall] at hmem
        cases hwrite : faults.write with
        | some error =>
          rw [hwrite] at h
          exact ⟨_, (Prod.mk.inj h).2.symm, hmem⟩
        | none =>
          rw [hwrite] at h
          cases (Prod.mk.inj h).1
      · rw [bind_ok hrun, bind_error hclear] at h
        exact ⟨_, (Prod.mk.inj h).2.symm, hmem⟩
    · rw [bind_error hrun] at h
      exact ⟨[], (Prod.mk.inj h).2.symm, fun p _ =>
        ⟨nofun, fun hc => absurd (keepable_iff.1 hc.2.1) hk⟩⟩

/-- **A failed flush** leaves every page marked that the page file does not have, and later
    evictions and reloads lose nothing, exactly when the pages it has cleared are in the page
    file as they are. -/
theorem flush_loses_nothing_iff (h : flushAllPagesWith faults held t = (.error e, t')) :
    (t'.Marked ∧ t'.Survives) ↔ ∀ p page, t.rowSpace.get? p = some page →
      t.Recorded p page ∨ p ∉ t.onDiskPages ∨ (page.isDirty ∧ ¬ t.Cleared faults p) := by
  obtain ⟨l, rfl, hl⟩ := flushAllPagesWith_failed h
  rw [survives_iff, and_self, Marked, clearing_eq]
  have hpage : ∀ p page, t.rowSpace.get? p = some page → ∀ page',
      (if p ∈ l then { page with isDirty := false } else page) = page' →
        ((t.Recorded p page' ∨ page'.isDirty ∨ p ∉ t.onDiskPages) ↔
          t.Recorded p page ∨ p ∉ t.onDiskPages ∨ (page.isDirty ∧ ¬ t.Cleared faults p)) := by
    rintro p page hp _ rfl
    rw [← hl p (PageMap.mem_keys.2 ⟨page, hp⟩)]
    split_ifs with hmem
    · have hrec : t.Recorded p { page with isDirty := false } ↔ t.Recorded p page := Iff.rfl
      rw [hrec]
      simp [hmem]
    · simp [hmem, or_comm]
  constructor
  · intro h p page hp
    exact (hpage p page hp _ rfl).1 (h p _ (by rw [get_clearing, hp]; rfl))
  · intro h p page' hp'
    obtain ⟨page, hp, hcleared⟩ := Option.map_eq_some_iff.1 (get_clearing.symm.trans hp')
    exact (hpage p page hp page' hcleared).2 (h p page hp)

end Table

namespace TableOp

open Table

/-- A row inserted, flushed, and followed by another one in the same page. -/
abbrev insertFlushInsert : List TableOp := [insertEmpty, .flushAllPages, insertEmpty]

/-- No space is left for the new file. -/
def diskFull : FlushFaults where
  list := none
  read _ := none
  serialize _ := none
  write := some (.ioError "No space left on device (os error 28)")

theorem flush_loses_nothing_diskFull :
    let t := Runs.exec step (start 0 100 0 .empty ∅) insertFlushInsert
    let t' := (flushAllPagesWith diskFull none t).2
    (t'.Marked ∧ t'.Survives) ↔ ∀ p page, t.rowSpace.get? p = some page →
      t.Recorded p page ∨ p ∉ t.onDiskPages ∨ (page.isDirty ∧ ¬ t.Cleared diskFull p) := by
  intro t t'
  have hfails : flushAllPagesWith diskFull none t =
      (.error (.err (.ioError "No space left on device (os error 28)")), t') := by
    decide +kernel
  exact flush_loses_nothing_iff hfails

/-- The second row is gone after the page has been evicted and read in again. -/
theorem flush_loses_row :
    let t := Runs.exec step (start 0 100 0 .empty ∅) insertFlushInsert
    let t' := (flushAllPagesWith diskFull none t).2
    (flushAllPagesWith diskFull none t).1 =
        .error (.err (.ioError "No space left on device (os error 28)")) ∧
      ¬ t'.Marked ∧ ¬ t'.Survives := by
  intro t t'
  have hrows : (t'.rowSpace.get? 0).map (·.rows.keys) = some [1, 2] ∧
      ((reload 0 none t'.recovered).1.toOption).map (·.rows.keys) = some [1] := by decide +kernel
  have hlost : ¬ t'.Survives := by
    intro h
    obtain ⟨page, hpage, hkeys⟩ := Option.map_eq_some_iff.1 hrows.1
    obtain ⟨page', hback, hsame⟩ := h [] 0 page hpage
    have hkeys' := hrows.2
    rw [show (reload 0 none t'.recovered).1 = .ok page' from hback] at hkeys'
    change some page'.rows.keys = some [1] at hkeys'
    rw [← congrArg Page.rows hsame, hkeys] at hkeys'
    cases hkeys'
  exact ⟨by decide +kernel, fun h => hlost (survives_iff.2 h), hlost⟩

end TableOp

end AntDb
