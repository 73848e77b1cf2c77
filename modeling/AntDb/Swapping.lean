/-
  Frames that moving pages in and out of memory stays within, and the runs they are used for:
  the calls of a table with single loads and evictions between them.
-/
import AntDb.Histories

namespace AntDb

namespace Table

open Call TableM

variable {t t' : Table} {ρ : RowMap} {p : PageID} {page : Page} {held pinned : Option PageID}
  {F : Frame (Option PageID) Table Fault} {oldest : TransactionID}

/-- Reading the table, when there is an error. -/
theorem read_fails {α : Type} {f : Table → Except DataBaseErrors α} {e : DataBaseErrors}
    (h : f t = .error e) : TableM.read f held t = (.error (.err e), t) := by
  unfold TableM.read
  rw [get_bind, h]; rfl

/-- A frame that dropping a page, with or without writing it, and reading one in stay within; it
    leaves out calls that wait for a lock. -/
structure Swaps (F : Frame (Option PageID) Table Fault) : Prop where
  limit : ∀ {t t'}, F.rel t t' → t'.memoryLimit = t.memoryLimit
  touched : ∀ p t, F.inv t → F.rel t (t.touchPage p)
  entered : ∀ p page t, F.inv t → t.rowSpace.get? p = none → t.pageStore.pages.get? p = some page →
    F.rel t ((t.entered page).arrived p)
  released : ∀ p page t, F.inv t → t.memoryLimit ≠ 0 → t.rowSpace.get? p = some page →
    F.rel t ((t.dropped p).released page)
  written : ∀ p page t, F.inv t → t.memoryLimit ≠ 0 → t.rowSpace.get? p = some page →
    F.rel t (((t.dropped p).written page).released page)
  /-- the write fails, and the page is gone -/
  lost : ∀ p page t, F.inv t → t.memoryLimit ≠ 0 → t.rowSpace.get? p = some page →
    t.pageStore.writeFault ≠ none → F.rel t (t.dropped p)
  exempt : ∀ e, F.exempt e ↔ e = .blocked

namespace Swaps

/-- The frame on the tables with a memory limit. -/
def limited (F : Frame (Option PageID) Table Fault) (h : Swaps F) : Frame (Option PageID) Table Fault :=
  { F with
    inv := fun t => F.inv t ∧ t.memoryLimit ≠ 0
    keep := fun hs hrel => ⟨F.keep hs.1 hrel, h.limit hrel ▸ hs.2⟩ }

variable (h : Swaps F)
include h

theorem follows_evictPage : Follows (h.limited F) (evictPage p) := by
  rintro held t ⟨ht, hlimit⟩
  show (∃ e, (evictPage p held t).1 = _ ∧ F.exempt e) ∨ True ∧ F.rel t (evictPage p held t).2
  rw [evictPage_run]
  cases hp : t.rowSpace.get? p with
  | none => exact Or.inr ⟨trivial, F.refl t⟩
  | some page =>
    dsimp only
    rw [flushAndEvictPage_run]
    split_ifs with hheld hwrite
    · exact Or.inl ⟨.blocked, rfl, (h.exempt _).2 rfl⟩
    · cases hw : (t.dropped p).pageStore.writeFault with
      | some message =>
        exact Or.inr ⟨trivial, h.lost p page t ht hlimit hp fun hnone => by
          rw [show (t.dropped p).pageStore.writeFault = none from hnone] at hw; cases hw⟩
      | none => exact Or.inr ⟨trivial, h.written p page t ht hlimit hp⟩
    · exact Or.inr ⟨trivial, h.released p page t ht hlimit hp⟩

theorem follows_evictDownTo (limit : ℕ) (pinned : Option PageID) (rounds : ℕ) :
    Follows (h.limited F) (evictDownTo limit pinned rounds) := by
  induction rounds with
  | zero => exact Follows.pure
  | succ rounds ih =>
    refine Follows.get fun t _ => ?_
    split_ifs
    · exact Follows.pure
    · cases t.pickLruVictim pinned with
      | none => exact Follows.pure
      | some victim => exact h.follows_evictPage.bind fun _ => ih

theorem follows_maybeEvictPages (pinned : Option PageID) : Follows F (maybeEvictPages pinned) := by
  intro held t ht
  unfold maybeEvictPages
  rw [get_bind]
  split_ifs with hlimit
  · exact Or.inr ⟨trivial, F.refl t⟩
  · exact h.follows_evictDownTo t.memoryLimit pinned _ held t ⟨ht, hlimit⟩

theorem follows_ensurePageResident (p : PageID) : Follows F (ensurePageResident p) := by
  intro held t ht
  show (∃ e, (ensurePageResident p held t).1 = _ ∧ F.exempt e) ∨
    True ∧ F.rel t (ensurePageResident p held t).2
  rw [ensurePageResident_run]
  cases hp : t.rowSpace.get? p with
  | some page => exact Or.inr ⟨trivial, h.touched p t ht⟩
  | none =>
    dsimp only
    cases hread : t.pageStore.readPage p with
    | error e => exact Or.inr ⟨trivial, F.refl t⟩
    | ok found =>
      cases found with
      | none => exact Or.inr ⟨trivial, F.refl t⟩
      | some page =>
        have hentered := h.entered p page t ht hp (record_of_readPage hread)
        have hevict := (h.follows_maybeEvictPages (some p)).bind
          (fun _ => (Follows.pure : Follows F (pure page : TableM Page))) held _ (F.keep ht hentered)
        exact hevict.imp_right fun hevict => ⟨trivial, F.trans hentered hevict.2⟩

/-- Calls that read stay within the frame. -/
theorem loads (hρ : ∀ t, F.inv t → t.rowLocations = ρ) : Loads F ρ where
  locations := hρ
  ensure p _ := h.follows_ensurePageResident p
  exempt e := (h.exempt e).1

/-- A call that comes back has moved the table along the frame. -/
theorem rel_of_returns {α : Type} {x : TableM α} (hx : Follows F x) (ht : F.inv t)
    (hreturns : (x held t).1 ≠ .error .blocked) : F.rel t (x held t).2 := by
  rcases hx held t ht with ⟨e, he, hex⟩ | ⟨-, hrel⟩
  · exact absurd ((h.exempt e).1 hex ▸ he) hreturns
  · exact hrel

/-- What follows a call that comes back starts from where it has moved the table. -/
theorem rel_bind {α β : Type} {x : TableM α} {f : α → TableM β} (hx : Follows F x) (ht : F.inv t)
    (hreturns : ((x >>= f) held t).1 ≠ .error .blocked)
    (hf : ∀ a t', x held t = (.ok a, t') → F.inv t' → (f a held t').1 ≠ .error .blocked →
      F.rel t' (f a held t').2) : F.rel t ((x >>= f) held t).2 := by
  have hrel : (x held t).1 ≠ .error .blocked → F.rel t (x held t).2 := h.rel_of_returns hx ht
  rw [bind_run] at hreturns ⊢
  generalize hrun : x held t = r at hrel hreturns ⊢
  obtain ⟨e | a, t'⟩ := r
  · exact hrel fun he => hreturns (by rw [Except.error.inj he])
  · have hrel : F.rel t t' := hrel nofun
    exact F.trans hrel (hf a t' hrun (F.keep ht hrel) hreturns)

end Swaps

/-! ## Writing to the page file -/

theorem follows_persistDirtyPages_of_persisted
    (hpersisted : ∀ t page, F.inv t → t.rowSpace.get? page.pageId = some page → F.rel t (t.persisted page))
    (honDisk : ∀ t s, F.inv t → F.rel t { t with onDiskPages := s }) : Follows F persistDirtyPages := by
  intro held t ht
  -- no round changes the pages in memory
  let F' : Frame (Option PageID) Table Fault :=
    { F with
      env := held
      inv := fun t' => F.inv t' ∧ t'.rowSpace = t.rowSpace
      rel := fun t' t'' => F.rel t' t'' ∧ t''.rowSpace = t'.rowSpace
      refl := fun t' => ⟨F.refl t', rfl⟩
      trans := fun h h' => ⟨F.trans h.1 h'.1, h'.2.trans h.2⟩
      keep := fun hs hrel => ⟨F.keep hs.1 hrel.1, hrel.2.trans hs.2⟩ }
  have hround : ∀ flushed, ∀ page ∈ t.rowSpace.values, Stays F' (persistPage flushed page) := by
    rintro flushed page hpage t' ⟨ht', hspace⟩
    right
    show True ∧ F.rel t' (persistPage flushed page held t').2 ∧ (persistPage flushed page held t').2.rowSpace = t'.rowSpace
    cases hw : t'.pageStore.writeFault with
    | some message =>
      have hmerge : t'.pageStore.mergePage page t'.rowLocations = .error (.ioError message) := by
        rw [PageStore.mergePage, PageStore.writing, hw]
      have hrun : (persistPage flushed page held t').2 = t' := by
        unfold persistPage
        split_ifs
        · rw [bind_error (read_fails hmerge)]
        · rfl
      rw [hrun]
      exact ⟨trivial, F.refl t', rfl⟩
    | none =>
      rw [persistPage_run hw]
      split_ifs
      · exact ⟨trivial, hpersisted t' page ht' (hspace ▸ PageMap.mem_values.1 hpage), rfl⟩
      · exact ⟨trivial, F.refl t', rfl⟩
  have hloop : Stays F' (t.rowSpace.values.foldlM persistPage []) := Stays.foldlM hround
  show (∃ e, ((t.rowSpace.values.foldlM persistPage [] >>= _ : TableM Unit) held t).1 = _ ∧ _) ∨ True ∧
    F.rel t ((t.rowSpace.values.foldlM persistPage [] >>= _ : TableM Unit) held t).2
  rcases hloop t ⟨ht, rfl⟩ with ⟨e, he, hex⟩ | ⟨-, hrel, -⟩
  · change (t.rowSpace.values.foldlM persistPage [] held t).1 = _ at he
    refine Or.inl ⟨e, ?_, hex⟩
    rw [bind_run]
    generalize t.rowSpace.values.foldlM persistPage [] held t = r at he
    obtain ⟨result, t'⟩ := r
    obtain rfl : result = .error e := he
    rfl
  · change F.rel t (t.rowSpace.values.foldlM persistPage [] held t).2 at hrel
    right
    rw [bind_run]
    generalize t.rowSpace.values.foldlM persistPage [] held t = r at hrel
    obtain ⟨e | flushed, t'⟩ := r
    · exact ⟨trivial, hrel⟩
    · exact ⟨trivial, F.trans hrel (honDisk t' _ (F.keep ht hrel))⟩

/-- A flush stops before it touches the table, after it has cleared the flags, or not at all. -/
theorem flushAllPages_cases (held : Option PageID) (t : Table) : (flushAllPages held t).2 = t ∨
    (flushAllPages held t).2 = { t with rowSpace := t.cleaned } ∨ (flushAllPages held t).2 = t.flushed := by
  cases hr : t.pageStore.readFault with
  | some message =>
    left
    have hlist : t.pageStore.listPageIds = .error (.ioError message) := by
      rw [PageStore.listPageIds, PageStore.reading, hr]
    unfold flushAllPages
    rw [get_bind, bind_error (read_fails hlist)]
  | none =>
    cases hw : t.pageStore.writeFault with
    | some message =>
      right; left
      have hlist : t.pageStore.listPageIds = .ok t.pageStore.pages.keys := reading_ok hr _
      have hwrite : ∀ pages ρ, t.pageStore.writeAll pages ρ = .error (.ioError message) := fun pages ρ => by
        rw [PageStore.writeAll, PageStore.writing, hw]
      unfold flushAllPages
      rw [get_bind, bind_ok (read_run hlist), bind_ok (keepRecords_run hr _ _), modify_bind, get_bind,
        bind_error (read_fails (hwrite _ _))]
      rfl
    | none =>
      right; right
      rw [flushAllPages_run hr hw]

/-! ## Writes that change no row -/

section Refused

variable {data : RowData} {txn : Transaction} {others : ForeignTables} {rowId : RowID}

/-- The checks of an insert turn the row down. -/
def RefusesInsert (t : Table) (data : RowData) (txn : Transaction) (others : ForeignTables) : Prop :=
  (validateRowData data txn none (foreignKeyValueExists others txn) none t).1 ≠ .ok ()

/-- The checks of an update turn the row down, if there is one. -/
def RefusesUpdate (t : Table) (rowId : RowID) (data : RowData) (txn : Transaction)
    (others : ForeignTables) : Prop :=
  ∀ page t' row, pageForRow rowId none t = (.ok page, t') → page.rows[rowId]? = some row →
    (validateRowData (effectiveData row data txn) txn (some rowId) (foreignKeyValueExists others txn)
      (some page.pageId) t').1 ≠ .ok ()

/-- The version a delete marks, if there is one, has a mark. -/
def OnlyRemarks (t : Table) (rowId : RowID) (txn : Transaction) : Prop :=
  ∀ page t' row, pageForRow rowId none t = (.ok page, t') → page.rows[rowId]? = some row →
    ∀ v, row.getVersionedRow txn = some v → v.deletedBy ≠ none

/-- The page a row is looked up on is in memory. -/
theorem resident_of_pageForRow {t₁ : Table} (hrun : pageForRow rowId held t = (.ok page, t₁)) :
    t₁.rowSpace.get? page.pageId = some page := by
  unfold pageForRow at hrun
  rw [get_bind] at hrun
  cases hr : t.rowLocations[rowId]? with
  | none => rw [hr] at hrun; cases hrun
  | some p =>
    rw [hr] at hrun
    have hrun : ensurePageResident p held t = (.ok page, t₁) := hrun
    have hget := ensurePageResident_get (congrArg Prod.fst hrun)
    rw [hrun] at hget
    rwa [PageMap.pageId_of_get hget]

namespace Swaps

variable (h : Swaps F) (hρ : ∀ t, F.inv t → t.rowLocations = ρ) (ht : F.inv t)
include h hρ ht

theorem rel_insertRow (hrefused : t.RefusesInsert data txn others)
    (hreturns : (insertRow data txn others none t).1 ≠ .error .blocked) :
    F.rel t (insertRow data txn others none t).2 := by
  unfold insertRow at hreturns ⊢
  refine h.rel_bind (follows_validateRowData (h.loads hρ)) ht hreturns fun a t' hrun _ _ => ?_
  exact absurd (congrArg Prod.fst hrun) hrefused

theorem rel_updateRow (hrefused : t.RefusesUpdate rowId data txn others)
    (hreturns : (updateRow rowId data txn others none t).1 ≠ .error .blocked) :
    F.rel t (updateRow rowId data txn others none t).2 := by
  unfold updateRow at hreturns ⊢
  refine h.rel_bind (follows_pageForRow (h.loads hρ)) ht hreturns fun page t₁ hrun ht₁ hreturns => ?_
  refine h.rel_bind follows_lockPage ht₁ hreturns fun a t₂ hlock ht₂ hreturns => ?_
  obtain rfl : t₁ = t₂ := congrArg Prod.snd hlock
  cases hrow : page.rows[rowId]? with
  | none => exact F.refl t₁
  | some row =>
    rw [hrow] at hreturns
    refine h.rel_bind (follows_validateRowData (h.loads hρ)).within ht₂ hreturns
      fun a t₃ hchecked _ _ => ?_
    exact absurd (congrArg Prod.fst hchecked) (hrefused page t₁ row hrun hrow)

/-- A delete within the frame, if what it writes stays within it. -/
theorem rel_deleteRow (hremarks : t.OnlyRemarks rowId txn)
    (hwrite : ∀ t' page row, F.inv t' → t'.rowSpace.get? page.pageId = some page →
      page.rows[rowId]? = some row → (∀ v, row.getVersionedRow txn = some v → v.deletedBy ≠ none) →
      F.rel t' (t'.rewritten page.pageId (fun page =>
        { page with rows := page.rows.modify rowId (·.remove txn), isDirty := true }) fun _ => rfl))
    (hreturns : (deleteRow rowId txn none t).1 ≠ .error .blocked) :
    F.rel t (deleteRow rowId txn none t).2 := by
  unfold deleteRow at hreturns ⊢
  refine h.rel_bind (follows_pageForRow (h.loads hρ)) ht hreturns fun page t₁ hrun ht₁ hreturns => ?_
  refine h.rel_bind follows_lockPage ht₁ hreturns fun a t₂ hlock ht₂ _ => ?_
  obtain rfl : t₁ = t₂ := congrArg Prod.snd hlock
  split_ifs with hmem
  · obtain ⟨row, hrow⟩ := BTreeMap.mem_iff_get.1 hmem
    exact hwrite t₁ page row ht₁ (resident_of_pageForRow hrun) hrow (hremarks page t₁ row hrun hrow)
  · exact F.refl t₁

end Swaps

end Refused

/-! ## The vacuum -/

section Calm

variable {α β : Type} {x : TableM α} {f : α → TableM β}

/-- The call does not panic. -/
def Calm (x : TableM α) : Prop := ∀ held t message, (x held t).1 ≠ .error (.panic message)

theorem Calm.bind (hx : Calm x) (hf : ∀ a, Calm (f a)) : Calm (x >>= f) := by
  intro held t message
  rw [bind_run]
  have hx := hx held t message
  generalize x held t = r at hx ⊢
  obtain ⟨e | a, t'⟩ := r
  · exact fun he => hx (by rw [Except.error.inj he])
  · exact hf a held t' message

theorem Calm.get {f : Table → TableM β} (hf : ∀ t, Calm (f t)) : Calm (Call.get >>= f) := fun held t =>
  hf t held t

theorem calm_pure {a : α} : Calm (pure a : TableM α) := fun _ _ _ => nofun

theorem calm_evictPage : Calm (evictPage p) := by
  intro held t message
  rw [evictPage_run]
  cases t.rowSpace.get? p with
  | none => nofun
  | some page =>
    dsimp only
    rw [flushAndEvictPage_run]
    split_ifs
    · nofun
    · cases (t.dropped p).pageStore.writeFault <;> nofun
    · nofun

theorem calm_maybeEvictPages {pinned : Option PageID} : Calm (maybeEvictPages pinned) := by
  have hloop : ∀ limit rounds, Calm (evictDownTo limit pinned rounds) := by
    intro limit rounds
    induction rounds with
    | zero => exact calm_pure
    | succ rounds ih =>
      refine Calm.get fun t => ?_
      split_ifs
      · exact calm_pure
      · cases t.pickLruVictim pinned with
        | none => exact calm_pure
        | some victim => exact calm_evictPage.bind fun _ => ih
  refine Calm.get fun t => ?_
  split_ifs
  · exact calm_pure
  · exact hloop _ _

theorem calm_ensurePageResident : Calm (ensurePageResident p) := by
  intro held t message
  rw [ensurePageResident_run]
  cases t.rowSpace.get? p with
  | some page => nofun
  | none =>
    dsimp only
    cases t.pageStore.readPage p with
    | error e => nofun
    | ok found =>
      cases found with
      | none => nofun
      | some page => exact calm_maybeEvictPages.bind (fun _ => calm_pure) held _ message

theorem calm_withRow {rowId : RowID} : Calm (withRow rowId) := by
  have hpage : Calm (pageForRow rowId) := by
    refine Calm.get fun t => ?_
    cases t.rowLocations[rowId]? with
    | none => exact fun _ _ _ => nofun
    | some p => exact calm_ensurePageResident
  refine hpage.bind fun page => Calm.bind (fun held t message => ?_) fun _ => calm_pure
  unfold lockPage
  split_ifs <;> nofun

end Calm

theorem Swaps.follows_materializeAllPages (h : Swaps F) : Follows F materializeAllPages :=
  Follows.get fun _ _ => Follows.forM fun p _ => (h.follows_ensurePageResident p).bind fun _ => Follows.pure

theorem Swaps.follows_logged (h : Swaps F) {x : TableM Unit} (hx : Follows F x) : Follows F (logged x) :=
  (hx.bind fun _ => Follows.pure).handling (fun e => by cases e <;> first | exact Follows.pure | exact Follows.fail)
    fun e he env t => by rw [(h.exempt e).1 he]; rfl

/-- Asking whether a row is alive has an answer. -/
theorem succeeds_rowIsAlive (ht : ∀ t, F.inv t → t.rowLocations = ρ) (h : Swaps F) (rowId : RowID) :
    Succeeds (F.within none) (rowIsAliveForPrune rowId oldest) := by
  have hrow : Framed (F.within none) (withRow rowId >>= fun row =>
      (pure ((row.map fun row => row.versions.any (·.transactionHeader.survives oldest)).getD false) : TableM Bool))
      fun r => ∀ message, r ≠ .error (.panic message) := by
    intro t hinv
    rcases ((follows_withRow (h.loads ht)).bind fun row => Follows.pure) none t hinv with hex | ⟨-, hrel⟩
    · exact Or.inl hex
    · exact Or.inr ⟨fun message => calm_withRow.bind (fun _ => calm_pure) none t message, hrel⟩
  refine Framed.handling hrow (fun a _ => ⟨a, rfl⟩) (fun e he t => ?_) fun e he => ?_
  · rw [(h.exempt e).1 he]; rfl
  · cases e with
    | err e => exact Succeeds.pure
    | blocked => exact fun t _ => Or.inl ⟨.blocked, rfl, (h.exempt _).2 rfl⟩
    | panic message => exact absurd rfl (he message)

/-- Pruning a column succeeds if the rows can be asked for. -/
theorem succeeds_columnPrune {isAlive : RowID → TableM Bool} (h : ∀ r, Succeeds F (isAlive r)) (column : Column) :
    Succeeds F (column.prune oldest isAlive) := by
  have hdead : ∀ index : HashIndex, Succeeds F (index.toList.foldlM (fun dead x =>
      x.2.toList.foldlM (fun dead rowId => do
        if ← isAlive rowId then pure dead else pure (IndexEntry.mk x.1 rowId :: dead)) dead) []) := by
    intro index
    refine Succeeds.foldlM fun dead x _ => Succeeds.foldlM fun dead r _ => (h r).bind fun alive => ?_
    cases alive <;> exact Succeeds.pure
  have hversion : ∀ v : InternalColumn, Succeeds F (v.prune isAlive) := by
    intro v
    unfold InternalColumn.prune
    cases v.index with
    | none => exact Succeeds.pure
    | some index => exact (hdead index).bind fun dead => Succeeds.pure
  unfold Column.prune
  exact (Succeeds.foldlM fun versions v _ => (hversion v).bind fun v => Succeeds.pure).bind fun versions =>
    Succeeds.pure

/-- Dropping versions: the pages in memory first, then the columns, which may load pages. -/
theorem pruneVersions_rel (h : Swaps F) (hρ : ∀ t, F.inv t → t.rowLocations = ρ)
    (hcolumns : ∀ t columns, F.inv t → F.rel t { t with columns := columns })
    (ht : F.inv (t.rowsPruned oldest)) (hreturns : (pruneVersions oldest none t).1 ≠ .error .blocked) :
    (pruneVersions oldest none t).1 = .ok () ∧ F.rel (t.rowsPruned oldest) (pruneVersions oldest none t).2 := by
  have hloop : Succeeds (F.within none) (t.columns.toList.forM fun x => (do
      let column ← x.2.prune oldest (rowIsAliveForPrune · oldest)
      modify fun t => { t with columns := t.columns.insert x.1 column } : TableM Unit)) :=
    Succeeds.forM fun x _ => (succeeds_columnPrune (succeeds_rowIsAlive hρ h) x.2).bind fun column =>
      Succeeds.modify fun t ht => hcolumns t _ ht
  have hrun : pruneVersions oldest none t = (t.columns.toList.forM fun x => (do
      let column ← x.2.prune oldest (rowIsAliveForPrune · oldest)
      modify fun t => { t with columns := t.columns.insert x.1 column } : TableM Unit)) none
        (t.rowsPruned oldest) := rfl
  rw [hrun] at hreturns ⊢
  rcases hloop (t.rowsPruned oldest) ht with ⟨e, he, hex⟩ | ⟨⟨a, ha⟩, hrel⟩
  · exact absurd (he.trans (by rw [(h.exempt e).1 hex])) hreturns
  · exact ⟨ha, hrel⟩

theorem logged_eq {x : TableM Unit} : logged x held t =
    match x held t with
    | (.ok _, t') => (.ok true, t')
    | (.error (.err _), t') => (.ok false, t')
    | (.error e, t') => (.error e, t') := by
  show Call.handling _ _ held t = _
  unfold Call.handling
  rw [bind_run]
  rcases x held t with ⟨e | a, t'⟩
  · cases e <;> rfl
  · rfl

/-- A vacuum loads the pages with rows; then it stops, or it prunes, compacts and flushes them. -/
theorem prune_cases (hreturns : (prune oldest none t).1 ≠ .error .blocked) :
    ∃ r t₁, materializeAllPages none t = (r, t₁) ∧ r ≠ .error .blocked ∧
      ((prune oldest none t).2 = t₁ ∨ r = .ok () ∧ ∃ r₂ t₂, pruneVersions oldest none t₁ = (r₂, t₂) ∧
        r₂ ≠ .error .blocked ∧
        (r₂ = .ok () → (prune oldest none t).2 = (flushAllPages none t₂.compact).2)) := by
  unfold prune at hreturns ⊢
  rw [bind_run, logged_eq] at hreturns ⊢
  generalize materializeAllPages none t = outcome at hreturns ⊢
  obtain ⟨r, t₁⟩ := outcome
  refine ⟨r, t₁, rfl, ?_, ?_⟩
  · rintro rfl
    exact hreturns rfl
  · cases r with
    | error e => exact Or.inl (by cases e <;> rfl)
    | ok a =>
      refine Or.inr ⟨rfl, ?_⟩
      change ((pruneVersions oldest >>= fun _ => _ : TableM Unit) none t₁).1 ≠ _ at hreturns
      show ∃ r₂ t₂, _ ∧ _ ∧ (_ → ((pruneVersions oldest >>= fun _ => _ : TableM Unit) none t₁).2 = _)
      rw [bind_run] at hreturns ⊢
      generalize pruneVersions oldest none t₁ = outcome at hreturns ⊢
      obtain ⟨r₂, t₂⟩ := outcome
      refine ⟨r₂, t₂, rfl, ?_, ?_⟩
      · rintro rfl
        exact hreturns rfl
      · rintro rfl
        dsimp only
        rw [modify_bind, bind_run, logged_eq]
        rcases flushAllPages none t₂.compact with ⟨e | b, t'⟩
        · cases e <;> rfl
        · rfl

end Table

/-! ## Runs with loads and evictions -/

/-- The calls of a table, and loads and evictions of single pages. -/
inductive PageOp where
  | table (op : TableOp)
  | ensurePageResident (pageId : PageID)
  | maybeEvictPages (pinned : Option PageID)

namespace PageOp

open Call TableM Table

def run : PageOp → TableM Unit
  | table op => op.run
  | ensurePageResident pageId => do let _ ← Table.ensurePageResident pageId
  | maybeEvictPages pinned => Table.maybeEvictPages pinned

def step (t : Table) (op : PageOp) : Table := (op.run none t).2

/-- The call comes back: it does not wait for a page lock it holds itself. -/
def Returns (t : Table) (op : PageOp) : Prop := (op.run none t).1 ≠ .error .blocked

instance (t : Table) (op : PageOp) : Decidable (Returns t op) := inferInstanceAs (Decidable (_ ≠ _))

/-- The call opens no page, and writes no row of one. -/
def Quiet : PageOp → Prop
  | table (.call (.getRow _)) | table (.call (.search ..)) | table (.createColumn ..)
  | table (.addColumnConstraints ..) | table .persistDirtyPages | table .flushAllPages
  | ensurePageResident _ | maybeEvictPages _ => True
  | _ => False

section Quiet

variable {F : Frame (Option PageID) Table Fault} {ρ : RowMap} {op : PageOp}

/-- A quiet call stays within a frame that loads, evictions and writes to the page file stay
    within. -/
theorem follows_quiet (h : Swaps F) (hρ : ∀ t, F.inv t → t.rowLocations = ρ)
    (hcolumns : ∀ t columns n, F.inv t → F.rel t { t with columns := columns, nextColumnId := n })
    (hpersisted : ∀ t page, F.inv t → t.rowSpace.get? page.pageId = some page → F.rel t (t.persisted page))
    (honDisk : ∀ t s, F.inv t → F.rel t { t with onDiskPages := s })
    (hcleaned : ∀ t, F.inv t → F.rel t { t with rowSpace := t.cleaned })
    (hflushed : ∀ t, F.inv t → F.rel t t.flushed) (hop : op.Quiet) : Follows F op.run := by
  have hl := h.loads hρ
  cases op with
  | table op =>
    cases op with
    | call c =>
      cases c with
      | getRow rowId => exact ((follows_getRow hl).bind fun _ => Follows.pure).bind fun _ => Follows.pure
      | search request txn accessPath =>
        exact ((follows_search hl).bind fun _ => Follows.pure).bind fun _ => Follows.pure
      | _ => exact hop.elim
    | createColumn => exact (follows_createColumn hl hcolumns).bind fun _ => Follows.pure
    | addColumnConstraints => exact follows_addColumnConstraints hl hcolumns
    | persistDirtyPages => exact follows_persistDirtyPages_of_persisted hpersisted honDisk
    | flushAllPages =>
      intro held t ht
      right
      show True ∧ F.rel t (Table.flushAllPages held t).2
      rcases flushAllPages_cases held t with he | he | he <;> rw [he]
      · exact ⟨trivial, F.refl t⟩
      · exact ⟨trivial, hcleaned t ht⟩
      · exact ⟨trivial, hflushed t ht⟩
    | _ => exact hop.elim
  | ensurePageResident pageId =>
    exact (h.follows_ensurePageResident pageId).bind fun _ => Follows.pure
  | maybeEvictPages pinned => exact h.follows_maybeEvictPages pinned

end Quiet

end PageOp

end AntDb
