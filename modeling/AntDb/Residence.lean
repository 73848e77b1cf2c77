/-
  Tables without a memory limit keep the pages they have in memory.

  A rollback rewrites the pages in memory only.  It does what the view says if the rows that it
  changes are on such pages, though others have not been read since the table was opened.
-/
import AntDb.Diskless
import AntDb.Reopening

namespace AntDb

/-- The page of the row is in memory, if the row has one. -/
def Table.Handy (t : Table) (r : RowID) : Prop := ∀ p, t.rowLocations[r]? = some p → t.Resident p

/-! ## Placed rows -/

namespace Layout

variable {ps size n : ℕ} {s s' : Layout} {p previous : PageID} {r : RowID}

theorem isSome_page_put {q : PageID} : ((s.put q r size).page p).isSome = (s.page p).isSome := by
  rw [page_put]
  split_ifs with hp
  · rw [Option.isSome_map, hp]
  · rfl

/-- Pages stay while a chain grows. -/
theorem isSome_page_chained (h : (s.page p).isSome = true) : ((s.chained ps n previous).page p).isSome = true := by
  induction n generalizing s previous with
  | zero => exact h
  | succ n ih =>
    refine ih ?_
    rw [page_extended]
    split_ifs with hprevious hfresh
    · rw [Option.isSome_map, ← hprevious]; exact h
    · rfl
    · exact h

theorem home_chained : (s.chained ps n previous).home = s.home := by
  induction n generalizing s previous with
  | zero => rfl
  | succ n ih => exact ih

/-- The page of a placed row is there. -/
theorem Placed.isSome_page (h : Placed ps s r size s') (hp : s'.home r = some p) : (s'.page p).isSome = true := by
  cases h with
  | tail hsize htail =>
    rw [home_put, if_pos rfl] at hp
    rw [isSome_page_put, ← Option.some.inj hp, htail]
    rfl
  | fresh hsize =>
    rw [home_put, if_pos rfl] at hp
    rw [isSome_page_put, ← Option.some.inj hp, page_opened_self]
    rfl
  | chain hsize =>
    rw [home_chained, home_put, if_pos rfl] at hp
    refine isSome_page_chained ?_
    rw [isSome_page_put, ← Option.some.inj hp, page_opened_self]
    rfl

end Layout

namespace Table

open Call TableM

variable {t t' t'' : Table} {ρ : RowMap} {p q : PageID} {page : Page} {r rowId : RowID} {row : Row} {data : RowData}
  {txn : Transaction} {others : ForeignTables} {oldest : TransactionID} {size : ℕ}

theorem resident_update {f : Page → Page} {hf : ∀ page, (f page).pageId = page.pageId} (h : t.Resident q) :
    Resident { t with rowSpace := t.rowSpace.update p f hf } q := by
  obtain ⟨page, hpage⟩ := h
  rw [Resident, PageMap.get?_update]
  split_ifs
  · exact ⟨f page, by rw [hpage]; rfl⟩
  · exact ⟨page, hpage⟩

/-- The page of a row that has just been placed is in memory. -/
theorem placeNewRow_resident (h : t.memoryLimit = 0) :
    ∃ p t', placeNewRow r row size none t = (.ok p, t') ∧ t'.Resident p := by
  obtain ⟨p, t', hrun, -, hplaced⟩ := @placeNewRow_unlimited t size r row h
  refine ⟨p, t', hrun, ?_⟩
  have hhome : (t'.rowSpace.layout (t.rowLocations.insert r p) t'.nextPageId).home r = some p := by
    show (t.rowLocations.insert r p)[r]? = some p
    rw [BTreeMap.get_insert, if_pos rfl]
  obtain ⟨o, ho⟩ := Option.isSome_iff_exists.1 (hplaced.isSome_page hhome)
  obtain ⟨page, hpage, -⟩ := Option.map_eq_some_iff.1 ho
  exact ⟨page, hpage⟩

/-! ## Calls that keep what is in memory -/

/-- The pages in memory are kept there. -/
structure Abides (t t' : Table) : Prop where
  memoryLimit : t'.memoryLimit = t.memoryLimit
  nextRowId : t'.nextRowId = t.nextRowId
  rowLocations : t'.rowLocations = t.rowLocations
  resident : ∀ p, t.Resident p → t'.Resident p

namespace Abides

theorem refl (t : Table) : t.Abides t := ⟨rfl, rfl, rfl, fun _ h => h⟩

theorem trans (h : t.Abides t') (h' : t'.Abides t'') : t.Abides t'' :=
  ⟨h'.memoryLimit.trans h.memoryLimit, h'.nextRowId.trans h.nextRowId, h'.rowLocations.trans h.rowLocations,
    fun p hp => h'.resident p (h.resident p hp)⟩

theorem handy (h : t.Abides t') (hr : t.Handy r) : t'.Handy r := fun p hp =>
  h.resident p (hr p (h.rowLocations ▸ hp))

end Abides

/-- Tables without a memory limit and with the row map `ρ`. -/
def abiding (ρ : RowMap) : Frame (Option PageID) Table Fault where
  env := none
  inv t := t.memoryLimit = 0 ∧ t.rowLocations = ρ
  rel := Abides
  exempt _ := False
  refl := Abides.refl
  trans h h' := h.trans h'
  keep ht h := ⟨h.memoryLimit.trans ht.1, h.rowLocations.trans ht.2⟩

theorem abiding_maybeEvictPages (pinned : Option PageID) : Follows (abiding ρ) (maybeEvictPages pinned) := by
  refine Follows.get fun t ht => ?_
  rw [if_pos ht.1]
  exact Follows.pure

theorem places_abiding : Places (abiding ρ) fun _ => True where
  evict := abiding_maybeEvictPages
  opened t _ := ⟨rfl, rfl, rfl, fun p ⟨page, hp⟩ => by
    rw [Resident, get_opened]
    split_ifs
    · exact ⟨_, rfl⟩
    · exact ⟨page, hp⟩⟩
  touched _ t _ := ⟨rfl, rfl, rfl, fun _ h => h⟩
  rewritten _ _ _ _ _ _ := ⟨rfl, rfl, rfl, fun _ h => resident_update h⟩
  flags _ _ _ := trivial

theorem loads_abiding : Loads (abiding ρ) ρ where
  locations _ ht := ht.2
  exempt _ h := h.elim
  ensure p _ held t ht := by
    show (∃ e, (ensurePageResident p held t).1 = _ ∧ False) ∨ True ∧ t.Abides (ensurePageResident p held t).2
    rw [ensurePageResident_run]
    cases hp : t.rowSpace.get? p with
    | some page => exact Or.inr ⟨trivial, rfl, rfl, rfl, fun _ h => h⟩
    | none =>
      dsimp only
      cases hread : t.pageStore.readPage p with
      | error e => exact Or.inr ⟨trivial, Abides.refl t⟩
      | ok found =>
        cases found with
        | none => exact Or.inr ⟨trivial, Abides.refl t⟩
        | some page =>
          have hentered : t.Abides ((t.entered page).arrived p) := ⟨rfl, rfl, rfl, fun q ⟨page', hq⟩ => by
            show ∃ page', (t.entered page).rowSpace.get? q = some page'
            rw [get_entered]
            split_ifs
            · exact ⟨_, rfl⟩
            · exact ⟨page', hq⟩⟩
          have hevict := ((abiding_maybeEvictPages (some p)).bind
            fun _ => (Follows.pure : Follows (abiding ρ) (pure page : TableM Page))) held _ ((abiding ρ).keep ht hentered)
          exact hevict.imp_right fun hevict => ⟨trivial, hentered.trans hevict.2⟩

theorem abides_columns {columns : BTreeMap ColumnID Column} {n : ColumnID} :
    t.Abides { t with columns := columns, nextColumnId := n } := ⟨rfl, rfl, rfl, fun _ h => h⟩

theorem run_abiding {α : Type} {x : TableM α} (h : Follows (abiding t.rowLocations) x) (hl : t.memoryLimit = 0) :
    t.Abides (x none t).2 := by
  rcases h none t ⟨hl, rfl⟩ with ⟨-, -, ⟨⟩⟩ | ⟨-, hrel⟩
  exact hrel

/-- A row that a call has looked up is at hand afterwards. -/
theorem handy_pageForRow {α : Type} {f : Page → TableM α} (hl : t.memoryLimit = 0)
    (hf : ∀ page, Follows (abiding t.rowLocations) (f page)) {a : α}
    (hok : ((pageForRow rowId >>= f) none t).1 = .ok a) :
    ((pageForRow rowId >>= f) none t).2.Handy rowId := by
  obtain ⟨page, t₁, hrun, hrest⟩ := bind_returned (Prod.ext hok rfl)
  have h₁ := run_abiding (@follows_pageForRow _ rowId _ loads_abiding) hl
  rw [hrun] at h₁
  have hhandy : t₁.Handy rowId := fun p hp => by
    unfold pageForRow at hrun
    rw [get_bind, ← h₁.rowLocations, hp] at hrun
    have hget := ensurePageResident_get (congrArg Prod.fst hrun)
    rw [show (ensurePageResident p none t).2 = t₁ from congrArg Prod.snd hrun] at hget
    exact ⟨page, hget⟩
  have h₂ := run_abiding (h₁.rowLocations ▸ hf page) (h₁.memoryLimit.trans hl)
  rw [hrest] at h₂
  exact h₂.handy hhandy

theorem abides_deleteRow (hl : t.memoryLimit = 0) : t.Abides (deleteRow rowId txn none t).2 :=
  run_abiding (follows_deleteRow places_abiding.toOpens loads_abiding trivial) hl

theorem handy_deleteRow (hl : t.memoryLimit = 0) (hok : (deleteRow rowId txn none t).1 = .ok ()) :
    (deleteRow rowId txn none t).2.Handy rowId := by
  refine handy_pageForRow hl (fun page => follows_lockPage.bind fun _ => ?_) hok
  split_ifs
  · exact follows_writeRow places_abiding.toOpens trivial
  · exact follows_throw

theorem abides_updateRow (hl : t.memoryLimit = 0) : t.Abides (updateRow rowId data txn others none t).2 :=
  run_abiding (follows_updateRow places_abiding.toOpens loads_abiding trivial fun _ _ _ => abides_columns) hl

theorem handy_updateRow (hl : t.memoryLimit = 0) (hok : (updateRow rowId data txn others none t).1 = .ok ()) :
    (updateRow rowId data txn others none t).2.Handy rowId := by
  refine handy_pageForRow hl (fun page => follows_lockPage.bind fun _ => ?_) hok
  cases page.rows[rowId]? with
  | none => exact follows_throw
  | some row =>
    exact (follows_validateRowData loads_abiding).within.bind fun _ =>
      (follows_writeRow places_abiding.toOpens trivial).bind fun _ => Follows.modify fun _ _ => abides_columns

/-- An insert leaves the rows at hand that were, and its own. -/
theorem handy_insertRow (hl : t.memoryLimit = 0) :
    (∀ r, t.Handy r → (insertRow data txn others none t).2.Handy r) ∧
      ∀ rowId, (insertRow data txn others none t).1 = .ok rowId → (insertRow data txn others none t).2.Handy rowId := by
  have hvalid := run_abiding (@follows_validateRowData _ txn others _ loads_abiding data none) hl
  unfold insertRow
  generalize hval : validateRowData data txn none (foreignKeyValueExists others txn) none t = outcome at hvalid
  obtain ⟨e | _, t₁⟩ := outcome
  · rw [bind_error hval]
    exact ⟨fun r hr => hvalid.handy hr, nofun⟩
  · have hvalid : t.Abides t₁ := hvalid
    have hlimit : ({ t₁ with nextRowId := t₁.nextRowId + 1 } : Table).memoryLimit = 0 := hvalid.memoryLimit.trans hl
    obtain ⟨p, t₂, hrun, hres⟩ := @placeNewRow_resident _ (t₁.nextRowId + 1) (Row.new txn data)
      (Row.new txn data).sizeBytes hlimit
    have hplaced := run_abiding (@follows_placeNewRow _ (t₁.nextRowId + 1) _ places_abiding (Row.new txn data)
      (Row.new txn data).sizeBytes trivial) hlimit
    rw [hrun] at hplaced
    rw [bind_ok hval, get_bind, modify_bind, bind_ok hrun, modify_bind, modify_bind]
    -- the new row is on the page where it was placed, and the others are where they were
    have hnew : ∀ r' p', (t₂.rowLocations.insert (t₁.nextRowId + 1) p)[r']? = some p' →
        p' = p ∨ r' ≠ t₁.nextRowId + 1 ∧ t₂.rowLocations[r']? = some p' := fun r' p' h => by
      rw [BTreeMap.get_insert] at h
      split_ifs at h with hr'
      · exact Or.inl (Option.some.inj h).symm
      · exact Or.inr ⟨Ne.symm hr', h⟩
    refine ⟨fun r hr p' hp' => ?_, fun rowId hok p' hp' => ?_⟩
    · rcases hnew r p' hp' with rfl | ⟨-, h⟩
      · exact hres
      · exact hplaced.handy (r := r) (hvalid.handy hr) p' h
    · obtain rfl : t₁.nextRowId + 1 = rowId := Except.ok.inj hok
      rcases hnew _ p' hp' with rfl | ⟨h, -⟩
      · exact hres
      · exact absurd rfl h

/-! ## Rollbacks and vacuums -/

theorem handy_rollback (hr : t.Handy r) : (t.rollbackTransaction txn).Handy r := fun p hp =>
  resident_rollback.2 (hr p hp)

/-- **A rollback** does what its view says if the rows it changes are at hand. -/
theorem view_rollback_handy (hfar : ∀ (r : RowID) row, t.view.rows[r]? = some row →
    ¬ t.Handy r → row.rollbackTransaction txn = row) :
    (t.rollbackTransaction txn).view = t.view.rollbackTransaction txn := by
  refine view_ext rfl (fun _ => Iff.rfl) (fun r => ?_) rfl rfl
  show (viewIn _ t.rowLocations).rows[r]? = _
  have hfar := hfar r
  rw [viewIn_get, rowIn] at hfar
  rw [View.rollbackTransaction, Std.ExtTreeMap.getElem?_map, viewIn_get, viewIn_get, rowIn, rowIn]
  cases hr : t.rowLocations[r]? with
  | none => rfl
  | some p =>
    rw [hr, Option.bind_some] at hfar
    rw [Option.bind_some, Option.bind_some]
    cases hp : t.rowSpace.get? p with
    | some page =>
      have hafter : (t.rollbackTransaction txn).content p = some (rolledBack page txn) :=
        content_of_resident (by rw [get_rollback, hp]; rfl)
      rw [hafter, content_of_resident hp, Option.bind_some, Option.bind_some, rolledBack,
        Std.ExtTreeMap.getElem?_map]
    | none =>
      -- the page is as the file has it
      have hafter : (t.rollbackTransaction txn).content p = t.content p := by
        rw [content, content, get_rollback, hp]
        rfl
      have hnot : ¬ t.Handy r := fun h => by
        obtain ⟨page, hpage⟩ := h p hr
        rw [hp] at hpage
        cases hpage
      rw [hafter]
      cases hrow : (t.content p).bind (·.rows[r]?) with
      | none => rfl
      | some row => rw [Option.map_some, hfar row hrow hnot]

/-- What is left by compaction is in memory. -/
theorem resident_compact {rows : BTreeMap RowID Row} (h : t.Gathered rows) (hp : t.compact.Referenced p) :
    t.compact.Resident p := by
  obtain ⟨c, m, hspace, hloc, -, hc, -⟩ :=
    h.oneHome.compacted (I := fun _ _ => True) trivial fun _ _ _ _ _ _ _ => trivial
  obtain ⟨r, hr⟩ := hp
  rw [hloc] at hr
  obtain ⟨row, hrow⟩ := BTreeMap.mem_iff_get.1 (hc.located r p hr)
  obtain ⟨q, page, hq, hpage, -⟩ := hc.placed r row hrow
  rw [hr] at hq
  exact ⟨page, by rw [hspace, Option.some.inj hq, hpage]⟩

theorem resident_flushed : t.flushed.Resident p ↔ t.Resident p := by
  show (∃ page, t.cleaned.get? p = some page) ↔ _
  simp only [get_cleaned, Option.map_eq_some_iff, Resident]
  constructor
  · rintro ⟨_, page, h, -⟩
    exact ⟨page, h⟩
  · rintro ⟨page, h⟩
    exact ⟨_, page, h, rfl⟩

/-- All rows are at hand after a vacuum. -/
theorem handy_prune (hg : t.Good) (hl : t.memoryLimit = 0) : (prune oldest none t).2.Handy r := by
  obtain ⟨t₁, hrun₁, hm₁, hres⟩ := materializeAllPages_run hg (Or.inl hl)
  obtain ⟨hg₁, -, -⟩ := (Shows.of_good hg).moved hm₁
  have hres₁ : ∀ p, t₁.Referenced p → t₁.Resident p := fun p hp => hres p (hm₁.referenced ▸ hp)
  obtain ⟨t₂, hrun₂, heq₂⟩ := @pruneVersions_run t₁ oldest hg₁ hres₁
  have hgather : t₂.Gathered (pruneRows oldest t₁.view.rows) := by
    have h := @gathered_rowsPruned t₁ oldest hg₁ hres₁
    rw [heq₂]
    exact ⟨h.held, h.found, h.nonempty⟩
  rw [prune_state hrun₁ hrun₂]
  have hread : t₂.compact.pageStore.readFault = none := by
    show t₂.pageStore.readFault = none
    rw [heq₂]
    exact hg₁.readable
  have hwrite : t₂.compact.pageStore.writeFault = none := by
    show t₂.pageStore.writeFault = none
    rw [heq₂]
    exact hg₁.writable
  rw [flushAllPages_run hread hwrite]
  exact fun p hp => resident_flushed.2 (resident_compact hgather ⟨r, hp⟩)

/-! ## Restarts -/

/-- The table after a restart from what it has flushed, with another memory limit. -/
def restarted (t : Table) (limit : ℕ) : Table := { t.reloaded with memoryLimit := limit }

theorem content_restarted {limit : ℕ} : (t.restarted limit).content p = t.reloaded.content p := rfl

/-- The row map is that of the page file. -/
theorem rowLocations_reloaded (hg : t.Good) (h : t.rowLocations ≠ ∅ ∨ t.NoOldRows) :
    t.reloaded.rowLocations = t.rowLocations := by
  by_cases hempty : t.rowLocations = ∅
  · have hnone : ∀ r, r ∉ t.reloaded.rowLocations := fun r hr => by
      have hr := (((reload_same_iff hg).2 h).1 r).1 hr
      rw [hempty] at hr
      exact Std.ExtTreeMap.not_mem_empty hr
    rw [hempty]
    by_contra hne
    obtain ⟨r, p, hr⟩ := BTreeMap.exists_get_of_ne_empty hne
    exact hnone r (BTreeMap.mem_of_get hr)
  · rw [reloaded_locations hg, if_neg hempty]

/-- **A restart** brings the view back, under the condition of a reload. -/
theorem good_restarted (hg : t.Good) (h : t.rowLocations ≠ ∅ ∨ t.NoOldRows) {limit : ℕ} :
    (t.restarted limit).Good ∧ (t.restarted limit).view = t.view := by
  have hloc : (t.restarted limit).rowLocations = t.rowLocations := rowLocations_reloaded hg h
  have hcontent : ∀ p, (t.restarted limit).content p = t.flushed.pageStore.pages.get? p := fun p => by
    rw [content_restarted, reloaded, content_bound]
    rfl
  have hrows : ∀ p, ((t.restarted limit).content p).map (·.rows) = (t.content p).map (·.rows) := fun p => by
    rw [content_restarted, rows_reloaded]
  have hstored : ∀ {p page}, (t.restarted limit).Stored p page ↔ (t.restarted limit).content p = some page := by
    intro p page
    rw [hcontent]
    exact stored_absent PageMap.get?_empty
  have hnotres : ∀ p, ¬ (t.restarted limit).Resident p := by
    rintro p ⟨page, hp⟩
    have hp : PageMap.empty.get? p = some page := hp
    rw [PageMap.get?_empty] at hp
    cases hp
  have hmaps : ∀ {p}, (t.restarted limit).Resident p ∨ (t.restarted limit).Referenced p → t.Referenced p := by
    rintro p (hp | hp)
    · exact absurd hp (hnotres p)
    · rw [Referenced, hloc] at hp
      exact hp
  have hgood : (t.restarted limit).Good := by
    refine ⟨hg.readable, hg.writable, fun p hp => ?_, fun p _ _ page page' hs hs' => ?_,
      fun p hp _ page hs r hr => ?_, fun p hp => ?_, fun _ h => h.elim, fun p hp => absurd hp (hnotres p),
      fun p hp => hg.mapped_lt p (hmaps (Or.inr hp)), fun r hr => hg.rowId_le r (hloc ▸ hr)⟩
    · have hp : p ∈ (.ofList t.flushed.pageStore.pages.keys compare : BTreeSet PageID) := hp
      exact PageMap.mem_keys.1 (List.contains_iff_mem.1 (Std.ExtTreeSet.mem_ofList.1 hp))
    · exact congrArg _ (Option.some.inj ((hstored.1 hs).symm.trans (hstored.1 hs')))
    · have hold := hrows p
      rw [hstored.1 hs, Option.map_some] at hold
      obtain ⟨page', hpage', heq⟩ := Option.map_eq_some_iff.1 hold.symm
      rw [hloc]
      exact hg.homed p (Or.inr (hmaps hp)) not_false page' (stored_content hpage') r (heq ▸ hr)
    · obtain ⟨page, hpage⟩ := hg.located p (hmaps (Or.inr hp))
      have hold := hrows p
      rw [hpage, Option.map_some] at hold
      obtain ⟨page', hpage', -⟩ := Option.map_eq_some_iff.1 hold
      exact ⟨page', hpage'⟩
  refine ⟨hgood, view_ext rfl (fun r => ?_) (fun r => ?_) rfl rfl⟩
  · rw [mem_rowIds, mem_rowIds, hloc]
  · have hsame := ((reload_same_iff hg).2 h).2 r
    rw [viewIn_get, viewIn_get, rowIn, rowIn, hloc]
    cases hr : t.rowLocations[r]? with
    | none => rfl
    | some p =>
      have hold := hrows p
      rw [Option.bind_some, Option.bind_some]
      cases hp : t.content p with
      | none =>
        rw [hp, Option.map_none, Option.map_eq_none_iff] at hold
        rw [hold]
      | some page =>
        rw [hp, Option.map_some] at hold
        obtain ⟨page', hpage', heq⟩ := Option.map_eq_some_iff.1 hold
        rw [hpage', Option.bind_some, Option.bind_some, heq]

end Table

end AntDb
