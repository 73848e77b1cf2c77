/-
  What the page file holds after each write.

  A page is merged into the file with the row map of the whole table, so the file knows rows
  of other pages, whose records may not have them yet.  `Filing` says that every page holds
  the rows mapped to it, and that every write so far is complete exactly when the other pages
  had been written before.
-/
import AntDb.Histories

namespace AntDb

namespace FileWrite

/-- After the write every row of the row map is in the record of its page. -/
def SelfContained (w : FileWrite) : Prop :=
  ∀ (r : RowID) p, w.rowLocations[r]? = some p →
    ∃ record, w.after.get? p = some record ∧ r ∈ record.rows

/-- The rows of the other pages than the one merged were in their records before the write. -/
def OthersFiled (w : FileWrite) : Prop :=
  ∀ page, w.merged = some page → ∀ (r : RowID) p, w.rowLocations[r]? = some p → p ≠ page.pageId →
    ∃ record, w.before.get? p = some record ∧ r ∈ record.rows

end FileWrite

namespace Table

open Call TableM

variable {t t' : Table} {ρ : RowMap} {L : PageID → Prop} {p q : PageID} {page page' : Page}
  {r rowId : RowID} {row : Row} {f : Page → Page} {txn : Transaction} {others : ForeignTables}
  {data : RowData}

/-- Whichever copy is looked at, the rows mapped to a page are in it. -/
def Complete (ρ : RowMap) (t : Table) : Prop :=
  ∀ p page, t.Stored p page → ∀ r, ρ[r]? = some p → r ∈ page.rows

structure Filing (ρ : RowMap) (t : Table) : Prop where
  locations : t.rowLocations = ρ
  complete : t.Complete ρ
  mapped_lt : ∀ p, ρ.Maps p → p < t.nextPageId
  writes : ∀ w ∈ t.pageStore.writes, w.SelfContained ↔ w.OthersFiled

/-- Merging a page that holds its rows. -/
theorem selfContained_iff {w : FileWrite} (h : t.Complete t.rowLocations) (hw : t.Merges w) :
    w.SelfContained ↔ w.OthersFiled := by
  obtain ⟨hρ, page, hm, ha, hs⟩ := hw
  constructor
  · intro hself page' hm' r p hr hp
    obtain rfl := Option.some.inj (hm.symm.trans hm')
    obtain ⟨record, hrecord, hmem⟩ := hself r p hr
    rw [ha, PageMap.get?_insert, if_neg (Ne.symm hp)] at hrecord
    exact ⟨record, hrecord, hmem⟩
  · intro hothers r p hr
    rw [ha, PageMap.get?_insert]
    split_ifs with hp
    · exact ⟨page, rfl, h _ page hs r (hρ ▸ hp ▸ hr)⟩
    · exact hothers page hm r p hr (Ne.symm hp)

namespace Filing

theorem moved (h : t.Filing ρ) (hm : Moved L t t') : t'.Filing ρ where
  locations := hm.rowLocations.trans h.locations
  complete p page hs := h.complete p page (hm.stored p page hs)
  mapped_lt p hp := hm.nextPageId ▸ h.mapped_lt p hp
  writes w hw := by
    obtain ⟨ws, hws, hmerges⟩ := hm.writes
    rw [hws] at hw
    rcases List.mem_append.1 hw with hw | hw
    · exact selfContained_iff (h.locations ▸ h.complete) (hmerges w hw)
    · exact h.writes w hw

/-- A change of the other fields. -/
theorem of_same (h : t.Filing ρ) (hρ : t'.rowLocations = t.rowLocations)
    (hs : ∀ p page, t'.Stored p page → ∃ page', t.Stored p page' ∧ ∀ r ∈ page'.rows, r ∈ page.rows)
    (hp : t.nextPageId ≤ t'.nextPageId) (hw : t'.pageStore.writes = t.pageStore.writes) :
    t'.Filing ρ where
  locations := hρ.trans h.locations
  complete p page hpage r hr := by
    obtain ⟨page', hpage', hsub⟩ := hs p page hpage
    exact hsub r (h.complete p page' hpage' r hr)
  mapped_lt p hmap := lt_of_lt_of_le (h.mapped_lt p hmap) hp
  writes := hw ▸ h.writes

end Filing

/-- Tables whose file is as `Filing` says. -/
def filing (ρ : RowMap) : Frame (Option PageID) Table Fault where
  env := none
  inv t := t.Filing ρ
  rel t t' := t.Filing ρ → t'.Filing ρ
  exempt e := e = .blocked
  refl _ h := h
  trans h h' ht := h' (h ht)
  keep ht h := h ht

theorem loads_filing : Loads (filing ρ) ρ where
  locations _ ht := ht.locations
  ensure p _ held t _ := by
    rcases ensurePageResident_spec p held t with h | ⟨-, -, hm, -⟩
    · exact Or.inl ⟨.blocked, h.1, rfl⟩
    · exact Or.inr ⟨trivial, fun h => h.moved hm⟩
  exempt _ h := h

/-! ## Placing and writing rows -/

theorem Filing.opened (h : t.Filing ρ) : t.opened.Filing ρ where
  locations := h.locations
  complete p page hs r hr := by
    have hne : t.nextPageId ≠ p := fun he => absurd (h.mapped_lt p ⟨r, hr⟩) (by rw [he]; exact lt_irrefl p)
    exact h.complete p page ((stored_opened_ne hne).1 hs) r hr
  mapped_lt p hp := Nat.lt_succ_of_lt (h.mapped_lt p hp)
  writes := h.writes

/-- Rewriting a page so that it keeps its rows and does not become clean. -/
def Grows (f : Page → Page) : Prop :=
  (∀ page, ∀ r ∈ page.rows, r ∈ (f page).rows) ∧ ∀ page, page.isDirty = true → (f page).isDirty = true

theorem Filing.rewritten (h : t.Filing ρ) (hg : Grows f) (p : PageID)
    (hf : ∀ page, (f page).pageId = page.pageId) : (t.rewritten p f hf).Filing ρ := by
  refine h.of_same rfl (fun q page' hs => ?_) le_rfl rfl
  by_cases hpq : p = q
  · subst hpq
    rw [Stored, MayRevert, get_rewritten, if_pos rfl] at hs
    rcases hs with hs | ⟨hs, hrev⟩
    · obtain ⟨page, hpage, rfl⟩ := Option.map_eq_some_iff.1 hs
      exact ⟨page, Or.inl hpage, hg.1 page⟩
    · refine ⟨page', Or.inr ⟨hs, fun page hpage => ?_⟩, fun _ hr => hr⟩
      obtain ⟨hl, hdrop⟩ := hrev (f page) (by rw [hpage]; rfl)
      rcases hdrop with ⟨hclean, hon⟩ | hfault
      · refine ⟨hl, Or.inl ⟨?_, hon⟩⟩
        by_contra hd
        rw [hg.2 page (by simpa using hd)] at hclean; cases hclean
      · exact ⟨hl, Or.inr hfault⟩
  · exact ⟨page', (stored_rewritten_ne hpq).1 hs, fun _ hr => hr⟩

theorem grows_append {size : ℕ} : Grows (·.append r row size) :=
  ⟨fun _ _ hr => Std.ExtTreeMap.mem_insert.2 (Or.inr hr), fun _ _ => rfl⟩

theorem grows_modify {g : Row → Row} :
    Grows fun page => { page with rows := page.rows.modify rowId g, isDirty := true } :=
  ⟨fun _ _ hr => Std.ExtTreeMap.mem_modify.2 hr, fun _ _ => rfl⟩

theorem places_filing : Places (filing ρ) Grows where
  evict pinned held t _ := by
    rcases framed_maybeEvictPages (L := fun _ => True) (I := fun _ => True)
      (k := fun _ _ => trivial) pinned t trivial with ⟨e, he, hex⟩ | ⟨-, hm, -⟩
    · exact Or.inl ⟨e, he, hex.1⟩
    · exact Or.inr ⟨trivial, fun h => h.moved hm⟩
  opened _ _ h := h.opened
  touched _ _ _ h := h.moved (L := fun _ => False) (Moved.of_bookkeeping rfl rfl rfl rfl)
  rewritten _ hg p hf _ _ h := h.rewritten hg p hf
  flags _ hrows hdirty := ⟨fun page _ hr => (hrows page).symm ▸ hr, hdirty⟩

/-- The file after a call that stays within `filing`. -/
theorem writes_of_follows {α : Type} {x : TableM α} (h : t.Filing ρ) (hx : Follows (filing ρ) x)
    (hreturns : (x none t).1 ≠ .error .blocked) : (x none t).2.Filing ρ := by
  rcases hx none t h with ⟨e, he, rfl⟩ | ⟨-, hrel⟩
  · exact absurd he hreturns
  · exact hrel h

/-- While a row is inserted the file is written before the row is known only. -/
theorem writes_insertRow (h : t.Filing ρ)
    (hreturns : (insertRow data txn others none t).1 ≠ .error .blocked) :
    ∀ w ∈ (insertRow data txn others none t).2.pageStore.writes, w.SelfContained ↔ w.OthersFiled := by
  unfold insertRow at hreturns ⊢
  rw [bind_run] at hreturns ⊢
  have h₁ := writes_of_follows (x := validateRowData data txn none (foreignKeyValueExists others txn)) h
    (follows_validateRowData loads_filing)
  generalize validateRowData data txn none (foreignKeyValueExists others txn) none t = outcome
    at hreturns h₁ ⊢
  obtain ⟨e | a, t₁⟩ := outcome <;> dsimp only at hreturns ⊢
  · exact (h₁ fun he => hreturns (by rw [Except.error.inj he])).writes
  have h₁ : t₁.Filing ρ := h₁ nofun
  have h₂ : ({ t₁ with nextRowId := t₁.nextRowId + 1 } : Table).Filing ρ :=
    h₁.of_same rfl (fun p page hs => ⟨page, hs, fun _ hr => hr⟩) le_rfl rfl
  rw [get_bind, modify_bind, bind_run] at hreturns ⊢
  have h₃ := writes_of_follows (x := placeNewRow (t₁.nextRowId + 1) (Row.new txn data)
    (Row.new txn data).sizeBytes) h₂ (follows_placeNewRow places_filing grows_append)
  generalize placeNewRow (t₁.nextRowId + 1) (Row.new txn data) (Row.new txn data).sizeBytes none
    { t₁ with nextRowId := t₁.nextRowId + 1 } = outcome at hreturns h₃ ⊢
  obtain ⟨e | p, t₃⟩ := outcome <;> dsimp only at hreturns ⊢
  · exact (h₃ fun he => hreturns (by rw [Except.error.inj he])).writes
  · exact (h₃ nofun).writes

end Table

namespace View

/-- Every row the table knows is on its page. -/
def Held (v : View) : Prop := ∀ r ∈ v.rowIds, (v.rows[r]?).isSome = true

theorem Held.onView {v : View} (h : v.Held) (call : RowCall) : (call.onView v).Held := by
  have hids : ∀ r ∈ (call.onView v).rowIds, r ∈ v.rowIds ∨ ((call.onView v).rows[r]?).isSome = true := by
    cases call with
    | insertRow data txn others =>
      intro r hr
      rw [RowCall.onView, View.insertRow] at hr ⊢
      split at hr
      · exact Or.inl hr
      · dsimp only at hr ⊢
        rw [BTreeMap.get_insert]
        rcases BTreeSet.mem_insert.1 hr with rfl | hr
        · rw [if_pos rfl]; exact Or.inr rfl
        · exact Or.inl hr
    | updateRow rowId data txn others =>
      intro r hr
      rw [RowCall.onView, View.updateRow] at hr
      split at hr
      · exact Or.inl hr
      · dsimp only at hr
        split at hr <;> exact Or.inl hr
    | deleteRow rowId txn =>
      intro r hr
      rw [RowCall.onView, View.deleteRow] at hr
      split at hr <;> exact Or.inl hr
    | getRow => exact fun r hr => Or.inl hr
    | search => exact fun r hr => Or.inl hr
  exact fun r hr => (hids r hr).elim (fun hr => RowCall.rows_stay (h r hr)) id

end View

namespace Table

open Call TableM

variable {t : Table}

/-- A good table whose known rows are on their pages is complete. -/
theorem complete_of_held (hg : t.Good) (h : t.view.Held) : t.Complete t.rowLocations := by
  intro p page hs r hr
  have hrow := h r (mem_rowIds.2 (BTreeMap.mem_of_get hr))
  rw [viewIn_get, rowIn, hr, Option.bind_some] at hrow
  obtain ⟨page', hpage'⟩ := hg.located p ⟨r, hr⟩
  rw [hpage', Option.bind_some] at hrow
  rw [hg.settled_of_maps ⟨r, hr⟩ hs (stored_content hpage')]
  obtain ⟨row, hrow⟩ := Option.isSome_iff_exists.1 hrow
  exact BTreeMap.mem_of_get hrow

/-- A good table whose rows are all on their pages, and the writes of its page file so far. -/
structure OnFile (t : Table) : Prop where
  good : t.Good
  held : t.view.Held
  writes : ∀ w ∈ t.pageStore.writes, w.SelfContained ↔ w.OthersFiled

theorem OnFile.filing (h : t.OnFile) : t.Filing t.rowLocations :=
  ⟨rfl, complete_of_held h.good h.held, h.good.mapped_lt, h.writes⟩

theorem OnFile.moved {L : PageID → Prop} (h : t.OnFile) (hL : ∀ p, L p → t.Referenced p)
    {t' : Table} (hm : Moved L t t') : t'.OnFile := by
  obtain ⟨hg, -, hv⟩ := (Shows.of_good h.good).moved (hm.mono hL)
  exact ⟨hg, hv ▸ h.held, (h.filing.moved hm).writes⟩

/-- A flush writes every row with its page. -/
theorem OnFile.flushed (h : t.OnFile) : t.flushed.OnFile := by
  obtain ⟨hg, hv⟩ := good_flushed h.good
  refine ⟨hg, hv ▸ h.held, fun w hw => ?_⟩
  rcases List.mem_cons.1 hw with rfl | hw
  · refine ⟨fun _ _ => nofun, fun _ r p hr => ?_⟩
    obtain ⟨page, hpage⟩ := h.good.located p ⟨r, hr⟩
    have hmem := complete_of_held h.good h.held p page (stored_content hpage) r hr
    show ∃ record, t.flushed.pageStore.pages.get? p = some record ∧ r ∈ record.rows
    rw [flushed_record, get_cleaned]
    rw [content] at hpage
    cases hres : t.rowSpace.get? p with
    | some page' =>
      rw [hres] at hpage
      obtain rfl : page' = page := Option.some.inj hpage
      exact ⟨{ page' with isDirty := false }, rfl, hmem⟩
    | none =>
      rw [hres] at hpage
      exact ⟨page, hpage, hmem⟩
  · exact h.writes w hw

end Table

/-! ## Runs -/

/-- What the page file may be written in. -/
inductive FileOp where
  | call (call : RowCall)
  | maybeEvictPages (pinned : Option PageID)
  | persistDirtyPages
  | flushAllPages

namespace FileOp

open Call TableM Table

def run : FileOp → TableM Unit
  | call c => do let _ ← c.run
  | maybeEvictPages pinned => Table.maybeEvictPages pinned
  | persistDirtyPages => Table.persistDirtyPages
  | flushAllPages => Table.flushAllPages

def step (t : Table) (op : FileOp) : Table := (op.run none t).2

/-- A call comes back, and keeps the row it inserts. -/
def Safe (t : Table) : FileOp → Prop
  | call c => c.Returns t ∧ c.KeepsRow t
  | _ => True

variable {t : Table} {op : FileOp} {ops : List FileOp}

theorem writes_call {c : RowCall} (h : t.OnFile) (hreturns : c.Returns t) :
    ∀ w ∈ (c.step t).pageStore.writes, w.SelfContained ↔ w.OthersFiled := by
  cases c with
  | insertRow data txn others =>
    obtain ⟨hstep, hback⟩ := @RowCall.step_of_run t (.insertRow data txn others) _ _ .inserted rfl
    rw [hstep]; exact writes_insertRow h.filing (hback hreturns)
  | updateRow rowId data txn others =>
    obtain ⟨hstep, hback⟩ := @RowCall.step_of_run t (.updateRow rowId data txn others) _ _ (fun _ => .done) rfl
    have hupdate : Follows (filing t.rowLocations) (Table.updateRow rowId data txn others) :=
      follows_updateRow places_filing.toOpens loads_filing grows_modify fun t columns _ h =>
        h.of_same rfl (fun _ page hs => ⟨page, hs, fun _ hr => hr⟩) le_rfl rfl
    rw [hstep]; exact (writes_of_follows h.filing hupdate (hback hreturns)).writes
  | deleteRow rowId txn =>
    obtain ⟨hstep, hback⟩ := @RowCall.step_of_run t (.deleteRow rowId txn) _ _ (fun _ => .done) rfl
    have hdelete : Follows (filing t.rowLocations) (Table.deleteRow rowId txn) :=
      follows_deleteRow places_filing.toOpens loads_filing grows_modify
    rw [hstep]; exact (writes_of_follows h.filing hdelete (hback hreturns)).writes
  | getRow rowId =>
    obtain ⟨hstep, hback⟩ := @RowCall.step_of_run t (.getRow rowId) _ _ .row rfl
    rw [hstep]; exact (writes_of_follows h.filing (follows_getRow loads_filing) (hback hreturns)).writes
  | search request txn accessPath =>
    obtain ⟨hstep, hback⟩ := @RowCall.step_of_run t (.search request txn accessPath) _ _ .rows rfl
    rw [hstep]; exact (writes_of_follows h.filing (follows_search loads_filing) (hback hreturns)).writes

theorem onFile_step (h : t.OnFile) (hsafe : op.Safe t) : (op.step t).OnFile := by
  cases op with
  | call c =>
    obtain ⟨hreturns, hkeeps⟩ := hsafe
    have hanswers := RowCall.answers h.good hkeeps.opensClean hreturns
    have hstep : (call c).step t = c.step t := TableOp.step_call
    rw [hstep]
    exact ⟨hanswers.good, hanswers.view hkeeps ▸ h.held.onView c, writes_call h hreturns⟩
  | maybeEvictPages pinned =>
    rcases framed_maybeEvictPages (L := fun _ => False) (I := fun _ => True)
      (k := fun _ _ => trivial) pinned t trivial with ⟨-, -, -, hheld⟩ | ⟨-, hm, -⟩
    · exact absurd rfl hheld
    · exact h.moved (fun _ => False.elim) hm
  | persistDirtyPages =>
    obtain ⟨t', hrun, hm⟩ := persistDirtyPages_run (L := fun _ => False) h.good.writable
    rw [step, show run persistDirtyPages none t = _ from hrun]
    exact h.moved (fun _ => False.elim) hm
  | flushAllPages =>
    rw [step, show run flushAllPages none t = _ from flushAllPages_run h.good.readable h.good.writable]
    exact h.flushed

/-- **The page file is self-contained** after a write exactly when the rows of the pages that
    were not written with it had been written before. -/
theorem file_self_contained_iff (tableId : TableID) (pageSize limit : ℕ) (store : PageStore)
    (columns : BTreeMap ColumnID Column) (ops : List FileOp)
    (hr : store.readFault = none) (hw : store.writeFault = none) (hnew : store.writes = [])
    (hsafe : Runs.Each step Safe (start tableId pageSize limit store columns) ops) :
    ∀ w ∈ (Runs.exec step (start tableId pageSize limit store columns) ops).pageStore.writes,
      w.SelfContained ↔ w.OthersFiled := by
  refine (hsafe.invariant (I := OnFile) ⟨good_start hr hw, fun r hr => ?_, fun w hw => ?_⟩
    fun t op h hop => onFile_step h hop).writes
  · exact absurd (mem_rowIds.1 hr) (by simp [start, new])
  · exact absurd (hnew ▸ hw) (by simp)

/-- Transaction 1 inserts an empty row. -/
abbrev insertEmpty : FileOp := .call (.insertRow ∅ ⟨1, .default⟩ fun _ => none)

theorem file_self_contained_iff_roomy :
    ∃ w ∈ (Runs.exec step (start 0 25 200 .empty ∅)
        [insertEmpty, insertEmpty, persistDirtyPages]).pageStore.writes,
      (w.SelfContained ↔ w.OthersFiled) := by
  have hopens : ∀ t t', (t.OpensPage ∅ ⟨1, .default⟩ (fun _ => none) t') →
      t' = (validateRowData ∅ ⟨1, .default⟩ none (foreignKeyValueExists (fun _ => none) ⟨1, .default⟩)
        none t).2 := fun t t' ht' => (congrArg Prod.snd ht'.validated).symm
  obtain ⟨w, hw⟩ := List.exists_mem_of_ne_nil (Runs.exec step (start 0 25 200 .empty ∅)
    [insertEmpty, insertEmpty, persistDirtyPages]).pageStore.writes (by decide +kernel)
  refine ⟨w, hw, file_self_contained_iff 0 25 200 .empty ∅ [insertEmpty, insertEmpty, persistDirtyPages]
    rfl rfl rfl ⟨⟨by decide, fun t' ht' => ?_⟩, ⟨by decide, fun t' ht' => ?_⟩, trivial, trivial⟩ w hw⟩
  · rw [hopens _ _ ht']
    exact Or.inr ⟨[], ⟨List.nodup_nil, nofun, nofun⟩, nofun, by decide⟩
  · rw [hopens _ _ ht']
    exact Or.inr ⟨[], ⟨List.nodup_nil, nofun, nofun⟩, nofun, by decide⟩

/-- The third insert evicts page 0, whose record comes with a row map that lists row 2 on page 1. -/
theorem file_lists_unwritten_row :
    ¬ ∀ w ∈ (Runs.exec step (start 0 25 100 .empty ∅)
        [insertEmpty, insertEmpty, insertEmpty]).pageStore.writes, w.SelfContained := by
  intro h
  have hlisted : (Runs.exec step (start 0 25 100 .empty ∅)
      [insertEmpty, insertEmpty, insertEmpty]).pageStore.writes.map
        (fun w => (w.rowLocations[2]?, w.after.get? 1)) = [(some 1, none)] := by decide +kernel
  obtain ⟨w, hw, hpair⟩ := List.map_eq_singleton_iff.1 hlisted
  obtain ⟨hrow, hpage⟩ := Prod.mk.inj hpair
  obtain ⟨record, hrecord, -⟩ := h w (by rw [hw]; exact List.mem_singleton_self w) 2 1 hrow
  rw [hpage] at hrecord; cases hrecord

end FileOp

end AntDb
