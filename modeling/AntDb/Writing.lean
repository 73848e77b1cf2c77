/-
  What inserts, updates and deletes do to the view of a good table.
-/
import AntDb.Placing

namespace AntDb

/-! ## Writing a view -/

namespace View

def insertRow (v : View) (data : RowData) (txn : Transaction) (others : ForeignTables) :
    Except DataBaseErrors RowID × View :=
  match v.validateRowData data txn none others with
  | .error e => (.error e, v)
  | .ok () =>
    let rowId := v.nextRowId + 1
    (.ok rowId, { v with
      rowIds := v.rowIds.insert rowId
      rows := v.rows.insert rowId (Row.new txn data)
      columns := Table.updateIndexesForRow rowId data txn v.columns
      nextRowId := rowId })

def deleteRow (v : View) (rowId : RowID) (txn : Transaction) : Except DataBaseErrors Unit × View :=
  match v.rows[rowId]? with
  | none => (.error (.rowNotFound rowId), v)
  | some _ => (.ok (), { v with rows := v.rows.modify rowId (·.remove txn) })

def updateRow (v : View) (rowId : RowID) (data : RowData) (txn : Transaction)
    (others : ForeignTables) : Except DataBaseErrors Unit × View :=
  match v.rows[rowId]? with
  | none => (.error (.rowNotFound rowId), v)
  | some row =>
    let effective := Table.effectiveData row data txn
    match v.validateRowData effective txn (some rowId) others with
    | .error e => (.error e, v)
    | .ok () => (.ok (), { v with
        rows := v.rows.modify rowId (·.update txn data)
        columns := Table.updateIndexesForRow rowId effective txn v.columns })

end View

namespace Table

open Call TableM

variable {t t' : Table} {ρ : RowMap} {v : View} {p : PageID} {page : Page} {r rowId : RowID}
  {row : Row} {data : RowData} {txn : Transaction} {others : ForeignTables} {α : Type}

theorem view_ext {v v' : View} (h₁ : v.tableId = v'.tableId)
    (h₂ : ∀ r, r ∈ v.rowIds ↔ r ∈ v'.rowIds) (h₃ : ∀ r : RowID, v.rows[r]? = v'.rows[r]?)
    (h₄ : v.columns = v'.columns) (h₅ : v.nextRowId = v'.nextRowId) : v = v' := by
  obtain ⟨_, ids, rows, _, _⟩ := v
  obtain ⟨_, ids', rows', _, _⟩ := v'
  obtain rfl : ids = ids' := Std.ExtTreeSet.ext_mem fun r => h₂ r
  obtain rfl : rows = rows' := Std.ExtTreeMap.ext_getElem? fun r => h₃ r
  obtain rfl : _ = _ := h₁
  obtain rfl : _ = _ := h₄
  obtain rfl : _ = _ := h₅
  rfl

/-- The outcome of a call is what `spec` says of the view, which is kept if `kept`. -/
structure Refines (t : Table) (kept : Prop) (outcome : Except Fault α × Table)
    (spec : Except DataBaseErrors α × View) : Prop where
  good : outcome.2.Good
  result : outcome.1 = spec.1.mapError .err
  view : kept → outcome.2.view = spec.2
  memoryLimit : outcome.2.memoryLimit = t.memoryLimit

theorem Shows.of_good (h : t.Good) : Shows t.rowLocations t.view t := ⟨h, rfl, rfl⟩

/-- A reading call of a good table, from outside. -/
theorem run_yields {x : TableM α} {e : Except DataBaseErrors α} (hg : t.Good)
    (h : Yields none t.rowLocations t.view x e) : ∃ t', x none t = (e.mapError .err, t') ∧
      t'.Good ∧ t'.view = t.view ∧ Moved t.Referenced t t' := by
  rcases h t (Shows.of_good hg) with ⟨-, -, -, hheld⟩ | ⟨he, hm, -⟩
  · exact absurd rfl hheld
  · obtain ⟨hg', -, hv⟩ := (Shows.of_good hg).moved hm
    exact ⟨_, Prod.ext he rfl, hg', hv, hm⟩

theorem refines_read {e : Except DataBaseErrors α} {kept : Prop}
    (h : ∃ t', (x : TableM α) none t = (e.mapError .err, t') ∧ t'.Good ∧ t'.view = t.view ∧
      Moved t.Referenced t t') : Refines t kept (x none t) (e, t.view) := by
  obtain ⟨t', hrun, hg, hv, hm⟩ := h
  rw [hrun]
  exact ⟨hg, rfl, fun _ => hv, hm.memoryLimit⟩

/-! ## Rewriting a row in its page -/

/-- The page of a known row, resident. -/
theorem run_pageForRow (hg : t.Good) :
    (t.rowLocations[rowId]? = none ∧
      pageForRow rowId none t = (.error (.err (.rowNotFound rowId)), t)) ∨
    ∃ p page t', t.rowLocations[rowId]? = some p ∧ pageForRow rowId none t = (.ok page, t') ∧
      Moved t.Referenced t t' ∧ t'.rowSpace.get? p = some page ∧
      page.rows[rowId]? = t.view.rows[rowId]? := by
  unfold pageForRow
  rw [get_bind]
  cases hr : t.rowLocations[rowId]? with
  | none => exact Or.inl ⟨rfl, rfl⟩
  | some p =>
    right
    dsimp only
    rcases framed_ensure (v := t.view) ⟨rowId, hr⟩ t (Shows.of_good hg) with
      ⟨-, -, -, hheld⟩ | ⟨⟨page, hpage, hid, hrows⟩, hm, -⟩
    · exact absurd rfl hheld
    · refine ⟨p, page, _, rfl, Prod.ext hpage rfl, hm, ensurePageResident_get hpage, ?_⟩
      rw [hrows, pageRows, Std.ExtTreeMap.getElem?_filter']
      cases t.view.rows[rowId]? <;> simp [Option.filter, hr]

/-- The table with a row rewritten in page `p`. -/
theorem pageId_rowWritten (rowId : RowID) (f : Row → Row) (page : Page) :
    ({ page with rows := page.rows.modify rowId f, isDirty := true } : Page).pageId = page.pageId :=
  rfl

def withRowWritten (t : Table) (p : PageID) (rowId : RowID) (f : Row → Row) : Table :=
  t.rewritten p (fun page => { page with rows := page.rows.modify rowId f, isDirty := true })
    (pageId_rowWritten rowId f)

theorem writeRow_run {f : Row → Row} {held : Option PageID} :
    writeRow p rowId f held t = (.ok (), t.withRowWritten p rowId f) := rfl

/-- Rewriting a row in its page rewrites it in the view. -/
theorem Housed.withRowWritten {f : Row → Row} (h : t.Good) (hp : t.rowSpace.get? p = some page)
    (hr : t.rowLocations[rowId]? = some p) : (t.withRowWritten p rowId f).Good ∧
      (t.withRowWritten p rowId f).view = { t.view with rows := t.view.rows.modify rowId f } := by
  have hρ := RowMap.extends_refl t.rowLocations p
  constructor
  · refine Housed.rewritten h (fun _ hX => hX.elim) hp rfl hρ (fun r hmem => ?_) h.rowId_le
    have hmem : r ∈ page.rows := Std.ExtTreeMap.mem_modify.1 hmem
    exact h.homed p (Or.inl ⟨page, hp⟩) not_false page (Or.inl hp) r hmem
  · refine view_ext rfl (fun _ => Iff.rfl) (fun r => ?_) rfl rfl
    show (viewIn _ t.rowLocations).rows[r]? = (t.view.rows.modify rowId f)[r]?
    rw [viewIn_get, Table.withRowWritten, rowIn_rewritten hp hρ, BTreeMap.get_modify,
      BTreeMap.get_modify, viewIn_get]
    by_cases hmap : t.rowLocations[r]? = some p
    · have hrow : t.rowIn t.rowLocations r = page.rows[r]? := by
        rw [rowIn, hmap, Option.bind_some, content_of_resident hp, Option.bind_some]
      rw [if_pos hmap, hrow]
    · rw [if_neg hmap, if_neg fun he : rowId = r => hmap (he ▸ hr)]

/-! ## Deletes and updates -/

/-- **A delete** does what its view says. -/
theorem deleteRow_refines (hg : t.Good) {kept : Prop} :
    Refines t kept (deleteRow rowId txn none t) (t.view.deleteRow rowId txn) := by
  unfold deleteRow View.deleteRow
  rcases run_pageForRow hg with ⟨hr, hrun⟩ | ⟨p, page, t', hr, hrun, hm, hp, hrow⟩
  · rw [bind_error hrun]
    cases hv : t.view.rows[rowId]? with
    | none => exact ⟨hg, rfl, fun _ => rfl, rfl⟩
    | some row =>
      obtain ⟨p, hp⟩ := mapped_of_row hv
      rw [hr] at hp; cases hp
  · obtain ⟨hg', -, hv'⟩ := (Shows.of_good hg).moved hm
    have hr' : t'.rowLocations[rowId]? = some p := by rw [hm.rowLocations, hr]
    have hid := PageMap.pageId_of_get hp
    rw [bind_ok hrun]
    show Refines t kept ((if rowId ∈ page.rows then writeRow page.pageId rowId (·.remove txn)
      else throw (.rowNotFound rowId) : TableM Unit) none t') _
    cases hv : t.view.rows[rowId]? with
    | none =>
      rw [hv] at hrow
      rw [if_neg fun hmem => by
        obtain ⟨row, h⟩ := BTreeMap.mem_iff_get.1 hmem
        rw [hrow] at h; cases h]
      exact ⟨hg', rfl, fun _ => hv', hm.memoryLimit⟩
    | some row =>
      rw [hv] at hrow
      rw [if_pos (BTreeMap.mem_of_get hrow), writeRow_run, hid]
      obtain ⟨hg'', hv''⟩ := Housed.withRowWritten (f := (·.remove txn)) hg' hp hr'
      exact ⟨hg'', rfl, fun _ => hv''.trans (by rw [hv']), hm.memoryLimit⟩

/-- Columns may change without the pages noticing. -/
theorem good_withColumns (hg : t.Good) (columns : BTreeMap ColumnID Column) :
    ({ t with columns := columns } : Table).Good ∧
      ({ t with columns := columns } : Table).view = { t.view with columns := columns } :=
  ⟨⟨hg.readable, hg.writable, hg.filed, hg.settled, hg.homed, hg.located, hg.unmapped,
    hg.resident_lt, hg.mapped_lt, hg.rowId_le⟩, rfl⟩

/-- The validation of an update runs with the lock of page `p` held, and the page stays. -/
theorem run_holding_validate (hg : t.Good) (p : PageID) {excludeRowId : Option RowID} :
    let x := holding p (validateRowData data txn excludeRowId (foreignKeyValueExists others txn))
    (x none t).1 = .error .blocked ∨ ∃ t',
      x none t = ((t.view.validateRowData data txn excludeRowId others).mapError .err, t') ∧
        t'.Good ∧ t'.view = t.view ∧ Moved t.Referenced t t' ∧
        ∀ page, t.rowSpace.get? p = some page → t'.rowSpace.get? p = some page := by
  rcases yields_validateRowData t (Shows.of_good hg) with ⟨e, he, rfl, -⟩ | ⟨hresult, hm, hholds⟩
  · exact Or.inl he
  · obtain ⟨hg', -, hv⟩ := (Shows.of_good hg).moved hm
    exact Or.inr ⟨_, Prod.ext hresult rfl, hg', hv, hm, fun page => hholds p page rfl⟩

/-- **An update that does not wait for its own lock** does what its view says. -/
theorem updateRow_refines (hg : t.Good) {kept : Prop}
    (hreturns : (updateRow rowId data txn others none t).1 ≠ .error .blocked) :
    Refines t kept (updateRow rowId data txn others none t)
      (t.view.updateRow rowId data txn others) := by
  unfold updateRow at hreturns ⊢
  unfold View.updateRow
  rcases run_pageForRow hg with ⟨hr, hrun⟩ | ⟨p, page, t', hr, hrun, hm, hp, hrow⟩
  · rw [bind_error hrun]
    cases hv : t.view.rows[rowId]? with
    | none => exact ⟨hg, rfl, fun _ => rfl, rfl⟩
    | some row =>
      obtain ⟨p, hp⟩ := mapped_of_row hv
      rw [hr] at hp; cases hp
  · obtain ⟨hg', -, hv'⟩ := (Shows.of_good hg).moved hm
    have hr' : t'.rowLocations[rowId]? = some p := by rw [hm.rowLocations, hr]
    have hid := PageMap.pageId_of_get hp
    rw [bind_ok hrun] at hreturns ⊢
    change ((match page.rows[rowId]? with
      | none => throw (.rowNotFound rowId)
      | some row => _ : TableM Unit) none t').1 ≠ _ at hreturns
    show Refines t kept ((match page.rows[rowId]? with
      | none => throw (.rowNotFound rowId)
      | some row => _ : TableM Unit) none t') _
    rw [hrow] at hreturns ⊢
    cases hv : t.view.rows[rowId]? with
    | none => exact ⟨hg', rfl, fun _ => hv', hm.memoryLimit⟩
    | some row =>
      rw [hv] at hreturns
      dsimp only at hreturns ⊢
      rw [bind_run] at hreturns ⊢
      rcases run_holding_validate hg' page.pageId with
        hblocked | ⟨t'', hrun'', hg'', hv'', hm'', hstays⟩
      · generalize holding page.pageId (validateRowData (effectiveData row data txn) txn
          (some rowId) (foreignKeyValueExists others txn)) none t' = outcome at hblocked hreturns
        obtain ⟨result, t''⟩ := outcome
        obtain rfl : result = .error .blocked := hblocked
        exact absurd rfl hreturns
      · rw [hrun'', hv']
        rw [hv'] at hv''
        have hlimit := hm''.memoryLimit.trans hm.memoryLimit
        cases hval : t.view.validateRowData (effectiveData row data txn) txn (some rowId) others with
        | error e => exact ⟨hg'', rfl, fun _ => hv'', hlimit⟩
        | ok =>
          have hp'' : t''.rowSpace.get? p = some page := hid ▸ hstays page (hid ▸ hp)
          have hr'' : t''.rowLocations[rowId]? = some p := by rw [hm''.rowLocations, hr']
          obtain ⟨hg₃, hv₃⟩ := Housed.withRowWritten (f := (·.update txn data)) hg'' hp'' hr''
          obtain ⟨hg₄, hv₄⟩ := good_withColumns hg₃
            (updateIndexesForRow rowId (effectiveData row data txn) txn t''.columns)
          have hcolumns : t''.columns = t.view.columns := congrArg View.columns hv''
          rw [hcolumns, hv₃, hv''] at hv₄
          rw [hcolumns] at hg₄
          have hrun₄ : ((writeRow page.pageId rowId (·.update txn data) >>= fun _ =>
              Call.modify fun t => { t with
                columns := updateIndexesForRow rowId (effectiveData row data txn) txn t.columns }) :
              TableM Unit) none t'' = (.ok (), { t''.withRowWritten p rowId (·.update txn data) with
                columns := updateIndexesForRow rowId (effectiveData row data txn) txn
                  t.view.columns }) := by
            rw [bind_ok writeRow_run, hid, ← hcolumns]; rfl
          show Refines t kept ((writeRow page.pageId rowId (·.update txn data) >>= fun _ =>
              Call.modify fun t => { t with
                columns := updateIndexesForRow rowId (effectiveData row data txn) txn t.columns } :
              TableM Unit) none t'') _
          rw [hrun₄]
          exact ⟨hg₄, rfl, fun _ => hv₄, hlimit⟩

/-! ## Inserts -/

/-- The last resident page has room for a row of this size. -/
def tailRoom (t : Table) (size : ℕ) : Bool :=
  (t.rowSpace.keys.getLast?.bind t.rowSpace.get?).any (·.hasRoomFor size)

/-- The insert opens a page for its row, in the state `t'` its validation leaves. -/
structure OpensPage (t : Table) (data : RowData) (txn : Transaction) (others : ForeignTables)
    (t' : Table) : Prop where
  validated : validateRowData data txn none (foreignKeyValueExists others txn) none t = (.ok (), t')
  noRoom : (Row.new txn data).sizeBytes > t'.pageSize ∨
    t'.tailRoom (Row.new txn data).sizeBytes = false

/-- A page that the insert opens stays resident until the row is in it. -/
def KeepsRow (t : Table) (data : RowData) (txn : Transaction) (others : ForeignTables) : Prop :=
  ∀ t', t.OpensPage data txn others t' → t'.CanOpenPage

/-- The insert opens no page whose id the page file has an old record of, or keeps it
    resident. -/
def OpensClean (t : Table) (data : RowData) (txn : Transaction) (others : ForeignTables) : Prop :=
  ∀ t', t.OpensPage data txn others t' → t'.CanOpenPage ∨ t'.nextPageId ∉ t'.onDiskPages

theorem KeepsRow.opensClean (h : t.KeepsRow data txn others) : t.OpensClean data txn others :=
  fun t' ht' => Or.inl (h t' ht')

theorem forceAppendToPage_run {size : ℕ} {held : Option PageID} :
    forceAppendToPage p r row size held t =
      (.ok (), t.rewritten p (·.append r row size) (pageId_append r row size)) := rfl

/-- The room the tail has is used. -/
theorem tryAppendToTailPage_run {size : ℕ} :
    tryAppendToTailPage r row size none t =
      match (t.rowSpace.keys.getLast?.bind t.rowSpace.get?).filter (·.hasRoomFor size) with
      | none => (.ok none, t)
      | some tail => (.ok (some tail.pageId), (t.rewritten tail.pageId (·.append r row size)
          (pageId_append r row size)).touchPage tail.pageId) := by
  unfold tryAppendToTailPage
  rw [get_bind]
  cases t.rowSpace.keys.getLast?.bind t.rowSpace.get? with
  | none => rfl
  | some tail =>
    simp only [Option.filter]
    split_ifs with h <;> rfl

/-- Where a row of at most a page goes. -/
theorem insertRowIntoPage_spec {size : ℕ} (h : t.Good) (hr : r ∉ t.rowLocations)
    (hle : r ≤ t.nextRowId)
    (hsafe : t.tailRoom size = false → t.CanOpenPage ∨ t.nextPageId ∉ t.onDiskPages) :
    ∃ p t', insertRowIntoPage r row size none t = (.ok p, t') ∧
      Placed t t.rowLocations r row (t.tailRoom size = false → t.CanOpenPage) p t' := by
  unfold insertRowIntoPage
  cases htail : (t.rowSpace.keys.getLast?.bind t.rowSpace.get?).filter (·.hasRoomFor size) with
  | some tail =>
    have hrun := @tryAppendToTailPage_run t r row size
    rw [htail] at hrun
    obtain ⟨htail, -⟩ := Option.filter_eq_some_iff.1 htail
    obtain ⟨p, -, hp⟩ := Option.bind_eq_some_iff.1 htail
    obtain rfl := PageMap.pageId_of_get hp
    have hplaced : Placed t t.rowLocations r row (t.tailRoom size = false → t.CanOpenPage) tail.pageId
        (t.rewritten tail.pageId (·.append r row size) (pageId_append r row size)) := h.appended
      (fun _ hX => hX.elim) hp (h.homed _ (Or.inl ⟨_, hp⟩) not_false tail (Or.inl hp)) hr hle
    have hm : Moved (RowMap.Maps (t.rowLocations.insert r tail.pageId))
        (t.rewritten tail.pageId (·.append r row size) (pageId_append r row size))
        ((t.rewritten tail.pageId (·.append r row size) (pageId_append r row size)).touchPage
          tail.pageId) := Moved.of_bookkeeping rfl rfl rfl rfl
    refine ⟨tail.pageId, _, by rw [bind_ok hrun]; rfl, hplaced.housed.moved hm,
      hplaced.same.trans (SameTable.of_moved hm), fun r' hr' => ?_, fun hk => ?_⟩
    · rw [hplaced.housed.rowIn_moved hm, hplaced.others r' hr']
    · rw [hplaced.housed.rowIn_moved hm, hplaced.kept hk]
  | none =>
    have hrun := @tryAppendToTailPage_run t r row size
    rw [htail] at hrun
    have hroom : t.tailRoom size = false := by
      unfold tailRoom
      cases ho : t.rowSpace.keys.getLast?.bind t.rowSpace.get? with
      | none => rfl
      | some tail => rw [ho] at htail; simpa [Option.filter] using htail
    obtain ⟨t', hrun', -, hplaced⟩ := place_fresh h hr hle (hsafe hroom)
    refine ⟨t.nextPageId, _, ?_, hplaced.housed, hplaced.same, hplaced.others,
      fun hk => hplaced.kept (hk hroom)⟩
    rw [bind_ok hrun]
    show ((tryAppendToTailPage r row size >>= _ : TableM PageID) none t) = _
    rw [bind_ok hrun]
    show ((registerPage >>= _ : TableM PageID) none t) = _
    rw [bind_ok hrun', bind_ok forceAppendToPage_run]
    rfl

/-- Where a row of more than a page goes. -/
theorem insertOverflowRow_spec {size : ℕ} (h : t.Good) (hr : r ∉ t.rowLocations)
    (hle : r ≤ t.nextRowId) (hsafe : t.CanOpenPage ∨ t.nextPageId ∉ t.onDiskPages) :
    ∃ p t', insertOverflowRow r row size none t = (.ok p, t') ∧
      Placed t t.rowLocations r row t.CanOpenPage p t' := by
  obtain ⟨t₁, hrun, hsame₁, hplaced⟩ := place_fresh h hr hle hsafe
  obtain ⟨t₂, hrun₂, hsame₂, h₂, hrows⟩ := extendOverflowChain_spec hplaced.housed
    (extraPages size (t₁.rewritten t.nextPageId (·.append r row size)
      (pageId_append r row size)).pageSize) t.nextPageId
  refine ⟨t.nextPageId, t₂, ?_, h₂, hplaced.same.trans hsame₂,
    fun r' hr' => (hrows r').trans (hplaced.others r' hr'), fun hk => (hrows r).trans (hplaced.kept hk)⟩
  unfold insertOverflowRow
  rw [bind_ok hrun, bind_ok forceAppendToPage_run, get_bind, bind_ok hrun₂]
  rfl

theorem placeNewRow_spec {size : ℕ} (h : t.Good) (hr : r ∉ t.rowLocations) (hle : r ≤ t.nextRowId)
    (hsafe : size > t.pageSize ∨ t.tailRoom size = false →
      t.CanOpenPage ∨ t.nextPageId ∉ t.onDiskPages) :
    ∃ p t', placeNewRow r row size none t = (.ok p, t') ∧ Placed t t.rowLocations r row
      (size > t.pageSize ∨ t.tailRoom size = false → t.CanOpenPage) p t' := by
  unfold placeNewRow
  rw [get_bind]
  split_ifs with hsize
  · obtain ⟨p, t', hrun, hplaced⟩ := insertOverflowRow_spec h hr hle
      (hsafe (Or.inl hsize))
    exact ⟨p, t', hrun, hplaced.housed, hplaced.same, hplaced.others,
      fun hk => hplaced.kept (hk (Or.inl hsize))⟩
  · obtain ⟨p, t', hrun, hplaced⟩ := insertRowIntoPage_spec h hr hle
      fun hroom => hsafe (Or.inr hroom)
    exact ⟨p, t', hrun, hplaced.housed, hplaced.same, hplaced.others,
      fun hk => hplaced.kept fun hroom => hk (Or.inr hroom)⟩

/-- Taking row ids leaves the pages alone. -/
theorem canOpenPage_withNextRowId {n : RowID} :
    ({ t with nextRowId := n } : Table).CanOpenPage ↔ t.CanOpenPage := by
  refine or_congr_right (exists_congr fun E => and_congr_left fun _ => ?_)
  exact ⟨fun h => ⟨h.nodup, h.resident, h.before⟩, fun h => ⟨h.nodup, h.resident, h.before⟩⟩

theorem good_withNextRowId (h : t.Good) {n : RowID} (hn : t.nextRowId ≤ n) :
    ({ t with nextRowId := n } : Table).Good :=
  ⟨h.readable, h.writable, h.filed, h.settled, h.homed, h.located, h.unmapped, h.resident_lt,
    h.mapped_lt, fun r hr => (h.rowId_le r hr).trans hn⟩

theorem good_withRowLocations (h : t.Housed ρ fun _ => False) :
    ({ t with rowLocations := ρ } : Table).Good :=
  ⟨h.readable, h.writable, h.filed, h.settled, h.homed, h.located, h.unmapped, h.resident_lt,
    h.mapped_lt, h.rowId_le⟩

/-- **An insert** does what its view says if the page it opens, if any, keeps the row. -/
theorem insertRow_refines (hg : t.Good) (hclean : t.OpensClean data txn others) :
    Refines t (t.KeepsRow data txn others) (insertRow data txn others none t)
      (t.view.insertRow data txn others) := by
  unfold insertRow View.insertRow
  obtain ⟨t₁, hrun, hg₁, hv₁, hm₁⟩ := run_yields hg yields_validateRowData
  cases hval : t.view.validateRowData data txn none others with
  | error e =>
    rw [hval] at hrun
    rw [bind_error hrun]
    exact ⟨hg₁, rfl, fun _ => hv₁, hm₁.memoryLimit⟩
  | ok =>
    rw [hval] at hrun
    rw [bind_ok hrun, get_bind, modify_bind]
    have hnext : t₁.nextRowId = t.view.nextRowId := congrArg View.nextRowId hv₁
    have hcolumns : t₁.columns = t.view.columns := congrArg View.columns hv₁
    have hr : t₁.nextRowId + 1 ∉ t₁.rowLocations := fun hmem =>
      Nat.not_succ_le_self _ (hg₁.rowId_le _ hmem)
    have hg₂ : ({ t₁ with nextRowId := t₁.nextRowId + 1 } : Table).Good :=
      good_withNextRowId hg₁ (Nat.le_succ _)
    obtain ⟨p, t₃, hrun₃, hplaced⟩ := @placeNewRow_spec _ _ (Row.new txn data)
      (Row.new txn data).sizeBytes hg₂ hr le_rfl
      fun hopen => (hclean t₁ ⟨hrun, hopen⟩).imp_left canOpenPage_withNextRowId.2
    have hρ : t₃.rowLocations = t₁.rowLocations := hplaced.same.rowLocations
    have hcolumns₃ : t₃.columns = t.view.columns := hplaced.same.columns.trans hcolumns
    have hg₄ := good_withRowLocations hplaced.housed
    obtain ⟨hg₅, hv₅⟩ := good_withColumns hg₄
      (updateIndexesForRow (t₁.nextRowId + 1) data txn t₃.columns)
    rw [bind_ok hrun₃, modify_bind, modify_bind, hρ]
    refine ⟨hg₅, congrArg Except.ok (congrArg (· + 1) hnext), fun hk => hv₅.trans ?_,
      hplaced.same.memoryLimit.trans hm₁.memoryLimit⟩
    refine view_ext ?_ (fun r => ?_) (fun r => ?_) ?_ ?_
    · exact hplaced.same.tableId.trans (congrArg View.tableId hv₁)
    · show r ∈ (t₃.viewIn (t₁.rowLocations.insert (t₁.nextRowId + 1) p)).rowIds ↔
        r ∈ t.view.rowIds.insert (t.view.nextRowId + 1)
      rw [mem_rowIds, BTreeSet.mem_insert, Std.ExtTreeMap.mem_insert,
        Std.LawfulEqOrd.compare_eq_iff_eq, eq_comm, hnext, ← hv₁, mem_rowIds]
    · show (t₃.viewIn (t₁.rowLocations.insert (t₁.nextRowId + 1) p)).rows[r]? =
        (t.view.rows.insert (t.view.nextRowId + 1) (Row.new txn data))[r]?
      rw [viewIn_get, BTreeMap.get_insert, ← hnext, ← hv₁, viewIn_get]
      split_ifs with he
      · subst he
        exact hplaced.kept fun hopen => canOpenPage_withNextRowId.2 (hk t₁ ⟨hrun, hopen⟩)
      · exact hplaced.others r (Ne.symm he)
    · show updateIndexesForRow (t₁.nextRowId + 1) data txn t₃.columns =
        updateIndexesForRow (t.view.nextRowId + 1) data txn t.view.columns
      rw [hnext, hcolumns₃]
    · exact hplaced.same.nextRowId.trans (congrArg (· + 1) hnext)

end Table

end AntDb
