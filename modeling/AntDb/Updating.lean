/-
  Which image of a row an update stores.

  `update_row` validates the visible data overridden by the new data and files that image in
  the indexes, but the version it pushes holds the new data alone.
-/
import AntDb.Blocking

namespace AntDb

variable {txn : Transaction} {data : RowData}

/-- Data that overrides every entry of other data is all that is left of both. -/
theorem RowData.union_eq_right {old : RowData} : old ∪ data = data ↔ ∀ c ∈ old, c ∈ data := by
  constructor
  · intro h c hc
    rw [← h]
    exact Std.ExtTreeMap.mem_union_of_left hc
  · intro h
    refine Std.ExtTreeMap.ext_getElem? fun c => ?_
    rw [Std.ExtTreeMap.getElem?_union]
    by_cases hc : c ∈ old
    · obtain ⟨value, hvalue⟩ := BTreeMap.mem_iff_get.1 (h c hc)
      rw [hvalue]; rfl
    · rw [Std.ExtTreeMap.getElem?_eq_none hc, Option.or_none]

namespace Row

/-- After an update its transaction sees the new version. -/
theorem getVersionedRow_update (row : Row) :
    (row.update txn data).getVersionedRow txn = some ⟨.created txn, data⟩ := by
  have hvisible : (⟨.created txn, data⟩ : InternalRow).isVisible txn = true :=
    (InternalRow.isVisible_own rfl).2 nofun
  unfold getVersionedRow update LastMatch.findLast
  rw [List.reverse_append, List.reverse_singleton, List.singleton_append]
  exact List.find?_cons_of_pos hvisible

end Row

namespace Table

open Call TableM

variable {t t' : Table} {held : Option PageID} {p : PageID} {page : Page} {rowId : RowID} {row : Row}
  {others : ForeignTables} {v : InternalRow}

/-! ## The page of the row -/

/-- Making a page resident does not change what it holds, even if it fails. -/
theorem content_ensurePageResident : (ensurePageResident p held t).2.content p = t.content p := by
  rw [ensurePageResident_run]
  cases hp : t.rowSpace.get? p with
  | some page => rfl
  | none =>
    dsimp only
    cases hr : t.pageStore.readPage p with
    | error e => rfl
    | ok found =>
      cases found with
      | none => rfl
      | some page =>
        have hd := record_of_readPage hr
        have hin : ((t.entered page).arrived p).rowSpace.get? p = some page := by
          show (t.entered page).rowSpace.get? p = _
          rw [get_entered, if_pos (PageMap.pageId_of_get hd)]
        have hkeep : Framed (keeping held p) (maybeEvictPages (some p) >>= fun _ => (pure page : TableM Page))
            fun _ => True :=
          keeping_maybeEvictPages.bind (fun _ _ => Framed.pure trivial) fun _ _ => trivial
        rcases hkeep ((t.entered page).arrived p) trivial with ⟨_, -, hfalse⟩ | ⟨-, hkeep⟩
        · exact hfalse.elim
        · have hafter : ((maybeEvictPages (some p) >>= fun _ => (pure page : TableM Page)) held
              ((t.entered page).arrived p)).2.content p = some page :=
            content_of_resident (hkeep page hin)
          have hbefore : t.content p = some page := by rw [content, hp, hd]; rfl
          exact hafter.trans hbefore.symm

theorem content_of_ensure (h : ensurePageResident p held t = (.ok page, t')) :
    t.content p = some page := by
  have hget : (ensurePageResident p held t).2.rowSpace.get? p = some page :=
    ensurePageResident_get (congrArg Prod.fst h)
  rw [← content_ensurePageResident, content_of_resident hget]

theorem rowAt_congr (hρ : t'.rowLocations = t.rowLocations)
    (h : ∀ p, t.rowLocations[rowId]? = some p → t'.content p = t.content p) :
    t'.rowAt rowId = t.rowAt rowId := by
  unfold rowAt rowIn
  rw [hρ]
  cases hr : t.rowLocations[rowId]? with
  | none => rfl
  | some p => rw [Option.bind_some, Option.bind_some, h p hr]

/-! ## While the page is held -/

/-- Calls of a table with the row map `ρ` that keep it and the page they hold. -/
def holdingPage (held : Option PageID) (ρ : RowMap) : Frame (Option PageID) Table Fault where
  env := held
  inv t := t.rowLocations = ρ
  rel t t' := t'.rowLocations = t.rowLocations ∧ Holds held t t'
  exempt e := e = .blocked
  refl t := ⟨rfl, Holds.refl t⟩
  trans h h' := ⟨h'.1.trans h.1, h.2.trans h'.2⟩
  keep h h' := h'.1.trans h

theorem loadsHere_holdingPage {ρ : RowMap} : LoadsHere (holdingPage held ρ) ρ where
  locations _ h := h
  ensure p _ t _ := by
    rcases ensurePageResident_spec p held t with ⟨hblocked, -⟩ | ⟨-, -, hm, hholds⟩
    · exact Or.inl ⟨.blocked, hblocked, rfl⟩
    · exact Or.inr ⟨trivial, hm.rowLocations, hholds⟩

/-- A validation that comes back has kept the page it holds. -/
theorem validate_keeps {effective : RowData} {excludeRowId : Option RowID} {r : Except Fault Unit}
    (hrun : holding p (validateRowData effective txn excludeRowId (foreignKeyValueExists others txn))
      none t = (r, t')) (hreturns : r ≠ .error .blocked) (hp : t.rowSpace.get? p = some page) :
    t'.rowLocations = t.rowLocations ∧ t'.rowSpace.get? p = some page := by
  have hstays : Stays (holdingPage (some p) t.rowLocations)
      (validateRowData effective txn excludeRowId (foreignKeyValueExists others txn)) :=
    stays_validateRowData loadsHere_holdingPage
  have hrun : validateRowData effective txn excludeRowId (foreignKeyValueExists others txn)
      (some p) t = (r, t') := hrun
  have h := hstays t rfl
  change (∃ e, (validateRowData effective txn excludeRowId (foreignKeyValueExists others txn)
    (some p) t).1 = .error e ∧ e = .blocked) ∨ True ∧ (validateRowData effective txn excludeRowId
      (foreignKeyValueExists others txn) (some p) t).2.rowLocations = t.rowLocations ∧
        Holds (some p) t (validateRowData effective txn excludeRowId
          (foreignKeyValueExists others txn) (some p) t).2 at h
  rw [hrun] at h
  rcases h with ⟨_, he, rfl⟩ | ⟨-, hρ, hholds⟩
  · exact absurd he hreturns
  · exact ⟨hρ, hholds p page rfl hp⟩

/-! ## The image an update stores -/

/-- The row is found and the merged image is valid. -/
def AcceptsUpdate (t : Table) (rowId : RowID) (data : RowData) (txn : Transaction)
    (others : ForeignTables) : Prop :=
  ∃ page t' row, pageForRow rowId none t = (.ok page, t') ∧ page.rows[rowId]? = some row ∧
    (holding page.pageId (validateRowData (effectiveData row data txn) txn (some rowId)
      (foreignKeyValueExists others txn)) none t').1 = .ok ()

/-- An update that succeeds leaves the validated image visible to its transaction, and one that
    ends with an error leaves every version as it was. -/
def StoresValidated (t : Table) (rowId : RowID) (data : RowData) (txn : Transaction)
    (others : ForeignTables) : Prop :=
  let outcome := updateRow rowId data txn others none t
  (outcome.1 = .ok () → (outcome.2.versionAt txn rowId).map (·.data) =
    (t.rowAt rowId).map (effectiveData · data txn)) ∧
  ∀ e, outcome.1 = .error (.err e) → outcome.2.rowAt rowId = t.rowAt rowId

/-- What an update does once the page of its row is resident. -/
theorem updateRow_run (hensure : pageForRow rowId none t = (.ok page, t'))
    (hrow : page.rows[rowId]? = some row) :
    updateRow rowId data txn others none t =
      (holding page.pageId (validateRowData (effectiveData row data txn) txn (some rowId)
          (foreignKeyValueExists others txn)) >>= fun _ =>
        writeRow page.pageId rowId (·.update txn data) >>= fun _ =>
        modify fun t => { t with
          columns := updateIndexesForRow rowId (effectiveData row data txn) txn t.columns })
        none t' := by
  unfold updateRow
  rw [bind_ok hensure]
  dsimp only
  rw [hrow]
  rfl

/-- After the update the row has the new version. -/
theorem rowAt_updated (hp : t.rowLocations[rowId]? = some p) (hpage : t.rowSpace.get? p = some page)
    (hrow : page.rows[rowId]? = some row) :
    (t.withRowWritten p rowId (·.update txn data)).rowAt rowId = some (row.update txn data) := by
  show (t.withRowWritten p rowId (·.update txn data)).rowIn t.rowLocations rowId = _
  rw [withRowWritten, rowIn_rewritten hpage (RowMap.extends_refl t.rowLocations p), if_pos hp,
    BTreeMap.get_modify, if_pos rfl, hrow]
  rfl

/-- **Which updates store the validated image**: those of a full row, and those refused. -/
theorem storesValidated_iff (h : t.versionAt txn rowId = some v) :
    t.StoresValidated rowId data txn others ↔
      (t.AcceptsUpdate rowId data txn others → ∀ c ∈ v.data, c ∈ data) := by
  obtain ⟨row, hrow, hversion⟩ := Option.bind_eq_some_iff.1 h
  obtain ⟨page₀, hpage₀, hget⟩ := Option.bind_eq_some_iff.1 hrow
  obtain ⟨p, hp, hcontent⟩ := Option.bind_eq_some_iff.1 hpage₀
  have hpageForRow : pageForRow rowId none t = ensurePageResident p none t := by
    unfold pageForRow
    rw [get_bind, hp]
  cases hensure : ensurePageResident p none t with
  | mk r t₁ =>
    have hmoved : Moved (· = p) t t₁ := by
      rcases ensurePageResident_spec p none t with ⟨-, hheld⟩ | ⟨-, -, hm, -⟩
      · exact absurd rfl hheld
      · rwa [hensure] at hm
    have hcontent₁ : t₁.content p = t.content p := by
      have hafter := @content_ensurePageResident t none p
      rwa [hensure] at hafter
    have hrowAt : t₁.rowAt rowId = t.rowAt rowId := rowAt_congr hmoved.rowLocations fun q hq => by
      rw [hp] at hq
      rw [← Option.some.inj hq, hcontent₁]
    rw [← hpageForRow] at hensure
    cases r with
    | error e =>
      have hrefused : ¬ t.AcceptsUpdate rowId data txn others := by
        rintro ⟨page, t', row, hok, -⟩
        rw [hensure] at hok
        cases hok
      refine iff_of_true ?_ fun haccepted => absurd haccepted hrefused
      unfold StoresValidated updateRow
      rw [bind_error hensure]
      exact ⟨fun h => (by cases h), fun _ _ => hrowAt⟩
    | ok page =>
      obtain rfl : page₀ = page := by
        have hpage := content_of_ensure (hpageForRow.symm.trans hensure)
        exact Option.some.inj (hcontent.symm.trans hpage)
      have hresident : t₁.rowSpace.get? p = some page₀ := by
        have hres := @ensurePageResident_get t p page₀ none
        rw [← hpageForRow, hensure] at hres
        exact hres rfl
      have hid : page₀.pageId = p := PageMap.pageId_of_get hresident
      have haccepts : t.AcceptsUpdate rowId data txn others ↔
          (holding page₀.pageId (validateRowData (effectiveData row data txn) txn (some rowId)
            (foreignKeyValueExists others txn)) none t₁).1 = .ok () := by
        refine ⟨?_, fun hok => ⟨page₀, t₁, row, hensure, hget, hok⟩⟩
        rintro ⟨page', t', row', hok, hrow', hvalid⟩
        obtain ⟨hpage', rfl⟩ := Prod.mk.inj (hensure.symm.trans hok)
        obtain rfl := Except.ok.inj hpage'
        obtain rfl := Option.some.inj (hget.symm.trans hrow')
        exact hvalid
      rw [haccepts]
      unfold StoresValidated
      rw [updateRow_run hensure hget, bind_run]
      cases hvalidate : holding page₀.pageId (validateRowData (effectiveData row data txn) txn
          (some rowId) (foreignKeyValueExists others txn)) none t₁ with
      | mk result t₂ =>
        have hkeeps (hreturns : result ≠ .error .blocked) :
            t₂.rowLocations = t₁.rowLocations ∧ t₂.rowSpace.get? p = some page₀ :=
          validate_keeps (hid ▸ hvalidate) hreturns hresident
        cases result with
        | error e =>
          refine iff_of_true ⟨fun h => (by cases h), fun e' he => ?_⟩ fun h => (by cases h)
          obtain ⟨hρ₂, hpage₂⟩ := hkeeps fun hblocked => by
            have he : Fault.err e' = .blocked := Except.error.inj (he.symm.trans hblocked)
            cases he
          have hrow₂ : t₂.rowAt rowId = t₁.rowAt rowId := rowAt_congr hρ₂ fun q hq => by
            rw [hmoved.rowLocations, hp] at hq
            rw [← Option.some.inj hq, content_of_resident hpage₂, content_of_resident hresident]
          exact hrow₂.trans hrowAt
        | ok _ =>
          obtain ⟨hρ₂, hpage₂⟩ := hkeeps fun h => by cases h
          have hp₂ : t₂.rowLocations[rowId]? = some p := by rw [hρ₂, hmoved.rowLocations, hp]
          have hafter := @rowAt_updated txn data _ _ _ _ _ hp₂ hpage₂ hget
          have hlast : ((writeRow page₀.pageId rowId (·.update txn data) >>= fun _ =>
              modify fun t => { t with
                columns := updateIndexesForRow rowId (effectiveData row data txn) txn t.columns } :
              TableM Unit) none t₂) = (.ok (), { t₂.withRowWritten p rowId (·.update txn data) with
                columns := updateIndexesForRow rowId (effectiveData row data txn) txn t₂.columns }) := by
            rw [bind_ok writeRow_run, hid]
            rfl
          dsimp only
          rw [hlast, imp_iff_right rfl, imp_iff_right rfl, and_iff_left (fun e h => by cases h)]
          show ((t₂.withRowWritten p rowId (·.update txn data)).versionAt txn rowId).map (·.data) = _ ↔ _
          rw [versionAt, hafter, Option.bind_some, Row.getVersionedRow_update, hrow, Option.map_some,
            Option.map_some, Option.some.injEq, effectiveData, hversion, eq_comm]
          exact RowData.union_eq_right

/-- A table with two columns and a row. -/
def flagPair : Table := ((do
    let _ ← createColumn "a" .boolean ∅ ⟨1, .default⟩
    let _ ← createColumn "b" .boolean ∅ ⟨1, .default⟩
    insertRow (.ofList [(0, .boolean false), (1, .boolean false)] compare) ⟨1, .default⟩ fun _ => none :
      TableM RowID) none (.new 0 4096 0 .empty)).2

theorem storesValidated_iff_flagPair :
    flagPair.StoresValidated 1 (.ofList [(0, .boolean true), (1, .boolean true)] compare) ⟨1, .default⟩
        (fun _ => none) ↔
      (flagPair.AcceptsUpdate 1 (.ofList [(0, .boolean true), (1, .boolean true)] compare)
          ⟨1, .default⟩ (fun _ => none) →
        ∀ c ∈ (.ofList [(0, .boolean false), (1, .boolean false)] compare : RowData),
          c ∈ (.ofList [(0, .boolean true), (1, .boolean true)] compare : RowData)) :=
  storesValidated_iff (v := ⟨⟨1, none⟩, .ofList [(0, .boolean false), (1, .boolean false)] compare⟩)
    (by decide +kernel)

/-- Setting one of two columns loses the other. -/
theorem partial_update_loses_column : (flagPair.versionAt ⟨1, .default⟩ 1).isSome = true ∧
    ¬ flagPair.StoresValidated 1 (.ofList [(0, .boolean true)] compare) ⟨1, .default⟩
      (fun _ => none) := by
  refine ⟨by decide +kernel, fun h => ?_⟩
  have hstored := h.1 (by decide +kernel)
  exact absurd hstored (by decide +kernel)

end Table

end AntDb
