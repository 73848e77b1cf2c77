/-
  Calls that read stay within every frame that loading a page stays within, and calls that
  place and write rows stay within every frame that the changes of single pages stay within.
-/
import AntDb.Search
import AntDb.Placing

namespace AntDb.Table

open Call TableM

variable {F : Frame (Option PageID) Table Fault} {α : Type} {rowId : RowID} {columnId : ColumnID} {txn : Transaction}
  {value : DataBaseDataEntry} {others : ForeignTables} {visible : BTreeMap String ColumnID}
  {filter : Option SearchExpression} {request : SearchRequest} {accessPath : Option AccessPath}

/-- A frame of tables with the row map `ρ` that loading a page with rows stays within; all it may
    leave out are calls that wait for a lock. -/
structure Loads (F : Frame (Option PageID) Table Fault) (ρ : RowMap) : Prop where
  locations : ∀ t, F.inv t → t.rowLocations = ρ
  ensure : ∀ p, ρ.Maps p → Follows F (ensurePageResident p)
  exempt : ∀ e, F.exempt e → e = .blocked

/-- The same for the environment of the frame alone. -/
structure LoadsHere (F : Frame (Option PageID) Table Fault) (ρ : RowMap) : Prop where
  locations : ∀ t, F.inv t → t.rowLocations = ρ
  ensure : ∀ p, ρ.Maps p → Stays F (ensurePageResident p)

theorem Loads.here {ρ : RowMap} (h : Loads F ρ) (held : Option PageID) :
    LoadsHere (F.within held) ρ where
  locations := h.locations
  ensure p hp := h.ensure p hp held

theorem stays_lockPage {p : PageID} : Stays F (lockPage p) := by
  intro t _
  refine Or.inr ⟨trivial, ?_⟩
  unfold lockPage
  split_ifs <;> exact F.refl t

theorem stays_throw {e : DataBaseErrors} : Stays F (throw e : TableM α) := Stays.fail

theorem stays_ofResult {r : Except DataBaseErrors α} : Stays F (TableM.ofResult r) := Stays.ofExcept

theorem follows_lockPage {p : PageID} : Follows F (lockPage p) := fun _ => stays_lockPage

theorem follows_throw {e : DataBaseErrors} : Follows F (throw e : TableM α) := Follows.fail

theorem follows_ofResult {r : Except DataBaseErrors α} : Follows F (TableM.ofResult r) := Follows.ofExcept

theorem follows_ofResult_bind {β : Type} {r : Except DataBaseErrors α} {f : α → TableM β}
    (h : ∀ a, r = .ok a → Follows F (f a)) : Follows F (TableM.ofResult r >>= f) := by
  refine Follows.ofExcept_bind fun a ha => h a ?_
  cases r with
  | error e => cases ha
  | ok b => exact congrArg Except.ok (Except.ok.inj ha)

theorem follows_read {f : Table → Except DataBaseErrors α} : Follows F (TableM.read f) :=
  Follows.get fun _ _ => follows_ofResult

/-! ## Lookups -/

section LoadsHere

variable {ρ : RowMap} (h : LoadsHere F ρ)
include h

theorem stays_pageForRow : Stays F (pageForRow rowId) := by
  refine Stays.get fun t ht => ?_
  cases hr : t.rowLocations[rowId]? with
  | none => exact stays_throw
  | some p => exact h.ensure p ⟨rowId, h.locations t ht ▸ hr⟩

theorem stays_withRow : Stays F (withRow rowId) :=
  (stays_pageForRow h).bind fun _ => stays_lockPage.bind fun _ => Stays.pure

theorem stays_withVersionedColumnEntry : Stays F (withVersionedColumnEntry rowId columnId txn) :=
  (stays_withRow h).bind fun _ => Stays.pure

theorem stays_scanVisible {σ : Type} {f : σ → RowID → InternalRow → Except DataBaseErrors σ}
    {init : σ} : Stays F (scanVisible txn f init) := by
  refine Stays.get fun t ht => Stays.foldlM fun acc p hp => ?_
  have hmaps : ρ.Maps p := h.locations t ht ▸ mem_referencedPages.1 (Std.ExtTreeSet.mem_toList.1 hp)
  refine (h.ensure p hmaps).bind fun page => stays_lockPage.bind fun _ =>
    Stays.foldlM fun acc x _ => ?_
  cases x.2.getVersionedRow txn with
  | none => exact Stays.pure
  | some version => exact stays_ofResult

theorem stays_filterVisibleIndexCandidates {rowIds : List RowID} :
    Stays F (filterVisibleIndexCandidates rowIds txn) :=
  Stays.foldlM fun _ _ _ => (stays_withRow h).bind fun _ => Stays.pure

theorem stays_lookupRowsByColumnValue :
    Stays F (lookupRowsByColumnValue columnId value txn) := by
  refine Stays.get fun t _ => ?_
  cases t.columns[columnId]? with
  | none => exact stays_throw
  | some column =>
    dsimp only
    cases column.indexLookup value txn with
    | none => exact stays_scanVisible h
    | some rowIds => exact stays_filterVisibleIndexCandidates h

theorem stays_foreignKeyValueExists {tableId : TableID} :
    Stays F (foreignKeyValueExists others txn tableId columnId value) := by
  unfold foreignKeyValueExists
  split_ifs
  · exact Stays.pure
  · cases others tableId with
    | some answer => exact stays_ofResult
    | none =>
      refine Stays.get fun t _ => ?_
      split_ifs
      · exact (stays_lookupRowsByColumnValue h).bind fun _ => Stays.pure
      · exact Stays.pure

omit h in
theorem stays_schemaValidation {column : InternalColumn} {excludeRowId : Option RowID}
    {lookup : RowID → TableM (Option DataBaseDataEntry)}
    {fk : TableID → ColumnID → DataBaseDataEntry → TableM Bool}
    (hl : ∀ r, Stays F (lookup r)) (hf : ∀ i c e, Stays F (fk i c e)) :
    Stays F (column.schemaValidation value lookup fk excludeRowId) := by
  unfold InternalColumn.schemaValidation
  refine Stays.forM fun c _ => ?_
  cases c
  case notNull => dsimp only; split_ifs; exacts [stays_throw, Stays.pure]
  case unique | primaryKey =>
    dsimp only
    cases column.index with
    | none => exact stays_throw
    | some index =>
      refine Stays.forM fun r _ => ?_
      split_ifs
      · exact Stays.pure
      · refine (hl r).bind fun found => ?_
        cases found with
        | none => exact Stays.pure
        | some found =>
          dsimp only
          split_ifs
          · exact stays_throw
          · exact Stays.pure
  case foreignKey table columnId =>
    dsimp only
    split_ifs
    · exact Stays.pure
    · refine (hf _ _ _).bind fun found => ?_
      cases found
      · exact stays_throw
      · exact Stays.pure
  case check => dsimp only; split_ifs; exacts [Stays.pure, stays_throw]
  case autoIncrement => exact Stays.pure

theorem stays_validateRowData {data : RowData} {excludeRowId : Option RowID} :
    Stays F (validateRowData data txn excludeRowId (foreignKeyValueExists others txn)) := by
  refine Stays.get fun t _ => Stays.forM fun x _ => ?_
  cases x.2.getVersionedColumn txn with
  | none => exact Stays.pure
  | some version =>
    dsimp only
    split_ifs
    · exact stays_throw
    · unfold Column.schemaValidation
      cases x.2.getVersionedColumn txn with
      | none => exact Stays.pure
      | some version =>
        exact stays_schemaValidation (fun _ => stays_withVersionedColumnEntry h)
          fun _ _ _ => stays_foreignKeyValueExists h

end LoadsHere

section Loads

variable {ρ : RowMap} (h : Loads F ρ)
include h

theorem follows_pageForRow : Follows F (pageForRow rowId) := fun held => stays_pageForRow (h.here held)

theorem follows_withRow : Follows F (withRow rowId) := fun held => stays_withRow (h.here held)

theorem follows_withVersionedColumnEntry : Follows F (withVersionedColumnEntry rowId columnId txn) :=
  fun held => stays_withVersionedColumnEntry (h.here held)

theorem follows_getRow : Follows F (getRow rowId) := by
  refine (follows_withRow h).bind fun row => ?_
  cases row with
  | none => exact follows_throw
  | some row => exact Follows.pure

theorem follows_scanVisible {σ : Type} {f : σ → RowID → InternalRow → Except DataBaseErrors σ}
    {init : σ} : Follows F (scanVisible txn f init) := fun held => stays_scanVisible (h.here held)

theorem follows_filterVisibleIndexCandidates {rowIds : List RowID} :
    Follows F (filterVisibleIndexCandidates rowIds txn) := fun held =>
  stays_filterVisibleIndexCandidates (h.here held)

theorem follows_validateRowData {data : RowData} {excludeRowId : Option RowID} :
    Follows F (validateRowData data txn excludeRowId (foreignKeyValueExists others txn)) :=
  fun held => stays_validateRowData (h.here held)

/-! ## Searches -/

theorem follows_indexLookupCandidates {columnName : String} :
    Follows F (indexLookupCandidates columnName value txn visible) := by
  unfold indexLookupCandidates
  cases visible[columnName]? with
  | none => exact Follows.pure
  | some columnId =>
    refine Follows.get fun t _ => ?_
    cases t.columns[columnId]? with
    | none => exact follows_throw
    | some column =>
      dsimp only
      cases column.indexLookup value txn with
      | none => exact Follows.pure
      | some rowIds => exact (follows_filterVisibleIndexCandidates h).bind fun _ => Follows.pure

theorem follows_equalityCandidates : Follows F (equalityCandidates filter txn visible) := by
  unfold equalityCandidates
  cases filter.bind (·.equalityLookup) with
  | none => exact Follows.pure
  | some x => exact follows_indexLookupCandidates h

theorem follows_candidateRowIds : Follows F (candidateRowIds request txn accessPath visible) := by
  unfold candidateRowIds
  rcases accessPath with _ | _ | ⟨columnName, value⟩
  · exact follows_equalityCandidates h
  · exact Follows.pure
  · exact follows_indexLookupCandidates h

theorem follows_matchingRowIds {candidates : Option (List RowID)} :
    Follows F (matchingRowIds filter txn visible candidates) := by
  unfold matchingRowIds
  cases candidates with
  | none => exact follows_scanVisible h
  | some rowIds =>
    refine Follows.foldlM fun found rowId _ => (follows_withRow h).bind fun row => ?_
    cases row.bind (·.getVersionedRow txn) with
    | none => exact Follows.pure
    | some version => exact follows_ofResult

theorem follows_sortsAfter {columns : List (ColumnID × OrderBy)} {a b : RowID} :
    Follows F (sortsAfter columns txn a b) := by
  have hexpect : ∀ r columnId, Follows F
      ((withVersionedColumnEntry r columnId txn).expect unreadableDuringSort) := fun r columnId =>
    (follows_withVersionedColumnEntry h).handling (fun e => by cases e <;> exact Follows.fail)
      fun e he env t => by rw [h.exempt e he]; rfl
  induction columns with
  | nil => exact Follows.pure
  | cons x columns ih =>
    obtain ⟨columnId, orderBy⟩ := x
    refine (hexpect a columnId).bind fun left => (hexpect b columnId).bind fun right => ?_
    cases (left.getD .null).cmp (right.getD .null) <;> cases orderBy <;>
      first | exact ih | exact Follows.pure

theorem follows_insertSorted {columns : List (ColumnID × OrderBy)} {a : RowID} {sorted : List RowID} :
    Follows F (insertSorted columns txn a sorted) := by
  induction sorted with
  | nil => exact Follows.pure
  | cons b sorted ih =>
    refine (follows_sortsAfter h).bind fun after => ?_
    cases after
    · exact Follows.pure
    · exact ih.bind fun _ => Follows.pure

theorem follows_sortRowIds {columns : List (ColumnID × OrderBy)} {rowIds : List RowID} :
    Follows F (sortRowIds columns txn rowIds) := by
  induction rowIds with
  | nil => exact Follows.pure
  | cons a rowIds ih => exact ih.bind fun _ => follows_insertSorted h

theorem follows_projectRow {projection : List (String × ColumnID)} :
    Follows F (projectRow projection txn rowId) := by
  refine (follows_withRow h).bind fun row => ?_
  cases row.bind (·.getVersionedRow txn) with
  | none => exact follows_throw
  | some version => exact Follows.pure

theorem follows_search : Follows F (search request txn accessPath) := by
  unfold search
  refine Follows.get fun t _ => ?_
  dsimp only
  rcases request.aggregate with _ | ⟨outputName⟩
  · refine follows_ofResult.bind fun projection => follows_ofResult.bind fun sort =>
      (follows_candidateRowIds h).bind fun candidates => (follows_matchingRowIds h).bind fun matching =>
        Follows.bind ?_ fun sorted => Follows.foldlM fun results rowId _ =>
          (follows_projectRow h).bind fun _ => Follows.pure
    unfold sortMatching
    split_ifs
    · exact Follows.pure
    · exact follows_sortRowIds h
  · dsimp only [searchCount]
    split_ifs
    · exact follows_throw
    · exact (follows_equalityCandidates h).bind fun _ => (follows_matchingRowIds h).bind fun _ =>
        Follows.pure

end Loads

/-! ## Placing rows -/

/-- A frame that registering a page, and rewriting one as `R` allows, stays within. -/
structure Opens (F : Frame (Option PageID) Table Fault) (R : (Page → Page) → Prop) : Prop where
  evict : ∀ pinned, Follows F (maybeEvictPages pinned)
  opened : ∀ t, F.inv t → F.rel t t.opened
  touched : ∀ p t, F.inv t → F.rel t (t.touchPage p)
  rewritten : ∀ f, R f → ∀ p hf t, F.inv t → F.rel t (t.rewritten p f hf)

/-- The same, where `R` allows all changes of a page that concern no rows. -/
structure Places (F : Frame (Option PageID) Table Fault) (R : (Page → Page) → Prop) : Prop
    extends Opens F R where
  flags : ∀ f : Page → Page, (∀ page, (f page).rows = page.rows) →
    (∀ page, page.isDirty = true → (f page).isDirty = true) → R f

section Opens

variable {R : (Page → Page) → Prop} (h : Opens F R) {p : PageID} {row : Row} {size : ℕ}
include h

theorem follows_registerPage : Follows F registerPage := by
  intro held t ht
  have hopened := h.opened t ht
  have hevict := (h.evict none).bind (fun _ => Follows.pure (a := t.nextPageId)) held t.opened
    (F.keep ht hopened)
  exact hevict.imp_right fun hevict => ⟨trivial, F.trans hopened hevict.2⟩

theorem follows_forceAppendToPage (hR : R (·.append rowId row size)) :
    Follows F (forceAppendToPage p rowId row size) :=
  Follows.modify fun t ht => h.rewritten _ hR p (fun _ => rfl) t ht

theorem follows_tryAppendToTailPage (hR : R (·.append rowId row size)) :
    Follows F (tryAppendToTailPage rowId row size) := by
  refine Follows.get fun t _ => ?_
  cases t.rowSpace.keys.getLast?.bind t.rowSpace.get? with
  | none => exact Follows.pure
  | some tail =>
    dsimp only
    split_ifs
    · exact (follows_forceAppendToPage h hR).bind fun _ =>
        (Follows.modify (h.touched tail.pageId)).bind fun _ => Follows.pure
    · exact Follows.pure

theorem follows_insertRowIntoPage (hR : R (·.append rowId row size)) :
    Follows F (insertRowIntoPage rowId row size) := by
  refine (follows_tryAppendToTailPage h hR).bind fun tail => ?_
  cases tail with
  | some tail => exact Follows.pure
  | none =>
    refine (follows_tryAppendToTailPage h hR).bind fun tail => ?_
    cases tail with
    | some tail => exact Follows.pure
    | none =>
      exact (follows_registerPage h).bind fun _ => (follows_forceAppendToPage h hR).bind fun _ =>
        Follows.pure

/-! ## Writing rows -/

theorem follows_writeRow {g : Row → Row}
    (hR : R fun page => { page with rows := page.rows.modify rowId g, isDirty := true }) :
    Follows F (writeRow p rowId g) :=
  Follows.modify fun t ht => h.rewritten _ hR p (fun _ => rfl) t ht

variable {ρ : RowMap} (hl : Loads F ρ)
include hl

theorem follows_deleteRow
    (hR : R fun page => { page with rows := page.rows.modify rowId (·.remove txn), isDirty := true }) :
    Follows F (deleteRow rowId txn) := by
  refine (follows_pageForRow hl).bind fun page => follows_lockPage.bind fun _ => ?_
  split_ifs
  · exact follows_writeRow h hR
  · exact follows_throw

theorem follows_updateRow {data : RowData}
    (hR : R fun page =>
      { page with rows := page.rows.modify rowId (·.update txn data), isDirty := true })
    (hcolumns : ∀ t columns, F.inv t → F.rel t { t with columns := columns }) :
    Follows F (updateRow rowId data txn others) := by
  refine (follows_pageForRow hl).bind fun page => follows_lockPage.bind fun _ => ?_
  cases page.rows[rowId]? with
  | none => exact follows_throw
  | some row =>
    exact (follows_validateRowData hl).within.bind fun _ => (follows_writeRow h hR).bind fun _ =>
      Follows.modify fun t ht => hcolumns t _ ht

end Opens

/-! ## Rows larger than a page -/

section Places

variable {R : (Page → Page) → Prop} (h : Places F R) {p : PageID} {row : Row} {size : ℕ}
include h

theorem follows_extendOverflowChain (n : ℕ) : Follows F (extendOverflowChain n p) := by
  induction n generalizing p with
  | zero => exact Follows.pure
  | succ n ih =>
    have hoverflow := h.flags (fun page =>
      { page with isOverflow := true, usedBytes := page.capacity, isDirty := true })
      (fun _ => rfl) fun _ _ => rfl
    refine (follows_registerPage h.toOpens).bind fun continuation => Follows.bind ?_ fun _ =>
      Follows.bind ?_ fun _ => ih
    · exact Follows.modify fun t ht => h.rewritten _ hoverflow continuation (fun _ => rfl) t ht
    · have hnext := h.flags (fun page => { page with nextPage := some continuation })
        (fun _ => rfl) fun _ hd => hd
      exact Follows.modify fun t ht => h.rewritten _ hnext p (fun _ => rfl) t ht

theorem follows_placeNewRow (hR : R (·.append rowId row size)) :
    Follows F (placeNewRow rowId row size) := by
  refine Follows.get fun t _ => ?_
  split_ifs
  · exact (follows_registerPage h.toOpens).bind fun _ => (follows_forceAppendToPage h.toOpens hR).bind fun _ =>
      Follows.get fun _ _ => (follows_extendOverflowChain h _).bind fun _ => Follows.pure
  · exact follows_insertRowIntoPage h.toOpens hR

end Places

end AntDb.Table
