/-
  A table as its callers see it, and the tables whose pages agree with that view.

  A `View` has the rows and the columns and nothing about pages.  The pages of a table are
  `Housed` under a row map when every page that matters holds rows mapped to it only, and
  what evictions may bring back is what is there already; so the view does not change when
  pages move.
-/
import AntDb.Paging

namespace AntDb

/-- `rowIds` are the rows the table knows; `rows` those of them their page holds. -/
structure View where
  tableId : TableID
  rowIds : BTreeSet RowID
  rows : BTreeMap RowID Row
  columns : BTreeMap ColumnID Column
  nextRowId : RowID
deriving DecidableEq

abbrev RowMap := BTreeMap RowID PageID

/-- Some row is mapped to page `p`. -/
def RowMap.Maps (ρ : RowMap) (p : PageID) : Prop := ∃ r : RowID, ρ[r]? = some p

namespace Table

open Call TableM

variable {t t' : Table} {ρ : RowMap} {X : PageID → Prop} {p : PageID} {page page' : Page}
  {r : RowID} {row : Row}

/-- The row as the page `ρ` maps it to holds it, resident or not. -/
def rowIn (t : Table) (ρ : RowMap) (rowId : RowID) : Option Row :=
  (ρ[rowId]?.bind t.content).bind (·.rows[rowId]?)

abbrev rowAt (t : Table) (rowId : RowID) : Option Row := t.rowIn t.rowLocations rowId

/-- The page that the row is mapped to holds it. -/
def HoldsRow (t : Table) (r : RowID) (row : Row) : Prop :=
  ∃ p page, t.rowLocations[r]? = some p ∧ t.content p = some page ∧ page.rows[r]? = some row

/-- The view of a table whose rows are where `ρ` says. -/
def viewIn (t : Table) (ρ : RowMap) : View where
  tableId := t.tableId
  rowIds := .ofList ρ.keys compare
  rows := ρ.filterMap fun rowId pageId => (t.content pageId).bind (·.rows[rowId]?)
  columns := t.columns
  nextRowId := t.nextRowId

abbrev view (t : Table) : View := t.viewIn t.rowLocations

theorem viewIn_get : (t.viewIn ρ).rows[r]? = t.rowIn ρ r := by
  rw [viewIn, Std.ExtTreeMap.getElem?_filterMap', rowIn, Option.bind_assoc]

theorem holdsRow_iff : t.HoldsRow r row ↔ t.view.rows[r]? = some row := by
  simp only [HoldsRow, viewIn_get, rowIn, Option.bind_eq_some_iff]
  exact ⟨fun ⟨p, page, h₁, h₂, h₃⟩ => ⟨page, ⟨p, h₁, h₂⟩, h₃⟩,
    fun ⟨page, ⟨p, h₁, h₂⟩, h₃⟩ => ⟨p, page, h₁, h₂, h₃⟩⟩

theorem mem_rowIds : r ∈ (t.viewIn ρ).rowIds ↔ r ∈ ρ := by
  rw [viewIn, Std.ExtTreeSet.mem_ofList, List.contains_iff_mem, Std.ExtTreeMap.mem_keys]

/-- The rows of the view that are mapped to page `p`. -/
def pageRows (ρ : RowMap) (v : View) (p : PageID) : BTreeMap RowID Row :=
  v.rows.filter fun rowId _ => ρ[rowId]? = some p

/-- The pages hold the rows as `ρ` says, the pages in `X` left out. -/
structure Housed (ρ : RowMap) (X : PageID → Prop) (t : Table) : Prop where
  readable : t.pageStore.readFault = none
  writable : t.pageStore.writeFault = none
  filed : t.Filed
  settled : ∀ p, t.Resident p ∨ ρ.Maps p → ¬ X p →
    ∀ page page', t.Stored p page → t.Stored p page' → page.rows = page'.rows
  homed : ∀ p, t.Resident p ∨ ρ.Maps p → ¬ X p →
    ∀ page, t.Stored p page → ∀ r ∈ page.rows, ρ[r]? = some p
  located : ∀ p, ρ.Maps p → ∃ page, t.content p = some page
  unmapped : ∀ p, X p → ¬ ρ.Maps p
  resident_lt : ∀ p, t.Resident p → p < t.nextPageId
  mapped_lt : ∀ p, ρ.Maps p → p < t.nextPageId
  rowId_le : ∀ r ∈ ρ, r ≤ t.nextRowId

/-- The pages hold the rows as the row map of the table says. -/
abbrev Good (t : Table) : Prop := t.Housed t.rowLocations fun _ => False

/-- `t'` stores no rows that `t` did not store in the same page, and has lost none. -/
structure KeepsRows (ρ : RowMap) (t t' : Table) : Prop where
  readFault : t'.pageStore.readFault = t.pageStore.readFault
  writeFault : t'.pageStore.writeFault = t.pageStore.writeFault
  filed : t.Filed → t'.Filed
  resident : ∀ p, t'.Resident p → t.Resident p ∨ ρ.Maps p
  stored : ∀ p page', t'.Stored p page' → ∃ page, t.Stored p page ∧ page'.rows = page.rows
  present : t.pageStore.writeFault = none → t.Filed →
    ∀ p, (t.content p).isSome = true → (t'.content p).isSome = true
  nextPageId : t.nextPageId ≤ t'.nextPageId
  nextRowId : t.nextRowId ≤ t'.nextRowId

theorem Moved.keepsRows (hm : Moved ρ.Maps t t') : KeepsRows ρ t t' where
  readFault := hm.readFault
  writeFault := hm.writeFault
  filed := hm.filed
  resident _ := hm.resident
  stored p page' hs := ⟨page', hm.stored p page' hs, rfl⟩
  present := hm.present
  nextPageId := hm.nextPageId.ge
  nextRowId := hm.nextRowId.ge

namespace Housed

theorem settled_of_maps (h : t.Housed ρ X) (hp : ρ.Maps p) (hs : t.Stored p page)
    (hs' : t.Stored p page') : page.rows = page'.rows :=
  h.settled p (Or.inr hp) (fun hX => h.unmapped p hX hp) page page' hs hs'

/-- Pages that store the same rows stay housed. -/
theorem keepsRows (h : t.Housed ρ X) (hm : KeepsRows ρ t t') : t'.Housed ρ X where
  readable := hm.readFault.trans h.readable
  writable := hm.writeFault.trans h.writable
  filed := hm.filed h.filed
  settled p hp hX page page' hs hs' := by
    obtain ⟨page₁, h₁, e₁⟩ := hm.stored p page hs
    obtain ⟨page₂, h₂, e₂⟩ := hm.stored p page' hs'
    rw [e₁, e₂]
    exact h.settled p (hp.elim (hm.resident p) Or.inr) hX page₁ page₂ h₁ h₂
  homed p hp hX page hs r hr := by
    obtain ⟨page₁, h₁, e₁⟩ := hm.stored p page hs
    exact h.homed p (hp.elim (hm.resident p) Or.inr) hX page₁ h₁ r (e₁ ▸ hr)
  located p hp := by
    obtain ⟨page, hpage⟩ := h.located p hp
    exact Option.isSome_iff_exists.1 (hm.present h.writable h.filed p (by rw [hpage]; rfl))
  unmapped := h.unmapped
  resident_lt p hp :=
    lt_of_lt_of_le ((hm.resident p hp).elim (h.resident_lt p) (h.mapped_lt p)) hm.nextPageId
  mapped_lt p hp := lt_of_lt_of_le (h.mapped_lt p hp) hm.nextPageId
  rowId_le r hr := (h.rowId_le r hr).trans hm.nextRowId

theorem rowIn_keepsRows (h : t.Housed ρ X) (hm : KeepsRows ρ t t') (r : RowID) :
    t'.rowIn ρ r = t.rowIn ρ r := by
  rw [rowIn, rowIn]
  cases hr : ρ[r]? with
  | none => rfl
  | some p =>
    obtain ⟨page, hpage⟩ := h.located p ⟨r, hr⟩
    obtain ⟨page', hpage'⟩ := (h.keepsRows hm).located p ⟨r, hr⟩
    obtain ⟨page₁, h₁, e₁⟩ := hm.stored p page' (stored_content hpage')
    rw [Option.bind_some, Option.bind_some, hpage, hpage', Option.bind_some, Option.bind_some, e₁,
      h.settled_of_maps ⟨r, hr⟩ h₁ (stored_content hpage)]

/-- Moving pages keeps them housed. -/
theorem moved (h : t.Housed ρ X) (hm : Moved ρ.Maps t t') : t'.Housed ρ X := h.keepsRows hm.keepsRows

theorem rowIn_moved (h : t.Housed ρ X) (hm : Moved ρ.Maps t t') (r : RowID) :
    t'.rowIn ρ r = t.rowIn ρ r := h.rowIn_keepsRows hm.keepsRows r

/-- **Moving pages keeps the view.** -/
theorem view_moved (h : t.Housed ρ X) (hm : Moved ρ.Maps t t') : t'.viewIn ρ = t.viewIn ρ := by
  have hrows : (t'.viewIn ρ).rows = (t.viewIn ρ).rows :=
    Std.ExtTreeMap.ext_getElem? fun r => by rw [viewIn_get, viewIn_get, h.rowIn_moved hm r]
  have hview : ∀ t : Table, t.viewIn ρ =
      ⟨t.tableId, .ofList ρ.keys compare, (t.viewIn ρ).rows, t.columns, t.nextRowId⟩ := fun _ => rfl
  rw [hview t', hview t, hrows, hm.tableId, hm.columns, hm.nextRowId]

/-- What a page holds, whichever copy is looked at. -/
theorem rows_of_stored (h : t.Housed ρ X) (hp : t.Resident p ∨ ρ.Maps p) (hX : ¬ X p)
    (hs : t.Stored p page) : page.rows = pageRows ρ (t.viewIn ρ) p := by
  refine Std.ExtTreeMap.ext_getElem? fun r => ?_
  rw [pageRows, Std.ExtTreeMap.getElem?_filter', viewIn_get, rowIn]
  cases hr : ρ[r]? with
  | none =>
    cases hrow : page.rows[r]? with
    | none => rfl
    | some row => rw [h.homed p hp hX page hs r (BTreeMap.mem_of_get hrow)] at hr; cases hr
  | some q =>
    obtain ⟨page', hpage'⟩ := h.located q ⟨r, hr⟩
    rw [Option.bind_some, hpage', Option.bind_some]
    by_cases hq : q = p
    · subst hq
      rw [h.settled_of_maps ⟨r, hr⟩ hs (stored_content hpage')]
      cases page'.rows[r]? <;> simp [Option.filter]
    · have : page.rows[r]? = none := by
        by_contra hne
        obtain ⟨row, hrow⟩ := Option.ne_none_iff_exists'.1 hne
        rw [h.homed p hp hX page hs r (BTreeMap.mem_of_get hrow)] at hr
        exact hq (Option.some.inj hr).symm
      rw [this]
      cases page'.rows[r]? <;> simp [hq]

end Housed

/-- A row in the view is mapped. -/
theorem mapped_of_row (h : (t.viewIn ρ).rows[r]? = some row) : ∃ p, ρ[r]? = some p := by
  rw [viewIn_get, rowIn, Option.bind_assoc] at h
  obtain ⟨p, hp, -⟩ := Option.bind_eq_some_iff.1 h
  exact ⟨p, hp⟩

end Table

end AntDb
