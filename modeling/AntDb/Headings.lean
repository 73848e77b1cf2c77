/-
  What statements that write rows leave of the columns: everything but their indexes.

  Names and types of the columns are read again for each row of an `UPDATE`; they are the same
  every time.
-/
import AntDb.Residence
import AntDb.Serving

namespace AntDb

open Call LastMatch

/-! ## Columns without their indexes -/

namespace InternalColumn

variable {v : InternalColumn} {txn : Transaction}

def bare (v : InternalColumn) : InternalColumn := { v with index := none, indexAddedBy := ∅ }

@[simp] theorem bare_name : v.bare.name = v.name := rfl

@[simp] theorem bare_dataType : v.bare.dataType = v.dataType := rfl

@[simp] theorem bare_isVisible : v.bare.isVisible txn = v.isVisible txn := rfl

@[simp] theorem bare_updateIndex {columnId : ColumnID} {value : DataBaseDataEntry} {rowId : RowID}
    {id : TransactionID} : (v.updateIndex columnId value rowId id).bare = v.bare := by
  unfold updateIndex
  cases v.index <;> rfl

end InternalColumn

namespace Column

variable {column : Column} {txn : Transaction}

def bare (column : Column) : Column := ⟨column.versions.map InternalColumn.bare⟩

@[simp] theorem bare_getVersionedColumn :
    column.bare.getVersionedColumn txn = (column.getVersionedColumn txn).map InternalColumn.bare := by
  simp only [getVersionedColumn, bare]
  exact findLast_map fun _ _ => InternalColumn.bare_isVisible

@[simp] theorem bare_updateIndex {columnId : ColumnID} {value : DataBaseDataEntry} {rowId : RowID}
    {txn : Transaction} : (column.updateIndex columnId value rowId txn).bare = column.bare := by
  simp only [updateIndex, bare, mk.injEq]
  rcases LastMatch.cases (fun v : InternalColumn => v.isVisible txn) column.versions with hnone | ⟨pre, v, post, hlast⟩
  · rw [updateLast_none hnone]
  · rw [hlast.updateLast, hlast.eq]
    simp

end Column

namespace Table

variable {t t' : Table} {columns columns' : BTreeMap ColumnID Column} {txn : Transaction} {rowId : RowID}
  {columnId : ColumnID} {data : RowData}

def bareColumns (columns : BTreeMap ColumnID Column) : BTreeMap ColumnID Column :=
  columns.map fun _ column => column.bare

@[simp] theorem get_bareColumns : (bareColumns columns)[columnId]? = (columns[columnId]?).map Column.bare :=
  Std.ExtTreeMap.getElem?_map

@[simp] theorem bareColumns_updateIndexesForRow :
    bareColumns (updateIndexesForRow rowId data txn columns) = bareColumns columns := by
  refine Std.ExtTreeMap.ext_getElem? fun c => ?_
  simp only [get_bareColumns, updateIndexesForRow, Std.ExtTreeMap.getElem?_map]
  cases columns[c]? with
  | none => rfl
  | some column =>
    refine congrArg some ?_
    dsimp only
    split_ifs
    · cases data[c]? <;> simp
    · rfl

/-- The visible columns do not depend on the indexes. -/
theorem visibleColumns_bare : visibleColumns (bareColumns columns) txn = visibleColumns columns txn := by
  simp only [visibleColumns, bareColumns, Std.ExtTreeMap.toList_map, List.foldl_map, Column.bare_getVersionedColumn]
  congr 1
  funext visible x
  cases x.2.getVersionedColumn txn <;> rfl

/-- `column_data_type` of a column that is there. -/
def columnDataType (columns : BTreeMap ColumnID Column) (txn : Transaction) (columnId : ColumnID) :
    Except DataBaseErrors (Option DataBaseDataType) :=
  match columns[columnId]? with
  | none => .error (.queryError s!"Column {columnId} not found")
  | some column => .ok ((column.getVersionedColumn txn).map (·.dataType))

/-- The tables have the same rows on the same pages, and the same columns up to the indexes. -/
structure SameHeadings (t t' : Table) : Prop where
  rowLocations : t'.rowLocations = t.rowLocations
  columns : bareColumns t'.columns = bareColumns t.columns

def heading (ρ : RowMap) : Frame (Option PageID) Table Fault where
  env := none
  inv t := t.rowLocations = ρ
  rel := SameHeadings
  exempt e := e = .blocked
  refl _ := ⟨rfl, rfl⟩
  trans h h' := ⟨h'.rowLocations.trans h.rowLocations, h'.columns.trans h.columns⟩
  keep ht h := h.rowLocations.trans ht

variable {ρ : RowMap} {others : ForeignTables} {request : SearchRequest} {path : Option AccessPath}

theorem loads_heading : Loads (heading ρ) ρ where
  locations _ ht := ht
  ensure p _ held t _ := by
    rcases ensurePageResident_spec p held t with h | ⟨-, -, hm, -⟩
    · exact Or.inl ⟨.blocked, h.1, rfl⟩
    · exact Or.inr ⟨trivial, hm.rowLocations, congrArg bareColumns hm.columns⟩
  exempt _ h := h

theorem heading_search : Follows (heading ρ) (search request txn path) := follows_search loads_heading

theorem heading_writeRow {p : PageID} {g : Row → Row} : Follows (heading ρ) (writeRow p rowId g) :=
  Follows.modify fun _ _ => ⟨rfl, rfl⟩

theorem heading_deleteRow : Follows (heading ρ) (deleteRow rowId txn) := by
  refine (follows_pageForRow loads_heading).bind fun page => follows_lockPage.bind fun _ => ?_
  split_ifs
  · exact heading_writeRow
  · exact follows_throw

theorem heading_updateRow : Follows (heading ρ) (updateRow rowId data txn others) := by
  refine (follows_pageForRow loads_heading).bind fun page => follows_lockPage.bind fun _ => ?_
  cases page.rows[rowId]? with
  | none => exact follows_throw
  | some row =>
    exact (follows_validateRowData loads_heading).within.bind fun _ => heading_writeRow.bind fun _ =>
      Follows.modify fun _ _ => ⟨rfl, bareColumns_updateIndexesForRow⟩

end Table

/-! ## Databases -/

namespace Database

variable {db db' db'' : Database} {name : String} {t : Table} {α : Type} {id : TransactionID}

/-- The same transactions, and the same columns up to the indexes. -/
structure SameHeadings (db db' : Database) : Prop where
  txns : db'.txns = db.txns
  tables : ∀ name : String, (db'.tables[name]?).map (fun t => Table.bareColumns t.columns) =
    (db.tables[name]?).map fun t => Table.bareColumns t.columns

def heading : Frame Unit Database Fault where
  env := ()
  inv _ := True
  rel := SameHeadings
  exempt e := e = .blocked
  refl _ := ⟨rfl, fun _ => rfl⟩
  trans h h' := ⟨h'.txns.trans h.txns, fun name => (h'.tables name).trans (h.tables name)⟩
  keep _ _ := trivial

theorem heading_asTransaction {x : Transaction → TableM α} (h : ∀ txn ρ, Follows (Table.heading ρ) (x txn)) :
    Follows heading (asTransaction name id x) := by
  intro _ db _
  show (∃ e, (inTable name (x (db.txn id)) () db).1 = _ ∧ _) ∨ True ∧ db.SameHeadings (inTable name (x (db.txn id)) () db).2
  unfold inTable
  cases ht : db.tables[name]? with
  | none => exact Or.inr ⟨trivial, rfl, fun _ => rfl⟩
  | some t =>
    refine (h (db.txn id) t.rowLocations none t rfl).imp_right fun ⟨_, hs⟩ => ⟨trivial, rfl, fun name' => ?_⟩
    simp only [BTreeMap.get_insert]
    split_ifs with hname
    · subst hname
      rw [ht]
      exact congrArg some hs.columns
    · rfl

theorem heading_search {request : SearchRequest} {path : Option AccessPath} :
    Follows heading (asTransaction name id (Table.search request · path)) :=
  heading_asTransaction fun _ _ => Table.heading_search

theorem heading_deleteRow {rowId : RowID} : Follows heading (asTransaction name id (Table.deleteRow rowId)) :=
  heading_asTransaction fun _ _ => Table.heading_deleteRow

theorem heading_updateRow {rowId : RowID} {data : RowData} {others : ForeignTables} :
    Follows heading (asTransaction name id (Table.updateRow rowId data · others)) :=
  heading_asTransaction fun _ _ => Table.heading_updateRow

end Database

end AntDb
