/-
  Statements that write no rows.

  They read rows, which moves pages, and they may change columns and their indexes.  `SELECT`,
  `COPY TO`, `CREATE INDEX`, `DROP INDEX` and `ALTER TABLE` are of this kind.
-/
import AntDb.Filing
import AntDb.Statements

namespace AntDb

open Call

namespace Table

variable {t t' t'' : Table} {ρ : RowMap} {columnId : ColumnID} {txn : Transaction}

/-- `t'` is `t` with other columns, after evictions and loads of pages with rows. -/
def Surveyed (t t' : Table) : Prop :=
  ∃ columns n, Moved t.Referenced { t with columns := columns, nextColumnId := n } t'

theorem Surveyed.refl (t : Table) : t.Surveyed t := ⟨t.columns, t.nextColumnId, Moved.refl _ t⟩

theorem Surveyed.of_moved (h : Moved t.Referenced t t') : t.Surveyed t' :=
  ⟨t.columns, t.nextColumnId, h⟩

theorem Surveyed.rowLocations (h : t.Surveyed t') : t'.rowLocations = t.rowLocations := by
  obtain ⟨columns, n, hm⟩ := h; exact hm.rowLocations

/-- Columns do not matter to where pages are. -/
theorem Moved.withColumns {L : PageID → Prop} (h : Moved L t t') (columns : BTreeMap ColumnID Column)
    (n : ColumnID) : Moved L { t with columns := columns, nextColumnId := n }
      { t' with columns := columns, nextColumnId := n } where
  rest := congrArg (fun t => { t with columns := columns, nextColumnId := n }) h.rest
  stored := h.stored
  kept := h.kept
  filed := h.filed
  present := h.present
  writes := h.writes

theorem Surveyed.trans (h : t.Surveyed t') (h' : t'.Surveyed t'') : t.Surveyed t'' := by
  obtain ⟨columns, n, hm⟩ := h
  obtain ⟨columns', n', hm'⟩ := h'
  have href : t'.Referenced = t.Referenced := hm.referenced
  exact ⟨columns', n', (hm.withColumns columns' n').trans (href ▸ hm')⟩

/-- Tables with the row map `ρ` whose rows nobody writes. -/
def rowFree (ρ : RowMap) : Frame (Option PageID) Table Fault where
  env := none
  inv t := t.rowLocations = ρ
  rel := Surveyed
  exempt e := e = .blocked
  refl := Surveyed.refl
  trans := Surveyed.trans
  keep h h' := h'.rowLocations.trans h

theorem loads_rowFree : Loads (rowFree ρ) ρ where
  locations _ ht := ht
  ensure p hp held t ht := by
    rcases ensurePageResident_spec p held t with h | ⟨-, -, hm, -⟩
    · exact Or.inl ⟨.blocked, h.1, rfl⟩
    · refine Or.inr ⟨trivial, Surveyed.of_moved (hm.mono fun q hq => ?_)⟩
      have ht : t.rowLocations = ρ := ht
      rw [hq, Referenced, ht]; exact hp
  exempt _ h := h

theorem surveyed_withColumns (t : Table) (columns : BTreeMap ColumnID Column) (n : ColumnID) :
    t.Surveyed { t with columns := columns, nextColumnId := n } :=
  ⟨columns, n, Moved.refl _ _⟩

end Table

namespace Database

variable {db db' db'' : Database}

/-- `db'` differs from `db` in columns and in where pages are. -/
structure Surveyed (db db' : Database) : Prop where
  config : db'.config = db.config
  txns : db'.txns = db.txns
  nextTableId : db'.nextTableId = db.nextTableId
  pageFiles : db'.pageFiles = db.pageFiles
  tables : ∀ name : String, Option.Rel Table.Surveyed db.tables[name]? db'.tables[name]?

theorem Surveyed.refl (db : Database) : db.Surveyed db where
  config := rfl
  txns := rfl
  nextTableId := rfl
  pageFiles := rfl
  tables name := by
    cases db.tables[name]? with
    | none => exact .none
    | some t => exact .some (.refl t)

theorem Surveyed.trans (h : db.Surveyed db') (h' : db'.Surveyed db'') : db.Surveyed db'' where
  config := h'.config.trans h.config
  txns := h'.txns.trans h.txns
  nextTableId := h'.nextTableId.trans h.nextTableId
  pageFiles := h'.pageFiles.trans h.pageFiles
  tables name := by
    have h := h.tables name
    have h' := h'.tables name
    generalize db.tables[name]? = o, db'.tables[name]? = o', db''.tables[name]? = o'' at h h' ⊢
    cases h with
    | none => exact h'
    | some h =>
      cases h' with
      | some h' => exact .some (h.trans h')

def rowFree : Frame Unit Database Fault where
  env := ()
  inv _ := True
  rel := Surveyed
  exempt e := e = .blocked
  refl := Surveyed.refl
  trans := Surveyed.trans
  keep _ _ := trivial

/-- A table call that writes no rows. -/
theorem follows_inTable {α : Type} {name : String} {x : TableM α}
    (h : ∀ ρ, Follows (Table.rowFree ρ) x) : Follows rowFree (inTable name x) := by
  intro _ db _
  unfold inTable
  cases ht : db.tables[name]? with
  | none => exact Or.inr ⟨trivial, Surveyed.refl db⟩
  | some t =>
    refine (h t.rowLocations none t rfl).imp_right fun ⟨_, hs⟩ => ⟨trivial, ?_⟩
    constructor
    · rfl
    · rfl
    · rfl
    · rfl
    · intro name'
      rw [BTreeMap.get_insert]
      split_ifs with hname
      · subst hname; rw [ht]; exact .some hs
      · exact (Surveyed.refl db).tables name'

end Database

/-- The body of a statement that writes no rows, for a transaction. -/
structure RowFreeBody where
  run : TransactionID → DbM String
  rowFree : ∀ id, Follows Database.rowFree (run id)

/-- `SELECT` from one table. -/
def RowFreeBody.select (tableName : String) (request : SearchRequest)
    (accessPath : Option AccessPath) : RowFreeBody where
  run id := do
    let name ← Database.requireTable tableName
    let _ ← Database.asTransaction name id (Table.search request · accessPath)
    return "SELECT"
  rowFree id := by
    refine Follows.bind (Follows.get fun db _ => ?_) fun name => Follows.bind (Follows.get fun db _ =>
      Database.follows_inTable fun ρ => Table.follows_search Table.loads_rowFree) fun _ => Follows.pure
    cases db.getTable tableName with
    | none => exact Follows.fail
    | some name => exact Follows.pure

end AntDb
