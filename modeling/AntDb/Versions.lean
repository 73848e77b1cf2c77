/-
  Properties of row versions that the pages of a table keep: what is true of every version a
  transaction writes, and of a version it marks or rolls back, stays true of all of them.
-/
import AntDb.Rollbacks

namespace AntDb

open LastMatch

variable {P P' : InternalRow → Prop} {txn : Transaction} {data : RowData}

/-- What a transaction writes, it writes so that `P` holds. -/
structure Admits (P : InternalRow → Prop) (txn : Transaction) : Prop where
  created : ∀ data, P ⟨.created txn, data⟩
  marked : ∀ v, P v → P (v.mark txn)

/-! ## Versions of a row -/

namespace Row

variable {row : Row}

/-- Every version of the row satisfies `P`. -/
def All (P : InternalRow → Prop) (row : Row) : Prop := ∀ v ∈ row.versions, P v

theorem all_new (hP : Admits P txn) : (Row.new txn data).All P := by
  intro v hv
  obtain rfl := List.mem_singleton.1 hv
  exact hP.created data

theorem All.remove (h : row.All P) (hP : Admits P txn) : (row.remove txn).All P := by
  intro v hv
  rcases mem_updateLast hv with hv | ⟨v', hv', -, rfl⟩
  · exact h v hv
  · exact hP.marked v' (h v' hv')

theorem All.update (h : row.All P) (hP : Admits P txn) : (row.update txn data).All P := by
  intro v hv
  rcases List.mem_append.1 hv with hv | hv
  · exact h.remove hP v hv
  · exact all_new hP v hv

theorem All.rollback (h : row.All P) (hroll : ∀ v, P v → P' (v.rollback txn)) :
    (row.rollbackTransaction txn).All P' := by
  intro v hv
  obtain ⟨v', hv', rfl⟩ := List.mem_map.1 hv
  exact hroll v' (h v' hv')

end Row

/-! ## Versions on a page -/

namespace Page

variable {page page' : Page} {rowId : RowID} {row : Row}

theorem all_iff : page.All P ↔ ∀ x ∈ page.rows.toList, ∀ v ∈ x.2.versions, P v := by
  constructor
  · intro h x hx
    exact h x.1 x.2 (BTreeMap.mem_toList.1 hx)
  · intro h r row hr
    exact h (r, row) (BTreeMap.mem_toList.2 hr)

instance [DecidablePred P] : Decidable (page.All P) := decidable_of_iff _ all_iff.symm

theorem All.mono (h : page.All P) (hP : ∀ v, P v → P' v) : page.All P' :=
  fun r row hr v hv => hP v (h r row hr v hv)

theorem All.congr (h : page.All P) (hrows : page'.rows = page.rows) : page'.All P :=
  fun r row hr => h r row (hrows ▸ hr)

theorem all_fresh {p : PageID} {size : ℕ} : (Page.new p size).All P := by
  intro r row hr
  exact absurd (BTreeMap.mem_of_get hr) Std.ExtTreeMap.not_mem_empty

theorem All.append (h : page.All P) (hrow : row.All P) {size : ℕ} :
    (page.append rowId row size).All P := by
  intro r row' hr
  have hr : (page.rows.insert rowId row)[r]? = some row' := hr
  rw [BTreeMap.get_insert] at hr
  split_ifs at hr
  · obtain rfl := Option.some.inj hr
    exact hrow
  · exact h r row' hr

theorem All.modify (h : page.All P) {g : Row → Row} (hg : ∀ row : Row, row.All P → (g row).All P)
    {dirty : Bool} : ({ page with rows := page.rows.modify rowId g, isDirty := dirty } : Page).All P := by
  intro r row hr
  have hr : (page.rows.modify rowId g)[r]? = some row := hr
  rw [BTreeMap.get_modify] at hr
  split_ifs at hr
  · obtain ⟨row', hr', rfl⟩ := Option.map_eq_some_iff.1 hr
    exact hg row' (h r row' hr')
  · exact h r row hr

theorem All.rolledBack (h : page.All P) (hroll : ∀ v, P v → P' (v.rollback txn)) :
    (Table.rolledBack page txn).All P' := by
  intro r row hr
  have hr : (page.rows.map fun _ row => row.rollbackTransaction txn)[r]? = some row := hr
  rw [Std.ExtTreeMap.getElem?_map] at hr
  obtain ⟨row', hr', rfl⟩ := Option.map_eq_some_iff.1 hr
  exact Row.All.rollback (h r row' hr') hroll

end Page

end AntDb
