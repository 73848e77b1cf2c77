/-
  What `plan_and_execute` does to the rows that transactions running side by side read.

  A statement that has been bound says what becomes of the rows.  The executor reaches that row by
  row, with the columns read again for each; if it fails, its transaction is rolled back.
-/
import AntDb.Assigning
import AntDb.Effects

namespace AntDb.Sql

open Call Runs
open Database (requireTable asTransaction chooseFilterAccessPath)
open SessionOp (Coherent Wrote Shown Allowed)

/-! ## What a statement says -/

namespace LogicalPlan

/-- The table to whose rows the plan writes. -/
def writesTo : LogicalPlan → Option String
  | insert tableName _ | delete tableName _ | update tableName _ _ => some tableName
  | _ => none

/-- The tag of the answer. -/
def tag : LogicalPlan → String
  | insert _ _ => "INSERT"
  | delete _ _ => "DELETE"
  | update _ _ _ => "UPDATE"
  | _ => "SELECT"

/-- The rows to write to are looked up by a scan. -/
def Scans (db : Database) (T : TransactionID) : LogicalPlan → Prop
  | insert _ _ => True
  | delete tableName filter | update tableName _ filter =>
    ∀ path, (chooseFilterAccessPath tableName filter T () db).1 = .ok path → path = .seqScan
  | _ => False

/-- What the plan writes to the rows of the table `t`, which are `seen` before. -/
def effect (t : Table) (txn : Transaction) (seen : RowID → Option RowData) :
    LogicalPlan → RowID → Option (Option RowData)
  | insert _ rows, r => if t.nextRowId < r then rows[r - t.nextRowId - 1]?.map some else none
  | delete _ filter, r => ((seen r).filter (t.passes filter txn)).map fun _ => none
  | update _ assignments filter, r => ((seen r).filter (t.passes filter txn)).bind fun data =>
      (assignedRow t.columns txn assignments data).map some
  | _, _ => none

/-- What the plan writes for the transaction `T`, and to which table. -/
def writes (plan : LogicalPlan) (s : Database × SharedRows) (T : TransactionID) :
    Option (String × (RowID → Option (Option RowData))) :=
  (plan.writesTo.bind s.1.getTable).bind fun name => s.1.tables[name]?.map fun t =>
    (name, plan.effect t (s.1.txn T) fun r => s.2.rows.seen T (name, r))

/-- The map after the plan has run for `T`. -/
def executed (plan : LogicalPlan) (s : Database × SharedRows) (T : TransactionID) : SharedRows :=
  match plan.writes s T with
  | some (name, f) => s.2.overwrite T name f
  | none => s.2

/-- The rows that the plan writes to. -/
def written (plan : LogicalPlan) (s : Database × SharedRows) (T : TransactionID) : Set RowID :=
  {r | ∃ x ∈ plan.writes s T, (x.2 r).isSome}

/-- No other transaction in progress has written to a row that the plan writes to. -/
def Undisputed (plan : LogicalPlan) (s : Database × SharedRows) (T : TransactionID) : Prop :=
  ∀ x ∈ plan.writes s T, ∀ t ∈ s.1.tables[x.1]?, ∀ r ∈ t.rowLocations.keys, (x.2 r).isSome →
    SessionOp.Undisputed s T x.1 r

end LogicalPlan

/-! ## Calls that read -/

variable {db db' : Database} {m : SharedRows} {T : TransactionID} {name tableName : String} {t : Table}
  {filter : Option SearchExpression} {α : Type} {l : List (RowID × Option RowData)} {path : AccessPath}
  {fkLookup : ℕ → ForeignTables} {rows : List RowData} {assignments : List (String × Dml.UpdateAssignment)}

theorem bind_assoc {β γ : Type} {x : DbM α} {f : α → DbM β} {g : β → DbM γ} :
    (x >>= f) >>= g = x >>= fun a => f a >>= g := by
  funext env db
  simp only [bind_run]
  rcases x env db with ⟨e | a, db'⟩ <;> rfl

namespace LogicalPlan

variable {plan : LogicalPlan}

theorem writes_eq (hto : plan.writesTo = some tableName) (hname : db.getTable tableName = some name)
    (ht : db.tables[name]? = some t) : plan.writes (db, m) T =
      some (name, plan.effect t (db.txn T) fun r => m.rows.seen T (name, r)) := by
  rw [writes, hto, Option.bind_some, hname, Option.bind_some, ht]
  rfl

/-- Nobody else is at a row that the plan writes to and its transaction reads. -/
theorem Undisputed.row {r : RowID} {data : RowData} (hfree : plan.Undisputed (db, m) T)
    (hto : plan.writesTo = some tableName) (hname : db.getTable tableName = some name)
    (ht : db.tables[name]? = some t) (h : Coherent (db, m)) (hT : T ∈ db.txns.active)
    (hseen : m.rows.seen T (name, r) = some data)
    (hsome : (plan.effect t (db.txn T) (fun r => m.rows.seen T (name, r)) r).isSome) :
    SessionOp.Undisputed (db, m) T name r :=
  hfree _ (writes_eq hto hname ht) t ht r (Coherent.known_of_seen h hT ht hseen) hsome

end LogicalPlan

/-- The database and the answer after a statement. -/
def Answered (plan : LogicalPlan) (s : Database × SharedRows) (T : TransactionID) (result : ExecutionResult)
    (db : Database) : Prop :=
  Coherent (db, plan.executed s T) ∧ ∃ n : ℕ, result = .rowsAffected plan.tag n ∧ (plan.written s T).encard = n

instance (plan : LogicalPlan) (s : Database × SharedRows) (T : TransactionID) : Decidable (plan.Undisputed s T) :=
  inferInstanceAs (Decidable (∀ x ∈ plan.writes s T, ∀ t ∈ s.1.tables[x.1]?, ∀ r ∈ t.rowLocations.keys,
    (x.2 r).isSome → SessionOp.Undisputed s T x.1 r))

/-- The database and the map that the statement meets. -/
def flagsOfOthers : Database × SharedRows :=
  exec SessionOp.step (Database.new ⟨4096, 0⟩, SharedRows.empty) SessionOp.rowsOfOthers

end AntDb.Sql
