/-
  What a `CREATE TABLE` comes to.

  Its items (the types and options of its columns, then its table constraints) are looked at
  one after another; the first that is not accepted decides.  All are judged on the database
  with the new table registered, in which nothing but the new table changes meanwhile.
-/
import AntDb.Statements

namespace AntDb

open Call

/-- An item is accepted, is an error, or waits for the lock of the new table. -/
inductive Verdict where
  | accepted
  | refused
  | waits
deriving DecidableEq

namespace Verdict

/-- The verdict on a list of items. -/
def first (verdicts : List Verdict) : Verdict := (verdicts.find? (· ≠ accepted)).getD accepted

variable {l l' : List Verdict} {v : Verdict}

@[simp] theorem first_nil : first [] = accepted := rfl

@[simp] theorem first_singleton : first [v] = v := by cases v <;> rfl

theorem first_append : first (l ++ l') = if first l = accepted then first l' else first l := by
  unfold first
  rw [List.find?_append]
  cases h : l.find? (· ≠ accepted) with
  | none => rfl
  | some v =>
    have hv : v ≠ accepted := by simpa using List.find?_some h
    exact (if_neg hv).symm

theorem first_eq_accepted : first l = accepted ↔ ∀ v ∈ l, v = accepted := by
  unfold first
  cases h : l.find? (· ≠ accepted) with
  | none => simpa using h
  | some v =>
    have hv : v ≠ accepted := by simpa using List.find?_some h
    exact iff_of_false hv fun hall => hv (hall v (List.mem_of_find?_eq_some h))

/-- Without an item that waits, one that is not accepted makes the list refused. -/
theorem first_eq_refused (hw : ∀ v ∈ l, v ≠ waits) : first l = refused ↔ ∃ v ∈ l, v ≠ accepted := by
  have hmem : first l = accepted ∨ first l ∈ l := by
    unfold first
    cases h : l.find? (· ≠ accepted) with
    | none => exact Or.inl rfl
    | some v => exact Or.inr (List.mem_of_find?_eq_some h)
  have hall := first_eq_accepted (l := l)
  constructor
  · intro h
    by_contra hno
    push Not at hno
    rw [hall.2 hno] at h; cases h
  · rintro ⟨v, hv, hne⟩
    have hfirst : first l ≠ accepted := fun h => hne (hall.1 h v hv)
    have hin := hmem.resolve_left hfirst
    cases hf : first l with
    | accepted => exact absurd hf hfirst
    | refused => rfl
    | waits => exact absurd hf (hw _ hin)

end Verdict

namespace Database

/-! ## Verdicts -/

def referenceVerdict (db : Database) (created : String) (id : TransactionID)
    (foreignTable : ObjectName) (referredColumns : List String) : Verdict :=
  match referredColumns, foreignTable.getLast? with
  | [referred], some ident =>
    match db.getTable (normalizeIdentifier ident) with
    | none => .refused
    | some name =>
      if name = created then .waits
      else if ((db.tables[name]?).bind fun t =>
          (Table.visibleColumns t.columns (db.txn id))[normalizeIdentifier referred]?).isSome
        then .accepted
      else .refused
  | _, _ => .refused

def optionVerdict (db : Database) (created : String) (id : TransactionID) : ColumnOption → Verdict
  | .notNull | .null | .comment | .unique _ | .check => .accepted
  | .dialectSpecific tokens =>
    if " ".intercalate (tokens.map normalizeIdentifier) ∈ ["auto_increment", "autoincrement"]
      then .accepted
    else .refused
  | .foreignKey foreignTable referredColumns =>
    db.referenceVerdict created id foreignTable referredColumns
  | .default | .generated | .other _ => .refused

def columnVerdicts (db : Database) (created : String) (id : TransactionID) (column : ColumnDef) :
    List Verdict :=
  (if column.dataType.isOk then .accepted else .refused) ::
    column.options.map (db.optionVerdict created id)

/-- `names` are the names of the columns. -/
def constraintVerdict (db : Database) (created : String) (id : TransactionID) (names : List String) :
    TableConstraint → Verdict
  | .unique columns | .primaryKey columns =>
    if ∀ column ∈ columns, normalizeIdentifier column ∈ names then .accepted else .refused
  | .foreignKey [column] foreignTable referredColumns =>
    if normalizeIdentifier column ∈ names then
      db.referenceVerdict created id foreignTable referredColumns
    else .refused
  | .foreignKey _ _ _ | .check | .other => .refused

/-- The items of a `CREATE TABLE`, on the database in which the table is registered. -/
def verdicts (db : Database) (created : String) (id : TransactionID) (stmt : CreateTable) :
    List Verdict :=
  stmt.columns.flatMap (db.columnVerdicts created id) ++ stmt.constraints.map
    (db.constraintVerdict created id (stmt.columns.map fun column => normalizeIdentifier column.name))

/-! ## The database meanwhile -/

end Database

/-- A table without rows, whose indexes are empty. -/
def Table.Blank (t : Table) : Prop :=
  t.rowLocations = ∅ ∧ ∀ (columnId : ColumnID) column, t.columns[columnId]? = some column →
    ∀ v ∈ column.versions, v.index = none ∨ v.index = some ∅

namespace Table

open TableM

variable {t : Table} {columnId : ColumnID} {txn : Transaction}

theorem Blank.withColumn (h : t.Blank) (columnId : ColumnID) {column : Column}
    (hc : ∀ v ∈ column.versions, v.index = none ∨ v.index = some ∅) :
    Blank { t with columns := t.columns.insert columnId column } := by
  refine ⟨h.1, fun a column' ha => ?_⟩
  rw [BTreeMap.get_insert] at ha
  split_ifs at ha
  · obtain rfl := Option.some.inj ha; exact hc
  · exact h.2 a column' ha

theorem mem_insert_column {column : Column} {c : ColumnID} (h : c ∈ t.columns) :
    c ∈ t.columns.insert columnId column := Std.ExtTreeMap.mem_insert.2 (Or.inr h)

theorem ensureIndexReady_blank {column : Column} {v : InternalColumn}
    (hv : column.getVersionedColumn txn = some v)
    (h : ∀ v ∈ column.versions, v.index = none ∨ v.index = some ∅) :
    ∃ column', column.ensureIndexReady txn = .ok column' ∧
      ∀ v ∈ column'.versions, v.index = none ∨ v.index = some ∅ := by
  obtain ⟨pre, post, hlast⟩ := LastMatch.findLast_some.1 hv
  obtain ⟨v', hempty, hv'⟩ : ∃ v', v.ensureIndexEmpty = .ok v' ∧ v'.index = some ∅ := by
    unfold InternalColumn.ensureIndexEmpty
    rcases h v hlast.mem with hn | he
    · rw [hn]; exact ⟨_, rfl, rfl⟩
    · rw [he]; exact ⟨v, rfl, he⟩
  unfold Column.ensureIndexReady
  rw [hv]
  dsimp only
  rw [hempty]
  refine ⟨_, rfl, fun w hw => ?_⟩
  rcases LastMatch.mem_updateLast hw with hw | ⟨_, _, _, rfl⟩
  · exact h w hw
  · exact Or.inr hv'

theorem update_blank {column : Column} (h : ∀ v ∈ column.versions, v.index = none ∨ v.index = some ∅)
    (constraints : BTreeSet Constraint) (txn : Transaction) :
    ∀ v ∈ (column.update none none (some constraints) txn).versions,
      v.index = none ∨ v.index = some ∅ := by
  intro v hv
  unfold Column.update at hv
  cases hcurrent : column.getVersionedColumn txn with
  | none => rw [hcurrent] at hv; exact h v hv
  | some current =>
    obtain ⟨pre, post, hlast⟩ := LastMatch.findLast_some.1 hcurrent
    rw [hcurrent] at hv
    rcases List.mem_append.1 hv with hv | hv
    · rcases LastMatch.mem_updateLast hv with hv | ⟨w, hw, _, rfl⟩
      · exact h v hv
      · exact h w hw
    · obtain rfl := List.mem_singleton.1 hv
      have hindex : current.index.getD ∅ = ∅ := by
        rcases h current hlast.mem with hn | he
        · rw [hn]; rfl
        · rw [he]; rfl
      show (if _ then _ else _) = _ ∨ (if _ then _ else _) = _
      split_ifs
      · exact Or.inr (congrArg some hindex)
      · exact Or.inl rfl

/-- An index over no rows stays empty. -/
theorem blank_buildColumnIndexFromRows (h : t.Blank) (hc : columnId ∈ t.columns) (txn : Transaction)
    (held : Option PageID) : ∃ n t', buildColumnIndexFromRows columnId txn held t = (.ok n, t') ∧ t'.Blank ∧
      ∀ c ∈ t.columns, c ∈ t'.columns := by
  obtain ⟨column, hcolumn⟩ := BTreeMap.mem_iff_get.1 hc
  unfold buildColumnIndexFromRows
  rw [get_bind, hcolumn]
  dsimp only
  cases hindexed : column.isIndexed txn with
  | false => exact ⟨0, t, rfl, h, fun _ hc => hc⟩
  | true =>
    obtain ⟨v, hv⟩ : ∃ v, column.getVersionedColumn txn = some v := by
      unfold Column.isIndexed at hindexed
      cases hv : column.getVersionedColumn txn with
      | none => rw [hv] at hindexed; cases hindexed
      | some v => exact ⟨v, rfl⟩
    obtain ⟨column', hready, hindexes⟩ := ensureIndexReady_blank hv (h.2 columnId column hcolumn)
    rw [hready]
    refine ⟨0, { t with columns := t.columns.insert columnId column' }, ?_, h.withColumn columnId hindexes,
      fun c => mem_insert_column⟩
    show (t.rowLocations.keys.foldlM _ 0 : TableM ℕ) held _ = _
    rw [Std.ExtTreeMap.keys_eq_nil_iff.2 h.1]
    rfl

theorem blank_createColumn (h : t.Blank) (columnName : String) (dataType : DataBaseDataType)
    (constraints : BTreeSet Constraint) (txn : Transaction) (held : Option PageID) : ∃ columnId t',
      createColumn columnName dataType constraints txn held t = (.ok columnId, t') ∧ t'.Blank ∧
        columnId ∈ t'.columns ∧ ∀ c ∈ t.columns, c ∈ t'.columns := by
  have hnew : ∀ v ∈ (Column.new t.nextColumnId columnName dataType constraints txn).versions,
      v.index = none ∨ v.index = some ∅ := by
    intro v hv
    obtain rfl := List.mem_singleton.1 hv
    show (if _ then _ else _) = _ ∨ (if _ then _ else _) = _
    split_ifs
    · exact Or.inr rfl
    · exact Or.inl rfl
  have hblank : Blank { t with
      nextColumnId := t.nextColumnId + 1
      columns := t.columns.insert t.nextColumnId (.new t.nextColumnId columnName dataType constraints txn) } :=
    h.withColumn t.nextColumnId hnew
  obtain ⟨n, t', hrun, hblank', hkept⟩ := blank_buildColumnIndexFromRows hblank
    Std.ExtTreeMap.mem_insert_self txn held
  refine ⟨t.nextColumnId, t', ?_, hblank', hkept _ Std.ExtTreeMap.mem_insert_self,
    fun c hc => hkept c (mem_insert_column hc)⟩
  unfold createColumn
  rw [get_bind, modify_bind, bind_ok hrun]
  rfl

theorem blank_addColumnConstraints (h : t.Blank) (hc : columnId ∈ t.columns)
    (extraConstraints : BTreeSet Constraint) (txn : Transaction) (held : Option PageID) : ∃ t',
      addColumnConstraints columnId extraConstraints txn held t = (.ok (), t') ∧ t'.Blank ∧
        ∀ c ∈ t.columns, c ∈ t'.columns := by
  obtain ⟨column, hcolumn⟩ := BTreeMap.mem_iff_get.1 hc
  have hupdated := update_blank (h.2 columnId column hcolumn)
    ((column.getVersionedConstraints txn).getD ∅ ∪ extraConstraints) txn
  obtain ⟨n, t', hrun, hblank', hkept⟩ := blank_buildColumnIndexFromRows
    (h.withColumn columnId hupdated) Std.ExtTreeMap.mem_insert_self txn held
  refine ⟨t', ?_, hblank', fun c hc => hkept c (mem_insert_column hc)⟩
  unfold addColumnConstraints
  rw [get_bind, hcolumn]
  dsimp only
  rw [modify_bind, bind_ok hrun]
  rfl

end Table

namespace Database

/-- `db` is `db₀` but for the columns of the new table, which has those of `known`. -/
structure Defining (created : String) (db₀ : Database) (known : ColumnID → Prop) (db : Database) :
    Prop where
  txns : db.txns = db₀.txns
  keys : db.tables.keys = db₀.tables.keys
  others : ∀ name, name ≠ created → db.tables[name]? = db₀.tables[name]?
  blank : ∃ t, db.tables[created]? = some t ∧ t.Blank ∧ ∀ c, known c → c ∈ t.columns

namespace Defining

variable {created : String} {db₀ db : Database} {known known' : ColumnID → Prop} {id : TransactionID}

theorem mono (h : Defining created db₀ known db) (hk : ∀ c, known' c → known c) :
    Defining created db₀ known' db := by
  obtain ⟨t, ht, hb, hc⟩ := h.blank
  exact ⟨h.txns, h.keys, h.others, t, ht, hb, fun c hk' => hc c (hk c hk')⟩

theorem mem (h : Defining created db₀ known db) (name : String) :
    name ∈ db.tables ↔ name ∈ db₀.tables := by
  rw [← Std.ExtTreeMap.mem_keys, h.keys, Std.ExtTreeMap.mem_keys]

theorem getTable (h : Defining created db₀ known db) (name : String) :
    db.getTable name = db₀.getTable name := by
  unfold Database.getTable
  simp only [h.mem, h.keys]

theorem referenceVerdict (h : Defining created db₀ known db) (foreignTable : ObjectName)
    (referredColumns : List String) :
    db.referenceVerdict created id foreignTable referredColumns =
      db₀.referenceVerdict created id foreignTable referredColumns := by
  unfold Database.referenceVerdict
  split
  · rw [h.getTable]
    cases db₀.getTable _ with
    | none => rfl
    | some name =>
      dsimp only
      by_cases hname : name = created
      · rw [if_pos hname, if_pos hname]
      · have htxn : db.txn id = db₀.txn id := congrArg (·.txn id) h.txns
        rw [if_neg hname, if_neg hname, h.others name hname, htxn]
  · rfl

/-- A call on the new table that keeps it blank. -/
theorem asTransaction {α : Type} (h : Defining created db₀ known db) (id : TransactionID) {x : Transaction → TableM α}
    {P : α → ColumnID → Prop}
    (hx : ∀ txn t, t.Blank → (∀ c, known c → c ∈ t.columns) → ∃ a t', x txn none t = (.ok a, t') ∧
      t'.Blank ∧ ∀ c, P a c → c ∈ t'.columns) :
    ∃ a db', asTransaction created id x () db = (.ok a, db') ∧ Defining created db₀ (P a) db' := by
  obtain ⟨t, ht, hb, hc⟩ := h.blank
  obtain ⟨a, t', hrun, hb', hc'⟩ := hx (db.txn id) t hb hc
  refine ⟨a, { db with tables := db.tables.insert created t' }, ?_, h.txns, ?_, fun name hname => ?_,
    t', ?_, hb', hc'⟩
  · rw [asTransaction_run ht, hrun]
  · rw [← h.keys]
    exact BTreeMap.keys_insert_of_mem (BTreeMap.mem_of_get ht)
  · rw [← h.others name hname]
    exact BTreeMap.get_insert_ne _ (Ne.symm hname) _
  · exact BTreeMap.get_insert _ _ _ _ |>.trans (if_pos rfl)

end Defining

variable {created : String} {db₀ db db' : Database} {id : TransactionID} {α β : Type}
  {known : ColumnID → Prop}

/-- Started in `db`, the call ends as the first unaccepted item says, and in a state that satisfies
    `Q` if all are accepted. -/
def Yields (db : Database) (l : List Verdict) (x : DbM α) (Q : α → Database → Prop) : Prop :=
  match Verdict.first l with
  | .accepted => ∃ a db', x () db = (.ok a, db') ∧ Q a db'
  | .refused => ∃ e db', x () db = (.error (.err e), db')
  | .waits => ∃ db', x () db = (.error .blocked, db')

namespace Yields

variable {l l' : List Verdict} {x : DbM α} {f : α → DbM β} {Q Q' : α → Database → Prop}
  {R : β → Database → Prop}

theorem pure {a : α} (h : Q a db) : Yields db [] (Pure.pure a) Q := ⟨a, db, rfl, h⟩

theorem of_ok {a : α} (h : x () db = (.ok a, db')) (hQ : Q a db') : Yields db [] x Q := ⟨a, db', h, hQ⟩

theorem bind (hx : Yields db l x Q) (hf : ∀ a db', Q a db' → Yields db' l' (f a) R) :
    Yields db (l ++ l') (x >>= f) R := by
  unfold Yields at hx ⊢
  rw [Verdict.first_append]
  cases hl : Verdict.first l with
  | accepted =>
    rw [hl] at hx
    obtain ⟨a, db', hrun, hQ⟩ := hx
    rw [if_pos rfl, bind_ok hrun]
    exact hf a db' hQ
  | refused =>
    rw [hl] at hx
    obtain ⟨e, db', hrun⟩ := hx
    exact ⟨e, db', bind_error hrun⟩
  | waits =>
    rw [hl] at hx
    obtain ⟨db', hrun⟩ := hx
    exact ⟨db', bind_error hrun⟩

/-- What follows succeeds. -/
theorem followed (hx : Yields db l x Q)
    (hf : ∀ a db', Q a db' → ∃ b db'', f a () db' = (.ok b, db'') ∧ R b db'') :
    Yields db l (x >>= f) R := by
  have hbind : Yields db (l ++ []) (x >>= f) R := hx.bind hf
  rwa [List.append_nil] at hbind

theorem mono (h : Yields db l x Q) (hQ : ∀ a db', Q a db' → Q' a db') : Yields db l x Q' := by
  unfold Yields at h ⊢
  cases hl : Verdict.first l with
  | accepted =>
    rw [hl] at h
    obtain ⟨a, db', hrun, hq⟩ := h
    exact ⟨a, db', hrun, hQ a db' hq⟩
  | refused => rw [hl] at h; exact h
  | waits => rw [hl] at h; exact h

/-- Only the first item that is not accepted counts. -/
theorem of_first (h : Yields db l x Q) (hl : Verdict.first l = Verdict.first l') : Yields db l' x Q := by
  unfold Yields at h ⊢
  rwa [← hl]

theorem foldlM {γ : Type} {f : α → γ → DbM α} {verdicts : γ → List Verdict}
    {I : List γ → α → Database → Prop} (hf : ∀ done c a db, I done a db →
      Yields db (verdicts c) (f a c) (I (done ++ [c]))) (items done : List γ) (a : α)
    (db : Database) (h : I done a db) :
    Yields db (items.flatMap verdicts) (items.foldlM f a) (I (done ++ items)) := by
  induction items generalizing done a db with
  | nil => rw [List.append_nil]; exact pure h
  | cons c items ih =>
    rw [List.flatMap_cons, List.foldlM_cons]
    refine (hf done c a db h).bind fun a' db' h' => ?_
    have := ih (done ++ [c]) a' db' h'
    rwa [List.append_assoc] at this

end Yields

/-! ## The items -/

theorem Yields.refused {x : DbM α} {Q : α → Database → Prop} {e : DataBaseErrors}
    (h : x () db = (.error (.err e), db')) : Yields db [.refused] x Q := ⟨e, db', h⟩

theorem Yields.accepted {x : DbM α} {Q : α → Database → Prop} {a : α} (h : x () db = (.ok a, db'))
    (hQ : Q a db') : Yields db [.accepted] x Q := ⟨a, db', h, hQ⟩

theorem yields_resolveForeignKeyReference (h : Defining created db₀ known db) (foreignTable : ObjectName)
    (referredColumns : List String) :
    Yields db [db₀.referenceVerdict created id foreignTable referredColumns]
      (resolveForeignKeyReference created foreignTable referredColumns id)
      fun _ db' => db' = db := by
  rw [← h.referenceVerdict]
  rcases referredColumns with _ | ⟨referred, _ | ⟨_, _⟩⟩
  · exact Yields.refused rfl
  · unfold resolveForeignKeyReference Database.referenceVerdict
    cases hident : foreignTable.getLast? with
    | none => exact Yields.refused rfl
    | some ident =>
      dsimp only
      have hparse : (ofResult (Except.ok (normalizeIdentifier ident)) : DbM String) () db =
          (.ok (normalizeIdentifier ident), db) := rfl
      have hrequire := requireTable_run db (normalizeIdentifier ident)
      cases hname : db.getTable (normalizeIdentifier ident) with
      | none =>
        rw [hname] at hrequire
        exact Yields.refused ((bind_ok hparse).trans (bind_error hrequire))
      | some name =>
        rw [hname] at hrequire
        dsimp only
        by_cases hcreated : name = created
        · have hlock : lockTable created name () db = (.error .blocked, db) := by
            rw [lockTable, if_pos hcreated]; rfl
          rw [if_pos hcreated]
          exact ⟨db, (bind_ok hparse).trans ((bind_ok hrequire).trans (bind_error hlock))⟩
        · have hlock : lockTable created name () db = (.ok (), db) := by
            rw [lockTable, if_neg hcreated]; rfl
          rw [if_neg hcreated]
          unfold Yields
          rw [bind_ok hparse, bind_ok hrequire, bind_ok hlock, get_bind]
          cases ht : db.tables[name]? with
          | none => exact ⟨_, db, rfl⟩
          | some t =>
            rw [Option.bind_some]
            dsimp only
            cases (Table.visibleColumns t.columns (db.txn id))[normalizeIdentifier referred]? with
            | none => exact ⟨_, db, rfl⟩
            | some columnId => exact ⟨_, db, rfl, rfl⟩
  · exact Yields.refused rfl

theorem yields_parseColumnOption (h : Defining created db₀ known db) (constraints : BTreeSet Constraint)
    (option : ColumnOption) :
    Yields db [db₀.optionVerdict created id option] (parseColumnOption created id constraints option)
      fun _ db' => db' = db := by
  cases option with
  | notNull => exact Yields.accepted rfl rfl
  | null => exact Yields.accepted rfl rfl
  | comment => exact Yields.accepted rfl rfl
  | unique isPrimary => exact Yields.accepted rfl rfl
  | check => exact Yields.accepted rfl rfl
  | dialectSpecific tokens =>
    unfold parseColumnOption optionVerdict
    dsimp only
    by_cases htext : " ".intercalate (tokens.map normalizeIdentifier) = "auto_increment" ∨
        " ".intercalate (tokens.map normalizeIdentifier) = "autoincrement"
    · rw [if_pos htext, if_pos (by simpa using htext)]
      exact Yields.accepted rfl rfl
    · rw [if_neg htext, if_neg (by simpa using htext)]
      exact Yields.refused rfl
  | default => exact Yields.refused rfl
  | generated => exact Yields.refused rfl
  | other debug => exact Yields.refused rfl
  | foreignKey foreignTable referredColumns =>
    exact (yields_resolveForeignKeyReference h foreignTable referredColumns).followed fun _ _ hdb =>
      ⟨_, _, rfl, hdb⟩

theorem yields_parseColumnConstraints (h : Defining created db₀ known db) (options : List ColumnOption) :
    Yields db (options.map (db₀.optionVerdict created id)) (parseColumnConstraints created options id)
      fun _ db' => db' = db := by
  have hfold : Yields db (options.flatMap fun option => [db₀.optionVerdict created id option])
      (options.foldlM (parseColumnOption created id) ∅) fun _ db' => db' = db :=
    Yields.foldlM (I := fun _ _ db' => db' = db) (fun _ option constraints db' hdb => by
      subst hdb; exact yields_parseColumnOption h constraints option) options [] ∅ db rfl
  rwa [← List.map_eq_flatMap] at hfold

/-- The columns defined so far, under their names. -/
abbrev KnownColumns (columnNames : BTreeMap String ColumnID) (columnId : ColumnID) : Prop :=
  ∃ name : String, columnNames[name]? = some columnId

theorem yields_ofResult (r : Except String α) (f : String → DataBaseErrors) :
    Yields db [if r.isOk then .accepted else .refused] (ofResult (r.mapError f))
      fun _ db' => db' = db := by
  cases r with
  | error debug => exact Yields.refused rfl
  | ok a => exact Yields.accepted rfl rfl

theorem yields_defineColumn {columnNames : BTreeMap String ColumnID}
    (h : Defining created db₀ (KnownColumns columnNames) db) (column : ColumnDef) :
    Yields db (db₀.columnVerdicts created id column) (defineColumn created id columnNames column)
      fun columnNames' db' => Defining created db₀ (KnownColumns columnNames') db' ∧
        ∀ name, name ∈ columnNames' ↔ name ∈ columnNames ∨ name = normalizeIdentifier column.name := by
  show Yields db ([if column.dataType.isOk then .accepted else .refused] ++
    column.options.map (db₀.optionVerdict created id)) _ _
  refine (yields_ofResult column.dataType _).bind ?_
  rintro dataType _ rfl
  refine (yields_parseColumnConstraints h column.options).followed ?_
  rintro constraints _ rfl
  obtain ⟨columnId, db', hrun, hdb'⟩ := h.asTransaction id
    (x := Table.createColumn (normalizeIdentifier column.name) dataType constraints)
    (P := fun columnId c => c = columnId ∨ KnownColumns columnNames c) fun txn t hb hc => by
      obtain ⟨columnId, t', hrun, hb', hself, hkept⟩ := Table.blank_createColumn hb
        (normalizeIdentifier column.name) dataType constraints txn none
      refine ⟨columnId, t', hrun, hb', fun c hknown => ?_⟩
      rcases hknown with rfl | hknown
      · exact hself
      · exact hkept c (hc c hknown)
  refine ⟨_, db', (bind_ok hrun).trans rfl, hdb'.mono ?_, fun name => ?_⟩
  · rintro c ⟨name, hname⟩
    rw [BTreeMap.get_insert] at hname
    split_ifs at hname
    · exact Or.inl (Option.some.inj hname).symm
    · exact Or.inr ⟨name, hname⟩
  · rw [Std.ExtTreeMap.mem_insert, Std.LawfulEqOrd.compare_eq_iff_eq, or_comm, eq_comm]

/-- The columns that a map of constraints is about are known. -/
abbrev AboutKnown (columnNames : BTreeMap String ColumnID)
    (map : BTreeMap ColumnID (BTreeSet Constraint)) : Prop := ∀ c ∈ map, KnownColumns columnNames c

theorem aboutKnown_insert {columnNames : BTreeMap String ColumnID}
    {map : BTreeMap ColumnID (BTreeSet Constraint)} (h : AboutKnown columnNames map) {name : String}
    {columnId : ColumnID} (hname : columnNames[name]? = some columnId) (constraints : BTreeSet Constraint) :
    AboutKnown columnNames (map.insert columnId constraints) := by
  intro c hc
  rcases Std.ExtTreeMap.mem_insert.1 hc with hc | hc
  · rw [Std.LawfulEqOrd.compare_eq_iff_eq] at hc
    exact ⟨name, hc ▸ hname⟩
  · exact h c hc

theorem yields_constrainColumns {columnNames : BTreeMap String ColumnID}
    {map : BTreeMap ColumnID (BTreeSet Constraint)} (h : AboutKnown columnNames map) (kind : String)
    (c : Constraint) (columns : List String) :
    Yields db [if ∀ column ∈ columns, normalizeIdentifier column ∈ columnNames then .accepted else .refused]
      (constrainColumns kind c columnNames map columns)
      fun map' db' => db' = db ∧ AboutKnown columnNames map' := by
  have hfold : Yields db
      (columns.flatMap fun column =>
        [if normalizeIdentifier column ∈ columnNames then .accepted else .refused])
      (constrainColumns kind c columnNames map columns)
      fun map' db' => db' = db ∧ AboutKnown columnNames map' := by
    refine Yields.foldlM (I := fun _ map' db' => db' = db ∧ AboutKnown columnNames map')
      (fun done column map' db' hmap => ?_) columns [] map db ⟨rfl, h⟩
    obtain ⟨rfl, hmap⟩ := hmap
    dsimp only
    cases hname : columnNames[normalizeIdentifier column]? with
    | none =>
      have habsent : normalizeIdentifier column ∉ columnNames := by
        rw [BTreeMap.mem_iff_get, hname]; simp
      rw [if_neg habsent]
      exact Yields.refused rfl
    | some columnId =>
      rw [if_pos (BTreeMap.mem_of_get hname)]
      exact Yields.accepted rfl ⟨rfl, aboutKnown_insert hmap hname _⟩
  refine hfold.of_first ?_
  rw [← List.map_eq_flatMap, Verdict.first_singleton]
  by_cases hall : ∀ column ∈ columns, normalizeIdentifier column ∈ columnNames
  · rw [if_pos hall, Verdict.first_eq_accepted]
    intro v hv
    obtain ⟨column, hcolumn, rfl⟩ := List.mem_map.1 hv
    exact if_pos (hall column hcolumn)
  · rw [if_neg hall, Verdict.first_eq_refused]
    · push Not at hall
      obtain ⟨column, hcolumn, hname⟩ := hall
      exact ⟨_, List.mem_map_of_mem hcolumn, by rw [if_neg hname]; nofun⟩
    · intro v hv
      obtain ⟨column, -, rfl⟩ := List.mem_map.1 hv
      split_ifs <;> nofun

/-- `names` are the names of the columns in `columnNames`. -/
theorem yields_buildTableConstraint {columnNames : BTreeMap String ColumnID} {names : List String}
    {map : BTreeMap ColumnID (BTreeSet Constraint)} (h : Defining created db₀ known db)
    (hnames : ∀ name, name ∈ columnNames ↔ name ∈ names) (hmap : AboutKnown columnNames map)
    (constraint : TableConstraint) :
    Yields db [db₀.constraintVerdict created id names constraint]
      (buildTableConstraint created columnNames id map constraint)
      fun map' db' => db' = db ∧ AboutKnown columnNames map' := by
  have hcolumns : ∀ kind c columns, Yields db _ (constrainColumns kind c columnNames map columns) _ :=
    fun kind c columns => yields_constrainColumns hmap kind c columns
  simp only [hnames] at hcolumns
  unfold constraintVerdict
  cases constraint with
  | unique columns => exact hcolumns "UNIQUE" .unique columns
  | primaryKey columns => exact hcolumns "PRIMARY KEY" .primaryKey columns
  | check => exact Yields.refused rfl
  | other => exact Yields.refused rfl
  | foreignKey columns foreignTable referredColumns =>
    rcases columns with _ | ⟨column, _ | ⟨_, _⟩⟩
    · exact Yields.refused rfl
    · unfold buildTableConstraint
      dsimp only
      cases hname : columnNames[normalizeIdentifier column]? with
      | none =>
        have habsent : normalizeIdentifier column ∉ names := by
          rw [← hnames, BTreeMap.mem_iff_get, hname]; simp
        rw [if_neg habsent]
        exact Yields.refused rfl
      | some columnId =>
        rw [if_pos ((hnames _).1 (BTreeMap.mem_of_get hname))]
        exact (yields_resolveForeignKeyReference h foreignTable referredColumns).followed
          fun _ _ hdb => ⟨_, _, rfl, hdb, aboutKnown_insert hmap hname _⟩
    · exact Yields.refused rfl

/-! ## The whole definition -/

theorem addColumnConstraints_run (id : TransactionID) {known : ColumnID → Prop} (l : List (ColumnID × BTreeSet Constraint))
    (hl : ∀ x ∈ l, known x.1) (db : Database) (h : Defining created db₀ known db) :
    ∃ a db', (l.forM fun x => Database.asTransaction created id (Table.addColumnConstraints x.1 x.2)) ()
      db = (.ok a, db') := by
  induction l generalizing db with
  | nil => exact ⟨(), db, rfl⟩
  | cons x l ih =>
    obtain ⟨a, db', hrun, hdb'⟩ := h.asTransaction id (x := Table.addColumnConstraints x.1 x.2)
      (P := fun _ => known) fun txn t hb hc => by
        obtain ⟨t', hrun, hb', hkept⟩ := Table.blank_addColumnConstraints hb
          (hc x.1 (hl x List.mem_cons_self)) x.2 txn none
        exact ⟨(), t', hrun, hb', fun c hknown => hkept c (hc c hknown)⟩
    obtain ⟨b, db'', hrun'⟩ := ih (fun y hy => hl y (List.mem_cons_of_mem x hy)) db' hdb'
    exact ⟨b, db'', (bind_ok hrun).trans hrun'⟩

/-- **A `CREATE TABLE` comes to** the verdict on the first of its items that is not accepted. -/
theorem yields_defineTable (h : Defining created db₀ (fun _ => False) db) (stmt : CreateTable) :
    Yields db (db₀.verdicts created id stmt) (defineTable created stmt id) fun _ _ => True := by
  have hcolumns : Yields db (stmt.columns.flatMap (db₀.columnVerdicts created id))
      (stmt.columns.foldlM (defineColumn created id) ∅) fun columnNames db' =>
        Defining created db₀ (KnownColumns columnNames) db' ∧ ∀ name, name ∈ columnNames ↔
          name ∈ stmt.columns.map fun column => normalizeIdentifier column.name :=
    Yields.foldlM (I := fun done columnNames db' =>
        Defining created db₀ (KnownColumns columnNames) db' ∧
          ∀ name, name ∈ columnNames ↔ name ∈ done.map fun column => normalizeIdentifier column.name)
      (fun done column columnNames db' hI => by
        refine (yields_defineColumn hI.1 column).mono ?_
        rintro columnNames' db'' ⟨hdb'', hnames⟩
        refine ⟨hdb'', fun name => ?_⟩
        rw [hnames, hI.2, List.map_append, List.mem_append, List.map_singleton, List.mem_singleton])
      stmt.columns [] ∅ db ⟨h.mono (by rintro c ⟨name, hname⟩; simp at hname), by simp⟩
  refine hcolumns.bind ?_
  rintro columnNames db' ⟨hdb', hnames⟩
  have hconstraints : Yields db' (stmt.constraints.flatMap fun c => [db₀.constraintVerdict created id
      (stmt.columns.map fun column => normalizeIdentifier column.name) c])
      (stmt.constraints.foldlM (buildTableConstraint created columnNames id) ∅)
      fun map db'' => db'' = db' ∧ AboutKnown columnNames map :=
    Yields.foldlM (I := fun _ map db'' => db'' = db' ∧ AboutKnown columnNames map)
      (fun _ constraint map db'' hI => by
        obtain ⟨rfl, hmap⟩ := hI
        exact yields_buildTableConstraint hdb' hnames hmap constraint)
      stmt.constraints [] ∅ db' ⟨rfl, fun c hc => absurd hc Std.ExtTreeMap.not_mem_empty⟩
  rw [← List.map_eq_flatMap] at hconstraints
  refine hconstraints.followed ?_
  rintro map _ ⟨rfl, hmap⟩
  obtain ⟨a, db'', hrun⟩ := addColumnConstraints_run id map.toList
    (fun x hx => hmap x.1 (BTreeMap.mem_of_get (BTreeMap.mem_toList.1 hx))) _ hdb'
  exact ⟨a, db'', hrun, trivial⟩

end Database

end AntDb
