/-
  `ALTER TABLE ... DROP COLUMN`.

  A column is dropped by a mark on the version of it that the transaction sees.  Other transactions
  go on with the columns they see, and a rollback takes the marks away.
-/
import AntDb.Executing

namespace AntDb

open Call LastMatch

/-! ## The statement -/

/-- `remove` -/
def Column.remove (column : Column) (txn : Transaction) : Column :=
  ⟨updateLast (·.isVisible txn) (·.mark txn) column.versions⟩

def Table.dropColumn (columnId : ColumnID) (txn : Transaction) : TableM Unit := do
  match (← get).columns[columnId]? with
  | none => throw (.columnNotFound columnId)
  | some column => modify fun t => { t with columns := t.columns.insert columnId (column.remove txn) }

inductive AlterTableOperation where
  | dropColumn (columnName : String) (ifExists cascade : Bool)
  | other
deriving DecidableEq

/-- One operation; `ifExists` may stand before the table or before the column. -/
def Table.alterColumn (ifExists : Bool) (txn : Transaction) : AlterTableOperation → TableM Unit
  | .other => throw (.queryError "Unsupported ALTER TABLE operation")
  | .dropColumn columnName opIfExists cascade =>
    if cascade then throw (.queryError "ALTER TABLE DROP COLUMN CASCADE is unsupported")
    else do
      match (Table.visibleColumns (← get).columns txn)[normalizeIdentifier columnName]? with
      | some columnId => Table.dropColumn columnId txn
      | none =>
        if opIfExists = false ∧ ifExists = false then
          throw (.queryError s!"Column '{normalizeIdentifier columnName}' not found")
        else return ()

def Database.executeAlterTable (tableName : String) (ifExists : Bool) (operations : List AlterTableOperation)
    (id : TransactionID) : DbM Unit := do
  let name ← requireTable tableName
  asTransaction name id fun txn => operations.forM (Table.alterColumn ifExists txn)

/-! ## Versions with a mark more -/

namespace InternalColumn

variable {v v' v'' : InternalColumn} {txn V : Transaction}

/-- The version is as it was, or it had no mark and has that of `txn` now. -/
def DroppedBy (txn : Transaction) (v v' : InternalColumn) : Prop :=
  v' = v ∨ v.transactionHeader.deletedBy = none ∧ v' = v.mark txn

/-- What a version says of its column. -/
def body (v : InternalColumn) : InternalColumn := { v with transactionHeader := ⟨0, none⟩ }

namespace DroppedBy

theorem trans (h : DroppedBy txn v v') (h' : DroppedBy txn v' v'') : DroppedBy txn v v'' := by
  rcases h with rfl | ⟨hnone, rfl⟩
  · exact h'
  · rcases h' with rfl | ⟨hmarked, -⟩
    · exact Or.inr ⟨hnone, rfl⟩
    · cases hmarked

theorem body (h : DroppedBy txn v v') : v'.body = v.body := by
  rcases h with rfl | ⟨-, rfl⟩ <;> rfl

/-- Whoever does not read the deletes of `txn` sees the same versions. -/
theorem isVisible (h : DroppedBy txn v v') (hV : ¬ TransactionHeader.Hides V txn.transactionId) :
    v'.isVisible V = v.isVisible V := by
  rcases h with rfl | ⟨hnone, rfl⟩
  · rfl
  · have hne : V.transactionId ≠ txn.transactionId := fun he => hV (Or.inl he.symm)
    rw [Bool.eq_iff_iff, InternalColumn.isVisible, InternalColumn.isVisible, TransactionHeader.isVisible_iff,
      TransactionHeader.isVisible_iff]
    simp [mark, TransactionHeader.mark, hnone, hne.symm, hV]

/-- What `txn` still sees has not been touched. -/
theorem of_visible (h : DroppedBy txn v v') (hv : v'.isVisible txn = true) : v' = v := by
  rcases h with rfl | ⟨-, rfl⟩
  · rfl
  · have hhides : TransactionHeader.Hides txn txn.transactionId := Or.inl rfl
    rw [InternalColumn.isVisible, TransactionHeader.isVisible_iff] at hv
    simp [mark, TransactionHeader.mark, hhides] at hv

/-- The rollback of `txn` takes its mark away. -/
theorem rollback (h : DroppedBy txn v v') : v'.transactionHeader.rollback txn = v.transactionHeader.rollback txn := by
  rcases h with rfl | ⟨hnone, rfl⟩
  · rfl
  · have hheader : ({ v.transactionHeader with deletedBy := none } : TransactionHeader) = v.transactionHeader := by
      rw [← hnone]
    by_cases hown : v.transactionHeader.createdBy = txn.transactionId
    · simp [mark, TransactionHeader.rollback, TransactionHeader.mark, hnone, hown]
    · simpa [mark, TransactionHeader.rollback, TransactionHeader.mark, hnone, hown] using hheader

end DroppedBy

end InternalColumn

/-! ## Columns and tables with marks more -/

namespace Column

variable {column column' column'' : Column} {txn V : Transaction}

def Dropped (txn : Transaction) (column column' : Column) : Prop :=
  List.Forall₂ (InternalColumn.DroppedBy txn) column.versions column'.versions

theorem Dropped.refl : Dropped txn column column := List.forall₂_same.2 fun _ _ => Or.inl rfl

theorem Dropped.trans (h : Dropped txn column column') (h' : Dropped txn column' column'') :
    Dropped txn column column'' := by
  unfold Dropped at *
  generalize column.versions = l at h
  generalize column'.versions = l' at h h'
  generalize column''.versions = l'' at h'
  induction h generalizing l'' with
  | nil =>
    cases h'
    exact .nil
  | cons ha _ ih =>
    cases h' with
    | cons hb htail => exact .cons (ha.trans hb) (ih _ htail)

theorem dropped_remove (h : ∀ v ∈ column.versions, v.isVisible txn = true → v.transactionHeader.deletedBy = none) :
    Dropped txn column (column.remove txn) := by
  rw [Dropped, remove]
  rcases LastMatch.cases (fun v : InternalColumn => v.isVisible txn) column.versions with
    hnone | ⟨pre, v, post, hlast⟩
  · rw [updateLast_none hnone]
    exact List.forall₂_same.2 fun _ _ => Or.inl rfl
  · rw [hlast.updateLast]
    rw [hlast.eq] at h ⊢
    have hsame : ∀ l, List.Forall₂ (InternalColumn.DroppedBy txn) l l :=
      fun l => List.forall₂_same.2 fun _ _ => Or.inl rfl
    refine List.rel_append (hsame pre) (.cons (Or.inr ⟨h v (by simp) hlast.holds, rfl⟩) (hsame post))

/-- Whoever does not read the deletes of `txn` sees the same column. -/
theorem Dropped.seen (h : Dropped txn column column') (hV : ¬ TransactionHeader.Hides V txn.transactionId) :
    (column'.getVersionedColumn V).map InternalColumn.body = (column.getVersionedColumn V).map InternalColumn.body :=
  findLast_forall₂ (h.imp fun _ _ hv => ⟨hv.isVisible hV, hv.body⟩)

theorem Dropped.rollback (h : Dropped txn column column') :
    column'.rollbackTransaction txn = column.rollbackTransaction txn := by
  rw [rollbackTransaction, rollbackTransaction]
  unfold Dropped at h
  generalize column.versions = l at h
  generalize column'.versions = l' at h
  induction h with
  | nil => rfl
  | @cons v v' l l' hv _ ih =>
    have hversion : { v'.rollbackIndexTransaction txn.transactionId with
        transactionHeader := v'.transactionHeader.rollback txn } = ({ v.rollbackIndexTransaction txn.transactionId with
          transactionHeader := v.transactionHeader.rollback txn } : InternalColumn) := by
      rw [hv.rollback]
      rcases hv with rfl | ⟨-, rfl⟩ <;> rfl
    rw [Column.mk.injEq, List.map_cons, List.map_cons, hversion, Column.mk.inj ih]

/-- What `txn` still sees of a column, it has seen before. -/
theorem Dropped.own {v : InternalColumn} (h : Dropped txn column column') (hv : v ∈ column'.versions)
    (hvisible : v.isVisible txn = true) : v ∈ column.versions := by
  unfold Dropped at h
  generalize column.versions = l at h ⊢
  generalize column'.versions = l' at h hv
  induction h with
  | nil => cases hv
  | cons ha _ ih =>
    rcases List.mem_cons.1 hv with rfl | hv
    · rw [ha.of_visible hvisible]
      simp
    · exact List.mem_cons_of_mem _ (ih hv)

theorem Dropped.length_le (h : Dropped txn column column') :
    (column'.versions.filter (·.isVisible txn)).length ≤ (column.versions.filter (·.isVisible txn)).length := by
  unfold Dropped at h
  generalize column.versions = l at h ⊢
  generalize column'.versions = l' at h ⊢
  induction h with
  | nil => exact le_rfl
  | @cons v v' l l' hv _ ih =>
    rw [List.filter_cons, List.filter_cons]
    split_ifs with hleft hright hright
    · exact Nat.succ_le_succ ih
    · exact absurd (hv.of_visible hleft ▸ hleft) hright
    · exact ih.trans (Nat.le_succ _)
    · exact ih

end Column

namespace Table

variable {t t' t'' : Table} {txn V : Transaction} {name : String} {columns : BTreeMap ColumnID Column} {c : ColumnID}
  {column : Column} {v : InternalColumn}

/-- Only columns have changed, by marks of `txn`. -/
structure Dropped (txn : Transaction) (t t' : Table) : Prop where
  rest : t' = { t with columns := t'.columns }
  columns : ∀ c : ColumnID, Option.Rel (Column.Dropped txn) t.columns[c]? t'.columns[c]?

/-- Nobody has marked the columns that `txn` sees, each has one version for it, and one name. -/
structure Plain (txn : Transaction) (t : Table) : Prop where
  unmarked : ∀ x ∈ t.columns.toList, ∀ v ∈ x.2.versions,
    v.isVisible txn = true → v.transactionHeader.deletedBy = none
  once : ∀ x ∈ t.columns.toList, (x.2.versions.filter (·.isVisible txn)).length ≤ 1
  distinct : ∀ x ∈ t.columns.toList, ∀ y ∈ t.columns.toList, ∀ v ∈ x.2.getVersionedColumn txn,
    ∀ w ∈ y.2.getVersionedColumn txn, normalizeIdentifier v.name = normalizeIdentifier w.name → x.1 = y.1

theorem Dropped.refl : Dropped txn t t where
  rest := rfl
  columns c := by
    cases t.columns[c]? with
    | none => exact .none
    | some column => exact .some .refl

theorem Dropped.trans (h : Dropped txn t t') (h' : Dropped txn t' t'') : Dropped txn t t'' where
  rest := by
    rw [h'.rest, h.rest]
  columns c := by
    have hc := h.columns c
    have hc' := h'.columns c
    generalize t.columns[c]? = o, t'.columns[c]? = o', t''.columns[c]? = o'' at hc hc' ⊢
    cases hc with
    | none => exact hc'
    | some hcolumn =>
      cases hc' with
      | some hcolumn' => exact .some (hcolumn.trans hcolumn')

theorem Dropped.before (h : Dropped txn t t') (hc : t'.columns[c]? = some column) :
    ∃ column₀, t.columns[c]? = some column₀ ∧ Column.Dropped txn column₀ column := by
  have hrel := h.columns c
  rw [hc] at hrel
  generalize t.columns[c]? = o at hrel
  cases hrel with
  | some hcolumn => exact ⟨_, rfl, hcolumn⟩

/-- What `txn` still sees it has seen before. -/
theorem Dropped.own (h : Dropped txn t t') (hplain : t.Plain txn) (hc : t'.columns[c]? = some column)
    (hv : column.getVersionedColumn txn = some v) :
    ∃ column₀, t.columns[c]? = some column₀ ∧ column₀.getVersionedColumn txn = some v := by
  obtain ⟨column₀, hc₀, hcolumn⟩ := h.before hc
  obtain ⟨pre, post, hlast⟩ := findLast_some.1 hv
  exact ⟨column₀, hc₀, findLast_once (hplain.once _ (BTreeMap.mem_toList.2 hc₀)) (hcolumn.own hlast.mem hlast.holds)
    hlast.holds⟩

theorem Plain.dropped (hplain : t.Plain txn) (h : Dropped txn t t') : t'.Plain txn where
  unmarked x hx v hv hvisible := by
    obtain ⟨column₀, hc₀, hcolumn⟩ := h.before (BTreeMap.mem_toList.1 hx)
    exact hplain.unmarked _ (BTreeMap.mem_toList.2 hc₀) v (hcolumn.own hv hvisible) hvisible
  once x hx := by
    obtain ⟨column₀, hc₀, hcolumn⟩ := h.before (BTreeMap.mem_toList.1 hx)
    exact hcolumn.length_le.trans (hplain.once _ (BTreeMap.mem_toList.2 hc₀))
  distinct x hx y hy v hv w hw hname := by
    obtain ⟨left, hleft, hv₀⟩ := h.own hplain (BTreeMap.mem_toList.1 hx) hv
    obtain ⟨right, hright, hw₀⟩ := h.own hplain (BTreeMap.mem_toList.1 hy) hw
    exact hplain.distinct (x.1, left) (BTreeMap.mem_toList.2 hleft) (y.1, right) (BTreeMap.mem_toList.2 hright) v hv₀ w
      hw₀ hname

/-- The names of the visible columns. -/
theorem mem_visibleColumns : name ∈ visibleColumns columns txn ↔
    ∃ (c : ColumnID) (column : Column) (v : InternalColumn), columns[c]? = some column ∧
      column.getVersionedColumn txn = some v ∧ normalizeIdentifier v.name = name := by
  have hfold : ∀ (step : BTreeMap String ColumnID → ColumnID × Column → BTreeMap String ColumnID)
      (_ : ∀ visible x, name ∈ step visible x ↔ name ∈ visible ∨
        ∃ v, x.2.getVersionedColumn txn = some v ∧ normalizeIdentifier v.name = name)
      (l : List (ColumnID × Column)) (visible : BTreeMap String ColumnID), name ∈ l.foldl step visible ↔
        name ∈ visible ∨ ∃ x ∈ l, ∃ v, x.2.getVersionedColumn txn = some v ∧ normalizeIdentifier v.name = name := by
    intro step hstep l
    induction l with
    | nil => simp
    | cons x l ih =>
      intro visible
      rw [List.foldl_cons, ih, hstep, or_assoc]
      simp only [List.mem_cons, exists_eq_or_imp]
  unfold visibleColumns
  rw [hfold]
  · simp only [Std.ExtTreeMap.not_mem_empty, false_or, Prod.exists, BTreeMap.mem_toList]
    constructor
    · rintro ⟨c, column, hc, v, hv, hname⟩
      exact ⟨c, column, v, hc, hv, hname⟩
    · rintro ⟨c, column, v, hc, hv, hname⟩
      exact ⟨c, column, hc, v, hv, hname⟩
  · intro visible x
    cases x.2.getVersionedColumn txn with
    | none => simp
    | some v =>
      simp only [Std.ExtTreeMap.mem_insert, Std.LawfulEqCmp.compare_eq_iff_eq, Option.some.injEq, exists_eq_left']
      exact or_comm

/-- A name that `txn` has no column for does not come back. -/
theorem Dropped.stays (h : Dropped txn t t') (hplain : t.Plain txn) (hname : name ∉ visibleColumns t.columns txn) :
    name ∉ visibleColumns t'.columns txn := by
  intro hmem
  obtain ⟨c, column, v, hc, hv, hvname⟩ := mem_visibleColumns.1 hmem
  obtain ⟨column₀, hc₀, hv₀⟩ := h.own hplain hc hv
  exact hname (mem_visibleColumns.2 ⟨c, column₀, v, hc₀, hv₀, hvname⟩)

/-! ## Dropping columns -/

theorem dropped_insert (hplain : t.Plain txn) (hc : t.columns[c]? = some column) :
    Dropped txn t { t with columns := t.columns.insert c (column.remove txn) } where
  rest := rfl
  columns c' := by
    show Option.Rel _ _ (t.columns.insert c (column.remove txn))[c']?
    rw [BTreeMap.get_insert]
    split_ifs with heq
    · subst heq
      rw [hc]
      exact .some (Column.dropped_remove (hplain.unmarked _ (BTreeMap.mem_toList.2 hc)))
    · cases t.columns[c']? with
      | none => exact .none
      | some column' => exact .some .refl

/-- A column that is dropped is not seen. -/
theorem getVersionedColumn_remove (hplain : t.Plain txn) (hc : t.columns[c]? = some column) :
    (column.remove txn).getVersionedColumn txn = none := by
  have honce := hplain.once _ (BTreeMap.mem_toList.2 hc)
  have hunmarked := hplain.unmarked _ (BTreeMap.mem_toList.2 hc)
  dsimp only at honce hunmarked
  rw [Column.getVersionedColumn, Column.remove, findLast_none]
  rcases LastMatch.cases (fun v : InternalColumn => v.isVisible txn) column.versions with hnone | ⟨pre, v, post, hlast⟩
  · rw [updateLast_none hnone]
    exact hnone
  · rw [hlast.updateLast]
    rw [hlast.eq] at honce
    intro w hw
    rcases List.mem_append.1 hw with hw | hw
    · by_contra hvisible
      have hpre : 0 < (pre.filter (·.isVisible txn)).length :=
        List.length_pos_of_mem (List.mem_filter.2 ⟨hw, by simpa using hvisible⟩)
      rw [List.filter_append, List.filter_cons, if_pos hlast.holds, List.length_append, List.length_cons] at honce
      omega
    · rcases List.mem_cons.1 hw with rfl | hw
      · by_contra hvisible
        have hdropped : InternalColumn.DroppedBy txn v (v.mark txn) :=
          Or.inr ⟨hunmarked v hlast.mem hlast.holds, rfl⟩
        have hsame := congrArg (fun v : InternalColumn => v.transactionHeader.deletedBy)
          (hdropped.of_visible (by simpa using hvisible))
        rw [hunmarked v hlast.mem hlast.holds] at hsame
        cases hsame
      · exact hlast.after w hw

theorem dropColumn_run {held : Option PageID} (hc : t.columns[c]? = some column) :
    dropColumn c txn held t = (.ok (), { t with columns := t.columns.insert c (column.remove txn) }) := by
  unfold dropColumn
  rw [get_bind, hc]
  rfl

variable {operations : List AlterTableOperation} {op : AlterTableOperation} {ifExists : Bool} {held : Option PageID}

/-- No column of `t` goes by the name that the operation drops. -/
def Gone (txn : Transaction) (t : Table) : AlterTableOperation → Prop
  | .dropColumn columnName _ _ => normalizeIdentifier columnName ∉ visibleColumns t.columns txn
  | .other => False

/-- The column that a drop finds is gone afterwards. -/
theorem gone_dropped (hplain : t.Plain txn) (hvisible : (visibleColumns t.columns txn)[name]? = some c)
    (hc : t.columns[c]? = some column) :
    name ∉ visibleColumns (t.columns.insert c (column.remove txn)) txn := by
  obtain ⟨column₁, version, hc₁, hversion, hname⟩ := Sql.name_of_visible hvisible
  obtain rfl := Option.some.inj (hc₁.symm.trans hc)
  intro hmem
  obtain ⟨c', column', v, hc', hv, hvname⟩ := mem_visibleColumns.1 hmem
  obtain ⟨column₀, hc₀, hv₀⟩ := (dropped_insert hplain hc).own hplain hc' hv
  have hids : c' = c := hplain.distinct (c', column₀) (BTreeMap.mem_toList.2 hc₀) (c, column₁)
    (BTreeMap.mem_toList.2 hc) v hv₀ version hversion (hvname.trans hname.symm)
  rw [hids, BTreeMap.get_insert, if_pos rfl] at hc'
  obtain rfl := Option.some.inj hc'
  rw [getVersionedColumn_remove hplain hc] at hv
  cases hv

theorem alterColumn_step (hplain : t.Plain txn) : Dropped txn t (alterColumn ifExists txn op held t).2 ∧
    ((alterColumn ifExists txn op held t).1 = .ok () → Gone txn (alterColumn ifExists txn op held t).2 op) := by
  cases op with
  | other => exact ⟨.refl, nofun⟩
  | dropColumn columnName opIfExists cascade =>
    rw [alterColumn]
    by_cases hcascade : cascade = true
    · rw [if_pos hcascade]
      exact ⟨.refl, nofun⟩
    · rw [if_neg hcascade, get_bind]
      cases hvisible : (visibleColumns t.columns txn)[normalizeIdentifier columnName]? with
      | none =>
        have hgone : normalizeIdentifier columnName ∉ visibleColumns t.columns txn := fun hmem => by
          obtain ⟨c, hc⟩ := BTreeMap.mem_iff_get.1 hmem
          rw [hvisible] at hc
          cases hc
        dsimp only
        by_cases hstrict : opIfExists = false ∧ ifExists = false
        · rw [if_pos hstrict]
          exact ⟨.refl, nofun⟩
        · rw [if_neg hstrict]
          exact ⟨.refl, fun _ => hgone⟩
      | some c =>
        obtain ⟨column, version, hc, -, -⟩ := Sql.name_of_visible hvisible
        dsimp only
        rw [dropColumn_run hc]
        exact ⟨dropped_insert hplain hc, fun _ => gone_dropped hplain hvisible hc⟩

theorem Dropped.gone (h : Dropped txn t t') (hplain : t.Plain txn) (hgone : Gone txn t op) : Gone txn t' op := by
  cases op with
  | other => exact hgone
  | dropColumn columnName opIfExists cascade => exact h.stays hplain hgone

theorem alterColumn_run (hplain : t.Plain txn) :
    Dropped txn t (operations.forM (alterColumn ifExists txn) held t).2 ∧
      ((operations.forM (alterColumn ifExists txn) held t).1 = .ok () →
        ∀ op ∈ operations, Gone txn (operations.forM (alterColumn ifExists txn) held t).2 op) := by
  induction operations generalizing t with
  | nil => exact ⟨.refl, by simp⟩
  | cons op operations ih =>
    obtain ⟨hdropped, hgone⟩ := @alterColumn_step t txn op ifExists held hplain
    show Dropped txn t
        ((alterColumn ifExists txn op >>= fun _ => operations.forM (alterColumn ifExists txn)) held t).2 ∧
      (((alterColumn ifExists txn op >>= fun _ => operations.forM (alterColumn ifExists txn)) held t).1 = .ok () →
        ∀ op' ∈ op :: operations, Gone txn
          ((alterColumn ifExists txn op >>= fun _ => operations.forM (alterColumn ifExists txn)) held t).2 op')
    rw [bind_run]
    generalize alterColumn ifExists txn op held t = outcome at hdropped hgone ⊢
    obtain ⟨e | _, t₁⟩ := outcome
    · exact ⟨hdropped, by simp⟩
    · have hplain₁ := hplain.dropped hdropped
      obtain ⟨hrest, hall⟩ := ih hplain₁
      refine ⟨hdropped.trans hrest, fun hok op' hop' => ?_⟩
      rcases List.mem_cons.1 hop' with rfl | hop'
      · exact hrest.gone hplain₁ (hgone rfl)
      · exact hall hok op' hop'

/-- Whoever does not read the deletes of `txn` sees the same columns. -/
theorem Dropped.seen (h : Dropped txn t t') (hV : ¬ TransactionHeader.Hides V txn.transactionId) :
    (t'.columns[c]?.bind (·.getVersionedColumn V)).map InternalColumn.body =
      (t.columns[c]?.bind (·.getVersionedColumn V)).map InternalColumn.body := by
  have hrel := h.columns c
  generalize t.columns[c]? = o, t'.columns[c]? = o' at hrel ⊢
  cases hrel with
  | none => rfl
  | some hcolumn => exact hcolumn.seen hV

theorem Dropped.rollback (h : Dropped txn t t') : t'.rollbackTransaction txn = t.rollbackTransaction txn := by
  have hcolumns : (t'.columns.map fun _ column => column.rollbackTransaction txn) =
      t.columns.map fun _ column => column.rollbackTransaction txn := by
    refine Std.ExtTreeMap.ext_getElem? fun c => ?_
    rw [Std.ExtTreeMap.getElem?_map, Std.ExtTreeMap.getElem?_map]
    have hrel := h.columns c
    generalize t.columns[c]? = o, t'.columns[c]? = o' at hrel ⊢
    cases hrel with
    | none => rfl
    | some hcolumn => exact congrArg some hcolumn.rollback
  rw [rollbackTransaction, rollbackTransaction, hcolumns, h.rest]

end Table

/-! ## The statement on a database -/

namespace Database

variable {db : Database} {tableName : String} {ifExists : Bool} {operations : List AlterTableOperation}
  {T : TransactionID}

/-- What the transaction `V` sees of a column: all but the marks on it. -/
def columnSeen (db : Database) (name : String) (V : TransactionID) (c : ColumnID) : Option InternalColumn :=
  (db.tables[name]?.bind fun t => t.columns[c]?.bind (·.getVersionedColumn (db.txn V))).map InternalColumn.body

/-- Everything but the columns. -/
def columnless (db : Database) : Database :=
  { db with tables := db.tables.map fun _ t => { t with columns := ∅ } }

theorem executeAlterTable_cases : (∃ e, executeAlterTable tableName ifExists operations T () db = (.error e, db)) ∨
    ∃ name t, db.getTable tableName = some name ∧ db.tables[name]? = some t ∧
      executeAlterTable tableName ifExists operations T () db =
        ((operations.forM (Table.alterColumn ifExists (db.txn T)) none t).1, { db with
          tables := db.tables.insert name (operations.forM (Table.alterColumn ifExists (db.txn T)) none t).2 }) := by
  have hrequire := requireTable_run db tableName
  unfold executeAlterTable
  cases hname : db.getTable tableName with
  | none =>
    rw [hname] at hrequire
    exact Or.inl ⟨_, bind_error hrequire⟩
  | some name =>
    rw [hname] at hrequire
    obtain ⟨⟨t, ht⟩, -⟩ := SessionOp.Coherent.requireTable_known hname
    exact Or.inr ⟨name, t, rfl, ht, (bind_ok hrequire).trans (asTransaction_run ht)⟩

/-- **`ALTER TABLE ... DROP COLUMN`**, whether it returns or fails on the way: everything but the columns is as it
    was, transactions that do not read the deletes of `T` see the same columns, and a rollback leaves nothing of it.
    If it returns, `T` has no column of any of the names. -/
theorem alter_table_isolated
    (hplain : ∀ name ∈ db.getTable tableName, ∀ t ∈ db.tables[name]?, t.Plain (db.txn T)) :
    let outcome := executeAlterTable tableName ifExists operations T () db
    outcome.2.columnless = db.columnless ∧ outcome.2.rollbackTransaction T = db.rollbackTransaction T ∧
      (∀ V name c, ¬ TransactionHeader.Hides (db.txn V) T → outcome.2.columnSeen name V c = db.columnSeen name V c) ∧
        (outcome.1 = .ok () → ∃ name t, db.getTable tableName = some name ∧ outcome.2.tables[name]? = some t ∧
          ∀ op ∈ operations, Table.Gone (db.txn T) t op) := by
  intro outcome
  rcases @executeAlterTable_cases db tableName ifExists operations T with ⟨e, hrun⟩ | ⟨name, t, hname, ht, hrun⟩
  · have houtcome : outcome = (.error e, db) := hrun
    rw [houtcome]
    exact ⟨rfl, rfl, fun _ _ _ _ => rfl, by simp⟩
  · obtain ⟨hdropped, hgone⟩ := @Table.alterColumn_run t (db.txn T) operations ifExists none (hplain name hname t ht)
    have houtcome : outcome = _ := hrun
    rw [houtcome]
    generalize operations.forM (Table.alterColumn ifExists (db.txn T)) none t = run at hdropped hgone ⊢
    obtain ⟨result, t'⟩ := run
    dsimp only at hdropped hgone
    have hmap : ∀ f : Table → Table, f t' = f t → ((db.tables.insert name t').map fun _ t => f t) =
        db.tables.map fun _ t => f t := by
      intro f hf
      refine Std.ExtTreeMap.ext_getElem? fun name' => ?_
      rw [Std.ExtTreeMap.getElem?_map, Std.ExtTreeMap.getElem?_map, BTreeMap.get_insert]
      split_ifs with heq
      · rw [← heq, ht, Option.map_some, Option.map_some, hf]
      · rfl
    refine ⟨?_, ?_, fun V name' c hV => ?_, fun hok => ⟨name, t', hname, ?_, hgone hok⟩⟩
    · have hrest : ({ t' with columns := ∅ } : Table) = { t with columns := ∅ } := by rw [hdropped.rest]
      exact congrArg (fun tables => { db with tables := tables }) (hmap (fun t => { t with columns := ∅ }) hrest)
    · exact congrArg (fun tables => { db with txns := db.txns.rollbackTransaction T, tables := tables })
        (hmap (fun t => t.rollbackTransaction (db.txn T)) hdropped.rollback)
    · show ((db.tables.insert name t')[name']?.bind fun t => t.columns[c]?.bind (·.getVersionedColumn (db.txn V))).map
        InternalColumn.body = _
      rw [columnSeen, BTreeMap.get_insert]
      split_ifs with heq
      · rw [← heq, ht]
        exact hdropped.seen hV
      · rfl
    · exact (BTreeMap.get_insert ..).trans (if_pos rfl)

instance (txn : Transaction) (t : Table) : Decidable (t.Plain txn) :=
  decidable_of_iff
    ((∀ x ∈ t.columns.toList, ∀ v ∈ x.2.versions, v.isVisible txn = true → v.transactionHeader.deletedBy = none) ∧
      (∀ x ∈ t.columns.toList, (x.2.versions.filter (·.isVisible txn)).length ≤ 1) ∧
        ∀ x ∈ t.columns.toList, ∀ y ∈ t.columns.toList, ∀ v ∈ x.2.getVersionedColumn txn,
          ∀ w ∈ y.2.getVersionedColumn txn, normalizeIdentifier v.name = normalizeIdentifier w.name → x.1 = y.1)
    ⟨fun h => ⟨h.1, h.2.1, h.2.2⟩, fun h => ⟨h.unmarked, h.once, h.distinct⟩⟩

instance (txn : Transaction) (d : TransactionID) : Decidable (TransactionHeader.Hides txn d) :=
  inferInstanceAs (Decidable (d = txn.transactionId ∨ d < txn.snapshot.smallestActiveTransactionId ∨
    (d ≤ txn.snapshot.lastPossibleTransactionId ∧ d ∉ txn.snapshot.activeTransaction)))

/-- `ALTER TABLE flags DROP COLUMN FLAG, DROP COLUMN IF EXISTS size` -/
def dropFlag : List AlterTableOperation := [.dropColumn "FLAG" false false, .dropColumn "size" true false]

theorem dropFlag_plain : ∀ name ∈ Sql.flagsOfOthers.1.getTable "flags", ∀ t ∈ Sql.flagsOfOthers.1.tables[name]?,
    t.Plain (Sql.flagsOfOthers.1.txn 3) := by decide +kernel

theorem not_hides_flagsOfOthers : ¬ TransactionHeader.Hides (Sql.flagsOfOthers.1.txn 2) 3 := by decide +kernel

theorem alter_table_isolated_dropFlag :
    (executeAlterTable "flags" false dropFlag 3 () Sql.flagsOfOthers.1).2.rollbackTransaction 3 =
        Sql.flagsOfOthers.1.rollbackTransaction 3 ∧
      (executeAlterTable "flags" false dropFlag 3 () Sql.flagsOfOthers.1).2.columnSeen "flags" 2 0 =
        Sql.flagsOfOthers.1.columnSeen "flags" 2 0 :=
  have h := @alter_table_isolated Sql.flagsOfOthers.1 "flags" false dropFlag 3 dropFlag_plain
  ⟨h.2.1, h.2.2.1 2 "flags" 0 not_hides_flagsOfOthers⟩

example : (executeAlterTable "flags" false dropFlag 3 () Sql.flagsOfOthers.1).1 = .ok () := by decide +kernel

end Database

end AntDb
