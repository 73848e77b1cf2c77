/-
  What the assignments of an `UPDATE` make of a row.

  The loop of the executor runs through the assignments and keeps the entries of the row by column
  id.  Each assignment reads and writes one entry, so that every column is made of its own old
  entry, by the assignments that name it.
-/
import AntDb.Lib.Keyed
import AntDb.Pipeline
import AntDb.Retrieval

namespace AntDb.Sql

open Table (visibleColumns columnDataType)
open Dml (UpdateAssignment addNumericEntries)

variable {columns : BTreeMap ColumnID Column} {txn : Transaction} {visible : BTreeMap String ColumnID}
  {name : String} {c : ColumnID} {data new : RowData} {f f' : String → DataBaseDataEntry}
  {assignments : List (String × UpdateAssignment)} {r : RowID}

/-- The entries of the row once the assignments are made, as `execute_update` computes them. -/
def updateImage (columns : BTreeMap ColumnID Column) (txn : Transaction)
    (assignments : List (String × UpdateAssignment)) (row : SearchResult) : Except DataBaseErrors RowData := do
  assignments.foldlM (assignColumn columns txn (visibleColumns columns txn))
    (← rowDataById (visibleColumns columns txn) row)

/-! ## Column by column -/

/-- What an assignment makes of an entry of the type. -/
def assignEntry (expectedType : DataBaseDataType) (entry : DataBaseDataEntry) :
    UpdateAssignment → Except DataBaseErrors DataBaseDataEntry
  | .set value => coerceToType value expectedType
  | .addColumn _ delta => do coerceToType (← addNumericEntries entry delta) expectedType

/-- The type of the visible column called `name`. -/
def visibleType (columns : BTreeMap ColumnID Column) (txn : Transaction) (name : String) : Option DataBaseDataType := do
  let c ← (visibleColumns columns txn)[name]?
  let column ← columns[c]?
  let version ← column.getVersionedColumn txn
  return version.dataType

def assignNamed (columns : BTreeMap ColumnID Column) (txn : Transaction) (name : String) (entry : DataBaseDataEntry)
    (assignment : UpdateAssignment) : Option DataBaseDataEntry :=
  (visibleType columns txn name).bind fun expectedType => (assignEntry expectedType entry assignment).toOption

/-- The entry of the column called `name` once the assignments that name it are made. -/
def assignedEntry (columns : BTreeMap ColumnID Column) (txn : Transaction)
    (assignments : List (String × UpdateAssignment)) (name : String) (entry : DataBaseDataEntry) :
    Option DataBaseDataEntry :=
  Keyed.runAt (assignNamed columns txn) assignments name entry

/-- The row once the assignments are made: all of them name visible columns, and each visible column has its own
    new entry. -/
def assignedRow (columns : BTreeMap ColumnID Column) (txn : Transaction)
    (assignments : List (String × UpdateAssignment)) (data : RowData) : Option RowData :=
  if ∀ a ∈ assignments, a.1 ∈ visibleColumns columns txn then
    (visibleColumns columns txn).toList.foldlM (fun row x =>
      (assignedEntry columns txn assignments x.1 (data[x.2]?.getD .null)).map (row.insert x.2)) ∅
  else none

/-! ## Rows by column name -/

/-- A column has one name. -/
def OneName (visible : BTreeMap String ColumnID) : Prop :=
  ∀ (name name' : String) (c : ColumnID), visible[name]? = some c → visible[name']? = some c → name = name'

/-- A visible column goes by the name of the version that the transaction sees. -/
theorem name_of_visible (h : (visibleColumns columns txn)[name]? = some c) : ∃ column version,
    columns[c]? = some column ∧ column.getVersionedColumn txn = some version ∧
      normalizeIdentifier version.name = name := by
  suffices hall : ∀ (name : String) (c : ColumnID), (visibleColumns columns txn)[name]? = some c → ∃ column version,
      columns[c]? = some column ∧ column.getVersionedColumn txn = some version ∧
        normalizeIdentifier version.name = name from hall name c h
  unfold visibleColumns
  refine List.foldlRecOn (motive := fun visible : BTreeMap String ColumnID => ∀ (name : String) (c : ColumnID),
    visible[name]? = some c → ∃ column version, columns[c]? = some column ∧
      column.getVersionedColumn txn = some version ∧ normalizeIdentifier version.name = name) _ _ (by simp) ?_
  intro visible hvisible x hx name c hname
  cases hversion : x.2.getVersionedColumn txn with
  | none =>
    rw [hversion] at hname
    exact hvisible name c hname
  | some version =>
    rw [hversion] at hname
    dsimp only at hname
    rw [BTreeMap.get_insert] at hname
    split_ifs at hname with heq
    · cases hname
      exact ⟨x.2, version, BTreeMap.mem_toList.1 hx, hversion, heq⟩
    · exact hvisible name c hname

theorem oneName_visibleColumns : OneName (visibleColumns columns txn) := by
  intro left right c hleft hright
  obtain ⟨column, version, hcolumn, hversion, rfl⟩ := name_of_visible hleft
  obtain ⟨column', version', hcolumn', hversion', rfl⟩ := name_of_visible hright
  obtain rfl := Option.some.inj (hcolumn.symm.trans hcolumn')
  obtain rfl := Option.some.inj (hversion.symm.trans hversion')
  rfl

/-- The row with the entries `f` in the visible columns. -/
def rowOf (visible : BTreeMap String ColumnID) (f : String → DataBaseDataEntry) : RowData :=
  visible.toList.foldl (fun row x => row.insert x.2 (f x.1)) ∅

theorem get_rowOf (h : OneName visible) {e : DataBaseDataEntry} :
    (rowOf visible f)[c]? = some e ↔ ∃ name, visible[name]? = some c ∧ f name = e := by
  have hswap : rowOf visible f =
      (visible.toList.map Prod.swap).foldl (fun row (x : ColumnID × String) => row.insert x.1 (f x.2)) ∅ := by
    rw [List.foldl_map]
    rfl
  have hnodup : ((visible.toList.map Prod.swap).map Prod.fst).Nodup := by
    rw [List.map_map]
    refine (BTreeMap.nodup_toList visible).map_on fun x hx y hy hxy => ?_
    have hids : x.2 = y.2 := hxy
    exact Prod.ext (h x.1 y.1 x.2 (BTreeMap.mem_toList.1 hx) (hids ▸ BTreeMap.mem_toList.1 hy)) hids
  have hmem : ∀ name : String, (c, name) ∈ visible.toList.map Prod.swap ↔ visible[name]? = some c := by
    intro name
    rw [← BTreeMap.mem_toList]
    simp
  obtain ⟨hsome, hnone⟩ := BTreeMap.get_foldl_insert (fun x => f x.2) (visible.toList.map Prod.swap)
    (∅ : RowData) c hnodup
  rw [hswap]
  by_cases hc : ∃ name : String, visible[name]? = some c
  · obtain ⟨name, hname⟩ := hc
    rw [hsome name ((hmem name).2 hname), Option.some.injEq]
    refine ⟨fun he => ⟨name, hname, he⟩, ?_⟩
    rintro ⟨name', hname', he⟩
    rwa [h name name' c hname hname']
  · rw [hnone fun name hname => hc ⟨name, (hmem name).1 hname⟩]
    refine iff_of_false (by simp) ?_
    rintro ⟨name, hname, -⟩
    exact hc ⟨name, hname⟩

theorem getD_rowOf (h : OneName visible) (hc : visible[name]? = some c) :
    (rowOf visible f)[c]?.getD .null = f name := by
  rw [(get_rowOf h).2 ⟨name, hc, rfl⟩]
  rfl

/-- Rows with the same entries in the visible columns. -/
theorem rowOf_congr (h : OneName visible) (hf : ∀ name ∈ visible, f name = f' name) :
    rowOf visible f = rowOf visible f' := by
  refine Std.ExtTreeMap.ext_getElem? fun c => Option.ext fun e => ?_
  rw [get_rowOf h, get_rowOf h]
  exact exists_congr fun name => and_congr_right fun hname => by rw [hf name (BTreeMap.mem_of_get hname)]

theorem rowOf_update (h : OneName visible) (hc : visible[name]? = some c) {e : DataBaseDataEntry} :
    (rowOf visible f).insert c e = rowOf visible (Function.update f name e) := by
  refine Std.ExtTreeMap.ext_getElem? fun c' => Option.ext fun e' => ?_
  rw [BTreeMap.get_insert, get_rowOf h]
  split_ifs with hcc
  · subst hcc
    constructor
    · rintro ⟨⟩
      exact ⟨name, hc, Function.update_self ..⟩
    · rintro ⟨name', hname', he⟩
      obtain rfl := h name name' c hc hname'
      rw [← he, Function.update_self]
  · rw [get_rowOf h]
    refine exists_congr fun name' => and_congr_right fun hname' => ?_
    have hne : name' ≠ name := by
      rintro rfl
      exact hcc (Option.some.inj (hc.symm.trans hname'))
    rw [Function.update_of_ne hne]

/-- The old entries of the row: a column that it has no entry for counts as `NULL`. -/
def oldEntry (visible : BTreeMap String ColumnID) (data : RowData) (name : String) : DataBaseDataEntry :=
  (visible[name]?.bind (data[·]?)).getD .null

theorem oldEntry_visible (hc : visible[name]? = some c) : oldEntry visible data name = data[c]?.getD .null := by
  rw [oldEntry, hc]
  rfl

/-! ## The executor's loop -/

/-- The search reads the entries of all visible columns. -/
theorem rowDataById_shown : rowDataById visible (Table.shown visible.toList (r, data)) =
    .ok (rowOf visible (oldEntry visible data)) := by
  have hvalues : (Table.shown visible.toList (r, data)).values = visible.map fun _ c => data[c]?.getD .null := by
    refine Std.ExtTreeMap.ext_getElem? fun name => ?_
    obtain ⟨hsome, hnone⟩ := BTreeMap.get_foldl_insert (fun x : String × ColumnID => data[x.2]?.getD .null)
      visible.toList ∅ name (by rw [Std.ExtTreeMap.map_fst_toList_eq_keys]; exact Std.ExtTreeMap.nodup_keys)
    rw [Std.ExtTreeMap.getElem?_map]
    cases hc : visible[name]? with
    | some c => exact hsome c (BTreeMap.mem_toList.2 hc)
    | none =>
      refine (hnone fun c hmem => ?_).trans (by simp)
      rw [BTreeMap.mem_toList, hc] at hmem
      cases hmem
  rw [rowDataById, hvalues, Std.ExtTreeMap.toList_map, List.foldlM_map]
  refine Except.foldlM_ok fun row x hx => ?_
  have hc : visible[x.1]? = some x.2 := BTreeMap.mem_toList.1 hx
  rw [oldEntry_visible hc]
  simp only [hc]

/-- One turn of the loop. -/
theorem assignColumn_rowOf {a : String × UpdateAssignment} :
    (assignColumn columns txn (visibleColumns columns txn) (rowOf (visibleColumns columns txn) f) a).toOption =
      (Keyed.step (assignNamed columns txn) f a).map (rowOf (visibleColumns columns txn)) := by
  rw [assignColumn, Keyed.step, assignNamed, visibleType]
  cases hc : (visibleColumns columns txn)[a.1]? with
  | none => rfl
  | some c =>
    have happly : ∀ expectedType, Dml.applyUpdateAssignment a.2 (rowOf (visibleColumns columns txn) f) c expectedType =
        assignEntry expectedType (f a.1) a.2 := by
      intro expectedType
      cases a.2 with
      | set value => rfl
      | addColumn column delta =>
        rw [assignEntry, ← @getD_rowOf _ _ _ f oneName_visibleColumns hc]
        rfl
    dsimp only
    unfold columnDataType
    cases hcolumn : columns[c]? with
    | none =>
      simp only [Option.bind_eq_bind, Option.bind_some, hcolumn]
      rfl
    | some column =>
      cases hversion : column.getVersionedColumn txn with
      | none =>
        simp only [Option.bind_eq_bind, Option.bind_some, hcolumn, hversion]
        rfl
      | some version =>
        simp only [Option.bind_eq_bind, Option.bind_some, hcolumn, hversion, Option.pure_def]
        show (Dml.applyUpdateAssignment a.2 (rowOf (visibleColumns columns txn) f) c version.dataType >>= fun e =>
          Except.ok ((rowOf (visibleColumns columns txn) f).insert c e)).toOption = _
        rw [happly]
        cases assignEntry version.dataType (f a.1) a.2 with
        | error e => rfl
        | ok e => exact congrArg some (rowOf_update oneName_visibleColumns hc)

/-- Each visible column has its new entry. -/
theorem foldlM_insert {l : List (String × ColumnID)} {g : String × ColumnID → Option DataBaseDataEntry}
    {row : RowData} : l.foldlM (fun row x => (g x).map (row.insert x.2)) row = some new ↔
      (∀ x ∈ l, (g x).isSome) ∧ new = l.foldl (fun row x => row.insert x.2 ((g x).getD .null)) row := by
  induction l generalizing row with
  | nil => exact ⟨fun h => ⟨by simp, (Option.some.inj h).symm⟩, fun h => congrArg some h.2.symm⟩
  | cons x l ih =>
    rw [List.foldlM_cons, List.foldl_cons, List.forall_mem_cons]
    cases hx : g x with
    | none => exact iff_of_false (by simp) (by simp)
    | some e => exact ih.trans (and_congr_left fun _ => (and_iff_right (by simp)).symm)

theorem assignedRow_iff : assignedRow columns txn assignments data = some new ↔
    (∀ a ∈ assignments, a.1 ∈ visibleColumns columns txn) ∧
      (∀ name ∈ visibleColumns columns txn, (assignedEntry columns txn assignments name
        (oldEntry (visibleColumns columns txn) data name)).isSome) ∧
        new = rowOf (visibleColumns columns txn) fun name => (assignedEntry columns txn assignments name
          (oldEntry (visibleColumns columns txn) data name)).getD .null := by
  have hentry : ∀ x ∈ (visibleColumns columns txn).toList, data[x.2]?.getD .null =
      oldEntry (visibleColumns columns txn) data x.1 := fun x hx => (oldEntry_visible (BTreeMap.mem_toList.1 hx)).symm
  have hrow : ∀ row : RowData, (visibleColumns columns txn).toList.foldl (fun row x => row.insert x.2
      ((assignedEntry columns txn assignments x.1 (data[x.2]?.getD .null)).getD .null)) row =
      (visibleColumns columns txn).toList.foldl (fun row x => row.insert x.2 ((assignedEntry columns txn assignments x.1
        (oldEntry (visibleColumns columns txn) data x.1)).getD .null)) row :=
    fun row => List.foldl_ext _ _ row fun row x hx => by rw [hentry x hx]
  rw [assignedRow]
  split_ifs with hnamed
  · rw [foldlM_insert, and_iff_right hnamed, hrow]
    refine and_congr_left fun _ => ?_
    constructor
    · intro h name hname
      obtain ⟨c, hc⟩ := BTreeMap.mem_iff_get.1 hname
      rw [oldEntry_visible hc]
      exact h (name, c) (BTreeMap.mem_toList.2 hc)
    · intro h x hx
      rw [hentry x hx]
      exact h x.1 (BTreeMap.mem_of_get (BTreeMap.mem_toList.1 hx))
  · exact iff_of_false (by simp) fun h => hnamed h.1

/-- **An update of a row** makes each visible column of its own old entry, and fails if one of them does. -/
theorem updateImage_shown :
    (updateImage columns txn assignments (Table.shown (visibleColumns columns txn).toList (r, data))).toOption =
      assignedRow columns txn assignments data := by
  have himage : (updateImage columns txn assignments
      (Table.shown (visibleColumns columns txn).toList (r, data))).toOption =
      (assignments.foldlM (Keyed.step (assignNamed columns txn)) (oldEntry (visibleColumns columns txn) data)).map
        (rowOf (visibleColumns columns txn)) := by
    rw [updateImage, rowDataById_shown, Except.toOption_bind]
    refine Except.toOption_foldlM.trans ?_
    exact Option.foldlM_map fun f a _ => assignColumn_rowOf
  rw [himage]
  refine Option.ext fun new => ?_
  rw [Option.map_eq_some_iff, assignedRow_iff]
  constructor
  · rintro ⟨f, hf, rfl⟩
    have hentries := Keyed.foldlM_step.1 hf
    refine ⟨fun a ha => ?_, fun name _ => ?_, ?_⟩
    · by_contra hnot
      have hfails : ∀ entry assignment, assignNamed columns txn a.1 entry assignment = none := by
        intro entry assignment
        rw [assignNamed, visibleType, Std.ExtTreeMap.getElem?_eq_none hnot]
        rfl
      have hentry := hentries a.1
      rw [Keyed.runAt_fails hfails ha rfl] at hentry
      cases hentry
    · rw [assignedEntry, hentries name]
      rfl
    · refine rowOf_congr oneName_visibleColumns fun name _ => ?_
      rw [assignedEntry, hentries name]
      rfl
  · rintro ⟨hnamed, hsome, rfl⟩
    refine ⟨_, Keyed.foldlM_step.2 fun name => ?_, rfl⟩
    have hentry : (assignedEntry columns txn assignments name
        (oldEntry (visibleColumns columns txn) data name)).isSome := by
      by_cases hname : name ∈ visibleColumns columns txn
      · exact hsome name hname
      · rw [assignedEntry, Keyed.runAt_of_not_mem]
        · rfl
        · rintro a ha rfl
          exact hname (hnamed a ha)
    obtain ⟨e, he⟩ := Option.isSome_iff_exists.1 hentry
    rw [he]
    exact he

end AntDb.Sql
