/-
  Calls of a table from outside, and the independence of their results from eviction.

  A run is a list of calls, each with the transaction and the answers of the other tables it
  comes with.  Two tables with the same view answer every call alike, whatever their memory
  limits, as long as the pages the inserts open stay resident until the row is in them.
-/
import AntDb.Lib.Runs
import AntDb.Searching
import AntDb.Writing

namespace AntDb

/-! ## Calls -/

/-- Reading and writing rows. -/
inductive RowCall where
  | insertRow (data : RowData) (txn : Transaction) (others : ForeignTables)
  | updateRow (rowId : RowID) (data : RowData) (txn : Transaction) (others : ForeignTables)
  | deleteRow (rowId : RowID) (txn : Transaction)
  | getRow (rowId : RowID)
  | search (request : SearchRequest) (txn : Transaction) (accessPath : Option AccessPath)

inductive Reply where
  | inserted (rowId : RowID)
  | done
  | row (row : Row)
  | rows (results : List SearchResult)
deriving DecidableEq

namespace RowCall

open Table

def run : RowCall → TableM Reply
  | insertRow data txn others => return .inserted (← Table.insertRow data txn others)
  | updateRow rowId data txn others => do Table.updateRow rowId data txn others; return .done
  | deleteRow rowId txn => do Table.deleteRow rowId txn; return .done
  | getRow rowId => return .row (← Table.getRow rowId)
  | search request txn accessPath => return .rows (← Table.search request txn accessPath)

/-- The table after the call. -/
def step (t : Table) (call : RowCall) : Table := (call.run none t).2

def reply (t : Table) (call : RowCall) : Except Fault Reply := (call.run none t).1

/-- The replies of a run. -/
def replies : Table → List RowCall → List (Except Fault Reply)
  | _, [] => []
  | t, call :: calls => call.reply t :: replies (step t call) calls

/-- Rows compare as multisets. -/
inductive SameReply : Except Fault Reply → Except Fault Reply → Prop
  | rows {results results'} (h : results.Perm results') :
    SameReply (.ok (.rows results)) (.ok (.rows results'))
  | same (answer) : SameReply answer answer

/-- A page that an insert opens stays resident until the row is in it. -/
def KeepsRow (t : Table) : RowCall → Prop
  | insertRow data txn others => t.KeepsRow data txn others
  | _ => True

/-- The call comes back: it does not wait for a page lock it holds itself. -/
def Returns (t : Table) (call : RowCall) : Prop := call.reply t ≠ .error .blocked

instance (t : Table) (call : RowCall) : Decidable (Returns t call) :=
  inferInstanceAs (Decidable (_ ≠ _))

/-- A search has neither LIMIT nor OFFSET. -/
def Unlimited : RowCall → Prop
  | search request _ _ => request.limit = none ∧ request.offset = none
  | _ => True

/-- The filter of a search fails with one error only, whichever rows it fails on. -/
def FailsAlike (v : View) : RowCall → Prop
  | search request txn _ => ∀ e e', v.FilterFails request.filter txn e →
      v.FilterFails request.filter txn e' → e = e'
  | _ => True

/-! ## Calls of a view -/

/-- The calls that write, on a view; the others leave it alone. -/
def onView (v : View) : RowCall → View
  | insertRow data txn others => (v.insertRow data txn others).2
  | updateRow rowId data txn others => (v.updateRow rowId data txn others).2
  | deleteRow rowId txn => (v.deleteRow rowId txn).2
  | getRow _ | search _ _ _ => v

/-- The reply, with the rows of a search in the order of their ids. -/
def replyOfView (v : View) : RowCall → Except DataBaseErrors Reply
  | insertRow data txn others => (v.insertRow data txn others).1.map .inserted
  | updateRow rowId data txn others => (v.updateRow rowId data txn others).1.map fun _ => .done
  | deleteRow rowId txn => (v.deleteRow rowId txn).1.map fun _ => .done
  | getRow rowId => (v.getRow rowId).map .row
  | search request txn accessPath => (v.search request txn accessPath).map .rows

variable {t t' : Table} {call : RowCall} {calls : List RowCall} {v : View} {kept : Prop}

namespace SameReply

variable {a b c : Except Fault Reply}

theorem symm (h : SameReply a b) : SameReply b a := by
  cases h with
  | rows h => exact rows h.symm
  | same => exact same _

theorem trans (h : SameReply a b) (h' : SameReply b c) : SameReply a c := by
  cases h with
  | same => exact h'
  | rows h =>
    cases h' with
    | rows h' => exact rows (h.trans h')
    | same => exact rows h

theorem of_sameRows {fails : DataBaseErrors → Prop} {r r' : Except Fault (List SearchResult)}
    (halike : ∀ e e', fails e → fails e' → e = e') (h : SameRows fails r r') :
    SameReply (r.map .rows) (r'.map .rows) := by
  cases h with
  | ok h => exact rows h
  | error e => exact same _
  | fails h h' => rw [halike _ _ h h']; exact same _

end SameReply

/-- What a good table does with a call, as its view says. -/
structure Answers (t : Table) (call : RowCall) : Prop where
  good : (step t call).Good
  view : call.KeepsRow t → (step t call).view = call.onView t.view
  same : call.Unlimited → call.FailsAlike t.view →
    SameReply (call.reply t) ((call.replyOfView t.view).mapError .err)
  memoryLimit : (step t call).memoryLimit = t.memoryLimit

theorem map_run {α : Type} {x : TableM α} {f : α → Reply} {held : Option PageID} :
    (x >>= fun a => pure (f a)) held t = ((x held t).1.map f, (x held t).2) := by
  rw [Call.bind_run]
  rcases x held t with ⟨e | a, t'⟩ <;> rfl

/-- What a call leaves is what its table call leaves, and it returns if that one does. -/
theorem step_of_run {α : Type} {x : TableM α} {f : α → Reply}
    (hrun : call.run = (x >>= fun a => pure (f a))) : call.step t = (x none t).2 ∧
      (call.Returns t → (x none t).1 ≠ .error .blocked) := by
  have hcall := congrArg (fun x : TableM Reply => x none t) hrun
  rw [map_run] at hcall
  refine ⟨congrArg Prod.snd hcall, fun hreturns hblocked => hreturns ?_⟩
  rw [reply, hcall, hblocked]
  rfl

/-- A call that refines a call of the view answers as that one. -/
theorem Answers.of_refines {α : Type} {x : TableM α} {f : α → Reply}
    {spec : Except DataBaseErrors α × View}
    (hrun : call.run = (x >>= fun a => pure (f a))) (h : Refines t (call.KeepsRow t) (x none t) spec)
    (hview : call.onView t.view = spec.2) (hreply : call.replyOfView t.view = spec.1.map f) :
    Answers t call := by
  have hcall := congrArg (fun x : TableM Reply => x none t) hrun
  rw [map_run] at hcall
  constructor
  · rw [step, hcall]; exact h.good
  · rw [step, hcall, hview]; exact h.view
  · intro _ _
    rw [reply, hcall, hreply, h.result]
    cases spec.1 <;> exact SameReply.same _
  · rw [step, hcall]; exact h.memoryLimit

/-- No insert meets an old record of the page it opens, or the page stays resident. -/
def OpensClean (t : Table) : RowCall → Prop
  | insertRow data txn others => t.OpensClean data txn others
  | _ => True

theorem KeepsRow.opensClean (h : call.KeepsRow t) : call.OpensClean t := by
  cases call with
  | insertRow => exact Table.KeepsRow.opensClean h
  | _ => trivial

/-- **A call of a good table** does what its view says. -/
theorem answers (hg : t.Good) (hclean : call.OpensClean t) (hreturns : call.Returns t) :
    Answers t call := by
  cases call with
  | insertRow data txn others =>
    exact Answers.of_refines rfl (insertRow_refines hg hclean) rfl rfl
  | updateRow rowId data txn others =>
    refine Answers.of_refines (f := fun _ => .done) rfl (updateRow_refines hg fun hblocked => ?_) rfl rfl
    refine hreturns ?_
    show ((Table.updateRow rowId data txn others >>= _ : TableM Reply) none t).1 = _
    rw [map_run, hblocked]; rfl
  | deleteRow rowId txn =>
    exact Answers.of_refines (f := fun _ => .done) rfl (deleteRow_refines hg) rfl rfl
  | getRow rowId =>
    exact Answers.of_refines rfl (refines_read (run_yields hg yields_getRow)) rfl rfl
  | search request txn accessPath =>
    rcases framed_search t (Shows.of_good hg) with ⟨-, -, -, hheld⟩ | ⟨hsame, hm, -⟩
    · exact absurd rfl hheld
    · change _ → SameRows _ (Table.search request txn accessPath none t).1 _ at hsame
      change Moved _ t (Table.search request txn accessPath none t).2 at hm
      obtain ⟨hg', -, hv⟩ := (Shows.of_good hg).moved hm
      have hcall : (RowCall.search request txn accessPath).run none t = _ := map_run
      constructor
      · rw [step, hcall]; exact hg'
      · rw [step, hcall]; exact fun _ => hv
      · intro hunlimited halike
        rw [reply, hcall]
        have hspec : (replyOfView t.view (.search request txn accessPath)).mapError Fault.err =
            ((t.view.search request txn accessPath).mapError Fault.err).map Reply.rows := by
          rw [replyOfView]; cases t.view.search request txn accessPath <;> rfl
        rw [hspec]
        exact SameReply.of_sameRows halike (hsame hunlimited)
      · rw [step, hcall]; exact hm.memoryLimit

/-! ## Runs -/

/-- The call returns, keeps the row it inserts if it inserts one, and its filter fails alike. -/
structure Safe (t : Table) (call : RowCall) : Prop where
  keepsRow : call.KeepsRow t
  returns : call.Returns t
  failsAlike : call.FailsAlike t.view

/-- Good tables with one view reply alike. -/
theorem replies_same (hg : t.Good) (hg' : t'.Good) (hview : t.view = t'.view)
    (h : Runs.Each step Safe t calls)
    (h' : Runs.Each step (fun t call => call.KeepsRow t ∧ call.Returns t) t' calls)
    (hunlimited : ∀ call ∈ calls, Unlimited call) :
    List.Forall₂ SameReply (replies t calls) (replies t' calls) ∧
      (Runs.exec step t calls).Good ∧ (Runs.exec step t' calls).Good ∧
      (Runs.exec step t calls).view = (Runs.exec step t' calls).view := by
  induction calls generalizing t t' with
  | nil => exact ⟨.nil, hg, hg', hview⟩
  | cons call calls ih =>
    obtain ⟨hsafe, h⟩ := h
    obtain ⟨⟨hkeeps', hreturns'⟩, h'⟩ := h'
    have hanswers := answers hg hsafe.keepsRow.opensClean hsafe.returns
    have hanswers' := answers hg' hkeeps'.opensClean hreturns'
    have hun := hunlimited call (by simp)
    have hfirst := (hanswers.same hun hsafe.failsAlike).trans
      (hview ▸ (hanswers'.same hun (hview ▸ hsafe.failsAlike)).symm)
    obtain ⟨hreplies, hrest⟩ := ih hanswers.good hanswers'.good
      (by rw [hanswers.view hsafe.keepsRow, hanswers'.view hkeeps', hview]) h h'
      fun call hcall => hunlimited call (List.mem_cons_of_mem _ hcall)
    exact ⟨.cons hfirst hreplies, hrest⟩

/-! ## Inserted rows stay -/

variable {r : RowID}

theorem rows_stay (h : (v.rows[r]?).isSome = true) : ((call.onView v).rows[r]?).isSome = true := by
  have hmodify : ∀ (f : Row → Row) rowId, ((v.rows.modify rowId f)[r]?).isSome = true := by
    intro f rowId
    rw [BTreeMap.get_modify]
    split_ifs
    · rw [Option.isSome_map, h]
    · exact h
  cases call with
  | insertRow data txn others =>
    rw [onView, View.insertRow]
    split
    · exact h
    · dsimp only
      rw [BTreeMap.get_insert]
      split_ifs
      · rfl
      · exact h
  | updateRow rowId data txn others =>
    rw [onView, View.updateRow]
    split
    · exact h
    · dsimp only
      split
      · exact h
      · exact hmodify _ _
  | deleteRow rowId txn =>
    rw [onView, View.deleteRow]
    split
    · exact h
    · exact hmodify _ _
  | getRow => exact h
  | search => exact h

theorem map_ne_inserted {ε α : Type} {f : α → Reply} (hf : ∀ a, f a ≠ .inserted r)
    (x : Except ε α) : x.map f ≠ .ok (.inserted r) := by
  cases x with
  | error e => nofun
  | ok a => exact fun h => hf a (Except.ok.inj h)

theorem inserted_row (h : call.replyOfView v = .ok (.inserted r)) :
    ((call.onView v).rows[r]?).isSome = true := by
  cases call with
  | insertRow data txn others =>
    rw [replyOfView, View.insertRow] at h
    rw [onView, View.insertRow]
    split at h
    · cases h
    · obtain rfl : v.nextRowId + 1 = r := by simpa [Except.map] using h
      dsimp only
      rw [BTreeMap.get_insert, if_pos rfl]; rfl
  | _ =>
    refine absurd h (map_ne_inserted ?_ _)
    exact fun _ => nofun

/-- Of a good table, too, only an insert replies with the id of an inserted row. -/
theorem inserted_reply (hg : t.Good) (hclean : call.OpensClean t) (hreturns : call.Returns t)
    (h : call.reply t = .ok (.inserted r)) : call.replyOfView t.view = .ok (.inserted r) := by
  have hsame := (answers hg hclean hreturns).same
  cases call with
  | insertRow data txn others =>
    have hsame := hsame trivial trivial
    rw [h] at hsame
    generalize (RowCall.insertRow data txn others).replyOfView t.view = spec at hsame
    cases spec with
    | error e => cases hsame
    | ok answer =>
      cases hsame with
      | same => rfl
  | _ =>
    refine absurd ((congrArg Prod.fst map_run).symm.trans h) (map_ne_inserted ?_ _)
    exact fun _ => nofun

/-- A row that a run has inserted is there at its end. -/
theorem inserted_stay (hg : t.Good)
    (h : Runs.Each step (fun t call => call.KeepsRow t ∧ call.Returns t) t calls)
    (hr : .ok (.inserted r) ∈ replies t calls) :
    ((Runs.exec step t calls).view.rows[r]?).isSome = true := by
  have hstays : ∀ (calls : List RowCall) (t : Table), t.Good →
      Runs.Each step (fun t call => call.KeepsRow t ∧ call.Returns t) t calls →
      (t.view.rows[r]?).isSome = true →
      ((Runs.exec step t calls).view.rows[r]?).isSome = true := by
    intro calls t hg h hrow
    refine (Runs.Each.invariant h (I := fun t => t.Good ∧ (t.view.rows[r]?).isSome = true)
      ⟨hg, hrow⟩ fun t call hI hcall => ?_).2
    have hanswers := answers hI.1 hcall.1.opensClean hcall.2
    exact ⟨hanswers.good, by rw [hanswers.view hcall.1]; exact rows_stay hI.2⟩
  induction calls generalizing t with
  | nil => cases hr
  | cons call calls ih =>
    obtain ⟨⟨hkeeps, hreturns⟩, h⟩ := h
    have hanswers := answers hg hkeeps.opensClean hreturns
    rcases List.mem_cons.1 hr with hr | hr
    · refine hstays calls _ hanswers.good h ?_
      rw [hanswers.view hkeeps]
      exact inserted_row (inserted_reply hg hkeeps.opensClean hreturns hr.symm)
    · exact ih hanswers.good h hr

/-- Reading a row of a good table. -/
theorem reply_getRow (hg : t.Good) (h : (t.view.rows[r]?).isSome = true) :
    ∃ row, t.view.rows[r]? = some row ∧ (getRow r).reply t = .ok (.row row) := by
  obtain ⟨row, hrow⟩ := Option.isSome_iff_exists.1 h
  refine ⟨row, hrow, ?_⟩
  obtain ⟨p, hp⟩ := mapped_of_row hrow
  have hknown : r ∈ t.view.rowIds := mem_rowIds.2 (BTreeMap.mem_of_get hp)
  obtain ⟨t', hrun, -⟩ := run_yields hg yields_getRow
  have hview : t.view.getRow r = .ok row := by
    rw [View.getRow, View.withRow, if_pos hknown, hrow]; rfl
  rw [hview] at hrun
  rw [reply, run, map_run, hrun]; rfl

end RowCall

namespace Table

variable {t : Table} {data : RowData} {txn : Transaction} {others : ForeignTables}

/-- A new table, with some columns, over a page file. -/
def start (tableId : TableID) (pageSize memoryLimit : ℕ) (store : PageStore)
    (columns : BTreeMap ColumnID Column) : Table :=
  { new tableId pageSize memoryLimit store with columns := columns }

theorem good_start {tableId : TableID} {pageSize memoryLimit : ℕ} {store : PageStore}
    {columns : BTreeMap ColumnID Column} (hr : store.readFault = none) (hw : store.writeFault = none) :
    (start tableId pageSize memoryLimit store columns).Good := by
  have hmap : ∀ p, ¬ RowMap.Maps ∅ p := fun p ⟨r, h⟩ => by simp at h
  have hres : ∀ p, ¬ (start tableId pageSize memoryLimit store columns).Resident p := fun p ⟨_, h⟩ => by
    rw [start, new, PageMap.get?_empty] at h; cases h
  constructor
  · exact hr
  · exact hw
  · exact fun p hp => by simp [start, new] at hp
  · exact fun p hp => (hp.elim (hres p) (hmap p)).elim
  · exact fun p hp => (hp.elim (hres p) (hmap p)).elim
  · exact fun p hp => (hmap p hp).elim
  · exact fun _ h => h.elim
  · exact fun p hp => (hres p hp).elim
  · exact fun p hp => (hmap p hp).elim
  · exact fun r hr => by simp [start, new] at hr

/-- Without a memory limit every opened page stays. -/
theorem keepsRow_unlimited (hg : t.Good) (h : t.memoryLimit = 0) : t.KeepsRow data txn others := by
  intro t' ht'
  obtain ⟨t'', hrun, -, -, hm⟩ := run_yields hg yields_validateRowData
  rw [ht'.validated] at hrun
  obtain rfl : t' = t'' := congrArg Prod.snd hrun
  exact Or.inl (hm.memoryLimit.trans h)

end Table

/-- Without a memory limit the calls of a run keep their rows. -/
theorem RowCall.each_unlimited {t : Table} {calls : List RowCall} (hg : t.Good)
    (h₀ : t.memoryLimit = 0) (h : Runs.Each step Returns t calls) :
    Runs.Each step (fun t call => call.KeepsRow t ∧ call.Returns t) t calls := by
  induction calls generalizing t with
  | nil => trivial
  | cons call calls ih =>
    have hkeeps : call.KeepsRow t := by
      cases call with
      | insertRow => exact Table.keepsRow_unlimited hg h₀
      | _ => trivial
    have hanswers := answers hg hkeeps.opensClean h.1
    exact ⟨⟨hkeeps, h.1⟩, ih hanswers.good (hanswers.memoryLimit.trans h₀) h.2⟩

namespace RowCall

open Table

/-- **Eviction is transparent** to every run whose calls are safe. -/
theorem eviction_transparent (tableId : TableID) (pageSize limit : ℕ) (store : PageStore)
    (columns : BTreeMap ColumnID Column) (calls : List RowCall)
    (hr : store.readFault = none) (hw : store.writeFault = none)
    (hunlimited : ∀ call ∈ calls, call.Unlimited)
    (hsafe : Runs.Each step Safe (start tableId pageSize limit store columns) calls)
    (hreturns : Runs.Each step Returns (start tableId pageSize 0 store columns) calls) :
    List.Forall₂ SameReply (replies (start tableId pageSize limit store columns) calls)
        (replies (start tableId pageSize 0 store columns) calls) ∧
      ∀ r, .ok (.inserted r) ∈ replies (start tableId pageSize limit store columns) calls →
        ∃ row, (getRow r).reply (Runs.exec step (start tableId pageSize limit store columns) calls) =
            .ok (.row row) ∧
          (getRow r).reply (Runs.exec step (start tableId pageSize 0 store columns) calls) =
            .ok (.row row) := by
  have hg : ∀ limit, (start tableId pageSize limit store columns).Good := fun _ => good_start hr hw
  have h₀ := each_unlimited (hg 0) rfl hreturns
  obtain ⟨hsame, hgood, hgood₀, hview⟩ :=
    replies_same (hg limit) (hg 0) rfl hsafe h₀ hunlimited
  refine ⟨hsame, fun r hinserted => ?_⟩
  have hrow := inserted_stay (hg limit) (hsafe.mono fun t call h => ⟨h.keepsRow, h.returns⟩) hinserted
  obtain ⟨row, hrow', hreply⟩ := reply_getRow hgood hrow
  obtain ⟨row', hrow₀, hreply₀⟩ := reply_getRow hgood₀ (hview ▸ hrow)
  obtain rfl : row = row' := Option.some.inj (hrow'.symm.trans ((congrArg (·.rows[r]?) hview).trans hrow₀))
  exact ⟨row, hreply, hreply₀⟩

/-- Transaction 1 inserts an empty row and reads it. -/
abbrev insertAndRead : List RowCall := [insertRow ∅ ⟨1, .default⟩ fun _ => none, getRow 1]

theorem eviction_transparent_roomy :
    List.Forall₂ SameReply (replies (start 0 100 1000 .empty ∅) insertAndRead)
        (replies (start 0 100 0 .empty ∅) insertAndRead) ∧
      ∀ r, .ok (.inserted r) ∈ replies (start 0 100 1000 .empty ∅) insertAndRead →
        ∃ row, (getRow r).reply (Runs.exec step (start 0 100 1000 .empty ∅) insertAndRead) =
            .ok (.row row) ∧
          (getRow r).reply (Runs.exec step (start 0 100 0 .empty ∅) insertAndRead) = .ok (.row row) := by
  refine eviction_transparent 0 100 1000 .empty ∅ insertAndRead rfl rfl (by simp [Unlimited])
    ⟨⟨fun t' ht' => ?_, by decide, trivial⟩, ⟨trivial, by decide, trivial⟩, trivial⟩
    ⟨by decide, by decide, trivial⟩
  obtain rfl : _ = t' := congrArg Prod.snd ht'.validated
  exact Or.inr ⟨[], ⟨List.nodup_nil, nofun, nofun⟩, nofun, by decide⟩

/-- The page the insert opens is evicted at once, and the row with it. -/
theorem eviction_loses_row :
    ¬ List.Forall₂ SameReply (replies (start 0 100 10 .empty ∅) insertAndRead)
      (replies (start 0 100 0 .empty ∅) insertAndRead) := by
  have h : replies (start 0 100 10 .empty ∅) insertAndRead =
      [.ok (.inserted 1), .error (.err (.rowNotFound 1))] := by decide
  have h₀ : replies (start 0 100 0 .empty ∅) insertAndRead =
      [.ok (.inserted 1), .ok (.row (.new ⟨1, .default⟩ ∅))] := by decide
  rw [h, h₀]
  rintro (_ | ⟨-, _ | ⟨h, -⟩⟩)
  cases h

end RowCall

end AntDb
