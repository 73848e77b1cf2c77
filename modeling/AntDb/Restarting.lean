/-
  Restarts from the last snapshot.

  A page file advances with every eviction and every flush, the counters that are saved with
  `save_snapshot` only.  A restart hands out new ids as long as no page is written between two
  saves with an id or a stamp handed out in between.
-/
import AntDb.Counters
import AntDb.Database
import AntDb.Reopening

namespace AntDb

open Call

namespace Table

variable {t : Table} {T : TransactionID}

/-- The writes of the page file since `t`. -/
def newWrites (t t' : Table) : List FileWrite :=
  t'.pageStore.writes.take (t'.pageStore.writes.length - t.pageStore.writes.length)

theorem Advances.record {t' : Table} {p : PageID} {page : Page} (h : Advances T t t')
    (hp : t'.pageStore.pages.get? p = some page) :
    t.pageStore.pages.get? p = some page ∨ ∃ w ∈ t.newWrites t', page ∈ w.written := by
  obtain ⟨ws, hws, hrecords⟩ := h.records
  have hnew : t.newWrites t' = ws := by
    rw [newWrites, hws, List.length_append, Nat.add_sub_cancel, List.take_left]
  exact hnew ▸ hrecords p page hp

end Table

namespace Database

variable {db db' : Database} {T : TransactionID} {name : String} {α : Type}

/-- The tables have moved on, and nothing else. -/
structure TablesAdvance (T : TransactionID) (db db' : Database) : Prop where
  tables : ∀ (name : String) t', db'.tables[name]? = some t' →
    ∃ t, db.tables[name]? = some t ∧ Table.Advances T t t'
  txns : db'.txns = db.txns
  pageFiles : db'.pageFiles = db.pageFiles

theorem TablesAdvance.refl (db : Database) : TablesAdvance T db db :=
  ⟨fun _ t h => ⟨t, h, Table.Advances.refl t⟩, rfl, rfl⟩

def advancing (T : TransactionID) : Frame Unit Database Fault where
  env := ()
  inv _ := True
  rel := TablesAdvance T
  exempt _ := False
  refl := TablesAdvance.refl
  trans h h' := by
    refine ⟨fun name t'' ht'' => ?_, h'.txns.trans h.txns, h'.pageFiles.trans h.pageFiles⟩
    obtain ⟨t', ht', hadvances'⟩ := h'.tables name t'' ht''
    obtain ⟨t, ht, hadvances⟩ := h.tables name t' ht'
    exact ⟨t, ht, hadvances.trans hadvances'⟩
  keep _ _ := trivial

theorem tablesAdvance_inTable {x : TableM α} (hx : ∀ t, Table.Advances T t (x none t).2) :
    TablesAdvance T db (inTable name x () db).2 := by
  unfold inTable
  cases ht : db.tables[name]? with
  | none => exact TablesAdvance.refl db
  | some t =>
    refine ⟨fun name' t' ht' => ?_, rfl, rfl⟩
    have ht' : (db.tables.insert name (x none t).2)[name']? = some t' := ht'
    rw [BTreeMap.get_insert] at ht'
    split_ifs at ht' with hname
    · obtain rfl := Option.some.inj ht'
      exact ⟨t, hname ▸ ht, hx t⟩
    · exact ⟨t', ht', Table.Advances.refl t'⟩

/-- Saving a snapshot flushes the tables, whether it fails or not. -/
theorem tablesAdvance_saveSnapshot : TablesAdvance T db (saveSnapshot () db).2 := by
  have hflush : ∀ name, Follows (advancing T) (inTable name Table.flushAllPages) := fun name _ db _ =>
    Or.inr ⟨trivial, tablesAdvance_inTable fun t =>
      (PageOp.advances_step trivial : t.Advances T (PageOp.step t (.table .flushAllPages)))⟩
  have hsave : Follows (advancing T) saveSnapshot := Follows.get fun db _ =>
    (Follows.forM fun name _ => hflush name).bind fun _ => Follows.get fun _ _ => Follows.pure
  rcases hsave () db trivial with ⟨e, he, hfalse⟩ | ⟨-, hrel⟩
  · exact hfalse.elim
  · exact hrel

/-- A snapshot that has been saved is that of the database it leaves. -/
theorem saveSnapshot_returned {snapshot : Snapshot} (h : (saveSnapshot () db).1 = .ok snapshot) :
    snapshot = (saveSnapshot () db).2.serialize := by
  have hrun : saveSnapshot () db = (.ok snapshot, (saveSnapshot () db).2) := Prod.ext h rfl
  obtain ⟨db₁, db₂, hget, hrest⟩ := bind_returned hrun
  obtain ⟨_, db₃, -, hend⟩ := bind_returned hrest
  rw [get_bind] at hend
  obtain ⟨hsnapshot, hdb⟩ := Prod.mk.inj hend
  rw [← hdb]
  exact (Except.ok.inj hsnapshot).symm

/-- No table has pages, in memory or in its page file. -/
structure Blank (db : Database) : Prop where
  rowSpace : ∀ (name : String) t, db.tables[name]? = some t → t.rowSpace = .empty
  pages : ∀ (name : String) t, db.tables[name]? = some t → t.pageStore.pages = .empty
  pageFiles : db.pageFiles = ∅

end Database

/-! ## Runs -/

/-- A database with its snapshot file. -/
structure Installation where
  db : Database
  snapshot : Option Database.Snapshot

/-- Transactions begin and end, tables answer their calls and move pages, and snapshots are
    saved. -/
inductive SavingOp where
  | createTransaction
  | commitTransaction (id : TransactionID)
  | rollbackTransaction (id : TransactionID)
  | page (name : String) (op : PageOp)
  | saveSnapshot

namespace Installation

open Database

def step (s : Installation) : SavingOp → Installation
  | .createTransaction => { s with db := (createTransaction () s.db).2 }
  | .commitTransaction id => { s with db := s.db.commitTransaction id }
  | .rollbackTransaction id => { s with db := s.db.rollbackTransaction id }
  | .page name op => { s with db := (inTable name op.run () s.db).2 }
  | .saveSnapshot =>
    match saveSnapshot () s.db with
    | (.ok snapshot, db) => ⟨db, some snapshot⟩
    | (.error _, db) => { s with db := db }

/-- Calls are made with ids that have been handed out, and are no vacuums. -/
def Enabled (s : Installation) : SavingOp → Prop
  | .rollbackTransaction id => id < s.db.txns.nextTransactionId
  | .page _ op => op.StampsBelow s.db.txns.nextTransactionId
  | _ => True

/-- The step does not save a snapshot. -/
def Unsaved (s : Installation) : SavingOp → Prop
  | .saveSnapshot => (Database.saveSnapshot () s.db).1.isOk = false
  | _ => True

/-- Every page that the step writes without saving a snapshot has ids and stamps that had been
    handed out at the last save only. -/
def WritesSaved (s : Installation) (op : SavingOp) : Prop :=
  s.Unsaved op → ∀ snapshot ∈ s.snapshot, ∀ name ∈ s.db.tables.keys, ∀ t ∈ s.db.tables[name]?,
    ∀ t' ∈ (s.step op).db.tables[name]?, ∀ saved ∈ snapshot.tables[name]?, ∀ w ∈ t.newWrites t',
      ∀ page ∈ w.written, page.Below (saved.counters snapshot.nextTransactionId)

instance (s : Installation) (op : SavingOp) : Decidable (s.Enabled op) := by
  unfold Enabled
  split <;> infer_instance

instance (s : Installation) (op : SavingOp) : Decidable (s.Unsaved op) := by
  unfold Unsaved
  split <;> infer_instance

instance (s : Installation) (op : SavingOp) : Decidable (s.WritesSaved op) := by
  unfold WritesSaved
  infer_instance

/-- The database after a restart from the snapshot and the page files as they are. -/
def restarted (s : Installation) (config : Config) (snapshot : Snapshot) : Installation :=
  ⟨loadFromSnapshot config snapshot s.db.filesOnDisk, some snapshot⟩

variable {s : Installation} {op : SavingOp} {snapshot : Snapshot} {name : String} {t' : Table}

/-- **A step** hands out ids, moves the tables on and leaves the page files under other names. -/
theorem step_moves (hop : s.Enabled op) :
    s.db.txns.nextTransactionId ≤ (s.step op).db.txns.nextTransactionId ∧
      (s.step op).db.pageFiles = s.db.pageFiles ∧
        ∀ (name : String) t', (s.step op).db.tables[name]? = some t' → ∃ t, s.db.tables[name]? = some t ∧
          Table.Advances s.db.txns.nextTransactionId t t' := by
  have hstay : ∀ (name : String) t, s.db.tables[name]? = some t → ∃ t', s.db.tables[name]? = some t' ∧
      Table.Advances s.db.txns.nextTransactionId t' t := fun _ t ht => ⟨t, ht, .refl t⟩
  have hmoved : ∀ {db}, TablesAdvance s.db.txns.nextTransactionId s.db db →
      s.db.txns.nextTransactionId ≤ db.txns.nextTransactionId ∧ db.pageFiles = s.db.pageFiles ∧
        ∀ (name : String) t', db.tables[name]? = some t' → ∃ t, s.db.tables[name]? = some t ∧
          Table.Advances s.db.txns.nextTransactionId t t' := fun h =>
    ⟨by rw [h.txns], h.pageFiles, h.tables⟩
  cases op with
  | createTransaction => exact ⟨Nat.le_succ _, rfl, hstay⟩
  | commitTransaction id => exact ⟨le_rfl, rfl, hstay⟩
  | rollbackTransaction id =>
    refine ⟨le_rfl, rfl, fun name t' ht' => ?_⟩
    have ht' : (s.db.tables.map fun _ t => t.rollbackTransaction (s.db.txn id))[name]? = some t' := ht'
    rw [Std.ExtTreeMap.getElem?_map] at ht'
    obtain ⟨t, ht, rfl⟩ := Option.map_eq_some_iff.1 ht'
    exact ⟨t, ht, Table.advances_rollback hop⟩
  | page name op => exact hmoved (tablesAdvance_inTable fun t => PageOp.advances_step hop)
  | saveSnapshot =>
    have hsave := hmoved tablesAdvance_saveSnapshot
    have hdb : (s.step .saveSnapshot).db = (Database.saveSnapshot () s.db).2 := by
      rw [step]
      rcases Database.saveSnapshot () s.db with ⟨e | snapshot, db⟩ <;> rfl
    rwa [hdb]

/-- Copies of pages are below the counters; the records of the page files are below the counters
    of the last save. -/
structure Inv (s : Installation) : Prop where
  pageFiles : s.db.pageFiles = ∅
  copies : ∀ (name : String) t, s.db.tables[name]? = some t → t.IdsBelow s.db.txns.nextTransactionId
  saved : ∀ snapshot, s.snapshot = some snapshot → ∀ (name : String) t, s.db.tables[name]? = some t →
    ∃ saved, snapshot.tables[name]? = some saved ∧
      ∀ p page, t.pageStore.pages.get? p = some page → page.Below (saved.counters snapshot.nextTransactionId)
  unloaded : ∀ snapshot, s.snapshot = some snapshot → ∀ (name : String) saved,
    snapshot.tables[name]? = some saved → saved.rowSpace = .empty

theorem Inv.step (h : s.Inv) (hop : s.Enabled op) (hsaved : s.WritesSaved op) : (s.step op).Inv := by
  obtain ⟨hnext, hfiles, htables⟩ := step_moves hop
  have hcopies : ∀ (name : String) t, (s.step op).db.tables[name]? = some t →
      t.IdsBelow (s.step op).db.txns.nextTransactionId := fun name t' ht' => by
    obtain ⟨t, ht, hadvances⟩ := htables name t' ht'
    exact fun p page hp => (hadvances.ids (h.copies name t ht) p page hp).mono ⟨hnext, le_rfl, le_rfl⟩
  by_cases hunsaved : s.Unsaved op
  · -- the snapshot is the old one
    have hold : (s.step op).snapshot = s.snapshot := by
      cases op with
      | saveSnapshot =>
        rw [Installation.step]
        have hunsaved : (Database.saveSnapshot () s.db).1.isOk = false := hunsaved
        generalize Database.saveSnapshot () s.db = outcome at hunsaved
        obtain ⟨e | snapshot, db⟩ := outcome
        · rfl
        · cases hunsaved
      | _ => rfl
    refine ⟨hfiles.trans h.pageFiles, hcopies, fun snapshot hsnapshot name t' ht' => ?_, hold ▸ h.unloaded⟩
    rw [hold] at hsnapshot
    obtain ⟨t, ht, hadvances⟩ := htables name t' ht'
    obtain ⟨saved, hfound, hbelow⟩ := h.saved snapshot hsnapshot name t ht
    refine ⟨saved, hfound, fun p page hp => ?_⟩
    rcases hadvances.record hp with hp | ⟨w, hw, hpage⟩
    · exact hbelow p page hp
    · exact hsaved hunsaved snapshot hsnapshot name (Std.ExtTreeMap.mem_keys.2 (BTreeMap.mem_of_get ht)) t ht
        t' ht' saved hfound w hw page hpage
  · -- the snapshot is the one that has just been saved
    cases op with
    | saveSnapshot =>
      obtain ⟨snapshot, hreturned⟩ : ∃ snapshot, (Database.saveSnapshot () s.db).1 = .ok snapshot := by
        have hunsaved : ¬ (Database.saveSnapshot () s.db).1.isOk = false := hunsaved
        generalize (Database.saveSnapshot () s.db).1 = result at hunsaved
        cases result with
        | error e => exact absurd rfl hunsaved
        | ok snapshot => exact ⟨snapshot, rfl⟩
      have hserialized := saveSnapshot_returned hreturned
      have hrun : s.step .saveSnapshot = ⟨(Database.saveSnapshot () s.db).2, some snapshot⟩ := by
        rw [Installation.step]
        generalize Database.saveSnapshot () s.db = outcome at hreturned
        obtain ⟨result, db⟩ := outcome
        obtain rfl : result = .ok snapshot := hreturned
        rfl
      rw [hrun] at hfiles hcopies ⊢
      have hreopened : ∀ name : String, snapshot.tables[name]? =
          (Database.saveSnapshot () s.db).2.tables[name]?.map (·.reopened) := fun name => by
        rw [hserialized, serialize, Std.ExtTreeMap.getElem?_map]
      refine ⟨hfiles.trans h.pageFiles, hcopies, ?_, ?_⟩ <;> rintro _ ⟨⟩ name
      · intro t ht
        refine ⟨t.reopened, by rw [hreopened, ht]; rfl, fun p page hp => ?_⟩
        rw [hserialized]
        exact hcopies name t ht p page (Or.inr hp)
      · intro saved hfound
        rw [hreopened] at hfound
        obtain ⟨t, -, rfl⟩ := Option.map_eq_some_iff.1 hfound
        rfl
    | _ => exact absurd trivial hunsaved

/-- The counters stand where they were saved, or beyond. -/
structure Past (snapshot : Snapshot) (s : Installation) : Prop where
  txns : snapshot.nextTransactionId ≤ s.db.txns.nextTransactionId
  tables : ∀ (name : String) t, s.db.tables[name]? = some t → ∃ saved, snapshot.tables[name]? = some saved ∧
    saved.nextRowId ≤ t.nextRowId ∧ saved.nextPageId ≤ t.nextPageId

theorem Past.step (h : s.Past snapshot) (hop : s.Enabled op) : (s.step op).Past snapshot := by
  obtain ⟨hnext, -, htables⟩ := step_moves hop
  refine ⟨h.txns.trans hnext, fun name t' ht' => ?_⟩
  obtain ⟨t, ht, hadvances⟩ := htables name t' ht'
  obtain ⟨saved, hsaved, hrows, hpages⟩ := h.tables name t ht
  exact ⟨saved, hsaved, hrows.trans hadvances.rows, hpages.trans hadvances.pages⟩

/-- Transaction 1 inserts an empty row in the table. -/
abbrev insertEmpty : SavingOp := .page "t" (.table (.call (.insertRow ∅ ⟨1, .default⟩ fun _ => none)))

end Installation

end AntDb
