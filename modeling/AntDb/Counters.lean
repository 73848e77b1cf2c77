/-
  The counters of a table and the ids on its pages.

  `Page.Below c` says that every id and every stamp on a page has been handed out by counters
  that stand at `c`.  It holds of the pages in memory and of the records of the page file under
  the counters as they are; what a call leaves in the page file has been there before, or is on
  a page that the call wrote.
-/
import AntDb.Swapping
import AntDb.Versions

namespace AntDb

/-- The next transaction id and page id, and the last row id. -/
structure Counters where
  nextTransactionId : TransactionID
  nextRowId : RowID
  nextPageId : PageID

namespace Counters

structure Le (c c' : Counters) : Prop where
  txns : c.nextTransactionId ≤ c'.nextTransactionId
  rows : c.nextRowId ≤ c'.nextRowId
  pages : c.nextPageId ≤ c'.nextPageId

end Counters

/-- The stamps of the version are ids below `T`. -/
def InternalRow.StampedBelow (T : TransactionID) (v : InternalRow) : Prop :=
  v.createdBy < T ∧ ∀ d ∈ v.deletedBy, d < T

instance (T : TransactionID) : DecidablePred (InternalRow.StampedBelow T) := fun v =>
  inferInstanceAs (Decidable (_ ∧ ∀ d ∈ v.deletedBy, d < T))

/-- The ids and the stamps on the page have been handed out. -/
structure Page.Below (c : Counters) (page : Page) : Prop where
  own : page.pageId < c.nextPageId
  next : ∀ q ∈ page.nextPage, q < c.nextPageId
  rows : ∀ r ∈ page.rows.keys, r ≤ c.nextRowId
  stamps : page.All (InternalRow.StampedBelow c.nextTransactionId)

instance (c : Counters) (page : Page) : Decidable (page.Below c) :=
  decidable_of_iff (page.pageId < c.nextPageId ∧ (∀ q ∈ page.nextPage, q < c.nextPageId) ∧
      (∀ r ∈ page.rows.keys, r ≤ c.nextRowId) ∧ page.All (InternalRow.StampedBelow c.nextTransactionId))
    ⟨fun ⟨hp, hn, hr, hs⟩ => ⟨hp, hn, hr, hs⟩, fun ⟨hp, hn, hr, hs⟩ => ⟨hp, hn, hr, hs⟩⟩

variable {c c' : Counters} {page : Page} {txn : Transaction} {T : TransactionID} {data : RowData}
  {rowId : RowID}

/-- A transaction below the bound stamps below it. -/
theorem admits_stampedBelow (h : txn.transactionId < T) : Admits (InternalRow.StampedBelow T) txn where
  created _ := ⟨h, nofun⟩
  marked v hv := ⟨hv.1, fun d hd => by
    obtain rfl : txn.transactionId = d := Option.some.inj hd
    exact h⟩

theorem InternalRow.StampedBelow.rollback {v : InternalRow} (hv : v.StampedBelow T)
    (h : txn.transactionId < T) : (v.rollback txn).StampedBelow T := by
  refine ⟨by rw [InternalRow.rollback_createdBy]; exact hv.1, fun d hd => ?_⟩
  rw [Option.mem_def, InternalRow.rollback_deletedBy] at hd
  split_ifs at hd with hc
  · rcases Option.or_eq_some_iff.1 hd with hd | ⟨-, hd⟩
    · exact hv.2 d hd
    · exact Option.some.inj hd ▸ h
  · exact hv.2 d hd

namespace Page.Below

theorem mono (h : page.Below c) (hc : c.Le c') : page.Below c' where
  own := lt_of_lt_of_le h.own hc.pages
  next q hq := lt_of_lt_of_le (h.next q hq) hc.pages
  rows r hr := (h.rows r hr).trans hc.rows
  stamps := h.stamps.mono fun _ hv =>
    ⟨lt_of_lt_of_le hv.1 hc.txns, fun d hd => lt_of_lt_of_le (hv.2 d hd) hc.txns⟩

theorem congr (h : page.Below c) {page' : Page} (hid : page'.pageId = page.pageId)
    (hnext : page'.nextPage = page.nextPage) (hrows : page'.rows = page.rows) : page'.Below c where
  own := hid ▸ h.own
  next := hnext ▸ h.next
  rows := hrows ▸ h.rows
  stamps := h.stamps.congr hrows

theorem fresh {p : PageID} {size : ℕ} (h : p < c.nextPageId) : (Page.new p size).Below c where
  own := h
  next := nofun
  rows _ hr := absurd (Std.ExtTreeMap.mem_keys.1 hr) Std.ExtTreeMap.not_mem_empty
  stamps := Page.all_fresh

theorem append (h : page.Below c) (hr : rowId ≤ c.nextRowId) (ht : txn.transactionId < c.nextTransactionId)
    {size : ℕ} : (page.append rowId (Row.new txn data) size).Below c where
  own := h.own
  next := h.next
  rows r hmem := by
    rcases Std.ExtTreeMap.mem_insert.1 (Std.ExtTreeMap.mem_keys.1 hmem) with he | hmem
    · exact Std.LawfulEqOrd.eq_of_compare he ▸ hr
    · exact h.rows r (Std.ExtTreeMap.mem_keys.2 hmem)
  stamps := h.stamps.append (Row.all_new (admits_stampedBelow ht))

theorem modify (h : page.Below c) {g : Row → Row}
    (hg : ∀ row : Row, row.All (InternalRow.StampedBelow c.nextTransactionId) →
      (g row).All (InternalRow.StampedBelow c.nextTransactionId)) :
    ({ page with rows := page.rows.modify rowId g, isDirty := true } : Page).Below c where
  own := h.own
  next := h.next
  rows r hr := h.rows r (Std.ExtTreeMap.mem_keys.2 (Std.ExtTreeMap.mem_modify.1 (Std.ExtTreeMap.mem_keys.1 hr)))
  stamps := h.stamps.modify hg

theorem linked (h : page.Below c) {q : PageID} (hq : q < c.nextPageId) :
    ({ page with nextPage := some q } : Page).Below c where
  own := h.own
  next _ hq' := Option.some.inj hq' ▸ hq
  rows := h.rows
  stamps := h.stamps.congr rfl

theorem rolledBack (h : page.Below c) (ht : txn.transactionId < c.nextTransactionId) :
    (Table.rolledBack page txn).Below c where
  own := h.own
  next := h.next
  rows r hr := h.rows r (Std.ExtTreeMap.mem_keys.2 (Std.ExtTreeMap.mem_map.1 (Std.ExtTreeMap.mem_keys.1 hr)))
  stamps := h.stamps.rolledBack fun _ hv => hv.rollback ht

end Page.Below

/-- The pages that a write has put in the file. -/
def FileWrite.written (w : FileWrite) : List Page :=
  match w.merged with
  | some page => [page]
  | none => w.after.values

namespace Table

open Call TableM

variable {t t' t'' : Table} {ρ : RowMap} {p : PageID} {held : Option PageID}
  {F : Frame (Option PageID) Table Fault} {others : ForeignTables} {n : RowID} {q : PageID}

/-! ## Pages that come and go, whatever becomes of them -/

/-- A frame that reading a page in, dropping one and writing one before it is dropped stay
    within. -/
structure Shuffles (F : Frame (Option PageID) Table Fault) : Prop where
  touched : ∀ p t, F.inv t → F.rel t (t.touchPage p)
  entered : ∀ p page t, F.inv t → t.rowSpace.get? p = none → t.pageStore.pages.get? p = some page →
    F.rel t ((t.entered page).arrived p)
  dropped : ∀ p t, F.inv t → F.rel t (t.dropped p)
  released : ∀ page t, F.inv t → F.rel t (t.released page)
  written : ∀ p page t, F.inv t → t.rowSpace.get? p = some page → F.rel t ((t.dropped p).written page)

namespace Shuffles

variable (h : Shuffles F)
include h

theorem follows_evictPage : Follows F (evictPage p) := by
  intro held t ht
  refine Or.inr ⟨trivial, ?_⟩
  show F.rel t (evictPage p held t).2
  rw [evictPage_run]
  cases hp : t.rowSpace.get? p with
  | none => exact F.refl t
  | some page =>
    have hdropped := h.dropped p t ht
    dsimp only
    rw [flushAndEvictPage_run]
    split_ifs
    · exact hdropped
    · cases (t.dropped p).pageStore.writeFault with
      | some message => exact hdropped
      | none =>
        have hwritten := h.written p page t ht hp
        exact F.trans hwritten (h.released page _ (F.keep ht hwritten))
    · exact F.trans hdropped (h.released page _ (F.keep ht hdropped))

theorem follows_maybeEvictPages (pinned : Option PageID) : Follows F (maybeEvictPages pinned) := by
  have hloop : ∀ limit rounds, Follows F (evictDownTo limit pinned rounds) := by
    intro limit rounds
    induction rounds with
    | zero => exact Follows.pure
    | succ rounds ih =>
      refine Follows.get fun t _ => ?_
      split_ifs
      · exact Follows.pure
      · cases t.pickLruVictim pinned with
        | none => exact Follows.pure
        | some victim => exact h.follows_evictPage.bind fun _ => ih
  refine Follows.get fun t _ => ?_
  split_ifs
  · exact Follows.pure
  · exact hloop _ _

theorem follows_ensurePageResident (p : PageID) : Follows F (ensurePageResident p) := by
  intro held t ht
  show (∃ e, (ensurePageResident p held t).1 = _ ∧ F.exempt e) ∨
    True ∧ F.rel t (ensurePageResident p held t).2
  rw [ensurePageResident_run]
  cases hp : t.rowSpace.get? p with
  | some page => exact Or.inr ⟨trivial, h.touched p t ht⟩
  | none =>
    dsimp only
    cases hread : t.pageStore.readPage p with
    | error e => exact Or.inr ⟨trivial, F.refl t⟩
    | ok found =>
      cases found with
      | none => exact Or.inr ⟨trivial, F.refl t⟩
      | some page =>
        have hentered := h.entered p page t ht hp (record_of_readPage hread)
        have hevict := ((h.follows_maybeEvictPages (some p)).bind
          fun _ => (Follows.pure : Follows F (pure page : TableM Page))) held _ (F.keep ht hentered)
        exact hevict.imp_right fun hevict => ⟨trivial, F.trans hentered hevict.2⟩

/-- Calls that read stay within the frame. -/
theorem loads (hρ : ∀ t, F.inv t → t.rowLocations = ρ) (hexempt : ∀ e, ¬ F.exempt e) : Loads F ρ where
  locations := hρ
  ensure p _ := h.follows_ensurePageResident p
  exempt e he := absurd he (hexempt e)

end Shuffles

/-! ## Counters -/

def counters (t : Table) (T : TransactionID) : Counters := ⟨T, t.nextRowId, t.nextPageId⟩

/-- The page in memory or its record in the page file. -/
def Copied (t : Table) (p : PageID) (page : Page) : Prop :=
  t.rowSpace.get? p = some page ∨ t.pageStore.pages.get? p = some page

/-- Every copy of a page is below the counters. -/
def IdsBelow (T : TransactionID) (t : Table) : Prop :=
  ∀ p page, t.Copied p page → page.Below (t.counters T)

/-- What a call with the transactions below `T` does to the counters and to the page file. -/
structure Advances (T : TransactionID) (t t' : Table) : Prop where
  ids : t.IdsBelow T → t'.IdsBelow T
  rows : t.nextRowId ≤ t'.nextRowId
  pages : t.nextPageId ≤ t'.nextPageId
  records : ∃ ws, t'.pageStore.writes = ws ++ t.pageStore.writes ∧ ∀ p page,
    t'.pageStore.pages.get? p = some page →
      t.pageStore.pages.get? p = some page ∨ ∃ w ∈ ws, page ∈ w.written

namespace Advances

theorem refl (t : Table) : Advances T t t := ⟨id, le_rfl, le_rfl, [], rfl, fun _ _ h => Or.inl h⟩

theorem trans (h : Advances T t t') (h' : Advances T t' t'') : Advances T t t'' where
  ids := h'.ids ∘ h.ids
  rows := h.rows.trans h'.rows
  pages := h.pages.trans h'.pages
  records := by
    obtain ⟨ws, hws, hrecords⟩ := h.records
    obtain ⟨ws', hws', hrecords'⟩ := h'.records
    refine ⟨ws' ++ ws, by rw [hws', hws, List.append_assoc], fun p page hp => ?_⟩
    rcases hrecords' p page hp with hp | ⟨w, hw, hpage⟩
    · rcases hrecords p page hp with hp | ⟨w, hw, hpage⟩
      · exact Or.inl hp
      · exact Or.inr ⟨w, List.mem_append_right _ hw, hpage⟩
    · exact Or.inr ⟨w, List.mem_append_left _ hw, hpage⟩

theorem le (h : Advances T t t') : (t.counters T).Le (t'.counters T) := ⟨le_rfl, h.rows, h.pages⟩

/-- The page file stays, and the pages in memory are below the counters. -/
theorem of_store (hs : t'.pageStore = t.pageStore) (hr : t.nextRowId ≤ t'.nextRowId)
    (hp : t.nextPageId ≤ t'.nextPageId)
    (hpages : t.IdsBelow T → ∀ p page, t'.rowSpace.get? p = some page → page.Below (t'.counters T)) :
    Advances T t t' where
  ids h p page hcopied := by
    rcases hcopied with hpage | hrecord
    · exact hpages h p page hpage
    · exact (h p page (Or.inr (hs ▸ hrecord))).mono ⟨le_rfl, hr, hp⟩
  rows := hr
  pages := hp
  records := ⟨[], by rw [hs]; rfl, fun p page h => Or.inl (hs ▸ h)⟩

/-- No page changes. -/
theorem of_copies (hs : t'.pageStore = t.pageStore) (hr : t'.nextRowId = t.nextRowId)
    (hp : t'.nextPageId = t.nextPageId)
    (hcopied : ∀ p page, t'.rowSpace.get? p = some page → t.Copied p page) : Advances T t t' :=
  of_store hs hr.ge hp.ge fun h p page hpage =>
    (h p page (hcopied p page hpage)).mono ⟨le_rfl, hr.ge, hp.ge⟩

/-- One write puts pages that are in memory in the file. -/
theorem of_write {w : FileWrite} (hw : t'.pageStore.writes = w :: t.pageStore.writes)
    (hr : t'.nextRowId = t.nextRowId) (hp : t'.nextPageId = t.nextPageId)
    (hpages : ∀ p page, t'.rowSpace.get? p = some page → ∃ page', t.Copied p page' ∧
      ∀ c : Counters, page'.Below c → page.Below c)
    (hrecords : ∀ p page, t'.pageStore.pages.get? p = some page →
      (t.pageStore.pages.get? p = some page ∨ page ∈ w.written) ∧ ∃ page', t.Copied p page' ∧
        ∀ c : Counters, page'.Below c → page.Below c) : Advances T t t' where
  ids h p page hcopied := by
    obtain ⟨page', hpage', hbelow⟩ := hcopied.elim (hpages p page) fun hrecord => (hrecords p page hrecord).2
    exact (hbelow _ (h p page' hpage')).mono ⟨le_rfl, hr.ge, hp.ge⟩
  rows := hr.ge
  pages := hp.ge
  records := ⟨[w], hw, fun p page hpage => (hrecords p page hpage).1.imp_right fun hmem =>
    ⟨w, List.mem_singleton_self w, hmem⟩⟩

end Advances

/-- Tables with the row map `ρ` and at least the row id `n`, whose counters go on and whose copies
    of pages stay below them. -/
def numbering (T : TransactionID) (n : RowID) (ρ : RowMap) : Frame (Option PageID) Table Fault where
  env := none
  inv t := t.rowLocations = ρ ∧ n ≤ t.nextRowId
  rel t t' := Advances T t t' ∧ t'.rowLocations = t.rowLocations
  exempt _ := False
  refl t := ⟨Advances.refl t, rfl⟩
  trans h h' := ⟨h.1.trans h'.1, h'.2.trans h.2⟩
  keep ht h := ⟨h.2.trans ht.1, ht.2.trans h.1.rows⟩

theorem advances_of_follows {α : Type} {x : TableM α} (hx : Follows (numbering T n t.rowLocations) x)
    (hn : n ≤ t.nextRowId) : Advances T t (x held t).2 := by
  rcases hx held t ⟨rfl, hn⟩ with ⟨e, he, hfalse⟩ | ⟨-, hrel, -⟩
  · exact hfalse.elim
  · exact hrel

theorem copied_dropped {page : Page} (h : (t.dropped p).rowSpace.get? q = some page) : t.Copied q page := by
  rw [get_dropped] at h
  split_ifs at h
  exact Or.inl h

theorem shuffles_numbering : Shuffles (numbering T n ρ) where
  touched p t _ := ⟨.of_copies rfl rfl rfl fun _ _ h => Or.inl h, rfl⟩
  entered p page t _ _ hrecord := by
    refine ⟨.of_copies rfl rfl rfl fun q page' hq => ?_, rfl⟩
    have hq : (t.entered page).rowSpace.get? q = some page' := hq
    rw [get_entered] at hq
    split_ifs at hq with hid
    · rw [PageMap.pageId_of_get hrecord] at hid
      exact Or.inr (hid ▸ hrecord.trans hq)
    · exact Or.inl hq
  dropped p t _ := ⟨.of_copies rfl rfl rfl fun _ _ h => copied_dropped h, rfl⟩
  released _ t _ := ⟨.of_copies rfl rfl rfl fun _ _ h => Or.inl h, rfl⟩
  written p page t _ hp := by
    refine ⟨.of_write rfl rfl rfl (fun q page' hq => ⟨page', copied_dropped hq, fun _ => id⟩)
      fun q page' hq => ?_, rfl⟩
    have hq : (t.pageStore.pages.insert page).get? q = some page' := hq
    rw [PageMap.get?_insert] at hq
    split_ifs at hq with hid
    · obtain rfl := Option.some.inj hq
      rw [PageMap.pageId_of_get hp] at hid
      exact ⟨Or.inr (List.mem_singleton_self page), page, Or.inl (hid ▸ hp), fun _ => id⟩
    · exact ⟨Or.inl hq, page', Or.inr hq, fun _ => id⟩

theorem loads_numbering : Loads (numbering T n ρ) ρ :=
  shuffles_numbering.loads (fun _ ht => ht.1) fun _ => id

/-- Rewriting a page so that it stays below all counters that have handed out the row id `n` and
    the transaction ids below `T`. -/
def StaysBelow (T : TransactionID) (n : RowID) (f : Page → Page) : Prop :=
  ∀ (c : Counters) (page : Page), c.nextTransactionId = T → n ≤ c.nextRowId → page.Below c → (f page).Below c

theorem advances_rewritten {f : Page → Page} {hf} (h : ∀ page, page.Below (t.counters T) →
    (f page).Below (t.counters T)) : Advances T t (t.rewritten p f hf) :=
  .of_store rfl le_rfl le_rfl fun hn q page hq => by
    rw [get_rewritten] at hq
    split_ifs at hq
    · obtain ⟨page', hpage', rfl⟩ := Option.map_eq_some_iff.1 hq
      exact h page' (hn q page' (Or.inl hpage'))
    · exact hn q page (Or.inl hq)

theorem advances_opened : Advances T t t.opened :=
  .of_store rfl le_rfl (Nat.le_succ _) fun hn q page hq => by
    have hle : (t.counters T).Le (t.opened.counters T) := ⟨le_rfl, le_rfl, Nat.le_succ _⟩
    rw [get_opened] at hq
    split_ifs at hq
    · obtain rfl := Option.some.inj hq
      exact Page.Below.fresh (Nat.lt_succ_self t.nextPageId)
    · exact (hn q page (Or.inl hq)).mono hle

theorem opens_numbering : Opens (numbering T n ρ) (StaysBelow T n) where
  evict := shuffles_numbering.follows_maybeEvictPages
  opened _ _ := ⟨advances_opened, rfl⟩
  touched := shuffles_numbering.touched
  rewritten _ hf _ _ _ ht := ⟨advances_rewritten fun page => hf _ page rfl ht.2, rfl⟩

theorem staysBelow_append {txn : Transaction} (ht : txn.transactionId < T) {size : ℕ} :
    StaysBelow T n (·.append n (Row.new txn data) size) := fun _ _ hT hn h => h.append hn (hT ▸ ht)

/-! ## Placing rows -/

/-- A page that has been registered is below the counter from then on. -/
theorem registerPage_lt {t₁ : Table} (hrun : registerPage held t = (.ok p, t₁)) : p < t₁.nextPageId := by
  have hevict : Advances 0 t.opened (maybeEvictPages none held t.opened).2 :=
    advances_of_follows (n := 0) (shuffles_numbering.follows_maybeEvictPages none) (Nat.zero_le _)
  rw [registerPage_run, bind_run] at hrun
  generalize maybeEvictPages none held t.opened = outcome at hevict hrun
  obtain ⟨e | a, t'⟩ := outcome
  · cases hrun
  · obtain ⟨hid, rfl⟩ := Prod.mk.inj hrun
    obtain rfl : t.nextPageId = p := Except.ok.inj hid
    exact hevict.pages

theorem follows_extendOverflowChain_numbering (k : ℕ) (p : PageID) :
    Follows (numbering T n ρ) (extendOverflowChain k p) := by
  induction k generalizing p with
  | zero => exact Follows.pure
  | succ k ih =>
    intro held t ht
    right
    show True ∧ (numbering T n ρ).rel t ((registerPage >>= _ : TableM Unit) held t).2
    have hregister := follows_registerPage opens_numbering held t ht
    change (∃ e, (registerPage held t).1 = _ ∧ False) ∨ True ∧
      (numbering T n ρ).rel t (registerPage held t).2 at hregister
    obtain ⟨-, hregister⟩ := hregister.resolve_left fun ⟨_, _, hfalse⟩ => hfalse
    rw [bind_run]
    generalize hrun : registerPage held t = outcome at hregister
    obtain ⟨e | q, t₁⟩ := outcome
    · exact ⟨trivial, hregister⟩
    -- the page that has been registered is linked behind the one before it
    have hq := registerPage_lt hrun
    have hoverflow : Advances T t₁ (t₁.rewritten q (fun page =>
        { page with isOverflow := true, usedBytes := page.capacity, isDirty := true }) fun _ => rfl) :=
      advances_rewritten fun page h => h.congr rfl rfl rfl
    have hlinked : Advances T t₁ ((t₁.rewritten q (fun page =>
        { page with isOverflow := true, usedBytes := page.capacity, isDirty := true }) fun _ => rfl).rewritten p
          (fun page => { page with nextPage := some q }) fun _ => rfl) :=
      hoverflow.trans (advances_rewritten fun page h => h.linked hq)
    have hrest := ih q held _ ((numbering T n ρ).keep ht ((numbering T n ρ).trans hregister ⟨hlinked, rfl⟩))
    exact ⟨trivial, (numbering T n ρ).trans hregister ((numbering T n ρ).trans ⟨hlinked, rfl⟩
      (hrest.resolve_left fun ⟨_, _, hfalse⟩ => hfalse).2)⟩

theorem follows_placeNewRow_numbering {txn : Transaction} (ht : txn.transactionId < T) {size : ℕ} :
    Follows (numbering T n ρ) (placeNewRow n (Row.new txn data) size) := by
  refine Follows.get fun t _ => ?_
  split_ifs
  · exact (follows_registerPage opens_numbering).bind fun head =>
      (follows_forceAppendToPage opens_numbering (staysBelow_append ht)).bind fun _ =>
        Follows.get fun t _ => (follows_extendOverflowChain_numbering _ head).bind fun _ => Follows.pure
  · exact follows_insertRowIntoPage opens_numbering (staysBelow_append ht)

/-! ## Calls -/

theorem advances_insertRow {txn : Transaction} (ht : txn.transactionId < T) :
    Advances T t (insertRow data txn others held t).2 ∧
      ∀ r, (insertRow data txn others held t).1 = .ok r → t.nextRowId < r := by
  have hvalid : Advances T t (validateRowData data txn none (foreignKeyValueExists others txn) held t).2 :=
    advances_of_follows (n := 0) (follows_validateRowData loads_numbering) (Nat.zero_le _)
  unfold insertRow
  rw [bind_run]
  generalize validateRowData data txn none (foreignKeyValueExists others txn) held t = outcome at hvalid
  obtain ⟨e | _, t₁⟩ := outcome
  · exact ⟨hvalid, nofun⟩
  have hnumbered : Advances T t₁ { t₁ with nextRowId := t₁.nextRowId + 1 } :=
    .of_store rfl (Nat.le_succ _) le_rfl fun h p page hp =>
      (h p page (Or.inl hp)).mono ⟨le_rfl, Nat.le_succ _, le_rfl⟩
  have hplaced : Advances T { t₁ with nextRowId := t₁.nextRowId + 1 }
      (placeNewRow (t₁.nextRowId + 1) (Row.new txn data) (Row.new txn data).sizeBytes held
        { t₁ with nextRowId := t₁.nextRowId + 1 }).2 :=
    advances_of_follows (n := t₁.nextRowId + 1) (follows_placeNewRow_numbering ht) le_rfl
  dsimp only
  rw [get_bind, modify_bind, bind_run]
  generalize placeNewRow (t₁.nextRowId + 1) (Row.new txn data) (Row.new txn data).sizeBytes held
    { t₁ with nextRowId := t₁.nextRowId + 1 } = outcome at hplaced
  have hthere := hvalid.trans (hnumbered.trans hplaced)
  obtain ⟨e | p, t₃⟩ := outcome
  · exact ⟨hthere, nofun⟩
  · refine ⟨hthere.trans (.of_copies rfl rfl rfl fun _ _ h => Or.inl h), fun r hr => ?_⟩
    obtain rfl : t₁.nextRowId + 1 = r := Except.ok.inj hr
    exact Nat.lt_succ_of_le hvalid.rows

theorem advances_columns (columns : BTreeMap ColumnID Column) (m : ColumnID) :
    Advances T t { t with columns := columns, nextColumnId := m } :=
  .of_copies rfl rfl rfl fun _ _ h => Or.inl h

theorem advances_updateRow {txn : Transaction} (ht : txn.transactionId < T) :
    Advances T t (updateRow rowId data txn others held t).2 :=
  advances_of_follows (n := 0) (follows_updateRow opens_numbering loads_numbering
    (fun _ _ hT _ h => h.modify fun _ hrow => hrow.update (admits_stampedBelow (hT ▸ ht)))
    fun t columns _ => ⟨advances_columns columns t.nextColumnId, rfl⟩) (Nat.zero_le _)

theorem advances_deleteRow {txn : Transaction} (ht : txn.transactionId < T) :
    Advances T t (deleteRow rowId txn held t).2 :=
  advances_of_follows (n := 0) (follows_deleteRow opens_numbering loads_numbering
    fun _ _ hT _ h => h.modify fun _ hrow => hrow.remove (admits_stampedBelow (hT ▸ ht))) (Nat.zero_le _)

theorem advances_rollback {txn : Transaction} (ht : txn.transactionId < T) :
    Advances T t (t.rollbackTransaction txn) :=
  .of_store rfl le_rfl le_rfl fun h p page hp => by
    rw [get_rollback] at hp
    obtain ⟨page', hpage', rfl⟩ := Option.map_eq_some_iff.1 hp
    exact (h p page' (Or.inl hpage')).rolledBack ht

theorem advances_cleaned : Advances T t { t with rowSpace := t.cleaned } :=
  .of_store rfl le_rfl le_rfl fun h p page hp => by
    have hp : t.cleaned.get? p = some page := hp
    rw [get_cleaned] at hp
    obtain ⟨page', hpage', rfl⟩ := Option.map_eq_some_iff.1 hp
    exact (h p page' (Or.inl hpage')).congr rfl rfl rfl

theorem advances_persisted {page : Page} (hp : t.rowSpace.get? page.pageId = some page) :
    Advances T t (t.persisted page) :=
  .of_write rfl rfl rfl (fun q page' hq => ⟨page', Or.inl hq, fun _ => id⟩) fun q page' hq => by
    rw [get_persisted] at hq
    split_ifs at hq with hid
    · obtain rfl := Option.some.inj hq
      exact ⟨Or.inr (List.mem_singleton_self page), page, Or.inl (hid ▸ hp), fun _ => id⟩
    · exact ⟨Or.inl hq, page', Or.inr hq, fun _ => id⟩

theorem advances_flushed : Advances T t t.flushed :=
  .of_write rfl rfl rfl
    (fun q page hq => by
      have hq : t.cleaned.get? q = some page := hq
      rw [get_cleaned] at hq
      obtain ⟨page', hpage', rfl⟩ := Option.map_eq_some_iff.1 hq
      exact ⟨page', Or.inl hpage', fun _ h => h.congr rfl rfl rfl⟩)
    fun q page hq => by
      refine ⟨Or.inr ?_, ?_⟩
      · obtain rfl := PageMap.pageId_of_get hq
        exact PageMap.mem_values.2 hq
      · rw [flushed_record, get_cleaned] at hq
        cases hres : t.rowSpace.get? q with
        | some page' =>
          rw [hres] at hq
          obtain rfl : ({ page' with isDirty := false } : Page) = page := Option.some.inj hq
          exact ⟨page', Or.inl hres, fun _ h => h.congr rfl rfl rfl⟩
        | none =>
          rw [hres] at hq
          exact ⟨page, Or.inr hq, fun _ => id⟩

end Table

namespace PageOp

open Call Table

variable {t : Table} {op : PageOp}

/-- The call stamps with ids below `T`, if it stamps, and is not a vacuum. -/
def StampsBelow (T : TransactionID) : PageOp → Prop
  | table (.call (.insertRow _ txn _)) | table (.call (.updateRow _ _ txn _))
  | table (.call (.deleteRow _ txn)) | table (.rollbackTransaction txn) => txn.transactionId < T
  | table (.prune _) => False
  | _ => True

instance (T : TransactionID) (op : PageOp) : Decidable (op.StampsBelow T) := by
  unfold StampsBelow
  split <;> infer_instance

/-- **A call** lets the counters go on, leaves the copies of pages below them, and puts no page in
    the page file but those it writes. -/
theorem advances_step (hop : op.StampsBelow T) : Advances T t (op.step t) := by
  have hfollows : ∀ {α : Type} {x : TableM α}, Follows (numbering T 0 t.rowLocations) x →
      Advances T t (x none t).2 := fun hx => advances_of_follows hx (Nat.zero_le _)
  have hl := @loads_numbering T t.rowLocations 0
  have hcolumns : ∀ t' columns m, (numbering T 0 t.rowLocations).inv t' →
      (numbering T 0 t.rowLocations).rel t' { t' with columns := columns, nextColumnId := m } :=
    fun _ columns m _ => ⟨advances_columns columns m, rfl⟩
  cases op with
  | table op =>
    cases op with
    | call c =>
      show Advances T t ((TableOp.call c).step t)
      rw [TableOp.step_call]
      cases c with
      | insertRow data txn others =>
        rw [(@RowCall.step_of_run t (.insertRow data txn others) _ _ .inserted rfl).1]
        exact (advances_insertRow hop).1
      | updateRow rowId data txn others =>
        rw [(@RowCall.step_of_run t (.updateRow rowId data txn others) _ _ (fun _ => .done) rfl).1]
        exact advances_updateRow hop
      | deleteRow rowId txn =>
        rw [(@RowCall.step_of_run t (.deleteRow rowId txn) _ _ (fun _ => .done) rfl).1]
        exact advances_deleteRow hop
      | getRow rowId => exact hfollows ((follows_getRow hl).bind fun _ => Follows.pure)
      | search request txn accessPath => exact hfollows ((follows_search hl).bind fun _ => Follows.pure)
    | createColumn => exact hfollows ((follows_createColumn hl hcolumns).bind fun _ => Follows.pure)
    | addColumnConstraints => exact hfollows (follows_addColumnConstraints hl hcolumns)
    | rollbackTransaction txn => exact advances_rollback hop
    | persistDirtyPages =>
      exact hfollows (follows_persistDirtyPages_of_persisted (fun _ _ _ hp => ⟨advances_persisted hp, rfl⟩)
        fun _ _ _ => ⟨.of_copies rfl rfl rfl fun _ _ h => Or.inl h, rfl⟩)
    | flushAllPages =>
      show Advances T t (Table.flushAllPages none t).2
      rcases flushAllPages_cases none t with he | he | he <;> rw [he]
      · exact Advances.refl t
      · exact advances_cleaned
      · exact advances_flushed
    | prune => exact hop.elim
  | ensurePageResident pageId =>
    exact hfollows ((shuffles_numbering.follows_ensurePageResident pageId).bind fun _ => Follows.pure)
  | maybeEvictPages pinned => exact hfollows (shuffles_numbering.follows_maybeEvictPages pinned)

end PageOp

end AntDb
