/-
  What each message of a connection does to the transactions in progress.

  A transaction in progress belongs to the connection that began it or to the COPY it was
  begun for.  `Sound` says that the transactions in progress are the owned ones, each with
  one owner; `NoLeak` is its first half.
-/
import AntDb.Handler

namespace AntDb

open Call

/-! ## Owners of transactions -/

/-- Begun by a connection, or for the COPY of one. -/
inductive Owner where
  | connection (addr : SocketAddr)
  | copy (addr : SocketAddr)
deriving DecidableEq

namespace TxnState

def endTransaction (x : TxnState) (id : TransactionID) (success : Bool) : TxnState :=
  if success then x.commitTransaction id else x.rollbackTransaction id

variable {x : TxnState} {id a : TransactionID} {success : Bool} {o : Owner}
  {owned : Owner → Option TransactionID}

theorem mem_active_end : a ∈ (x.endTransaction id success).active ↔ a ≠ id ∧ a ∈ x.active := by
  cases success
  · exact mem_active_rollback
  · exact mem_active_commit

theorem Wf.endTransaction (h : x.Wf) (hid : id ∈ x.active) : (x.endTransaction id success).Wf := by
  cases success
  · exact h.rollback
  · exact h.commit hid

/-- The transactions in progress are the owned ones. -/
def Owned (x : TxnState) (owned : Owner → Option TransactionID) : Prop :=
  ∀ id, id ∈ x.active ↔ ∃ o, owned o = some id

/-- Every transaction in progress has one owner. -/
structure Sound (x : TxnState) (owned : Owner → Option TransactionID) : Prop where
  wf : x.Wf
  live : x.Owned owned
  distinct : ∀ o o' id, owned o = some id → owned o' = some id → o = o'

theorem Sound.lt (h : x.Sound owned) (ho : owned o = some id) : id < x.nextTransactionId :=
  h.wf.active_lt id ((h.live id).2 ⟨o, ho⟩)

/-- A new transaction for an owner that has none. -/
theorem Sound.opened (h : x.Sound owned) (ho : owned o = none) :
    x.createTransaction.2.Sound (Function.update owned o (some x.nextTransactionId)) where
  wf := h.wf.create
  live id := by
    rw [mem_active_create, h.live]
    constructor
    · rintro (rfl | ⟨o', ho'⟩)
      · exact ⟨o, Function.update_self ..⟩
      · refine ⟨o', ?_⟩
        rwa [Function.update_of_ne]
        rintro rfl; rw [ho] at ho'; cases ho'
    · rintro ⟨o', ho'⟩
      by_cases he : o' = o
      · subst he
        rw [Function.update_self] at ho'
        exact Or.inl (Option.some.inj ho').symm
      · rw [Function.update_of_ne he] at ho'
        exact Or.inr ⟨o', ho'⟩
  distinct o₁ o₂ id h₁ h₂ := by
    by_cases he₁ : o₁ = o <;> by_cases he₂ : o₂ = o
    · rw [he₁, he₂]
    · rw [he₁, Function.update_self] at h₁
      rw [Function.update_of_ne he₂] at h₂
      exact absurd (h.lt h₂) (by rw [← Option.some.inj h₁]; exact lt_irrefl _)
    · rw [he₂, Function.update_self] at h₂
      rw [Function.update_of_ne he₁] at h₁
      exact absurd (h.lt h₁) (by rw [← Option.some.inj h₂]; exact lt_irrefl _)
    · rw [Function.update_of_ne he₁] at h₁
      rw [Function.update_of_ne he₂] at h₂
      exact h.distinct o₁ o₂ id h₁ h₂

/-- The end of an owner's transaction. -/
theorem Sound.closed (h : x.Sound owned) (ho : owned o = some id) :
    (x.endTransaction id success).Sound (Function.update owned o none) where
  wf := h.wf.endTransaction ((h.live id).2 ⟨o, ho⟩)
  live id' := by
    rw [mem_active_end, h.live]
    constructor
    · rintro ⟨hne, o', ho'⟩
      refine ⟨o', ?_⟩
      rwa [Function.update_of_ne]
      rintro rfl
      exact hne (Option.some.inj (ho'.symm.trans ho))
    · rintro ⟨o', ho'⟩
      by_cases he : o' = o
      · subst he; rw [Function.update_self] at ho'; cases ho'
      · rw [Function.update_of_ne he] at ho'
        refine ⟨?_, o', ho'⟩
        rintro rfl
        exact he (h.distinct _ _ _ ho' ho)
  distinct o₁ o₂ id h₁ h₂ := by
    have hne : ∀ o', Function.update owned o none o' = some id → owned o' = some id := by
      intro o' ho'
      by_cases he : o' = o
      · subst he; rw [Function.update_self] at ho'; cases ho'
      · rwa [Function.update_of_ne he] at ho'
    exact h.distinct o₁ o₂ id (hne o₁ h₁) (hne o₂ h₂)

/-- A transaction that is begun and ended leaves the others as they are. -/
theorem Sound.passed (h : x.Sound owned) :
    (x.createTransaction.2.endTransaction x.nextTransactionId success).Sound owned where
  wf := h.wf.create.endTransaction (mem_active_create.2 (Or.inl rfl))
  live id := by
    rw [mem_active_end, mem_active_create, h.live]
    constructor
    · rintro ⟨hne, hid | ho⟩
      · exact absurd hid hne
      · exact ho
    · rintro ⟨o, ho⟩
      exact ⟨ne_of_lt (h.lt ho), Or.inr ⟨o, ho⟩⟩
  distinct := h.distinct

end TxnState

namespace PgWireHandler

/-- The transaction an owner has. -/
def owned (s : PgWireHandler) : Owner → Option TransactionID
  | .connection addr => s.activeTransactions[addr]?
  | .copy addr => (s.copySessions[addr]?.filter (·.autoCommit)).map (·.transaction)

/-- The active transactions are those of `active_transactions` and the auto-commit transactions
    of the open COPY sessions. -/
def NoLeak (s : PgWireHandler) : Prop :=
  ∀ id, id ∈ s.db.txns.active ↔
    (∃ addr : SocketAddr, s.activeTransactions[addr]? = some id) ∨
      ∃ (addr : SocketAddr) (session : CopySession), s.copySessions[addr]? = some session ∧
        session.autoCommit = true ∧ session.transaction = id

abbrev Sound (s : PgWireHandler) : Prop := s.db.txns.Sound s.owned

theorem Sound.noLeak {s : PgWireHandler} (h : s.Sound) : s.NoLeak := by
  intro id
  rw [h.live]
  constructor
  · rintro ⟨addr | addr, ho⟩
    · exact Or.inl ⟨addr, ho⟩
    · obtain ⟨session, hsession, rfl⟩ := Option.map_eq_some_iff.1 ho
      obtain ⟨hget, hauto⟩ := Option.filter_eq_some_iff.1 hsession
      exact Or.inr ⟨addr, session, hget, hauto, rfl⟩
  · rintro (⟨addr, ho⟩ | ⟨addr, session, hget, hauto, rfl⟩)
    · exact ⟨.connection addr, ho⟩
    · exact ⟨.copy addr, by rw [owned, hget, Option.filter_some, if_pos hauto]; rfl⟩

variable {s s' : PgWireHandler} {addr : SocketAddr} {id : TransactionID} {success : Bool}
  {session : CopySession}

theorem owned_insert_connection :
    owned { s with activeTransactions := s.activeTransactions.insert addr id } =
      Function.update s.owned (.connection addr) (some id) := by
  funext o
  rcases o with a | a
  · by_cases h : addr = a
    · subst h; simp [owned]
    · rw [Function.update_of_ne (by simpa using Ne.symm h)]
      simp [owned, BTreeMap.get_insert, h]
  · rw [Function.update_of_ne (by simp)]; rfl

theorem owned_erase_connection :
    owned { s with activeTransactions := s.activeTransactions.erase addr } =
      Function.update s.owned (.connection addr) none := by
  funext o
  rcases o with a | a
  · by_cases h : addr = a
    · subst h; simp [owned]
    · rw [Function.update_of_ne (by simpa using Ne.symm h)]
      simp [owned, BTreeMap.get_erase, h]
  · rw [Function.update_of_ne (by simp)]; rfl

theorem owned_insert_copy :
    owned { s with copySessions := s.copySessions.insert addr session } =
      Function.update s.owned (.copy addr)
        (if session.autoCommit then some session.transaction else none) := by
  funext o
  rcases o with a | a
  · rw [Function.update_of_ne (by simp)]; rfl
  · by_cases h : addr = a
    · subst h
      rw [Function.update_self, owned, BTreeMap.get_insert, if_pos rfl, Option.filter_some]
      split_ifs <;> rfl
    · rw [Function.update_of_ne (by simpa using Ne.symm h)]
      simp [owned, BTreeMap.get_insert, h]

theorem owned_erase_copy :
    owned { s with copySessions := s.copySessions.erase addr } =
      Function.update s.owned (.copy addr) none := by
  funext o
  rcases o with a | a
  · rw [Function.update_of_ne (by simp)]; rfl
  · by_cases h : addr = a
    · subst h; simp [owned]
    · rw [Function.update_of_ne (by simpa using Ne.symm h)]
      simp [owned, BTreeMap.get_erase, h]

end PgWireHandler

end AntDb
