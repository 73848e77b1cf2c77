/-
  Items that come and go, and a running total of their sizes kept beside them.

  `Step` says how such a total may be kept: what enters is added and what leaves is taken off,
  never from less than it is; items may be rewritten where they are, which the total does not
  notice, as long as they do not grow together; and the total may be counted afresh.
-/
import Mathlib

structure Ledger (α : Type) where
  items : Multiset α
  used : ℕ

namespace Ledger

/-- The sizes of some items together. -/
def total {α : Type} (size : α → ℕ) (items : Multiset α) : ℕ := (items.map size).sum

/-- Nothing is in there. -/
def empty {α : Type} : Ledger α := ⟨0, 0⟩

section Total

variable {α : Type} {size : α → ℕ} {items : Multiset α} {a : α}

theorem total_cons : total size (a ::ₘ items) = size a + total size items := by
  rw [total, Multiset.map_cons, Multiset.sum_cons, total]

theorem total_erase [DecidableEq α] (h : a ∈ items) :
    total size items = size a + total size (items.erase a) := by
  rw [← total_cons, Multiset.cons_erase h]

theorem total_coe {l : List α} : total size (l : Multiset α) = (l.map size).sum := by
  rw [total, Multiset.map_coe, Multiset.sum_coe]

end Total

variable {α : Type} [DecidableEq α] {size : α → ℕ} {l l' : Ledger α} {a : α}

inductive Step (size : α → ℕ) : Ledger α → Ledger α → Prop
  | enter (l : Ledger α) (a : α) : Step size l ⟨a ::ₘ l.items, l.used + size a⟩
  | leave (l : Ledger α) (a : α) (hmem : a ∈ l.items) (hle : size a ≤ l.used) :
      Step size l ⟨l.items.erase a, l.used - size a⟩
  | rewrite (l : Ledger α) (items : Multiset α) (hle : total size items ≤ total size l.items) :
      Step size l ⟨items, l.used⟩
  | recount (l : Ledger α) (items : Multiset α) : Step size l ⟨items, total size items⟩

/-- Any number of steps. -/
abbrev Path (size : α → ℕ) : Ledger α → Ledger α → Prop := Relation.ReflTransGen (Step size)

omit [DecidableEq α] in
/-- All that is in there has been counted. -/
def Covered (size : α → ℕ) (l : Ledger α) : Prop := total size l.items ≤ l.used

omit [DecidableEq α] in
/-- The total is what is in there. -/
def Exact (size : α → ℕ) (l : Ledger α) : Prop := l.used = total size l.items

omit [DecidableEq α] in
theorem exact_empty : (empty : Ledger α).Exact size := rfl

omit [DecidableEq α] in
theorem Exact.covered (h : l.Exact size) : l.Covered size := h.ge

/-- What is in there can be taken off the total. -/
theorem Covered.size_le (h : l.Covered size) (ha : a ∈ l.items) : size a ≤ l.used := by
  rw [Covered, total_erase ha] at h
  omega

/-- What has been counted can leave. -/
theorem Covered.leave (h : l.Covered size) (ha : a ∈ l.items) :
    Step size l ⟨l.items.erase a, l.used - size a⟩ := Step.leave l a ha (h.size_le ha)

theorem Exact.leave (h : l.Exact size) (ha : a ∈ l.items) :
    (⟨l.items.erase a, l.used - size a⟩ : Ledger α).Exact size := by
  rw [Exact, total_erase ha] at h
  rw [Exact, h, Nat.add_sub_cancel_left]

omit [DecidableEq α] in
theorem Exact.enter (h : l.Exact size) (a : α) : (⟨a ::ₘ l.items, l.used + size a⟩ : Ledger α).Exact size := by
  rw [Exact, total_cons, h, Nat.add_comm]

/-- **A step keeps everything covered.** -/
theorem Step.covered (h : Step size l l') (hl : l.Covered size) : l'.Covered size := by
  cases h with
  | enter a =>
    rw [Covered, total_cons, Nat.add_comm]
    exact Nat.add_le_add_right hl _
  | leave a hmem hle =>
    rw [Covered, total_erase hmem] at hl
    exact Nat.le_sub_of_add_le' hl
  | rewrite items hle => exact hle.trans hl
  | recount items => exact le_rfl

/-- **A path keeps everything covered.** -/
theorem covered_of_path (h : Path size l l') (hl : l.Covered size) : l'.Covered size := by
  induction h with
  | refl => exact hl
  | tail _ hstep ih => exact hstep.covered ih

end Ledger
