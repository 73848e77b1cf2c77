/-
  Patterns with wildcards over lists.

  A pattern is a list of tokens: a literal, a wildcard for one element, a wildcard for any run of
  elements.  A pattern without wildcards between its ends is a test for an infix, a prefix, a suffix
  or equality.
-/
import Mathlib

namespace Wildcard

variable {α : Type*}

inductive Token (α : Type*) where
  | any
  | one
  | literal (a : α)
deriving DecidableEq

/-- The list is one the pattern stands for. -/
inductive Matches : List (Token α) → List α → Prop where
  | nil : Matches [] []
  | literal (a : α) {p : List (Token α)} {s : List α} : Matches p s → Matches (.literal a :: p) (a :: s)
  | one (a : α) {p : List (Token α)} {s : List α} : Matches p s → Matches (.one :: p) (a :: s)
  | stop {p : List (Token α)} {s : List α} : Matches p s → Matches (.any :: p) s
  | more (a : α) {p : List (Token α)} {s : List α} : Matches (.any :: p) s → Matches (.any :: p) (a :: s)

variable {p q : List (Token α)} {s t : List α}

theorem Matches.append (hp : Matches p s) (hq : Matches q t) : Matches (p ++ q) (s ++ t) := by
  induction hp with
  | nil => exact hq
  | literal a _ ih => exact ih.literal a
  | one a _ ih => exact ih.one a
  | stop _ ih => exact ih.stop
  | more a _ ih => exact ih.more a

theorem Matches.split (h : Matches p s) : ∀ {q r : List (Token α)}, p = q ++ r →
    ∃ u v, s = u ++ v ∧ Matches q u ∧ Matches r v := by
  have here {p r : List (Token α)} {s : List α} (h : Matches p s) (hr : p = r) :
      ∃ u v, s = u ++ v ∧ Matches [] u ∧ Matches r v := ⟨[], s, rfl, .nil, hr ▸ h⟩
  induction h with
  | nil =>
    intro q r h
    obtain ⟨rfl, rfl⟩ := List.append_eq_nil_iff.1 h.symm
    exact ⟨[], [], rfl, .nil, .nil⟩
  | literal a hp ih =>
    intro q r h
    rcases List.cons_eq_append_iff.1 h with ⟨rfl, rfl⟩ | ⟨q, rfl, hp'⟩
    · exact here (hp.literal a) rfl
    · obtain ⟨u, v, rfl, hu, hv⟩ := ih hp'
      exact ⟨a :: u, v, rfl, hu.literal a, hv⟩
  | one a hp ih =>
    intro q r h
    rcases List.cons_eq_append_iff.1 h with ⟨rfl, rfl⟩ | ⟨q, rfl, hp'⟩
    · exact here (hp.one a) rfl
    · obtain ⟨u, v, rfl, hu, hv⟩ := ih hp'
      exact ⟨a :: u, v, rfl, hu.one a, hv⟩
  | stop hp ih =>
    intro q r h
    rcases List.cons_eq_append_iff.1 h with ⟨rfl, rfl⟩ | ⟨q, rfl, hp'⟩
    · exact here hp.stop rfl
    · obtain ⟨u, v, rfl, hu, hv⟩ := ih hp'
      exact ⟨u, v, rfl, hu.stop, hv⟩
  | more a hp ih =>
    intro q r h
    rcases List.cons_eq_append_iff.1 h with ⟨rfl, rfl⟩ | ⟨q, rfl, -⟩
    · exact here (hp.more a) rfl
    · obtain ⟨u, v, rfl, hu, hv⟩ := ih h
      exact ⟨a :: u, v, rfl, hu.more a, hv⟩

theorem matches_append :
    Matches (p ++ q) s ↔ ∃ u v, s = u ++ v ∧ Matches p u ∧ Matches q v := by
  constructor
  · intro h
    exact h.split rfl
  · rintro ⟨u, v, rfl, hu, hv⟩
    exact hu.append hv

theorem matches_literals : Matches (t.map .literal) s ↔ s = t := by
  constructor
  · intro h
    induction t generalizing s with
    | nil =>
      cases h
      rfl
    | cons a t ih =>
      rw [List.map_cons] at h
      rcases h with _ | ⟨_, h⟩
      rw [ih h]
  · rintro rfl
    induction s with
    | nil => exact .nil
    | cons a s ih => exact ih.literal a

theorem matches_any : ∀ s : List α, Matches [.any] s
  | [] => .stop .nil
  | a :: s => (matches_any s).more a

theorem matches_anys {n : ℕ} : Matches (List.replicate n .any) s ↔ n = 0 → s = [] := by
  cases n with
  | zero =>
    simp only [List.replicate_zero, true_implies]
    constructor
    · intro h
      cases h
      rfl
    · rintro rfl
      exact .nil
  | succ n =>
    simp only [Nat.succ_ne_zero, false_implies, iff_true, List.replicate_succ]
    have hn : Matches (List.replicate n .any) ([] : List α) := by
      induction n with
      | zero => exact .nil
      | succ n ih => exact ih.stop
    have h := (matches_any s).append hn
    rwa [List.append_nil] at h

/-- A list that the pattern stands for: runs are empty, single elements are the filler. -/
def sample (filler : α) : List (Token α) → List α
  | [] => []
  | .any :: p => sample filler p
  | .one :: p => filler :: sample filler p
  | .literal a :: p => a :: sample filler p

theorem matches_sample (filler : α) : ∀ p : List (Token α), Matches p (sample filler p)
  | [] => .nil
  | .any :: p => (matches_sample filler p).stop
  | .one :: p => (matches_sample filler p).one filler
  | .literal a :: p => (matches_sample filler p).literal a

theorem mem_sample {filler a : α} : ∀ {p : List (Token α)}, a ∈ sample filler p →
    a = filler ∨ .literal a ∈ p
  | .any :: p, h => (mem_sample (p := p) h).imp_right (List.mem_cons_of_mem _)
  | .one :: p, h => by
    rcases List.mem_cons.1 h with h | h
    · exact .inl h
    · exact (mem_sample h).imp_right (List.mem_cons_of_mem _)
  | .literal b :: p, h => by
    rcases List.mem_cons.1 h with rfl | h
    · exact .inr (List.mem_cons_self ..)
    · exact (mem_sample h).imp_right (List.mem_cons_of_mem _)

/-- Literals between two groups of wildcards. -/
theorem matches_fenced {i j : ℕ} :
    Matches (List.replicate i .any ++ (t.map .literal ++ List.replicate j .any)) s ↔
      ∃ u v, s = u ++ (t ++ v) ∧ (i = 0 → u = []) ∧ (j = 0 → v = []) := by
  rw [matches_append]
  constructor
  · rintro ⟨u, w, rfl, hu, hw⟩
    obtain ⟨m, v, rfl, hm, hv⟩ := matches_append.1 hw
    exact ⟨u, v, by rw [matches_literals.1 hm], matches_anys.1 hu, matches_anys.1 hv⟩
  · rintro ⟨u, v, rfl, hu, hv⟩
    exact ⟨u, t ++ v, rfl, matches_anys.2 hu, (matches_literals.2 rfl).append (matches_anys.2 hv)⟩

end Wildcard
