/-
  Three-valued logic beside a two-valued evaluation from left to right.

  `some b` is a truth value and `none` is unknown.  An evaluation that has to make up its mind about
  the unknown can do it one way only where the formula is asked for, and the other way under a
  negation.
-/
import Mathlib

namespace Kleene

variable {negated a b : Bool} {s t : Option Bool}

def not (s : Option Bool) : Option Bool := s.map (!·)

def and : Option Bool → Option Bool → Option Bool
  | some true, t => t
  | some false, _ => some false
  | none, some false => some false
  | none, _ => none

def or (s t : Option Bool) : Option Bool := not (and (not s) (not t))

theorem not_eq_some : not s = some b ↔ s = some !b := by
  cases s <;> cases b <;> simp [not]

theorem and_eq_true : and s t = some true ↔ s = some true ∧ t = some true := by
  rcases s with _ | _ | _ <;> rcases t with _ | _ | _ <;> simp [and]

theorem and_eq_false : and s t = some false ↔ s = some false ∨ t = some false := by
  rcases s with _ | _ | _ <;> rcases t with _ | _ | _ <;> simp [and]

/-! ## Following the truth -/

/-- The verdict `a` is right about `s`: it says true exactly where `s` is true or, for a formula under
    a negation, false exactly where `s` is false. -/
def Follows (negated : Bool) (a : Bool) (s : Option Bool) : Prop := a = !negated ↔ s = some !negated

/-- The second part of a conjunction with the first part `s` matters. -/
def AndNeeds (negated : Bool) (s : Option Bool) : Prop :=
  if negated then s ≠ some false else s = some true

/-- The second part of a disjunction with the first part `s` matters. -/
def OrNeeds (negated : Bool) (s : Option Bool) : Prop := AndNeeds (!negated) (not s)

theorem follows_some : Follows negated a (some b) ↔ a = b := by
  unfold Follows
  cases negated <;> cases a <;> cases b <;> simp

theorem follows_none : Follows negated a none ↔ a = negated := by
  unfold Follows
  cases negated <;> cases a <;> simp

theorem follows_not : Follows negated (!a) (not s) ↔ Follows (!negated) a s := by
  unfold Follows
  rw [not_eq_some]
  cases negated <;> cases a <;> simp

theorem not_andNeeds (h : Follows negated false s) : ¬ AndNeeds negated s := by
  unfold Follows at h
  unfold AndNeeds
  cases negated <;> simp_all

theorem not_orNeeds (h : Follows negated true s) : ¬ OrNeeds negated s :=
  not_andNeeds (follows_not.2 (by rwa [Bool.not_not]))

theorem follows_and (hs : Follows negated a s) (ht : AndNeeds negated s → Follows negated b t) :
    Follows negated (a && b) (and s t) := by
  unfold Follows AndNeeds at *
  cases negated with
  | false =>
    simp only [Bool.not_false, Bool.and_eq_true, and_eq_true] at *
    constructor
    · rintro ⟨ha, hb⟩
      exact ⟨hs.1 ha, (ht (hs.1 ha)).1 hb⟩
    · rintro ⟨hs', ht'⟩
      exact ⟨hs.2 hs', (ht hs').2 ht'⟩
  | true =>
    simp only [Bool.not_true, Bool.and_eq_false_iff, and_eq_false] at *
    by_cases hfalse : s = some false
    · exact iff_of_true (Or.inl (hs.2 hfalse)) (Or.inl hfalse)
    · rw [or_iff_right fun ha => hfalse (hs.1 ha), or_iff_right hfalse]
      exact ht hfalse

/-- A conjunction that stops at its first part. -/
theorem follows_and_false (hs : Follows negated false s) : Follows negated false (and s t) :=
  @follows_and negated false false s t hs fun hneeds => absurd hneeds (not_andNeeds hs)

theorem follows_or (hs : Follows negated a s) (ht : OrNeeds negated s → Follows negated b t) :
    Follows negated (a || b) (or s t) := by
  have hor : (a || b) = !(!a && !b) := by simp
  rw [hor, or, follows_not]
  refine follows_and (follows_not.2 ?_) fun hneeds => follows_not.2 ?_
  · rwa [Bool.not_not]
  · rw [Bool.not_not]
    exact ht hneeds

/-- A disjunction that stops at its first part. -/
theorem follows_or_true (hs : Follows negated true s) : Follows negated true (or s t) :=
  @follows_or negated true true s t hs fun hneeds => absurd hneeds (not_orNeeds hs)

end Kleene
