/-
  Chains of links.

  `next` is where a link points, if it does.  A chain from a head is the list of what comes after it, to
  the end.  Links that point forward make chains without repetitions, and links that never meet make
  chains without common members.
-/
import Mathlib

namespace Linked

variable {κ : Type*} {next next' : κ → Option κ} {a b p p' : κ} {qs qs' : List κ}

/-- `qs` are the members after `p`, to the end of the chain. -/
def Follows (next : κ → Option κ) : κ → List κ → Prop
  | p, [] => next p = none
  | p, q :: qs => next p = some q ∧ Follows next q qs

theorem Follows.unique (h : Follows next p qs) (h' : Follows next p qs') : qs = qs' := by
  induction qs generalizing p qs' with
  | nil =>
    cases qs' with
    | nil => rfl
    | cons q' qs' =>
      rw [Follows] at h
      cases h.symm.trans h'.1
  | cons q qs ih =>
    cases qs' with
    | nil =>
      rw [Follows] at h'
      cases h'.symm.trans h.1
    | cons q' qs' =>
      obtain rfl := Option.some.inj (h.1.symm.trans h'.1)
      rw [ih h.2 h'.2]

theorem Follows.congr (h : Follows next p qs) (hsame : ∀ x ∈ p :: qs, next' x = next x) :
    Follows next' p qs := by
  induction qs generalizing p with
  | nil => exact (hsame p (List.mem_cons_self ..)).trans h
  | cons q qs ih =>
    exact ⟨(hsame p (List.mem_cons_self ..)).trans h.1,
      ih h.2 fun x hx => hsame x (List.mem_cons_of_mem p hx)⟩

/-- A member after the head is pointed to from the chain. -/
theorem Follows.exists_link (h : Follows next p qs) (hb : b ∈ qs) : ∃ a ∈ p :: qs, next a = some b := by
  induction qs generalizing p with
  | nil => cases hb
  | cons q qs ih =>
    rcases List.mem_cons.1 hb with rfl | hb
    · exact ⟨p, List.mem_cons_self .., h.1⟩
    · obtain ⟨a, ha, hlink⟩ := ih h.2 hb
      exact ⟨a, List.mem_cons_of_mem p ha, hlink⟩

section Forward

variable [Preorder κ] (hforward : ∀ a b, next a = some b → a < b)
include hforward

theorem Follows.lt (h : Follows next p qs) (hb : b ∈ qs) : p < b := by
  induction qs generalizing p with
  | nil => cases hb
  | cons q qs ih =>
    have hq := hforward p q h.1
    rcases List.mem_cons.1 hb with rfl | hb
    · exact hq
    · exact hq.trans (ih h.2 hb)

theorem Follows.nodup (h : Follows next p qs) : (p :: qs).Nodup := by
  induction qs generalizing p with
  | nil => exact List.nodup_singleton p
  | cons q qs ih =>
    exact List.nodup_cons.2 ⟨fun hp => lt_irrefl p (Follows.lt hforward h hp), ih h.2⟩

end Forward

/-- Two chains that share a member are one, if nothing points to their heads. -/
theorem Follows.head_unique [LinearOrder κ] [WellFoundedLT κ] (hforward : ∀ a b, next a = some b → a < b)
    (hinjective : ∀ a a' b, next a = some b → next a' = some b → a = a')
    (hp : ∀ a, next a ≠ some p) (hp' : ∀ a, next a ≠ some p') (h : Follows next p qs)
    (h' : Follows next p' qs') (hb : b ∈ p :: qs) (hb' : b ∈ p' :: qs') : p = p' := by
  induction b using WellFoundedLT.induction with
  | ind b ih =>
    rcases List.mem_cons.1 hb with rfl | hmem
    · rcases List.mem_cons.1 hb' with rfl | hmem'
      · rfl
      · obtain ⟨a, -, ha⟩ := h'.exists_link hmem'
        exact absurd ha (hp a)
    · obtain ⟨a, hmem, ha⟩ := h.exists_link hmem
      rcases List.mem_cons.1 hb' with rfl | hmem'
      · exact absurd ha (hp' a)
      · obtain ⟨a', hmem', ha'⟩ := h'.exists_link hmem'
        obtain rfl := hinjective a a' b ha ha'
        exact ih a (hforward a b ha) hmem hmem'

end Linked
