/-
  Stable sorting by a comparison that may take different elements for equal.
-/
import Mathlib

namespace StableSort

variable {α : Type} {cmp : α → α → Ordering} {l sorted : List α}

/-- `sorted` has the elements of `l` in order; those that compare as equal stay in the order they
    have in `l`. -/
structure IsStableSort (cmp : α → α → Ordering) (l sorted : List α) : Prop where
  perm : sorted.Perm l
  ordered : sorted.Pairwise fun a b => cmp a b ≠ .gt
  stable : ∀ a, sorted.filter (fun b => cmp a b = .eq) = l.filter fun b => cmp a b = .eq

theorem ne_gt_iff (a b : α) : cmp a b ≠ .gt ↔ (cmp a b).isLE = true := Ordering.ne_gt_iff_isLE

theorem ne_gt_trans [Std.TransCmp cmp] {a b c : α} (hab : cmp a b ≠ .gt) (hbc : cmp b c ≠ .gt) :
    cmp a c ≠ .gt := by
  rw [ne_gt_iff] at *
  exact Std.TransCmp.isLE_trans hab hbc

theorem ne_gt_total [Std.TransCmp cmp] (a b : α) : cmp a b ≠ .gt ∨ cmp b a ≠ .gt := by
  have hswap : cmp b a = (cmp a b).swap := Std.OrientedCmp.eq_swap
  rw [hswap]
  cases cmp a b <;> simp

/-- Inserting the elements one by one, each before those it does not come after, is stable. -/
theorem isStableSort_insertionSort [Std.TransCmp cmp] :
    IsStableSort cmp l (l.insertionSort fun a b => cmp a b ≠ .gt) where
  perm := List.perm_insertionSort _ l
  ordered :=
    have : Std.Total fun a b => cmp a b ≠ .gt := ⟨ne_gt_total⟩
    have : IsTrans α fun a b => cmp a b ≠ .gt := ⟨fun _ _ _ => ne_gt_trans⟩
    List.pairwise_insertionSort _ l
  stable a := by
    have hequal : (l.filter fun b => cmp a b = .eq).Pairwise fun b c => cmp b c ≠ .gt := by
      refine List.pairwise_of_forall_mem_list fun b hb c hc => ?_
      have hb : cmp a b = .eq := by simpa using (List.mem_filter.1 hb).2
      have hc : cmp a c = .eq := by simpa using (List.mem_filter.1 hc).2
      rw [← Std.TransCmp.congr_left hb, hc]
      simp
    have hsub := (List.sublist_insertionSort hequal List.filter_sublist).filter fun b => cmp a b = .eq
    rw [List.filter_filter] at hsub
    simp only [Bool.and_self] at hsub
    exact (hsub.eq_of_length
      ((List.perm_insertionSort _ l).filter fun b => cmp a b = .eq).length_eq.symm).symm

end StableSort
