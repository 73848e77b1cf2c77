/-
  Orders by a list of keys, each in its direction.

  A key says something only where no earlier one is the same.  One list of keys sorts as another
  asks exactly when, after the keys that say nothing are left out, the other is a prefix of it.
-/
import Mathlib

namespace Lexicographic

variable {κ υ : Type} {cmp : υ → υ → Ordering} {keys asked found : List (κ × Bool)}
  {f g f' g' : κ → υ} {k : κ} {descending : Bool}

/-- The verdict of one key; `true` stands for descending. -/
def keyCmp (cmp : υ → υ → Ordering) (descending : Bool) (a b : υ) : Ordering :=
  if descending then (cmp a b).swap else cmp a b

/-- Compare by the keys one after another. -/
def lexCmp (cmp : υ → υ → Ordering) : List (κ × Bool) → (κ → υ) → (κ → υ) → Ordering
  | [], _, _ => .eq
  | (k, descending) :: keys, f, g => (keyCmp cmp descending (f k) (g k)).then (lexCmp cmp keys f g)

theorem lexCmp_cons : lexCmp cmp ((k, descending) :: keys) f g =
    (keyCmp cmp descending (f k) (g k)).then (lexCmp cmp keys f g) := rfl

theorem keyCmp_eq {a b : υ} (h : cmp a b = .eq) : keyCmp cmp descending a b = .eq := by
  cases descending <;> simp [keyCmp, h]

theorem lexCmp_congr (hf : ∀ x ∈ keys, f x.1 = f' x.1) (hg : ∀ x ∈ keys, g x.1 = g' x.1) :
    lexCmp cmp keys f g = lexCmp cmp keys f' g' := by
  induction keys with
  | nil => rfl
  | cons x keys ih =>
    rw [lexCmp_cons, lexCmp_cons, hf x (by simp), hg x (by simp),
      ih (fun x hx => hf x (List.mem_cons_of_mem _ hx)) fun x hx => hg x (List.mem_cons_of_mem _ hx)]

/-- Keys on which the two agree say nothing. -/
theorem lexCmp_filter (p : κ → Bool) (h : ∀ k, p k = false → cmp (f k) (g k) = .eq) :
    lexCmp cmp (keys.filter fun x => p x.1) f g = lexCmp cmp keys f g := by
  induction keys with
  | nil => rfl
  | cons x keys ih =>
    rw [List.filter_cons]
    split_ifs with hp
    · rw [lexCmp_cons, lexCmp_cons, ih]
    · rw [lexCmp_cons, ih, keyCmp_eq (h x.1 (by simpa using hp))]
      rfl

theorem transCmp_keyCmp [Std.TransCmp cmp] (k : κ) (descending : Bool) :
    Std.TransCmp fun f g : κ → υ => keyCmp cmp descending (f k) (g k) := by
  have hswap : ∀ a b, cmp a b = (cmp b a).swap := fun a b => Std.OrientedCmp.eq_swap
  have htrans : ∀ a b c, (cmp a b).isLE = true → (cmp b c).isLE = true → (cmp a c).isLE = true :=
    fun a b c => Std.TransCmp.isLE_trans
  cases descending with
  | false =>
    exact { eq_swap := fun {f g} => hswap (f k) (g k)
            isLE_trans := fun {f g h} => htrans (f k) (g k) (h k) }
  | true =>
    have hkey : ∀ a b, keyCmp cmp true a b = cmp b a := fun a b => (hswap b a).symm
    simp only [hkey]
    exact { eq_swap := fun {f g} => hswap (g k) (f k)
            isLE_trans := fun {f g h} hfg hgh => htrans (h k) (g k) (f k) hgh hfg }

/-- Comparing by keys is an order. -/
theorem transCmp_lexCmp [Std.TransCmp cmp] : Std.TransCmp (lexCmp cmp keys) := by
  induction keys with
  | nil => exact { eq_swap := rfl, isLE_trans := fun _ _ => rfl }
  | cons x keys ih =>
    have hkey := @transCmp_keyCmp κ υ cmp _ x.1 x.2
    exact inferInstanceAs (Std.TransCmp
      (compareLex (fun f g : κ → υ => keyCmp cmp x.2 (f x.1) (g x.1)) (lexCmp cmp keys)))

variable [DecidableEq κ]

/-- The keys of which no earlier one is the same. -/
def essential : List (κ × Bool) → List (κ × Bool)
  | [] => []
  | x :: keys => x :: (essential keys).filter fun y => decide (y.1 ≠ x.1)

theorem lexCmp_essential : lexCmp cmp (essential keys) f g = lexCmp cmp keys f g := by
  induction keys with
  | nil => rfl
  | cons x keys ih =>
    rw [essential, lexCmp_cons, lexCmp_cons]
    cases hk : keyCmp cmp x.2 (f x.1) (g x.1) with
    | lt => rfl
    | gt => rfl
    | eq =>
      have heq : cmp (f x.1) (g x.1) = .eq := by
        unfold keyCmp at hk
        split_ifs at hk with hd
        · exact Ordering.swap_eq_eq.1 hk
        · exact hk
      rw [lexCmp_filter (fun k => decide (k ≠ x.1)) fun k hk => ?_, ih]
      rw [show k = x.1 by simpa using hk, heq]

theorem nodup_essential : ((essential keys).map Prod.fst).Nodup := by
  induction keys with
  | nil => exact List.nodup_nil
  | cons x keys ih =>
    rw [essential, List.map_cons, List.nodup_cons]
    refine ⟨fun hmem => ?_, ih.sublist (List.filter_sublist.map _)⟩
    obtain ⟨y, hy, hyx⟩ := List.mem_map.1 hmem
    exact (of_decide_eq_true (List.mem_filter.1 hy).2) hyx

/-! ## Sorting as asked -/

/-- Sorting by `found` is sorting by `asked`. -/
def Refines (cmp : υ → υ → Ordering) (found asked : List (κ × Bool)) : Prop :=
  ∀ f g : κ → υ, lexCmp cmp found f g ≠ .gt → lexCmp cmp asked f g ≠ .gt

theorem refines_of_prefix (h : essential asked <+: essential found) : Refines cmp found asked := by
  intro f g hfound
  rw [← lexCmp_essential] at hfound ⊢
  obtain ⟨rest, hrest⟩ := h
  rw [← hrest] at hfound
  generalize essential asked = asked at hfound
  clear hrest
  induction asked with
  | nil => exact fun h => by cases h
  | cons x asked ih =>
    rw [List.cons_append, lexCmp_cons] at hfound
    rw [lexCmp_cons]
    cases hk : keyCmp cmp x.2 (f x.1) (g x.1) with
    | lt => exact fun h => by cases h
    | eq => rw [hk] at hfound; exact ih hfound
    | gt => rw [hk] at hfound; exact absurd rfl hfound

section Converse

variable {a b : υ} (hab : cmp a b = .lt) (hba : cmp b a = .gt) (hrefl : ∀ a, cmp a a = .eq)

omit [DecidableEq κ] in
/-- Where the two agree on all keys they are the same. -/
theorem lexCmp_agree (hrefl : ∀ a, cmp a a = .eq) (h : ∀ x ∈ keys, f x.1 = g x.1) :
    lexCmp cmp keys f g = .eq := by
  induction keys with
  | nil => rfl
  | cons x keys ih =>
    rw [lexCmp_cons, h x (by simp), keyCmp_eq (hrefl _)]
    exact ih fun x hx => h x (List.mem_cons_of_mem _ hx)

include hab hba hrefl

omit [DecidableEq κ] hrefl in
/-- Two values that come in the wrong order for the direction. -/
theorem keyCmp_wrong (descending : Bool) :
    keyCmp cmp descending (if descending then a else b) (if descending then b else a) = .gt := by
  cases descending
  · exact hba
  · show (cmp a b).swap = .gt
    rw [hab]; rfl

omit [DecidableEq κ] hrefl in
theorem keyCmp_right (descending : Bool) :
    keyCmp cmp descending (if descending then b else a) (if descending then a else b) = .lt := by
  cases descending
  · exact hab
  · show (cmp b a).swap = .lt
    rw [hba]; rfl

/-- With two values to tell apart, keys sort as asked only if what is asked is a prefix of them. -/
theorem prefix_of_refines (h : Refines cmp found asked) : essential asked <+: essential found := by
  have hstep : ∀ asked found : List (κ × Bool), (asked.map Prod.fst).Nodup →
      (found.map Prod.fst).Nodup → Refines cmp found asked → asked <+: found := by
    intro asked
    induction asked with
    | nil => exact fun found _ _ _ => List.nil_prefix
    | cons x asked ih =>
      intro found hasked hfound h
      obtain ⟨k, descending⟩ := x
      rw [List.map_cons, List.nodup_cons] at hasked
      -- a pair that `asked` has in the wrong order
      have hwrong : ∀ f g : κ → υ, f k = (if descending then a else b) →
          g k = (if descending then b else a) → lexCmp cmp found f g = .gt := by
        intro f g hf hg
        by_contra hne
        refine h f g hne ?_
        rw [lexCmp_cons, hf, hg, keyCmp_wrong hab hba]
        rfl
      cases found with
      | nil =>
        have hgt := hwrong (fun _ => if descending then a else b) (fun _ => if descending then b else a)
          rfl rfl
        cases hgt
      | cons y found =>
        obtain ⟨k', descending'⟩ := y
        rw [List.map_cons, List.nodup_cons] at hfound
        have hkey : k' = k := by
          by_contra hkk
          have hgt := hwrong
            (fun x => if x = k then (if descending then a else b) else (if descending' then b else a))
            (fun x => if x = k then (if descending then b else a) else (if descending' then a else b))
            (if_pos rfl) (if_pos rfl)
          rw [lexCmp_cons, if_neg hkk, if_neg hkk, keyCmp_right hab hba] at hgt
          cases hgt
        subst hkey
        have hdirection : descending' = descending := by
          by_contra hdd
          have hgt := hwrong (fun _ => if descending then a else b) (fun _ => if descending then b else a)
            rfl rfl
          rw [lexCmp_cons] at hgt
          cases descending <;> cases descending' <;> simp_all [keyCmp]
        subst hdirection
        refine (List.prefix_cons_inj _).2 (ih found hasked.2 hfound.2 fun f g hfg => ?_)
        have hsame : ∀ keys : List (κ × Bool), k' ∉ keys.map Prod.fst → ∀ f : κ → υ, ∀ x ∈ keys,
            f x.1 = Function.update f k' a x.1 := by
          intro keys hmem f x hx
          have hne : x.1 ≠ k' := fun he => hmem (List.mem_map.2 ⟨x, hx, he⟩)
          rw [Function.update_of_ne hne]
        have hcons : ∀ keys : List (κ × Bool), k' ∉ keys.map Prod.fst →
            lexCmp cmp ((k', descending') :: keys) (Function.update f k' a) (Function.update g k' a) =
              lexCmp cmp keys f g := by
          intro keys hmem
          rw [lexCmp_cons, Function.update_self, Function.update_self, keyCmp_eq (hrefl a),
            lexCmp_congr (hsame keys hmem f) (hsame keys hmem g)]
          rfl
        rw [← hcons asked hasked.1]
        refine h _ _ ?_
        rw [hcons found hfound.1]
        exact hfg
  exact hstep _ _ nodup_essential nodup_essential fun f g hfg => by
    rw [lexCmp_essential] at hfg ⊢
    exact h f g hfg

end Converse

end Lexicographic
