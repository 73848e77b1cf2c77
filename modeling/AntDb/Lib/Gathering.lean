/-
  Loops over lists that collect results and may fail, and collections grouped by where their
  elements come from.
-/
import Mathlib

namespace Gathering

variable {ε α β : Type}

/-! ## Filtering with a test that may fail -/

section Gather

variable {test : α → Except ε Bool} {f : α → β} {p : α → Bool} {found : List β} {l l' : List α}

/-- The images of the elements that pass the test, after those found before. -/
def gather (test : α → Except ε Bool) (f : α → β) (found : List β) (l : List α) :
    Except ε (List β) :=
  l.foldlM (fun found a => do return if ← test a then found ++ [f a] else found) found

theorem gather_ok (h : ∀ a ∈ l, test a = .ok (p a)) :
    gather test f found l = .ok (found ++ (l.filter p).map f) := by
  unfold gather
  induction l generalizing found with
  | nil => simp; rfl
  | cons a l ih =>
    rw [List.foldlM_cons, h a (by simp)]
    show List.foldlM _ _ l = _
    rw [ih fun b hb => h b (List.mem_cons_of_mem _ hb)]
    cases hp : p a <;> simp [hp]

theorem gather_error (h : ∃ a ∈ l, ∃ e, test a = .error e) : ∃ e, gather test f found l = .error e := by
  unfold gather
  induction l generalizing found with
  | nil => obtain ⟨a, ha, -⟩ := h; cases ha
  | cons a l ih =>
    rw [List.foldlM_cons]
    cases ht : test a with
    | error e => exact ⟨e, rfl⟩
    | ok b =>
      obtain ⟨a', ha', e, he⟩ := h
      rcases List.mem_cons.1 ha' with rfl | ha'
      · rw [ht] at he; cases he
      · exact ih ⟨a', ha', e, he⟩

/-- A loop that comes to an end has tested every element. -/
theorem tested_of_gather {found' : List β} (h : gather test f found l = .ok found') :
    ∀ a ∈ l, ∃ b, test a = .ok b := by
  intro a ha
  cases ht : test a with
  | ok b => exact ⟨b, rfl⟩
  | error e =>
    obtain ⟨e', he⟩ : ∃ e', gather test f found l = .error e' := gather_error ⟨a, ha, e, ht⟩
    rw [he] at h; cases h

end Gather

/-! ## Concatenating results that may fail -/

section Concat

variable {c : α → Except ε (List β)} {g h : α → List β} {l : List α} {next : List β}

def concat (c : α → Except ε (List β)) (next : List β) (l : List α) : Except ε (List β) :=
  l.foldlM (fun next a => do return next ++ (← c a)) next

theorem concat_ok (hc : ∀ a ∈ l, c a = .ok (g a)) : concat c next l = .ok (next ++ l.flatMap g) := by
  unfold concat
  induction l generalizing next with
  | nil => simp; rfl
  | cons a l ih =>
    rw [List.foldlM_cons, hc a (by simp)]
    show List.foldlM _ _ l = _
    rw [ih fun b hb => hc b (List.mem_cons_of_mem _ hb)]
    simp

theorem concat_error (hc : ∃ a ∈ l, ∃ e, c a = .error e) : ∃ e, concat c next l = .error e := by
  unfold concat
  induction l generalizing next with
  | nil => obtain ⟨a, ha, -⟩ := hc; cases ha
  | cons a l ih =>
    rw [List.foldlM_cons]
    cases hca : c a with
    | error e => exact ⟨e, rfl⟩
    | ok b =>
      obtain ⟨a', ha', e, he⟩ := hc
      rcases List.mem_cons.1 ha' with rfl | ha'
      · rw [hca] at he; cases he
      · exact ih ⟨a', ha', e, he⟩

theorem results_of_concat {next' : List β} (h : concat c next l = .ok next') :
    ∀ a ∈ l, ∃ b, c a = .ok b := by
  intro a ha
  cases hc : c a with
  | ok b => exact ⟨b, rfl⟩
  | error e =>
    obtain ⟨e', he⟩ : ∃ e', concat c next l = .error e' := concat_error ⟨a, ha, e, hc⟩
    rw [he] at h; cases h

end Concat

/-! ## Where a loop stops -/

section Stops

variable {γ : Type} {f : α → Except ε β} {g : γ → α → β → γ} {a : α} {l : List α} {e : ε} {acc : γ}

/-- The first element of the list at which `f` fails, fails with `e`. -/
def FailsFirst (f : α → Except ε β) (l : List α) (e : ε) : Prop :=
  ∃ pre a post, l = pre ++ a :: post ∧ (∀ b ∈ pre, ∃ y, f b = .ok y) ∧ f a = .error e

/-- The loop gets to `a`: `f` succeeds on the elements before it. -/
def Reached (f : α → Except ε β) (l : List α) (a : α) : Prop :=
  ∃ pre post, l = pre ++ a :: post ∧ ∀ b ∈ pre, ∃ y, f b = .ok y

theorem failsFirst_iff : FailsFirst f l e ↔ ∃ a, Reached f l a ∧ f a = .error e := by
  constructor
  · rintro ⟨pre, a, post, heq, hpre, ha⟩
    exact ⟨a, ⟨pre, post, heq, hpre⟩, ha⟩
  · rintro ⟨a, ⟨pre, post, heq, hpre⟩, ha⟩
    exact ⟨pre, a, post, heq, hpre, ha⟩

theorem not_failsFirst_nil : ¬ FailsFirst f [] e := by
  rintro ⟨pre, a, post, heq, -⟩
  cases pre <;> cases heq

theorem failsFirst_cons : FailsFirst f (a :: l) e ↔
    f a = .error e ∨ ((∃ y, f a = .ok y) ∧ FailsFirst f l e) := by
  constructor
  · rintro ⟨pre, b, post, heq, hpre, hb⟩
    cases pre with
    | nil =>
      obtain rfl := (List.cons.inj heq).1
      exact Or.inl hb
    | cons c pre =>
      obtain ⟨rfl, rfl⟩ := List.cons.inj heq
      exact Or.inr ⟨hpre a (by simp), pre, b, post, rfl, fun d hd => hpre d (by simp [hd]), hb⟩
  · rintro (h | ⟨hok, pre, b, post, rfl, hpre, hb⟩)
    · exact ⟨[], a, l, rfl, by simp, h⟩
    · refine ⟨a :: pre, b, post, rfl, fun d hd => ?_, hb⟩
      rcases List.mem_cons.1 hd with rfl | hd
      · exact hok
      · exact hpre d hd

theorem collect_error_iff :
    l.foldlM (fun acc a => do return g acc a (← f a)) acc = .error e ↔ FailsFirst f l e := by
  induction l generalizing acc with
  | nil => exact iff_of_false (by rintro ⟨⟩) not_failsFirst_nil
  | cons a l ih =>
    rw [List.foldlM_cons, failsFirst_cons]
    cases hfa : f a with
    | error e' =>
      refine ⟨fun h => Or.inl ?_, ?_⟩
      · exact congrArg Except.error (Except.error.inj h)
      · rintro (h | ⟨⟨y, hy⟩, -⟩)
        · exact congrArg Except.error (Except.error.inj h)
        · cases hy
    | ok y =>
      refine ih.trans ⟨fun h => Or.inr ⟨⟨y, rfl⟩, h⟩, ?_⟩
      rintro (h | h)
      · cases h
      · exact h.2

theorem mapM_error_iff : l.mapM f = .error e ↔ FailsFirst f l e := by
  induction l with
  | nil => exact iff_of_false (by rintro ⟨⟩) not_failsFirst_nil
  | cons a l ih =>
    rw [List.mapM_cons, failsFirst_cons, ← ih]
    cases hfa : f a with
    | error e' =>
      refine ⟨fun h => Or.inl ?_, ?_⟩
      · exact congrArg Except.error (Except.error.inj h)
      · rintro (h | ⟨⟨y, hy⟩, -⟩)
        · exact congrArg Except.error (Except.error.inj h)
        · cases hy
    | ok y =>
      cases hl : l.mapM f with
      | error e' =>
        refine ⟨fun h => Or.inr ⟨⟨y, rfl⟩, congrArg Except.error (Except.error.inj h)⟩, ?_⟩
        rintro (h | ⟨-, h⟩)
        · cases h
        · exact congrArg Except.error (Except.error.inj h)
      | ok ys =>
        refine iff_of_false (by rintro ⟨⟩) ?_
        rintro (h | ⟨-, h⟩) <;> cases h

theorem mapM_ok_iff {bs : List β} :
    l.mapM f = .ok bs ↔ List.Forall₂ (fun a b => f a = .ok b) l bs := by
  induction l generalizing bs with
  | nil =>
    constructor
    · rintro ⟨⟩
      exact List.Forall₂.nil
    · rintro ⟨⟩
      rfl
  | cons a l ih =>
    rw [List.mapM_cons]
    constructor
    · intro h
      cases hfa : f a with
      | error e => rw [hfa] at h; cases h
      | ok b =>
        cases hl : l.mapM f with
        | error e => rw [hfa, hl] at h; cases h
        | ok bs' =>
          rw [hfa, hl] at h
          cases h
          exact List.Forall₂.cons hfa (ih.1 hl)
    · rintro (_ | ⟨hfa, hrest⟩)
      rw [hfa, ih.2 hrest]
      rfl

/-- Along related lists a relation that says the same of each pair as `p` of its left element. -/
theorem forall₂_iff {R S : α → β → Prop} {p : α → Prop} {bs : List β} (h : List.Forall₂ R l bs)
    (hp : ∀ a ∈ l, ∀ b, R a b → (S a b ↔ p a)) : List.Forall₂ S l bs ↔ ∀ a ∈ l, p a := by
  induction h with
  | nil => exact iff_of_true .nil (by simp)
  | @cons a b l bs hab _ ih =>
    rw [List.forall₂_cons, List.forall_mem_cons, hp a (by simp) b hab,
      ih fun a' ha' => hp a' (List.mem_cons_of_mem _ ha')]

end Stops

/-! ## Elements that tell where they come from -/

section Keyed

variable [DecidableEq α] [DecidableEq β] {key : β → α} {g h : α → List β} {l : List α} {b : β}

theorem count_flatMap_keyed (hg : ∀ a ∈ l, ∀ b ∈ g a, key b = a) :
    (l.flatMap g).count b = l.count (key b) * (g (key b)).count b := by
  induction l with
  | nil => simp
  | cons a l ih =>
    rw [List.flatMap_cons, List.count_append, ih fun a ha => hg a (List.mem_cons_of_mem _ ha),
      List.count_cons]
    by_cases ha : a = key b
    · subst ha
      simp only [beq_self_eq_true, if_true]
      ring
    · have hnone : (g a).count b = 0 := List.count_eq_zero.2 fun hb =>
        ha (hg a (by simp) b hb).symm
      simp [hnone, ha]

/-- Where every element tells which part it comes from, the whole is the same up to order exactly
    when every part is. -/
theorem flatMap_perm_iff (hg : ∀ a ∈ l, ∀ b ∈ g a, key b = a) (hh : ∀ a ∈ l, ∀ b ∈ h a, key b = a) :
    (l.flatMap g).Perm (l.flatMap h) ↔ ∀ a ∈ l, (g a).Perm (h a) := by
  constructor
  · intro hperm a ha
    refine List.perm_iff_count.2 fun b => ?_
    by_cases hb : key b = a
    · subst hb
      have hcount := hperm.count_eq b
      rw [count_flatMap_keyed hg, count_flatMap_keyed hh] at hcount
      exact Nat.eq_of_mul_eq_mul_left (List.count_pos_iff.2 ha) hcount
    · rw [List.count_eq_zero.2 fun h => hb (hg a ha b h), List.count_eq_zero.2 fun h => hb (hh a ha b h)]
  · intro hperm
    refine List.perm_iff_count.2 fun b => ?_
    rw [count_flatMap_keyed hg, count_flatMap_keyed hh]
    by_cases hmem : key b ∈ l
    · rw [(hperm _ hmem).count_eq b]
    · rw [List.count_eq_zero.2 hmem, Nat.zero_mul, Nat.zero_mul]

end Keyed

end Gathering
