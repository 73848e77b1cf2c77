/-
  What calls return, from the states of an invariant.

  Nothing is said of a call that fails: only what follows a result may use the invariant.
-/
import AntDb.Lib.Call

namespace Call

variable {ρ σ φ ε α β : Type} {I : σ → Prop} {x : Call ρ σ φ α} {f : α → Call ρ σ φ β} {a : α}
  {P P' : α → Prop} {Q : β → Prop}

/-- Whatever the call returns from a state of the invariant satisfies `P`; the invariant is kept. -/
def Finds (I : σ → Prop) (x : Call ρ σ φ α) (P : α → Prop) : Prop :=
  ∀ env s a s', I s → x env s = (.ok a, s') → P a ∧ I s'

namespace Finds

theorem mono (h : Finds I x P) (hP : ∀ a, P a → P' a) : Finds I x P' := fun env s a s' hs hrun =>
  (h env s a s' hs hrun).imp_left (hP a)

theorem pure (h : P a) : Finds I (pure a : Call ρ σ φ α) P := by
  intro env s b s' hs hrun
  cases hrun
  exact ⟨h, hs⟩

theorem fail {e : φ} : Finds I (fail e : Call ρ σ φ α) P := by
  intro env s b s' _ hrun
  cases hrun

theorem ofExcept {r : Except φ α} (h : ∀ a, r = .ok a → P a) :
    Finds I (ofExcept r : Call ρ σ φ α) P := by
  intro env s b s' hs hrun
  obtain ⟨hr, rfl⟩ := Prod.mk.inj hrun
  exact ⟨h b hr, hs⟩

theorem get {f : σ → Call ρ σ φ β} (h : ∀ s, I s → Finds I (f s) Q) : Finds I (Call.get >>= f) Q :=
  fun env s b s' hs hrun => h s hs env s b s' hs hrun

theorem bind (hx : Finds I x P) (hf : ∀ a, P a → Finds I (f a) Q) : Finds I (x >>= f) Q := by
  intro env s b s' hs hrun
  obtain ⟨a, s₁, hx₁, hrest⟩ := bind_returned hrun
  obtain ⟨ha, hs₁⟩ := hx env s a s₁ hs hx₁
  exact hf a ha env s₁ b s' hs₁ hrest

/-- An error is answered with an error. -/
theorem handling {handle : φ → Call ρ σ φ α} (hx : Finds I x P)
    (h : ∀ e env s, ∃ e', (handle e env s).1 = .error e') : Finds I (x.handling handle) P := by
  intro env s a s' hs hrun
  unfold Call.handling at hrun
  cases hxs : x env s with
  | mk r s₁ =>
    rw [hxs] at hrun
    cases r with
    | ok b =>
      cases hrun
      exact hx env s a s' hs hxs
    | error e =>
      obtain ⟨e', he⟩ := h e env s₁
      have hrun : handle e env s₁ = (.ok a, s') := hrun
      rw [hrun] at he
      cases he

/-- A loop that finds what a pure function gives in each round finds what its loop gives. -/
theorem foldlM {γ : Type} {f : β → γ → Call ρ σ φ β} {g : β → γ → Except ε β} {l : List γ} {b : β}
    (hf : ∀ b, ∀ c ∈ l, Finds I (f b c) fun b' => g b c = .ok b') :
    Finds I (l.foldlM f b) fun b' => l.foldlM g b = .ok b' := by
  induction l generalizing b with
  | nil => exact Finds.pure rfl
  | cons c l ih =>
    rw [List.foldlM_cons]
    refine (hf b c (by simp)).bind fun b' hb' => ?_
    refine (ih fun b c hc => hf b c (List.mem_cons_of_mem _ hc)).mono fun b'' hb'' => ?_
    rw [List.foldlM_cons, hb']
    exact hb''

end Finds

end Call
