/-
  Calls that leave part of the state aside.

  `π` forgets the part that is left aside.  A call that commutes with `π` has the same result
  and the same effect on the rest whatever that part is; the steps of a call commute one by one.
-/
import AntDb.Lib.Call

namespace Call

variable {ρ σ φ α β γ : Type} {π : σ → σ} {I : σ → Prop} {x : Call ρ σ φ α} {f : α → Call ρ σ φ β}

/-- From the states that satisfy `I`, which it keeps, the call runs on what `π` leaves of the
    state as it does on the whole. -/
def Commutes (π : σ → σ) (I : σ → Prop) (x : Call ρ σ φ α) : Prop :=
  ∀ env s, I s → x env (π s) = ((x env s).1, π (x env s).2) ∧ I (x env s).2

namespace Commutes

theorem pure {a : α} : Commutes π I (pure a : Call ρ σ φ α) := fun _ _ hs => ⟨rfl, hs⟩

theorem fail {e : φ} : Commutes π I (fail e : Call ρ σ φ α) := fun _ _ hs => ⟨rfl, hs⟩

theorem ofExcept {r : Except φ α} : Commutes π I (ofExcept r : Call ρ σ φ α) := fun _ _ hs =>
  ⟨rfl, hs⟩

theorem bind (hx : Commutes π I x) (hf : ∀ a, Commutes π I (f a)) : Commutes π I (x >>= f) := by
  intro env s hs
  obtain ⟨hrun, hs'⟩ := hx env s hs
  rw [bind_run, bind_run, hrun]
  generalize x env s = r at hs' ⊢
  obtain ⟨e | a, s'⟩ := r
  · exact ⟨rfl, hs'⟩
  · exact hf a env s' hs'

/-- What is read of the state may not be what `π` forgets. -/
theorem get {f : σ → Call ρ σ φ β} (hπ : ∀ s, I s → f (π s) = f s)
    (h : ∀ s, I s → Commutes π I (f s)) : Commutes π I (get >>= f) := by
  intro env s hs
  rw [get_bind, get_bind, hπ s hs]
  exact h s hs env s hs

theorem modify {g : σ → σ} (hπ : ∀ s, I s → g (π s) = π (g s)) (h : ∀ s, I s → I (g s)) :
    Commutes π I (modify g : Call ρ σ φ Unit) := fun _ s hs => ⟨Prod.ext rfl (hπ s hs), h s hs⟩

theorem foldlM {g : β → γ → Call ρ σ φ β} {l : List γ} {b : β}
    (h : ∀ b, ∀ c ∈ l, Commutes π I (g b c)) : Commutes π I (l.foldlM g b) := by
  induction l generalizing b with
  | nil => exact pure
  | cons c l ih =>
    rw [List.foldlM_cons]
    exact (h b c (by simp)).bind fun b => ih fun b c hc => h b c (List.mem_cons_of_mem _ hc)

theorem forM {g : γ → Call ρ σ φ Unit} {l : List γ} (h : ∀ c ∈ l, Commutes π I (g c)) :
    Commutes π I (l.forM g) := by
  induction l with
  | nil => exact pure
  | cons c l ih => exact (h c (by simp)).bind fun _ => ih fun c hc => h c (List.mem_cons_of_mem _ hc)

theorem within {env : ρ} (hx : Commutes π I x) : Commutes π I (within env x) := fun _ s hs => hx env s hs

/-- The run of a call that commutes. -/
theorem run {env : ρ} {s : σ} (h : Commutes π I x) (hs : I s) :
    x env (π s) = ((x env s).1, π (x env s).2) := (h env s hs).1

end Commutes

end Call
