/-
  Runs of a step function: executing a list of operations, conditions on every
  operation at the state it meets, and the induction principles for both.
-/
import Mathlib

namespace Runs

variable {σ ο σ' : Type}

/-- The state after the operations `ops`. -/
def exec (step : σ → ο → σ) (s : σ) (ops : List ο) : σ := ops.foldl step s

/-- Every operation of the run satisfies `P` at the state it meets. -/
def Each (step : σ → ο → σ) (P : σ → ο → Prop) : σ → List ο → Prop
  | _, [] => True
  | s, o :: ops => P s o ∧ Each step P (step s o) ops

variable {step : σ → ο → σ} {P Q : σ → ο → Prop} {s : σ} {ops ops' : List ο} {o : ο}

@[simp] theorem exec_nil : exec step s [] = s := rfl

@[simp] theorem exec_cons : exec step s (o :: ops) = exec step (step s o) ops := rfl

theorem exec_append : exec step s (ops ++ ops') = exec step (exec step s ops) ops' := by
  simp [exec]

theorem exec_snoc : exec step s (ops ++ [o]) = step (exec step s ops) o := by
  simp [exec]

@[simp] theorem each_nil : Each step P s [] := trivial

@[simp] theorem each_cons : Each step P s (o :: ops) ↔ P s o ∧ Each step P (step s o) ops := Iff.rfl

theorem each_append :
    Each step P s (ops ++ ops') ↔ Each step P s ops ∧ Each step P (exec step s ops) ops' := by
  induction ops generalizing s with
  | nil => simp
  | cons o ops ih => simp [ih, and_assoc]

theorem each_snoc :
    Each step P s (ops ++ [o]) ↔ Each step P s ops ∧ P (exec step s ops) o := by
  simp [each_append]

theorem Each.mono (h : Each step P s ops) (hPQ : ∀ s o, P s o → Q s o) : Each step Q s ops := by
  induction ops generalizing s with
  | nil => trivial
  | cons o ops ih => exact ⟨hPQ _ _ h.1, ih h.2⟩

theorem Each.and (h : Each step P s ops) (h' : Each step Q s ops) :
    Each step (fun s o => P s o ∧ Q s o) s ops := by
  induction ops generalizing s with
  | nil => trivial
  | cons o ops ih => exact ⟨⟨h.1, h'.1⟩, ih h.2 h'.2⟩

instance decidableEach [∀ s o, Decidable (P s o)] : ∀ s ops, Decidable (Each step P s ops)
  | _, [] => isTrue trivial
  | s, o :: ops => @instDecidableAnd _ _ _ (decidableEach (step s o) ops)

/-- **The invariant rule.**  What every allowed step preserves holds after every
    allowed run. -/
theorem Each.invariant {I : σ → Prop} (h : Each step P s ops) (h₀ : I s)
    (hstep : ∀ s o, I s → P s o → I (step s o)) : I (exec step s ops) := by
  induction ops generalizing s with
  | nil => exact h₀
  | cons o ops ih => exact ih h.2 (hstep s o h₀ h.1)

/-- **The simulation rule.**  Two runs of the same operations stay related. -/
theorem Each.simulation {step' : σ' → ο → σ'} {s' : σ'} {R : σ → σ' → Prop}
    {P' : σ' → ο → Prop} (h : Each step P s ops) (h' : Each step' P' s' ops) (h₀ : R s s')
    (hstep : ∀ s s' o, R s s' → P s o → P' s' o → R (step s o) (step' s' o)) :
    R (exec step s ops) (exec step' s' ops) := by
  induction ops generalizing s s' with
  | nil => exact h₀
  | cons o ops ih => exact ih h.2 h'.2 (hstep s s' o h₀ h.1 h'.1)

end Runs
