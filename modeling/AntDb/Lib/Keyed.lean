/-
  Updates of a function at keys, one after the other, each of which can fail.

  An update looks at the value under its own key only, so the updates of different keys do not
  meet: a run of updates is one run for each key.
-/
import Mathlib

namespace Except

variable {ε α β γ : Type}

@[simp] theorem toOption_bind {x : Except ε α} {f : α → Except ε β} :
    (x >>= f).toOption = x.toOption.bind fun a => (f a).toOption := by
  cases x <;> rfl

theorem toOption_foldlM {f : β → γ → Except ε β} {l : List γ} {b : β} :
    (l.foldlM f b).toOption = l.foldlM (fun b c => (f b c).toOption) b := by
  induction l generalizing b with
  | nil => rfl
  | cons c l ih =>
    simp only [List.foldlM_cons, toOption_bind, ih]
    rfl

/-- A loop whose turns all succeed. -/
theorem foldlM_ok {f : β → γ → Except ε β} {g : β → γ → β} {l : List γ} {b : β}
    (hf : ∀ b, ∀ c ∈ l, f b c = .ok (g b c)) : l.foldlM f b = .ok (l.foldl g b) := by
  induction l generalizing b with
  | nil => rfl
  | cons c l ih =>
    rw [List.foldlM_cons, hf b c (by simp), List.foldl_cons]
    exact ih fun b c hc => hf b c (List.mem_cons_of_mem _ hc)

end Except

namespace Option

variable {α β γ : Type} {h : α → β}

/-- A loop on what `h` shows of the states is what `h` shows of the loop on the states. -/
theorem foldlM_map {f : α → γ → Option α} {g : β → γ → Option β} {l : List γ} {a : α}
    (hstep : ∀ a, ∀ c ∈ l, g (h a) c = (f a c).map h) : l.foldlM g (h a) = (l.foldlM f a).map h := by
  induction l generalizing a with
  | nil => rfl
  | cons c l ih =>
    rw [List.foldlM_cons, List.foldlM_cons, hstep a c (by simp)]
    cases f a c with
    | none => rfl
    | some a' => exact ih fun a c hc => hstep a c (List.mem_cons_of_mem _ hc)

end Option

namespace Keyed

variable {κ α β : Type} [DecidableEq κ] {g : κ → β → α → Option β} {l : List (κ × α)} {f f' : κ → β} {k : κ}
  {b : β}

/-- One update: `g` makes the new value of the old one. -/
def step (g : κ → β → α → Option β) (f : κ → β) (x : κ × α) : Option (κ → β) :=
  (g x.1 (f x.1) x.2).map (Function.update f x.1)

/-- What the updates make of the value `b` under the key `k`. -/
def runAt (g : κ → β → α → Option β) (l : List (κ × α)) (k : κ) (b : β) : Option β :=
  (l.filter (·.1 = k)).foldlM (fun b x => g k b x.2) b

theorem runAt_cons {x : κ × α} :
    runAt g (x :: l) k b = if x.1 = k then (g k b x.2).bind (runAt g l k) else runAt g l k b := by
  simp only [runAt, List.filter_cons, decide_eq_true_eq]
  split_ifs
  · exact List.foldlM_cons
  · rfl

/-- A key that no update is for keeps its value. -/
theorem runAt_of_not_mem (h : ∀ x ∈ l, x.1 ≠ k) : runAt g l k b = some b := by
  rw [runAt, List.filter_eq_nil_iff.2 fun x hx => by simpa using h x hx]
  rfl

/-- A run fails at a key whose updates all fail, if there is one. -/
theorem runAt_fails (h : ∀ b a, g k b a = none) {x : κ × α} (hx : x ∈ l) (hk : x.1 = k) : runAt g l k b = none := by
  induction l with
  | nil => cases hx
  | cons y l ih =>
    rw [runAt_cons]
    split_ifs with hy
    · rw [h, Option.bind_none]
    · refine ih ((List.mem_cons.1 hx).resolve_left ?_)
      rintro rfl
      exact hy hk

/-- **A run of updates** is one run for each key. -/
theorem foldlM_step : l.foldlM (step g) f = some f' ↔ ∀ k, runAt g l k (f k) = some (f' k) := by
  induction l generalizing f with
  | nil =>
    simp only [List.foldlM_nil, runAt, List.filter_nil, Option.pure_def, Option.some.injEq]
    exact funext_iff
  | cons x l ih =>
    simp only [List.foldlM_cons, runAt_cons]
    cases hx : g x.1 (f x.1) x.2 with
    | none =>
      rw [step, hx]
      refine iff_of_false (by simp) fun h => ?_
      have hkey := h x.1
      rw [if_pos rfl, hx] at hkey
      cases hkey
    | some b =>
      rw [step, hx]
      refine ih.trans (forall_congr' fun k => ?_)
      by_cases hk : x.1 = k
      · subst hk
        rw [Function.update_self, if_pos rfl, hx, Option.bind_some]
      · rw [Function.update_of_ne (Ne.symm hk), if_neg hk]

end Keyed
