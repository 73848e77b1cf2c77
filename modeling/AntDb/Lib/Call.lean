/-
  Calls: computations that read an environment, thread a state and may fail.

  `Framed F m P` says that `m`, started in a state that satisfies the invariant of the
  frame `F`, moves the state along the relation of `F` and has a result in `P`; faults
  that `F` exempts are left out.  `Computes` is the case of one result, given by a pure
  computation.
-/
import Mathlib

def Call (ρ σ φ α : Type) : Type := ρ → σ → Except φ α × σ

namespace Call

variable {ρ σ φ ε α β : Type}

protected def pure (a : α) : Call ρ σ φ α := fun _ s => (.ok a, s)

protected def bind (x : Call ρ σ φ α) (f : α → Call ρ σ φ β) : Call ρ σ φ β := fun env s =>
  match x env s with
  | (.ok a, s) => f a env s
  | (.error e, s) => (.error e, s)

instance : Monad (Call ρ σ φ) where
  pure := Call.pure
  bind := Call.bind

def get : Call ρ σ φ σ := fun _ s => (.ok s, s)

def modify (f : σ → σ) : Call ρ σ φ Unit := fun _ s => (.ok (), f s)

def fail (e : φ) : Call ρ σ φ α := fun _ s => (.error e, s)

/-- Go on with `handle` after a fault. -/
def handling (x : Call ρ σ φ α) (handle : φ → Call ρ σ φ α) : Call ρ σ φ α := fun env s =>
  match x env s with
  | (.error e, s) => handle e env s
  | r => r

/-- Run `x` in another environment. -/
def within (env : ρ) (x : Call ρ σ φ α) : Call ρ σ φ α := fun _ s => x env s

def ofExcept (x : Except φ α) : Call ρ σ φ α := fun _ s => (x, s)

/-! ## Running -/

variable {x : Call ρ σ φ α} {f : α → Call ρ σ φ β} {env : ρ} {s s' : σ} {a : α} {e : φ}

theorem pure_run : (pure a : Call ρ σ φ α) env s = (.ok a, s) := rfl

theorem bind_run : (x >>= f) env s =
    match x env s with
    | (.ok a, s) => f a env s
    | (.error e, s) => (.error e, s) := rfl

theorem bind_ok (h : x env s = (.ok a, s')) : (x >>= f) env s = f a env s' := by
  rw [bind_run, h]

theorem bind_error (h : x env s = (.error e, s')) : (x >>= f) env s = (.error e, s') := by
  rw [bind_run, h]

/-- A sequence returns what its second part does, after its first part has returned. -/
theorem bind_returned {b : β} (h : (x >>= f) env s = (.ok b, s')) :
    ∃ a s₁, x env s = (.ok a, s₁) ∧ f a env s₁ = (.ok b, s') := by
  rw [bind_run] at h
  generalize x env s = r at h ⊢
  obtain ⟨e | a, s₁⟩ := r
  · cases h
  · exact ⟨a, s₁, rfl, h⟩

theorem get_bind {f : σ → Call ρ σ φ β} : (get >>= f) env s = f s env s := rfl

theorem modify_bind {g : σ → σ} {f : Unit → Call ρ σ φ β} :
    (modify g >>= f) env s = f () env (g s) := rfl

/-! ## Frames -/

/-- The environment of a call, what every part of it keeps (`inv`), how it may move the state
    (`rel`), and the faults after which nothing is claimed. -/
structure Frame (ρ σ φ : Type) where
  env : ρ
  inv : σ → Prop
  rel : σ → σ → Prop
  exempt : φ → Prop
  refl : ∀ s, rel s s
  trans : ∀ {s s' s''}, rel s s' → rel s' s'' → rel s s''
  keep : ∀ {s s'}, inv s → rel s s' → inv s'

variable {F : Frame ρ σ φ} {P P' : Except φ α → Prop} {Q : Except φ β → Prop}

def Framed (F : Frame ρ σ φ) (x : Call ρ σ φ α) (P : Except φ α → Prop) : Prop :=
  ∀ s, F.inv s →
    (∃ e, (x F.env s).1 = .error e ∧ F.exempt e) ∨ (P (x F.env s).1 ∧ F.rel s (x F.env s).2)

namespace Framed

theorem mono (h : Framed F x P) (hP : ∀ r, P r → P' r) : Framed F x P' := fun s hs =>
  (h s hs).imp_right fun h => ⟨hP _ h.1, h.2⟩

/-- The invariant of the frame may be used. -/
theorem assuming (h : ∀ s, F.inv s → Framed F x P) : Framed F x P := fun s hs => h s hs s hs

theorem pure (h : P (.ok a)) : Framed F (pure a : Call ρ σ φ α) P := fun s _ =>
  Or.inr ⟨h, F.refl s⟩

theorem fail (h : P (.error e)) : Framed F (fail e : Call ρ σ φ α) P := fun s _ =>
  Or.inr ⟨h, F.refl s⟩

theorem ofExcept {r : Except φ α} (h : P r) : Framed F (ofExcept r : Call ρ σ φ α) P :=
  fun s _ => Or.inr ⟨h, F.refl s⟩

theorem bind (hx : Framed F x P) (hf : ∀ a, P (.ok a) → Framed F (f a) Q)
    (he : ∀ e, P (.error e) → Q (.error e)) : Framed F (x >>= f) Q := by
  intro s hs
  rw [bind_run]
  have h := hx s hs
  generalize x F.env s = r at h ⊢
  obtain ⟨e | a, s'⟩ := r
  · exact h.imp (fun ⟨e', h, hex⟩ => ⟨e', congrArg _ (Except.error.inj h), hex⟩)
      fun h => ⟨he e h.1, h.2⟩
  · rcases h with ⟨e, h, -⟩ | ⟨hP, hrel⟩
    · cases h
    · exact (hf a hP s' (F.keep hs hrel)).imp_right fun h => ⟨h.1, F.trans hrel h.2⟩

theorem get {f : σ → Call ρ σ φ β} (h : ∀ s, F.inv s → Framed F (f s) Q) :
    Framed F (Call.get >>= f) Q := fun s hs => h s hs s hs

theorem modify {g : σ → σ} {P : Except φ Unit → Prop} (hg : ∀ s, F.inv s → F.rel s (g s))
    (h : P (.ok ())) : Framed F (modify g : Call ρ σ φ Unit) P := fun s hs =>
  Or.inr ⟨h, hg s hs⟩

theorem handling {handle : φ → Call ρ σ φ α} (hx : Framed F x P) (hok : ∀ a, P (.ok a) → P' (.ok a))
    (he : ∀ e, F.exempt e → ∀ s, (handle e F.env s).1 = .error e)
    (hh : ∀ e, P (.error e) → Framed F (handle e) P') : Framed F (handling x handle) P' := by
  intro s hs
  have h := hx s hs
  unfold Call.handling
  generalize x F.env s = r at h ⊢
  obtain ⟨e | a, s'⟩ := r
  · rcases h with ⟨e', h, hex⟩ | ⟨hP, hrel⟩
    · obtain rfl := Except.error.inj h
      exact Or.inl ⟨e, he e hex s', hex⟩
    · exact (hh e hP s' (F.keep hs hrel)).imp_right fun h => ⟨h.1, F.trans hrel h.2⟩
  · rcases h with ⟨e, h, -⟩ | ⟨hP, hrel⟩
    · cases h
    · exact Or.inr ⟨hok a hP, hrel⟩

/-- A loop keeps what each of its rounds keeps. -/
theorem foldlM {γ : Type} {f : β → γ → Call ρ σ φ β} {I : Except φ β → Prop} {l : List γ} {b : β}
    (hf : ∀ b, I (.ok b) → ∀ c ∈ l, Framed F (f b c) I) (h : I (.ok b)) :
    Framed F (l.foldlM f b) I := by
  induction l generalizing b with
  | nil => exact Framed.pure h
  | cons c l ih =>
    rw [List.foldlM_cons]
    exact (hf b h c (by simp)).bind
      (fun b' hb' => ih (fun b hb c hc => hf b hb c (List.mem_cons_of_mem _ hc)) hb')
      fun e he => he

theorem forM {γ : Type} {f : γ → Call ρ σ φ Unit} {I : Except φ Unit → Prop} {l : List γ}
    (hf : ∀ c ∈ l, Framed F (f c) I) (h : I (.ok ())) : Framed F (l.forM f) I := by
  induction l with
  | nil => exact Framed.pure h
  | cons c l ih =>
    exact (hf c (by simp)).bind (fun _ _ => ih fun c hc => hf c (List.mem_cons_of_mem _ hc))
      fun e he => he

end Framed

/-! ## Calls that compute -/

/-- Within the frame `x` has the result of the pure computation `r`. -/
def Computes (F : Frame ρ σ φ) (wrap : ε → φ) (x : Call ρ σ φ α) (r : Except ε α) : Prop :=
  Framed F x (· = r.mapError wrap)

namespace Computes

variable {wrap : ε → φ} {r : Except ε α} {y : α → Except ε β}

theorem pure : Computes F wrap (pure a : Call ρ σ φ α) (.ok a) := Framed.pure rfl

theorem bind (hx : Computes F wrap x r) (hf : ∀ a, r = .ok a → Computes F wrap (f a) (y a)) :
    Computes F wrap (x >>= f) (r >>= y) := by
  cases r with
  | error e => exact Framed.bind hx (fun a h => by cases h) fun e' h => by cases h; rfl
  | ok a => exact Framed.bind hx (fun a' h => by cases h; exact hf a rfl) fun e h => by cases h

/-- What follows a computation may use its result. -/
theorem followed (hx : Computes F wrap x r) (hok : ∀ a, r = .ok a → Framed F (f a) Q)
    (he : ∀ e, r = .error e → Q (.error (wrap e))) : Framed F (x >>= f) Q := by
  cases r with
  | error e => exact Framed.bind hx (fun a h => by cases h) fun e' h => by cases h; exact he e rfl
  | ok a => exact Framed.bind hx (fun a' h => by cases h; exact hok a rfl) fun e h => by cases h

theorem get {f : σ → Call ρ σ φ α} (h : ∀ s, F.inv s → Computes F wrap (f s) r) :
    Computes F wrap (Call.get >>= f) r := Framed.get h

theorem foldlM {γ : Type} {f : β → γ → Call ρ σ φ β} {g : β → γ → Except ε β} {l : List γ} {b : β}
    (hf : ∀ b, ∀ c ∈ l, Computes F wrap (f b c) (g b c)) :
    Computes F wrap (l.foldlM f b) (l.foldlM g b) := by
  induction l generalizing b with
  | nil => exact Computes.pure
  | cons c l ih =>
    rw [List.foldlM_cons, List.foldlM_cons]
    exact (hf b c (by simp)).bind fun b' _ => ih fun b c hc => hf b c (List.mem_cons_of_mem _ hc)

theorem forM {γ : Type} {f : γ → Call ρ σ φ Unit} {g : γ → Except ε Unit} {l : List γ}
    (hf : ∀ c ∈ l, Computes F wrap (f c) (g c)) : Computes F wrap (l.forM f) (l.forM g) := by
  induction l with
  | nil => exact Computes.pure
  | cons c l ih =>
    exact (hf c (by simp)).bind fun _ _ => ih fun c hc => hf c (List.mem_cons_of_mem _ hc)

end Computes

/-! ## Any result -/

/-- Whatever its result, the call stays within the frame. -/
def Stays (F : Frame ρ σ φ) (x : Call ρ σ φ α) : Prop := Framed F x fun _ => True

namespace Stays

theorem pure : Stays F (pure a : Call ρ σ φ α) := Framed.pure trivial

theorem fail : Stays F (fail e : Call ρ σ φ α) := Framed.fail trivial

theorem ofExcept {r : Except φ α} : Stays F (ofExcept r : Call ρ σ φ α) := Framed.ofExcept trivial

theorem bind (hx : Stays F x) (hf : ∀ a, Stays F (f a)) : Stays F (x >>= f) :=
  Framed.bind hx (fun a _ => hf a) fun _ _ => trivial

theorem get {f : σ → Call ρ σ φ β} (h : ∀ s, F.inv s → Stays F (f s)) : Stays F (Call.get >>= f) :=
  Framed.get h

theorem foldlM {γ : Type} {f : β → γ → Call ρ σ φ β} {l : List γ} {b : β}
    (hf : ∀ b, ∀ c ∈ l, Stays F (f b c)) : Stays F (l.foldlM f b) :=
  Framed.foldlM (fun b _ c hc => hf b c hc) trivial

theorem forM {γ : Type} {f : γ → Call ρ σ φ Unit} {l : List γ} (hf : ∀ c ∈ l, Stays F (f c)) :
    Stays F (l.forM f) := Framed.forM (fun c hc => hf c hc) trivial

end Stays

/-! ## Any environment and result -/

/-- The frame in another environment. -/
def Frame.within (F : Frame ρ σ φ) (env : ρ) : Frame ρ σ φ := { F with env := env }

/-- Whatever its environment and its result, the call stays within the frame. -/
def Follows (F : Frame ρ σ φ) (x : Call ρ σ φ α) : Prop :=
  ∀ env, Framed (F.within env) x fun _ => True

namespace Follows

theorem pure : Follows F (pure a : Call ρ σ φ α) := fun _ => Framed.pure trivial

theorem fail : Follows F (fail e : Call ρ σ φ α) := fun _ => Framed.fail trivial

theorem ofExcept {r : Except φ α} : Follows F (ofExcept r : Call ρ σ φ α) := fun _ =>
  Framed.ofExcept trivial

theorem bind (hx : Follows F x) (hf : ∀ a, Follows F (f a)) : Follows F (x >>= f) := fun env =>
  (hx env).bind (fun a _ => hf a env) fun _ _ => trivial

/-- What follows a result may use it. -/
theorem ofExcept_bind {r : Except φ α} (h : ∀ a, r = .ok a → Follows F (f a)) :
    Follows F (Call.ofExcept r >>= f) := fun env =>
  (Framed.ofExcept (P := (· = r)) rfl).bind (fun a ha => h a ha.symm env) fun _ _ => trivial

theorem get {f : σ → Call ρ σ φ β} (h : ∀ s, F.inv s → Follows F (f s)) :
    Follows F (Call.get >>= f) := fun env => Framed.get fun s hs => h s hs env

theorem modify {g : σ → σ} (h : ∀ s, F.inv s → F.rel s (g s)) :
    Follows F (modify g : Call ρ σ φ Unit) := fun _ => Framed.modify h trivial

/-- The invariant of the frame may be used. -/
theorem assuming (h : ∀ s, F.inv s → Follows F x) : Follows F x := fun env =>
  Framed.assuming fun s hs => h s hs env

theorem handling {handle : φ → Call ρ σ φ α} (hx : Follows F x) (hh : ∀ e, Follows F (handle e))
    (he : ∀ e, F.exempt e → ∀ env s, (handle e env s).1 = .error e) :
    Follows F (handling x handle) := fun env =>
  (hx env).handling (fun _ _ => trivial) (fun e hex => he e hex env) fun e _ => hh e env

theorem within {env : ρ} (hx : Follows F x) : Follows F (x.within env) := fun _ => hx env

theorem foldlM {γ : Type} {f : β → γ → Call ρ σ φ β} {l : List γ} {b : β}
    (hf : ∀ b, ∀ c ∈ l, Follows F (f b c)) : Follows F (l.foldlM f b) := fun env =>
  Framed.foldlM (fun b _ c hc => hf b c hc env) trivial

theorem forM {γ : Type} {f : γ → Call ρ σ φ Unit} {l : List γ} (hf : ∀ c ∈ l, Follows F (f c)) :
    Follows F (l.forM f) := fun env => Framed.forM (fun c hc => hf c hc env) trivial

end Follows

/-! ## Calls that succeed -/

/-- The call has a result, and stays within the frame. -/
def Succeeds (F : Frame ρ σ φ) (x : Call ρ σ φ α) : Prop := Framed F x fun r => ∃ a, r = .ok a

namespace Succeeds

theorem pure : Succeeds F (pure a : Call ρ σ φ α) := Framed.pure ⟨a, rfl⟩

theorem bind (hx : Succeeds F x) (hf : ∀ a, Succeeds F (f a)) : Succeeds F (x >>= f) :=
  Framed.bind hx (fun a _ => hf a) fun _ ⟨_, h⟩ => by cases h

theorem get {f : σ → Call ρ σ φ β} (h : ∀ s, F.inv s → Succeeds F (f s)) :
    Succeeds F (Call.get >>= f) := Framed.get h

theorem modify {g : σ → σ} (h : ∀ s, F.inv s → F.rel s (g s)) :
    Succeeds F (modify g : Call ρ σ φ Unit) := Framed.modify h ⟨(), rfl⟩

theorem foldlM {γ : Type} {f : β → γ → Call ρ σ φ β} {l : List γ} {b : β}
    (hf : ∀ b, ∀ c ∈ l, Succeeds F (f b c)) : Succeeds F (l.foldlM f b) :=
  Framed.foldlM (fun b _ c hc => hf b c hc) ⟨b, rfl⟩

theorem forM {γ : Type} {f : γ → Call ρ σ φ Unit} {l : List γ} (hf : ∀ c ∈ l, Succeeds F (f c)) :
    Succeeds F (l.forM f) := Framed.forM (fun c hc => hf c hc) ⟨(), rfl⟩

end Succeeds

/-! ## What calls return -/

/-- Whatever the call returns satisfies `P`. -/
def Returns (x : Call ρ σ φ α) (P : α → Prop) : Prop := ∀ env s a s', x env s = (.ok a, s') → P a

namespace Returns

variable {P : α → Prop} {Q : β → Prop}

theorem any : Returns x fun _ => True := fun _ _ _ _ _ => trivial

theorem pure (h : P a) : Returns (pure a : Call ρ σ φ α) P := fun _ _ _ _ hrun => by
  rw [← Except.ok.inj (Prod.mk.inj hrun).1]; exact h

theorem fail : Returns (fail e : Call ρ σ φ α) P := fun _ _ _ _ hrun => by cases hrun

theorem ofExcept {r : Except φ α} (h : ∀ a, r = .ok a → P a) :
    Returns (ofExcept r : Call ρ σ φ α) P := fun _ _ a _ hrun => h a (Prod.mk.inj hrun).1

theorem bind (hx : Returns x P) (hf : ∀ a, P a → Returns (f a) Q) : Returns (x >>= f) Q := by
  intro env s b s' hrun
  rw [bind_run] at hrun
  cases hxs : x env s with
  | mk r s₁ =>
    rw [hxs] at hrun
    cases r with
    | error e => cases hrun
    | ok a => exact hf a (hx env s a s₁ hxs) env s₁ b s' hrun

theorem foldlM {γ : Type} {f : β → γ → Call ρ σ φ β} {l : List γ} {b : β}
    (hf : ∀ b, Q b → ∀ c ∈ l, Returns (f b c) Q) (h : Q b) : Returns (l.foldlM f b) Q := by
  induction l generalizing b with
  | nil => exact Returns.pure h
  | cons c l ih =>
    rw [List.foldlM_cons]
    exact (hf b h c (by simp)).bind fun b' hb' =>
      ih (fun b hb c hc => hf b hb c (List.mem_cons_of_mem _ hc)) hb'

end Returns

end Call
