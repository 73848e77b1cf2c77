/-
  A map that several writers change at once, each on a layer of its own.

  What is committed lies below.  A writer reads its own layer where it has written, and what is
  committed elsewhere.  A commit puts the layer of one writer below, and a rollback throws it away.
-/
import Mathlib

/-- A writer writes a value, or `none` to erase what is there. -/
structure Overlays (τ κ α : Type) where
  committed : κ → Option α
  written : τ → κ → Option (Option α)

namespace Overlays

variable {τ κ ι α : Type}

def empty : Overlays τ κ α := ⟨fun _ => none, fun _ _ => none⟩

/-- What the writer reads. -/
def seen (W : Overlays τ κ α) (T : τ) (k : κ) : Option α := (W.written T k).getD (W.committed k)

/-- The writer has written under the key. -/
def Writes (W : Overlays τ κ α) (T : τ) (k : κ) : Prop := (W.written T k).isSome = true

instance (W : Overlays τ κ α) (T : τ) (k : κ) : Decidable (W.Writes T k) :=
  inferInstanceAs (Decidable (_ = _))

variable [DecidableEq τ] [DecidableEq κ]

def write (W : Overlays τ κ α) (T : τ) (k : κ) (x : Option α) : Overlays τ κ α :=
  { W with written := fun V k' => if V = T ∧ k' = k then some x else W.written V k' }

omit [DecidableEq κ] in
/-- The writer writes under several keys at once: what `f` says, where it says anything. -/
def overwrite (W : Overlays τ κ α) (T : τ) (f : κ → Option (Option α)) : Overlays τ κ α :=
  { W with written := fun V k => if V = T then (f k).or (W.written V k) else W.written V k }

omit [DecidableEq κ] in
def commit (W : Overlays τ κ α) (T : τ) : Overlays τ κ α where
  committed := W.seen T
  written V k := if V = T then none else W.written V k

omit [DecidableEq κ] in
def rollback (W : Overlays τ κ α) (T : τ) : Overlays τ κ α :=
  { W with written := fun V k => if V = T then none else W.written V k }

omit [DecidableEq τ] [DecidableEq κ] in
/-- Nothing is left under the keys in `p`. -/
def without (W : Overlays τ κ α) (p : κ → Prop) [DecidablePred p] : Overlays τ κ α where
  committed k := if p k then none else W.committed k
  written T k := if p k then none else W.written T k

omit [DecidableEq κ] in
/-- Several writers commit, one after the other. -/
def commitAll (W : Overlays τ κ α) (l : List τ) : Overlays τ κ α := l.foldl commit W

omit [DecidableEq τ] [DecidableEq κ] in
/-- The keys in the image of `f`. -/
def comap (W : Overlays τ κ α) (f : ι → κ) : Overlays τ ι α where
  committed i := W.committed (f i)
  written T i := W.written T (f i)

variable {W : Overlays τ κ α} {T V : τ} {k k' : κ} {x : Option α}

omit [DecidableEq τ] [DecidableEq κ] in
theorem seen_of_not_writes (h : ¬ W.Writes T k) : W.seen T k = W.committed k := by
  rw [seen, Option.not_isSome_iff_eq_none.1 h, Option.getD_none]

omit [DecidableEq τ] [DecidableEq κ] in
@[simp] theorem not_writes_empty : ¬ (empty : Overlays τ κ α).Writes T k := by simp [Writes, empty]

/-! ## Writes -/

theorem written_write : (W.write T k x).written V k' =
    if V = T ∧ k' = k then some x else W.written V k' := rfl

theorem seen_write : (W.write T k x).seen V k' = if V = T ∧ k' = k then x else W.seen V k' := by
  rw [seen, written_write]
  split_ifs <;> rfl

theorem writes_write : (W.write T k x).Writes V k' ↔ V = T ∧ k' = k ∨ W.Writes V k' := by
  rw [Writes, written_write]
  split_ifs with h
  · simp [h]
  · simp [h, Writes]

omit [DecidableEq κ] in
theorem written_overwrite {f : κ → Option (Option α)} : (W.overwrite T f).written V k =
    if V = T then (f k).or (W.written V k) else W.written V k := rfl

omit [DecidableEq κ] in
theorem seen_overwrite {f : κ → Option (Option α)} : (W.overwrite T f).seen V k =
    if V = T then (f k).getD (W.seen V k) else W.seen V k := by
  rw [seen, written_overwrite]
  split_ifs with hV
  · cases f k <;> rfl
  · rfl

omit [DecidableEq κ] in
theorem writes_overwrite {f : κ → Option (Option α)} : (W.overwrite T f).Writes V k ↔
    V = T ∧ (f k).isSome = true ∨ W.Writes V k := by
  rw [Writes, written_overwrite]
  split_ifs with hV
  · rw [Option.isSome_or, Bool.or_eq_true, and_iff_right hV]
    rfl
  · simp [hV, Writes]

/-- Writes under keys of their own, one after the other, are one write. -/
theorem foldl_write {l : List (κ × Option α)} {f : κ → Option (Option α)} (hl : (l.map Prod.fst).Nodup)
    (hf : ∀ k x, (k, x) ∈ l ↔ f k = some x) :
    l.foldl (fun W y => W.write T y.1 y.2) W = W.overwrite T f := by
  induction l generalizing W f with
  | nil =>
    have hnone : ∀ k, f k = none := fun k => Option.eq_none_iff_forall_not_mem.2 fun x hx =>
      List.not_mem_nil ((hf k x).2 hx)
    refine congrArg (mk _) (funext fun V => funext fun k => ?_)
    rw [hnone, Option.none_or, ite_self]
  | cons y l ih =>
    obtain ⟨k, x⟩ := y
    obtain ⟨hnot, hl⟩ := List.nodup_cons.1 hl
    have hk : f k = some x := (hf k x).1 (List.mem_cons_self ..)
    rw [List.foldl_cons, ih (f := Function.update f k none) hl fun k' x' => ?_]
    · refine congrArg (mk _) (funext fun V => funext fun k' => ?_)
      rw [written_write, Function.update_apply]
      by_cases hk' : k' = k
      · subst hk'
        by_cases hV : V = T <;> simp [hV, hk]
      · simp [hk']
    · rw [Function.update_apply]
      split_ifs with hk'
      · subst hk'
        exact iff_of_false (fun hmem => hnot (List.mem_map.2 ⟨_, hmem, rfl⟩)) nofun
      · rw [← hf, List.mem_cons, or_iff_right fun he => hk' (congrArg Prod.fst he)]

/-! ## Ends -/

omit [DecidableEq κ] in
theorem written_commit : (W.commit T).written V k = if V = T then none else W.written V k := rfl

omit [DecidableEq κ] in
theorem writes_commit : (W.commit T).Writes V k ↔ V ≠ T ∧ W.Writes V k := by
  rw [Writes, written_commit]
  split_ifs with h <;> simp [h, Writes]

omit [DecidableEq κ] in
/-- After a commit everybody reads what was committed, except where they have written. -/
theorem seen_commit : (W.commit T).seen V k =
    if V ≠ T ∧ W.Writes V k then W.seen V k else W.seen T k := by
  rw [seen, written_commit]
  by_cases hV : V = T
  · rw [if_pos hV, if_neg fun h => h.1 hV]
    rfl
  · rw [if_neg hV]
    by_cases hw : W.Writes V k
    · rw [if_pos ⟨hV, hw⟩, seen]
      obtain ⟨x, hx⟩ := Option.isSome_iff_exists.1 hw
      rw [hx, Option.getD_some, Option.getD_some]
    · rw [if_neg fun h => hw h.2, Option.not_isSome_iff_eq_none.1 hw]
      rfl

omit [DecidableEq κ] in
theorem written_rollback : (W.rollback T).written V k = if V = T then none else W.written V k := rfl

omit [DecidableEq κ] in
theorem writes_rollback : (W.rollback T).Writes V k ↔ V ≠ T ∧ W.Writes V k := by
  rw [Writes, written_rollback]
  split_ifs with h <;> simp [h, Writes]

omit [DecidableEq κ] in
/-- A rollback shows to nobody else. -/
theorem seen_rollback (hV : V ≠ T) : (W.rollback T).seen V k = W.seen V k := by
  rw [seen, written_rollback, if_neg hV]
  rfl

omit [DecidableEq τ] [DecidableEq κ] in
theorem writes_without {p : κ → Prop} [DecidablePred p] : (W.without p).Writes T k ↔ ¬ p k ∧ W.Writes T k := by
  rw [Writes, without]
  dsimp only
  split_ifs with h <;> simp [h, Writes]

omit [DecidableEq κ] in
theorem writes_commitAll {l : List τ} : (W.commitAll l).Writes V k ↔ V ∉ l ∧ W.Writes V k := by
  induction l generalizing W with
  | nil => simp [commitAll]
  | cons T l ih =>
    refine (ih (W := W.commit T)).trans ?_
    rw [writes_commit, List.mem_cons, not_or]
    tauto

omit [DecidableEq κ] in
/-- Commits of others leave what is committed. -/
theorem committed_commitAll_of_not {l : List τ} (h : ∀ T ∈ l, ¬ W.Writes T k) :
    (W.commitAll l).committed k = W.committed k := by
  induction l generalizing W with
  | nil => rfl
  | cons T l ih =>
    refine (ih (W := W.commit T) fun V hV hw => h V (List.mem_cons_of_mem T hV) (writes_commit.1 hw).2).trans ?_
    exact seen_of_not_writes (h T (List.mem_cons_self ..))

omit [DecidableEq κ] in
/-- What the one writer of a key has written is committed. -/
theorem committed_commitAll {l : List τ} (hT : T ∈ l) (hone : ∀ V, W.Writes V k → V = T) :
    (W.commitAll l).committed k = W.seen T k := by
  induction l generalizing W with
  | nil => cases hT
  | cons V l ih =>
    by_cases hV : V = T
    · subst hV
      refine (committed_commitAll_of_not (W := W.commit V) fun U _ hw => ?_).trans rfl
      obtain ⟨hne, hw⟩ := writes_commit.1 hw
      exact hne (hone U hw)
    · have hT := (List.mem_cons.1 hT).resolve_left (Ne.symm hV)
      refine (ih (W := W.commit V) hT fun U hw => hone U (writes_commit.1 hw).2).trans ?_
      rw [seen_commit]
      split_ifs with hw
      · rfl
      · -- nobody has written
        have hnone : ∀ U, ¬ W.Writes U k := fun U hU => by
          obtain rfl := hone U hU
          exact hw ⟨Ne.symm hV, hU⟩
        rw [seen_of_not_writes (hnone V), seen_of_not_writes (hnone T)]

/-! ## Nothing written -/

omit [DecidableEq κ] in
@[simp] theorem commit_empty : (empty : Overlays τ κ α).commit T = empty :=
  congrArg (mk _) (funext fun _ => funext fun _ => ite_self none)

omit [DecidableEq κ] in
@[simp] theorem rollback_empty : (empty : Overlays τ κ α).rollback T = empty :=
  congrArg (mk _) (funext fun _ => funext fun _ => ite_self none)

omit [DecidableEq κ] in
@[simp] theorem commitAll_empty {l : List τ} : (empty : Overlays τ κ α).commitAll l = empty := by
  induction l with
  | nil => rfl
  | cons T l ih => exact (congrArg (commitAll · l) commit_empty).trans ih

/-! ## Parts of the map -/

section Comap

variable {f : ι → κ} {i : ι}

omit [DecidableEq τ] [DecidableEq κ] in
@[simp] theorem seen_comap : (W.comap f).seen T i = W.seen T (f i) := rfl

omit [DecidableEq τ] [DecidableEq κ] in
@[simp] theorem writes_comap : (W.comap f).Writes T i ↔ W.Writes T (f i) := Iff.rfl

omit [DecidableEq κ] in
@[simp] theorem comap_commit : (W.commit T).comap f = (W.comap f).commit T := rfl

omit [DecidableEq κ] in
@[simp] theorem comap_commitAll {l : List τ} : (W.commitAll l).comap f = (W.comap f).commitAll l := by
  induction l generalizing W with
  | nil => rfl
  | cons T l ih => exact ih

omit [DecidableEq τ] [DecidableEq κ] in
/-- Erased keys elsewhere do not show. -/
theorem comap_without {p : κ → Prop} [DecidablePred p] (h : ∀ i, ¬ p (f i)) : (W.without p).comap f = W.comap f := by
  unfold comap without
  congr 1
  · exact funext fun i => if_neg (h i)
  · exact funext fun T => funext fun i => if_neg (h i)

omit [DecidableEq τ] [DecidableEq κ] in
theorem comap_without_all {p : κ → Prop} [DecidablePred p] (h : ∀ i, p (f i)) : (W.without p).comap f = empty := by
  unfold comap without empty
  congr 1
  · exact funext fun i => if_pos (h i)
  · exact funext fun T => funext fun i => if_pos (h i)

omit [DecidableEq κ] in
@[simp] theorem comap_rollback : (W.rollback T).comap f = (W.comap f).rollback T := rfl

theorem comap_write [DecidableEq ι] (hf : Function.Injective f) :
    (W.write T (f i) x).comap f = (W.comap f).write T i x := by
  refine congrArg (Overlays.mk _) (funext fun V => funext fun j => ?_)
  simp only [write, hf.eq_iff, comap]

/-- Writes elsewhere do not show. -/
theorem comap_write_of_ne (h : ∀ i, f i ≠ k) : (W.write T k x).comap f = W.comap f := by
  refine congrArg (Overlays.mk _) (funext fun V => funext fun j => ?_)
  exact if_neg fun h' => h j h'.2

end Comap

end Overlays
