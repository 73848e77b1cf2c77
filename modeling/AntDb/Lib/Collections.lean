/-
  Ordered maps and sets, and the update of the last matching element of a list.

  `BTreeMap` and `BTreeSet` are the extensional tree maps and sets of the
  library: two maps are equal iff they hold the same value under every key,
  and `toList` runs through the keys in increasing order.
-/
import Mathlib

abbrev BTreeMap (κ υ : Type) [Ord κ] := Std.ExtTreeMap κ υ compare

abbrev BTreeSet (κ : Type) [Ord κ] := Std.ExtTreeSet κ compare

namespace BTreeMap

variable {κ υ : Type} [Ord κ] [Std.TransOrd κ]

theorem mem_iff_get {m : BTreeMap κ υ} {k : κ} : k ∈ m ↔ ∃ v, m[k]? = some v := by
  rw [Std.ExtTreeMap.mem_iff_isSome_getElem?, Option.isSome_iff_exists]

theorem mem_of_get {m : BTreeMap κ υ} {k : κ} {v : υ} (h : m[k]? = some v) : k ∈ m :=
  mem_iff_get.2 ⟨v, h⟩

variable [Std.LawfulEqOrd κ]

theorem exists_get_of_ne_empty {m : BTreeMap κ υ} (h : m ≠ ∅) : ∃ (k : κ) (v : υ), m[k]? = some v := by
  by_contra hnone
  push Not at hnone
  exact h (Std.ExtTreeMap.ext_getElem? fun k => by
    rw [Option.eq_none_iff_forall_not_mem.2 fun v hv => hnone k v hv]; simp)

theorem get_insert (m : BTreeMap κ υ) (k a : κ) (v : υ) [Decidable (k = a)] :
    (m.insert k v)[a]? = if k = a then some v else m[a]? := by
  rw [Std.ExtTreeMap.getElem?_insert]
  by_cases h : k = a <;> simp [h]

theorem get_insert_ne (m : BTreeMap κ υ) {k a : κ} (h : k ≠ a) (v : υ) :
    (m.insert k v)[a]? = m[a]? := by
  rw [Std.ExtTreeMap.getElem?_insert]; simp [h]

theorem insert_get {m : BTreeMap κ υ} {k : κ} {v : υ} (h : m[k]? = some v) : m.insert k v = m := by
  classical
  refine Std.ExtTreeMap.ext_getElem? fun a => ?_
  rw [get_insert]
  split_ifs with ha
  · rw [← ha, h]
  · rfl

/-- A key that is there is not added again. -/
theorem keys_insert_of_mem [DecidableEq κ] {m : BTreeMap κ υ} {k : κ} {v : υ} (h : k ∈ m) :
    (m.insert k v).keys = m.keys := by
  have hmap : m.insert k v = m.map fun a w => if k = a then v else w := by
    refine Std.ExtTreeMap.ext_getElem? fun a => ?_
    rw [get_insert, Std.ExtTreeMap.getElem?_map]
    split_ifs with ha
    · subst ha
      obtain ⟨w, hw⟩ := mem_iff_get.1 h
      rw [hw]; rfl
    · cases m[a]? <;> rfl
  rw [hmap, Std.ExtTreeMap.keys_map]

theorem get_erase (m : BTreeMap κ υ) (k a : κ) [Decidable (k = a)] :
    (m.erase k)[a]? = if k = a then none else m[a]? := by
  rw [Std.ExtTreeMap.getElem?_erase]
  by_cases h : k = a <;> simp [h]

theorem get_modify (m : BTreeMap κ υ) (k a : κ) (f : υ → υ) [Decidable (k = a)] :
    (m.modify k f)[a]? = if k = a then m[a]?.map f else m[a]? := by
  rw [Std.ExtTreeMap.getElem?_modify]
  by_cases h : k = a
  · subst h; simp
  · simp [h]

theorem mem_toList {m : BTreeMap κ υ} {k : κ} {v : υ} : (k, v) ∈ m.toList ↔ m[k]? = some v :=
  Std.ExtTreeMap.mem_toList_iff_getElem?_eq_some

theorem mem_values {m : BTreeMap κ υ} {v : υ} : v ∈ m.toList.map Prod.snd ↔ ∃ k : κ, m[k]? = some v := by
  simp only [List.mem_map, Prod.exists, exists_eq_right, mem_toList]

/-- Every entry under a key satisfies `p`. -/
theorem forall_toList {m : BTreeMap κ υ} {p : κ → υ → Prop} :
    (∀ x ∈ m.toList, p x.1 x.2) ↔ ∀ (k : κ) (v : υ), m[k]? = some v → p k v :=
  ⟨fun h k v hk => h (k, v) (mem_toList.2 hk), fun h x hx => h x.1 x.2 (mem_toList.1 hx)⟩

theorem get_foldl_insert {β : Type} (f : κ × β → υ) (l : List (κ × β)) (m : BTreeMap κ υ) (k : κ)
    (hl : (l.map Prod.fst).Nodup) : (∀ b, (k, b) ∈ l →
        (l.foldl (fun m x => m.insert x.1 (f x)) m)[k]? = some (f (k, b))) ∧
      ((∀ b, (k, b) ∉ l) → (l.foldl (fun m x => m.insert x.1 (f x)) m)[k]? = m[k]?) := by
  classical
  induction l generalizing m with
  | nil => simp
  | cons x l ih =>
    obtain ⟨k', b'⟩ := x
    rw [List.map_cons, List.nodup_cons] at hl
    obtain ⟨ih₁, ih₂⟩ := ih (m.insert k' (f (k', b'))) hl.2
    refine ⟨fun b hb => ?_, fun hb => ?_⟩
    · rcases List.mem_cons.1 hb with he | hb
      · obtain ⟨rfl, rfl⟩ := Prod.mk.injEq .. ▸ he
        rw [List.foldl_cons, ih₂ fun b hb => hl.1 (List.mem_map.2 ⟨_, hb, rfl⟩), get_insert, if_pos rfl]
      · exact ih₁ b hb
    · have hne : k' ≠ k := fun he => hb b' (by simp [he])
      rw [List.foldl_cons, ih₂ fun b hb' => hb b (List.mem_cons_of_mem _ hb'), get_insert_ne _ hne]

/-- Writing every value back through `f` is `map f`. -/
theorem foldl_insert_toList (m : BTreeMap κ υ) (f : υ → υ) :
    m.toList.foldl (fun m x => m.insert x.1 (f x.2)) m = m.map fun _ v => f v := by
  have hl : (m.toList.map Prod.fst).Nodup := by
    rw [Std.ExtTreeMap.map_fst_toList_eq_keys]; exact Std.ExtTreeMap.nodup_keys
  refine Std.ExtTreeMap.ext_getElem? fun k => ?_
  obtain ⟨h₁, h₂⟩ := get_foldl_insert (fun x => f x.2) m.toList m k hl
  rw [Std.ExtTreeMap.getElem?_map]
  cases hk : m[k]? with
  | some v => exact h₁ v (mem_toList.2 hk)
  | none =>
    rw [h₂ fun v hv => ?_, hk]
    · rfl
    · rw [mem_toList, hk] at hv; cases hv

/-- Inserting the entries of a map one after another gives the map. -/
theorem foldl_insert_empty (m : BTreeMap κ υ) : m.toList.foldl (fun m x => m.insert x.1 x.2) ∅ = m := by
  have hl : (m.toList.map Prod.fst).Nodup := by
    rw [Std.ExtTreeMap.map_fst_toList_eq_keys]; exact Std.ExtTreeMap.nodup_keys
  refine Std.ExtTreeMap.ext_getElem? fun k => ?_
  obtain ⟨h₁, h₂⟩ := get_foldl_insert Prod.snd m.toList ∅ k hl
  cases hk : m[k]? with
  | some v => exact h₁ v (mem_toList.2 hk)
  | none =>
    rw [h₂ fun v hv => ?_]
    · simp
    · rw [mem_toList, hk] at hv; cases hv

/-- Maps that have entries under the same keys. -/
theorem keys_congr {ω : Type} {m : BTreeMap κ υ} {m' : BTreeMap κ ω}
    (h : ∀ k : κ, m[k]?.isSome = m'[k]?.isSome) : m.keys = m'.keys := by
  have hmap : (m.map fun _ _ => ()) = m'.map fun _ _ => () := by
    refine Std.ExtTreeMap.ext_getElem? fun k => ?_
    have hk := h k
    rw [Std.ExtTreeMap.getElem?_map, Std.ExtTreeMap.getElem?_map]
    cases hm : m[k]? <;> cases hm' : m'[k]? <;> simp [hm, hm'] at hk ⊢
  rw [← @Std.ExtTreeMap.keys_map _ _ _ _ m _ fun _ _ => (), hmap, Std.ExtTreeMap.keys_map]

end BTreeMap

namespace BTreeSet

variable {κ : Type} [Ord κ] [Std.TransOrd κ] [Std.LawfulEqOrd κ] {t : BTreeSet κ} {k a : κ}

theorem mem_insert : a ∈ t.insert k ↔ a = k ∨ a ∈ t := by
  rw [Std.ExtTreeSet.mem_insert, Std.LawfulEqOrd.compare_eq_iff_eq, eq_comm]

theorem mem_erase : a ∈ t.erase k ↔ a ≠ k ∧ a ∈ t := by
  rw [Std.ExtTreeSet.mem_erase, ne_eq, Std.LawfulEqOrd.compare_eq_iff_eq, ne_comm]

end BTreeSet

/-! ## Lists -/

theorem List.foldlM_flatMap {m : Type → Type} [Monad m] [LawfulMonad m] {α β γ : Type} (g : α → List β)
    (f : γ → β → m γ) (l : List α) (c : γ) :
    (l.flatMap g).foldlM f c = l.foldlM (fun c a => (g a).foldlM f c) c := by
  induction l generalizing c with
  | nil => rfl
  | cons a l ih =>
    rw [List.flatMap_cons, List.foldlM_append, List.foldlM_cons]
    exact bind_congr fun c => ih c

theorem BTreeMap.nodup_keys {κ υ : Type} [Ord κ] [Std.TransOrd κ] [Std.LawfulEqOrd κ] (m : BTreeMap κ υ) :
    (m.toList.map Prod.fst).Nodup := by
  rw [Std.ExtTreeMap.map_fst_toList_eq_keys]
  exact Std.ExtTreeMap.nodup_keys

theorem BTreeMap.nodup_toList {κ υ : Type} [Ord κ] [Std.TransOrd κ] (m : BTreeMap κ υ) :
    m.toList.Nodup :=
  Std.ExtTreeMap.distinct_keys_toList.imp fun {a b} h e => h (by rw [e]; exact Std.ReflCmp.compare_self)

theorem BTreeSet.nodup_toList {κ : Type} [Ord κ] [Std.TransOrd κ] (t : BTreeSet κ) :
    t.toList.Nodup :=
  Std.ExtTreeSet.distinct_toList.imp fun {a b} h e => h (by rw [e]; exact Std.ReflCmp.compare_self)

/-! ## The last match in a list -/

namespace LastMatch

variable {α : Type}

/-- Apply `f` to the first element satisfying `p`. -/
def updateFirst (p : α → Bool) (f : α → α) : List α → List α
  | [] => []
  | a :: l => if p a then f a :: l else a :: updateFirst p f l

/-- Apply `f` to the last element satisfying `p`. -/
def updateLast (p : α → Bool) (f : α → α) (l : List α) : List α :=
  (updateFirst p f l.reverse).reverse

/-- The last element satisfying `p`. -/
def findLast (p : α → Bool) (l : List α) : Option α := l.reverse.find? p

/-- `a` is the last element of `l` satisfying `p`, between `pre` and `post`. -/
structure IsLast (p : α → Bool) (l pre : List α) (a : α) (post : List α) : Prop where
  eq : l = pre ++ a :: post
  holds : p a = true
  after : ∀ b ∈ post, p b = false

theorem cases (p : α → Bool) (l : List α) :
    (∀ b ∈ l, p b = false) ∨ ∃ pre a post, IsLast p l pre a post := by
  induction l with
  | nil => exact Or.inl (by simp)
  | cons c l ih =>
    rcases ih with h | ⟨pre, a, post, h⟩
    · cases hc : p c with
      | false => exact Or.inl fun b hb => (List.mem_cons.1 hb).elim (fun e => e ▸ hc) (h b)
      | true => exact Or.inr ⟨[], c, l, rfl, hc, h⟩
    · exact Or.inr ⟨c :: pre, a, post, by rw [h.eq]; rfl, h.holds, h.after⟩

theorem updateFirst_append {p : α → Bool} {f : α → α} {l l' : List α} (h : ∀ b ∈ l, p b = false) :
    updateFirst p f (l ++ l') = l ++ updateFirst p f l' := by
  induction l with
  | nil => rfl
  | cons c l ih =>
    have hc : p c = false := h c (by simp)
    simp only [List.cons_append, updateFirst, hc, Bool.false_eq_true, if_false]
    rw [ih fun b hb => h b (by simp [hb])]

theorem updateFirst_none {p : α → Bool} {f : α → α} {l : List α} (h : ∀ b ∈ l, p b = false) :
    updateFirst p f l = l := by
  have := @updateFirst_append α p f l [] h
  rwa [List.append_nil, updateFirst, List.append_nil] at this

theorem updateLast_none {p : α → Bool} {f : α → α} {l : List α} (h : ∀ b ∈ l, p b = false) :
    updateLast p f l = l := by
  rw [updateLast, updateFirst_none fun b hb => h b (by simpa using hb), List.reverse_reverse]

theorem updateLast_eq_nil {p : α → Bool} {f : α → α} {l : List α} : updateLast p f l = [] ↔ l = [] := by
  have hfirst : ∀ l : List α, updateFirst p f l = [] ↔ l = [] := fun l => by
    cases l with
    | nil => rfl
    | cons a l => simp only [updateFirst]; split_ifs <;> simp
  rw [updateLast, List.reverse_eq_nil_iff, hfirst, List.reverse_eq_nil_iff]

theorem findLast_none {p : α → Bool} {l : List α} : findLast p l = none ↔ ∀ b ∈ l, p b = false := by
  simp [findLast, List.find?_eq_none]

namespace IsLast

variable {p : α → Bool} {l pre post : List α} {a : α}

theorem updateLast (h : IsLast p l pre a post) (f : α → α) :
    updateLast p f l = pre ++ f a :: post := by
  have hr : l.reverse = post.reverse ++ a :: pre.reverse := by simp [h.eq]
  rw [LastMatch.updateLast, hr, updateFirst_append fun b hb => h.after b (by simpa using hb)]
  simp [updateFirst, h.holds]

theorem findLast (h : IsLast p l pre a post) : findLast p l = some a := by
  have hr : l.reverse = post.reverse ++ a :: pre.reverse := by simp [h.eq]
  rw [LastMatch.findLast, hr, List.find?_append, List.find?_eq_none.2 fun b hb => by
    simpa using h.after b (by simpa using hb)]
  simp [h.holds]

theorem mem (h : IsLast p l pre a post) : a ∈ l := by rw [h.eq]; simp

end IsLast

theorem mem_updateLast {p : α → Bool} {f : α → α} {l : List α} {b : α} (h : b ∈ updateLast p f l) :
    b ∈ l ∨ ∃ a ∈ l, p a = true ∧ b = f a := by
  rcases cases p l with hn | ⟨pre, a, post, ha⟩
  · rw [updateLast_none hn] at h; exact Or.inl h
  · rw [ha.updateLast] at h
    rw [ha.eq]
    rcases List.mem_append.1 h with h | h
    · exact Or.inl (List.mem_append_left _ h)
    · rcases List.mem_cons.1 h with rfl | h
      · exact Or.inr ⟨a, by simp, ha.holds, rfl⟩
      · exact Or.inl (List.mem_append_right _ (List.mem_cons_of_mem _ h))

theorem findLast_some {p : α → Bool} {l : List α} {a : α} :
    findLast p l = some a ↔ ∃ pre post, IsLast p l pre a post := by
  constructor
  · intro h
    rcases cases p l with hn | ⟨pre, b, post, hb⟩
    · rw [findLast_none.2 hn] at h; cases h
    · rw [hb.findLast] at h; cases h; exact ⟨pre, post, hb⟩
  · rintro ⟨pre, post, h⟩; exact h.findLast

/-- The one match is the last. -/
theorem findLast_once {p : α → Bool} {l : List α} {a : α} (h : (l.filter p).length ≤ 1) (ha : a ∈ l)
    (hp : p a = true) : findLast p l = some a := by
  rcases cases p l with hnone | ⟨pre, b, post, hlast⟩
  · rw [hnone a ha] at hp
    cases hp
  · rw [hlast.findLast]
    have hfilter : l.filter p = pre.filter p ++ [b] := by
      have hpost : post.filter p = [] := List.filter_eq_nil_iff.2 fun c hc => by rw [hlast.after c hc]; simp
      rw [hlast.eq, List.filter_append, List.filter_cons, if_pos hlast.holds, hpost]
    rw [hfilter, List.length_append, List.length_singleton] at h
    have hpre : pre.filter p = [] := List.length_eq_zero_iff.1 (by omega)
    have hmem : a ∈ l.filter p := List.mem_filter.2 ⟨ha, hp⟩
    rw [hfilter, hpre, List.nil_append, List.mem_singleton] at hmem
    rw [hmem]

/-- Replacing an element by one on which `p` agrees does not move the last match. -/
theorem findLast_map {p q : α → Bool} {g : α → α} {l : List α} (h : ∀ a ∈ l, q (g a) = p a) :
    findLast q (l.map g) = (findLast p l).map g := by
  rw [findLast, findLast, ← List.map_reverse, List.find?_map]
  congr 1
  refine List.find?_congr fun a ha => ?_
  simpa using h a (by simpa using ha)

/-- Lists with the same verdicts and the same faces have the same face of the last match. -/
theorem findLast_forall₂ {β : Type} {p q : α → Bool} {f : α → β} {l l' : List α}
    (h : List.Forall₂ (fun a a' => q a' = p a ∧ f a' = f a) l l') :
    (findLast q l').map f = (findLast p l).map f := by
  have hreverse := List.forall₂_reverse_iff.2 h
  rw [findLast, findLast]
  generalize l.reverse = l at hreverse
  generalize l'.reverse = l' at hreverse
  induction hreverse with
  | nil => rfl
  | @cons a a' l l' ha _ ih =>
    rw [List.find?_cons, List.find?_cons, ha.1]
    cases p a with
    | true => exact congrArg some ha.2
    | false => exact ih

/-- Dropping elements that do not match does not move the last match. -/
theorem findLast_filter {p q : α → Bool} {l : List α} (h : ∀ a ∈ l, p a = true → q a = true) :
    findLast p (l.filter q) = findLast p l := by
  rw [findLast, findLast, ← List.filter_reverse, List.find?_filter]
  refine List.find?_congr fun a ha => ?_
  have := h a (by simpa using ha)
  cases hp : p a <;> simp_all

/-- A predicate that holds of fewer elements, but of the last match, has the same last match. -/
theorem findLast_below {p q : α → Bool} {l : List α} (hsub : ∀ a ∈ l, q a = true → p a = true)
    (hlast : ∀ a, findLast p l = some a → q a = true) : findLast q l = findLast p l := by
  have hnot : ∀ a ∈ l, p a = false → q a = false := fun a ha hp => by
    by_contra hq
    rw [hsub a ha (by simpa using hq)] at hp
    cases hp
  rcases cases p l with hn | ⟨pre, a, post, h⟩
  · rw [findLast_none.2 hn, findLast_none.2 fun b hb => hnot b hb (hn b hb)]
  · have hafter : ∀ b ∈ post, q b = false := fun b hb =>
      hnot b (by rw [h.eq]; simp [hb]) (h.after b hb)
    have hq : IsLast q l pre a post := ⟨h.eq, hlast a h.findLast, hafter⟩
    rw [h.findLast, hq.findLast]

theorem findLast_append (p : α → Bool) (l l' : List α) :
    findLast p (l ++ l') = (findLast p l').or (findLast p l) := by
  simp [findLast, List.find?_append]

theorem findLast_split (p : α → Bool) (pre post : List α) (a : α) :
    findLast p (pre ++ a :: post) =
      (findLast p post).or (if p a then some a else findLast p pre) := by
  have hone : findLast p [a] = if p a then some a else none := by
    cases h : p a <;> simp [findLast, h]
  rw [findLast_append, ← List.singleton_append, findLast_append, hone, Option.or_assoc]
  cases p a <;> simp

theorem findLast_isSome {p : α → Bool} {l : List α} :
    (findLast p l).isSome = true ↔ ∃ a ∈ l, p a = true := by
  simp [findLast]

/-- `e` drops or rewrites the elements of `l` so that `q` holds of what is left exactly where
    `p` held. -/
structure Erases {β : Type} (e : α → Option β) (p : α → Bool) (q : β → Bool) (l : List α) :
    Prop where
  keeps : ∀ a ∈ l, p a = true → ∃ b, e a = some b ∧ q b = true
  skips : ∀ a ∈ l, p a = false → ∀ b, e a = some b → q b = false

namespace Erases

variable {β : Type} {e : α → Option β} {p : α → Bool} {q : β → Bool} {l : List α}

/-- Erasing does not move the last match. -/
theorem findLast (h : Erases e p q l) :
    findLast q (l.filterMap e) = (findLast p l).bind e := by
  rcases cases p l with hn | ⟨pre, a, post, ha⟩
  · rw [findLast_none.2 hn, Option.bind_none, findLast_none]
    intro b hb
    obtain ⟨a, ha, hab⟩ := List.mem_filterMap.1 hb
    exact h.skips a ha (hn a ha) b hab
  · obtain ⟨b, hb, hq⟩ := h.keeps a ha.mem ha.holds
    rw [ha.findLast, Option.bind_some, hb]
    refine findLast_some.2 ⟨pre.filterMap e, post.filterMap e, ?_, hq, fun b' hb' => ?_⟩
    · rw [ha.eq]; simp [hb]
    · obtain ⟨a', ha', hab⟩ := List.mem_filterMap.1 hb'
      exact h.skips a' (by rw [ha.eq]; simp [ha']) (ha.after a' ha') b' hab

/-- Erasing commutes with updating the last match, by `f` before and by `g` after. -/
theorem updateLast (h : Erases e p q l) {f : α → α} {g : β → β}
    (hfg : ∀ a ∈ l, p a = true → ∀ b, e a = some b → e (f a) = some (g b)) :
    (updateLast p f l).filterMap e = updateLast q g (l.filterMap e) := by
  rcases cases p l with hn | ⟨pre, a, post, ha⟩
  · rw [updateLast_none hn, updateLast_none fun b hb => ?_]
    obtain ⟨a, ha, hab⟩ := List.mem_filterMap.1 hb
    exact h.skips a ha (hn a ha) b hab
  · obtain ⟨b, hb, hq⟩ := h.keeps a ha.mem ha.holds
    have hl : IsLast q (l.filterMap e) (pre.filterMap e) b (post.filterMap e) := by
      refine ⟨by rw [ha.eq]; simp [hb], hq, fun b' hb' => ?_⟩
      obtain ⟨a', ha', hab⟩ := List.mem_filterMap.1 hb'
      exact h.skips a' (by rw [ha.eq]; simp [ha']) (ha.after a' ha') b' hab
    rw [ha.updateLast, hl.updateLast]
    simp [hfg a ha.mem ha.holds b hb]

/-- An update of the last match that erasing does not show. -/
theorem updateLast_eq {f : α → α} (h : ∀ a ∈ l, p a = true → e (f a) = e a) :
    (LastMatch.updateLast p f l).filterMap e = l.filterMap e := by
  rcases cases p l with hn | ⟨pre, a, post, ha⟩
  · rw [updateLast_none hn]
  · rw [ha.updateLast, ha.eq]
    simp only [List.filterMap_append, List.filterMap_cons, h a ha.mem ha.holds]

end Erases

end LastMatch

/-! ## The least element by a key -/

section MinByKey

variable {α : Type} {f : α → ℕ} {l : List α} {a : α}

/-- The first of the elements with the least key. -/
def minByKey (f : α → ℕ) : List α → Option α
  | [] => none
  | a :: l =>
    match minByKey f l with
    | none => some a
    | some b => if f a ≤ f b then some a else some b

theorem minByKey_eq_none : minByKey f l = none ↔ l = [] := by
  cases l with
  | nil => simp [minByKey]
  | cons a l =>
    simp only [minByKey, reduceCtorEq, iff_false]
    cases minByKey f l with
    | none => simp
    | some b => dsimp only; split_ifs <;> simp

theorem minByKey_mem (h : minByKey f l = some a) : a ∈ l := by
  induction l generalizing a with
  | nil => cases h
  | cons b l ih =>
    simp only [minByKey] at h
    cases hm : minByKey f l with
    | none => rw [hm] at h; obtain rfl := Option.some.inj h; simp
    | some c =>
      rw [hm] at h
      dsimp only at h
      split_ifs at h
      · obtain rfl := Option.some.inj h; simp
      · obtain rfl := Option.some.inj h; exact List.mem_cons_of_mem _ (ih hm)

theorem minByKey_le (h : minByKey f l = some a) : ∀ b ∈ l, f a ≤ f b := by
  induction l generalizing a with
  | nil => cases h
  | cons b l ih =>
    simp only [minByKey] at h
    cases hm : minByKey f l with
    | none =>
      rw [hm] at h
      obtain rfl := Option.some.inj h
      rw [minByKey_eq_none] at hm
      simp [hm]
    | some c =>
      rw [hm] at h
      dsimp only at h
      split_ifs at h with hbc
      · obtain rfl := Option.some.inj h
        exact List.forall_mem_cons.2 ⟨le_rfl, fun d hd => le_trans hbc (ih hm d hd)⟩
      · obtain rfl := Option.some.inj h
        exact List.forall_mem_cons.2 ⟨le_of_lt (not_le.1 hbc), ih hm⟩

end MinByKey
