/-
  Weights of the values of a map added up, and what the operations of maps do to the sum.
-/
import AntDb.Lib.Collections

namespace BTreeMap

variable {κ υ ω : Type} [Ord κ] [Std.TransOrd κ]

/-- The weights of all values together. -/
def total (w : υ → ℕ) (m : BTreeMap κ υ) : ℕ := (m.toList.map fun x => w x.2).sum

variable {w w' : υ → ℕ} {m m' : BTreeMap κ υ} {k : κ} {v : υ}

theorem total_add : total (fun v => w v + w' v) m = total w m + total w' m := List.sum_map_add

theorem total_mul (c : ℕ) : total (fun v => c * w v) m = c * total w m := List.sum_map_mul_left ..

theorem total_map {f : ω → υ} {m : BTreeMap κ ω} : total w (m.map fun _ v => f v) = total (w ∘ f) m := by
  rw [total, Std.ExtTreeMap.toList_map, List.map_map]; rfl

/-- Dropping values, and rewriting the others to lighter ones. -/
theorem total_filterMap_le {f : ω → Option υ} {m : BTreeMap κ ω} {w' : ω → ℕ}
    (h : ∀ v v', f v = some v' → w v' ≤ w' v) : total w (m.filterMap fun _ v => f v) ≤ total w' m := by
  rw [total, Std.ExtTreeMap.toList_filterMap, total]
  induction m.toList with
  | nil => exact le_rfl
  | cons x l ih =>
    rw [List.filterMap_cons, List.map_cons, List.sum_cons]
    cases hx : f x.2 with
    | none => exact ih.trans (Nat.le_add_left ..)
    | some v' => exact Nat.add_le_add (h x.2 v' hx) ih

variable [Std.LawfulEqOrd κ]

theorem total_congr (h : ∀ (k : κ) v, m[k]? = some v → w v = w' v) : total w m = total w' m :=
  congrArg List.sum (List.map_congr_left fun x hx => h x.1 x.2 (mem_toList.1 hx))

/-- A new entry. -/
theorem toList_insert_perm (h : m[k]? = none) : (m.insert k v).toList.Perm ((k, v) :: m.toList) := by
  classical
  refine (List.perm_ext_iff_of_nodup (nodup_toList _)
    (List.nodup_cons.2 ⟨fun hk => ?_, nodup_toList m⟩)).2 fun x => ?_
  · rw [mem_toList, h] at hk; cases hk
  · obtain ⟨k', v'⟩ := x
    rw [mem_toList, List.mem_cons, mem_toList, get_insert, Prod.mk.injEq]
    split_ifs with hk
    · subst hk
      simp [h, eq_comm]
    · simp [Ne.symm hk]

theorem total_insert (h : m[k]? = none) : total w (m.insert k v) = w v + total w m := by
  rw [total, ((toList_insert_perm h).map _).sum_eq, List.map_cons, List.sum_cons, total]

theorem insert_erase (h : m[k]? = some v) : (m.erase k).insert k v = m := by
  classical
  refine Std.ExtTreeMap.ext_getElem? fun k' => ?_
  rw [get_insert, get_erase]
  split_ifs with hk
  · rw [← hk, h]
  · rfl

theorem get_erase_self : (m.erase k)[k]? = none := by
  classical
  rw [get_erase, if_pos rfl]

/-- An entry apart from the others. -/
theorem total_erase (h : m[k]? = some v) : total w m = w v + total w (m.erase k) := by
  conv_lhs => rw [← insert_erase h]
  exact total_insert get_erase_self

/-- An entry rewritten. -/
theorem total_modify {f : υ → υ} (h : m[k]? = some v) :
    total w (m.modify k f) + w v = total w m + w (f v) := by
  classical
  have hself : (m.modify k f)[k]? = some (f v) := by rw [get_modify, if_pos rfl, h]; rfl
  have herase : (m.modify k f).erase k = m.erase k := by
    refine Std.ExtTreeMap.ext_getElem? fun k' => ?_
    rw [get_erase, get_erase, get_modify]
    split_ifs with hk
    · rfl
    · rfl
  rw [total_erase hself, total_erase h, herase]
  omega

end BTreeMap
