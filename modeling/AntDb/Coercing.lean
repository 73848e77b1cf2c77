/-
  Integers that are stored in a column of an integer type.

  `coerce_to_type` knows a few pairs of types.  An integer gets into a column exactly if its type and
  the column's are such a pair and the column's type holds it, and then it stays the same; the rest is
  an error.
-/
import AntDb.Literals

namespace AntDb

namespace DataBaseDataType

/-- The numbers of an integer type. -/
def Holds : DataBaseDataType → ℤ → Prop
  | integerU8, z => 0 ≤ z ∧ z < 2 ^ 8
  | integerU16, z => 0 ≤ z ∧ z < 2 ^ 16
  | integerU32, z => 0 ≤ z ∧ z < 2 ^ 32
  | integerU64, z => 0 ≤ z ∧ z < 2 ^ 64
  | integerU128, z => 0 ≤ z ∧ z < 2 ^ 128
  | integerI8, z => -2 ^ 7 ≤ z ∧ z < 2 ^ 7
  | integerI16, z => -2 ^ 15 ≤ z ∧ z < 2 ^ 15
  | integerI32, z => -2 ^ 31 ≤ z ∧ z < 2 ^ 31
  | integerI64, z => -2 ^ 63 ≤ z ∧ z < 2 ^ 63
  | integerI128, z => -2 ^ 127 ≤ z ∧ z < 2 ^ 127
  | _, _ => False

instance : (T : DataBaseDataType) → (z : ℤ) → Decidable (T.Holds z)
  | integerU8, _ | integerU16, _ | integerU32, _ | integerU64, _ | integerU128, _
  | integerI8, _ | integerI16, _ | integerI32, _ | integerI64, _ | integerI128, _ =>
    inferInstanceAs (Decidable (_ ∧ _))
  | null, _ | floatF32, _ | floatF64, _ | string, _ | boolean, _ | bytes, _ | timestamp, _ =>
    inferInstanceAs (Decidable False)

/-- An integer type holds 0. -/
abbrev IsInteger (T : DataBaseDataType) : Prop := T.Holds 0

/-- The integer types that values of another type are converted to. -/
inductive Reaches : DataBaseDataType → DataBaseDataType → Prop where
  | same (T : DataBaseDataType) : Reaches T T
  | i64_i32 : Reaches integerI64 integerI32
  | u64_i32 : Reaches integerU64 integerI32
  | i32_i64 : Reaches integerI32 integerI64
  | u64_i64 : Reaches integerU64 integerI64

end DataBaseDataType

section Coerce

variable {v e : DataBaseDataEntry} {T : DataBaseDataType} {z : ℤ}

theorem tryI32_ok (h : tryI32 z = .ok e) : e.dataType = .integerI32 ∧ e.toInteger = some z := by
  unfold tryI32 at h
  split_ifs at h with hz
  obtain rfl := Except.ok.inj h
  exact ⟨rfl, congrArg some (Int32.toInt_ofInt_of_le (by omega) (by omega))⟩

theorem tryI64_ok (h : tryI64 z = .ok e) : e.dataType = .integerI64 ∧ e.toInteger = some z := by
  unfold tryI64 at h
  split_ifs at h with hz
  obtain rfl := Except.ok.inj h
  exact ⟨rfl, congrArg some (Int64.toInt_ofInt_of_le (by omega) (by omega))⟩

theorem ne_null_of_toInteger (hv : v.toInteger = some z) : v ≠ .null := by
  rintro rfl
  cases hv

theorem holds_of_toInteger (hv : v.toInteger = some z) : v.dataType.Holds z := by
  cases v with
  | integerU8 w => cases hv; have := w.toNat_lt; exact ⟨by omega, by omega⟩
  | integerU16 w => cases hv; have := w.toNat_lt; exact ⟨by omega, by omega⟩
  | integerU32 w => cases hv; have := w.toNat_lt; exact ⟨by omega, by omega⟩
  | integerU64 w => cases hv; have := w.toNat_lt; exact ⟨by omega, by omega⟩
  | integerU128 w => cases hv; have := w.isLt; exact ⟨by omega, by omega⟩
  | integerI8 w => cases hv; exact ⟨w.le_toInt, w.toInt_lt⟩
  | integerI16 w => cases hv; exact ⟨w.le_toInt, w.toInt_lt⟩
  | integerI32 w => cases hv; exact ⟨w.le_toInt, w.toInt_lt⟩
  | integerI64 w => cases hv; exact ⟨w.le_toInt, w.toInt_lt⟩
  | integerI128 w => cases hv; exact ⟨BitVec.le_toInt w, BitVec.toInt_lt⟩
  | _ => cases hv

/-- What an integer becomes in a column. -/
theorem coerceToType_ok (hv : v.toInteger = some z) (h : coerceToType v T = .ok e) :
    v.dataType.Reaches T ∧ e.dataType = T ∧ e.toInteger = some z := by
  unfold coerceToType at h
  split_ifs at h with hsame
  · obtain rfl := Except.ok.inj h
    have htype : v.dataType = T := hsame.resolve_right fun hnull =>
      ne_null_of_toInteger hv (of_decide_eq_true hnull)
    subst htype
    exact ⟨.same _, rfl, hv⟩
  · split at h
    · cases hv; exact ⟨.i64_i32, tryI32_ok h⟩
    · exact absurd (Or.inl rfl) hsame
    · cases hv
      obtain rfl := Except.ok.inj h
      exact ⟨.i32_i64, rfl, congrArg some (Int32.toInt_toInt64 _)⟩
    · cases hv; exact ⟨.u64_i32, tryI32_ok h⟩
    · cases hv; exact ⟨.u64_i64, tryI64_ok h⟩
    · exact absurd (Or.inl rfl) hsame
    · cases h

theorem exists_coerceToType (hv : v.toInteger = some z) (hreaches : v.dataType.Reaches T) (hz : T.Holds z) :
    ∃ e, coerceToType v T = .ok e := by
  have hstored {S : DataBaseDataType} (hne : S ≠ T) (hS : v.dataType = S) :
      ¬ (v.dataType = T ∨ v.isNull) := by
    rintro (h | h)
    · exact hne (hS.symm.trans h)
    · exact ne_null_of_toInteger hv (of_decide_eq_true h)
  generalize hS : v.dataType = S at hreaches
  unfold coerceToType
  cases hreaches with
  | same => exact ⟨v, if_pos (.inl hS)⟩
  | i64_i32 =>
    rw [if_neg (hstored (by decide) hS)]
    cases v <;> cases hS
    cases hv
    exact ⟨_, if_pos hz⟩
  | u64_i32 =>
    rw [if_neg (hstored (by decide) hS)]
    cases v <;> cases hS
    cases hv
    exact ⟨_, if_pos hz⟩
  | i32_i64 =>
    rw [if_neg (hstored (by decide) hS)]
    cases v <;> cases hS
    exact ⟨_, rfl⟩
  | u64_i64 =>
    rw [if_neg (hstored (by decide) hS)]
    cases v <;> cases hS
    cases hv
    exact ⟨_, if_pos hz⟩

theorem coerceToType_iff (hv : v.toInteger = some z) :
    (∃ e, coerceToType v T = .ok e) ↔ v.dataType.Reaches T ∧ T.Holds z := by
  constructor
  · rintro ⟨e, h⟩
    obtain ⟨hreaches, rfl, he⟩ := coerceToType_ok hv h
    exact ⟨hreaches, holds_of_toInteger he⟩
  · rintro ⟨hreaches, hz⟩
    exact exists_coerceToType hv hreaches hz

end Coerce

namespace Dml

/-! ## Adding to a column -/

section Sum

variable {assignment : UpdateAssignment} {rowValues : RowData} {columnId : ColumnID}
  {T : DataBaseDataType} {column : String} {stored delta e : DataBaseDataEntry} {x d z : ℤ}

/-- The numbers that arithmetic works on. -/
def Arithmetic (z : ℤ) : Prop := -2 ^ 63 ≤ z ∧ z < 2 ^ 63

instance : Decidable (Arithmetic z) := inferInstanceAs (Decidable (_ ∧ _))

theorem arithmeticValue_iff : arithmeticValue x = .ok z ↔ z = x ∧ Arithmetic x := by
  unfold arithmeticValue Arithmetic
  split_ifs with h
  · rw [and_iff_left h, Except.ok.injEq, eq_comm]
  · exact iff_of_false (by rintro ⟨⟩) fun h' => h h'.2

theorem entryAsI64_integer (hv : e.toInteger = some x) : entryAsI64 e = .ok z ↔ z = x ∧ Arithmetic x := by
  have hsmall (h : Arithmetic x) : (Except.ok x : Except DataBaseErrors ℤ) = .ok z ↔
      z = x ∧ Arithmetic x := by rw [and_iff_left h, Except.ok.injEq, eq_comm]
  have hholds := holds_of_toInteger hv
  cases e with
  | integerU64 w => cases hv; exact arithmeticValue_iff
  | integerU128 w => cases hv; exact arithmeticValue_iff
  | integerI128 w => cases hv; exact arithmeticValue_iff
  | integerU8 w | integerU16 w | integerU32 w | integerI8 w | integerI16 w | integerI32 w | integerI64 w =>
    cases hv
    exact hsmall (by
      simp only [DataBaseDataEntry.dataType, DataBaseDataType.Holds] at hholds
      exact ⟨by omega, by omega⟩)
  | _ => cases hv

/-- An assignment `c = c + d` keeps the sum: it fails, or the number `x + d` of the column's type is
    stored for the number `x`, and NULL for NULL. -/
def SumKept (T : DataBaseDataType) (rowValues : RowData) (columnId : ColumnID) (column : String)
    (delta : DataBaseDataEntry) (d : ℤ) : Prop :=
  ∀ e, applyUpdateAssignment (.addColumn column delta) rowValues columnId T = .ok e →
    (rowValues[columnId]?.getD .null = .null → e = .null) ∧
      ∀ x, (rowValues[columnId]?.getD .null).toInteger = some x →
        e.dataType = T ∧ e.toInteger = some (x + d)

theorem arithmetic_saturatingAdd : Arithmetic (saturatingAdd x d) := by
  unfold Arithmetic saturatingAdd
  omega

theorem saturatingAdd_eq_iff : saturatingAdd x d = x + d ↔ Arithmetic (x + d) := by
  unfold Arithmetic saturatingAdd
  omega

/-- What a stored value counts as in a sum. -/
theorem entryAsI64_stored (hstored : stored = .null ∧ x = 0 ∨ stored.toInteger = some x) :
    entryAsI64 stored = .ok z ↔ z = x ∧ Arithmetic x := by
  rcases hstored with ⟨rfl, rfl⟩ | hx
  · rw [and_iff_left (by decide), entryAsI64, Except.ok.injEq, eq_comm]
  · exact entryAsI64_integer hx

theorem addNumericEntries_iff (hstored : stored = .null ∧ x = 0 ∨ stored.toInteger = some x)
    (hd : delta.toInteger = some d) : addNumericEntries stored delta = .ok e ↔
      Arithmetic x ∧ Arithmetic d ∧ e = .integerI64 (Int64.ofInt (saturatingAdd x d)) := by
  have hleft (z : ℤ) := entryAsI64_stored (z := z) hstored
  have hright (z : ℤ) := entryAsI64_integer (z := z) hd
  unfold addNumericEntries
  cases h : entryAsI64 stored with
  | error err => exact iff_of_false (by rintro ⟨⟩) fun h' => by rw [(hleft x).2 ⟨rfl, h'.1⟩] at h; cases h
  | ok a =>
    obtain ⟨rfl, hx⟩ := (hleft a).1 h
    cases h' : entryAsI64 delta with
    | error err =>
      exact iff_of_false (by rintro ⟨⟩) fun hok => by rw [(hright d).2 ⟨rfl, hok.2.1⟩] at h'; cases h'
    | ok b =>
      obtain ⟨rfl, hd⟩ := (hright b).1 h'
      rw [and_iff_right hx, and_iff_right hd]
      exact (Except.ok.injEq _ _).to_iff.trans eq_comm

/-- What an assignment `c = c + d` stores. -/
theorem applyUpdateAssignment_ok
    (hstored : rowValues[columnId]?.getD .null = .null ∧ x = 0 ∨
      (rowValues[columnId]?.getD .null).toInteger = some x) (hd : delta.toInteger = some d)
    (h : applyUpdateAssignment (.addColumn column delta) rowValues columnId T = .ok e) :
    Arithmetic d ∧ (T = .integerI32 ∨ T = .integerI64) ∧ e.dataType = T ∧
      e.toInteger = some (saturatingAdd x d) := by
  obtain ⟨v, hadd, hcoerce⟩ := exists_of_bind_ok h
  obtain ⟨-, harith, rfl⟩ := (addNumericEntries_iff hstored hd).1 hadd
  have hs := arithmetic_saturatingAdd (x := x) (d := d)
  unfold Arithmetic at hs
  have hvalue : (DataBaseDataEntry.integerI64 (Int64.ofInt (saturatingAdd x d))).toInteger =
      some (saturatingAdd x d) := congrArg some (Int64.toInt_ofInt_of_le (by omega) (by omega))
  obtain ⟨hreaches, htype, hnumber⟩ := coerceToType_ok hvalue hcoerce
  refine ⟨harith, ?_, htype, hnumber⟩
  cases hreaches with
  | same => exact .inr rfl
  | i64_i32 => exact .inl rfl

theorem exists_applyUpdateAssignment (column : String)
    (hstored : rowValues[columnId]?.getD .null = .null ∧ x = 0 ∨
      (rowValues[columnId]?.getD .null).toInteger = some x) (hd : delta.toInteger = some d)
    (hx : Arithmetic x) (harith : Arithmetic d) (hT : T = .integerI32 ∨ T = .integerI64)
    (hsum : T.Holds (saturatingAdd x d)) :
    ∃ e, applyUpdateAssignment (.addColumn column delta) rowValues columnId T = .ok e := by
  have hs := arithmetic_saturatingAdd (x := x) (d := d)
  unfold Arithmetic at hs
  have hvalue : (DataBaseDataEntry.integerI64 (Int64.ofInt (saturatingAdd x d))).toInteger =
      some (saturatingAdd x d) := congrArg some (Int64.toInt_ofInt_of_le (by omega) (by omega))
  have hadd := (addNumericEntries_iff hstored hd).2 ⟨hx, harith, rfl⟩
  obtain ⟨e, he⟩ := (coerceToType_iff hvalue (T := T)).2 ⟨by
    rcases hT with rfl | rfl
    · exact .i64_i32
    · exact .same _, hsum⟩
  refine ⟨e, ?_⟩
  rw [applyUpdateAssignment]
  change (addNumericEntries _ delta >>= fun value => coerceToType value T) = _
  rw [hadd]
  exact he

theorem exists_toInteger (hT : T.IsInteger) (htype : e.dataType = T) : ∃ x, e.toInteger = some x := by
  cases e with
  | null | floatF32 | floatF64 | string | boolean | bytes | timestamp => cases htype; exact hT.elim
  | _ => exact ⟨_, rfl⟩

/-- In columns of other types every sum is refused. -/
theorem sumKept_of_unsupported (hstored : rowValues[columnId]?.getD .null = .null ∧ x = 0 ∨
      (rowValues[columnId]?.getD .null).toInteger = some x) (hd : delta.toInteger = some d)
    (h : (T ≠ .integerI32 ∧ T ≠ .integerI64) ∨ ¬ Arithmetic d) :
    SumKept T rowValues columnId column delta d := by
  intro e he
  obtain ⟨harith, hT, -⟩ := applyUpdateAssignment_ok hstored hd he
  rcases h with ⟨hi32, hi64⟩ | hd
  · exact absurd hT (not_or.2 ⟨hi32, hi64⟩)
  · exact absurd harith hd

/-- For NULL the delta is stored, if the column's type holds it. -/
theorem sumKept_null (hnull : rowValues[columnId]?.getD .null = .null) (hd : delta.toInteger = some d)
    (hT : T = .integerI32 ∨ T = .integerI64) (harith : Arithmetic d) :
    SumKept T rowValues columnId column delta d ↔ ¬ T.Holds d := by
  have hsum : saturatingAdd 0 d = d := (saturatingAdd_eq_iff.2 (by rwa [zero_add])).trans (zero_add d)
  constructor
  · intro h hholds
    obtain ⟨e, he⟩ := exists_applyUpdateAssignment column (.inl ⟨hnull, rfl⟩) hd (by decide)
      harith hT (by rwa [hsum])
    obtain ⟨-, -, -, hvalue⟩ := applyUpdateAssignment_ok (.inl ⟨hnull, rfl⟩) hd he
    exact ne_null_of_toInteger hvalue ((h e he).1 hnull)
  · intro h e he
    obtain ⟨-, -, rfl, hvalue⟩ := applyUpdateAssignment_ok (.inl ⟨hnull, rfl⟩) hd he
    exact absurd (hsum ▸ holds_of_toInteger hvalue) h

/-- A number is added without an error of its own only in 64 bits. -/
theorem sumKept_integer (hx : (rowValues[columnId]?.getD .null).toInteger = some x)
    (hholds : T.Holds x) (hd : delta.toInteger = some d) (hT : T = .integerI32 ∨ T = .integerI64)
    (harith : Arithmetic d) :
    SumKept T rowValues columnId column delta d ↔ T = .integerI32 ∨ Arithmetic (x + d) := by
  have hxarith : Arithmetic x := by
    rcases hT with rfl | rfl <;> simp only [DataBaseDataType.Holds, Arithmetic] at hholds ⊢ <;> omega
  constructor
  · intro h
    refine hT.imp_right ?_
    rintro rfl
    obtain ⟨e, he⟩ := exists_applyUpdateAssignment column (.inr hx) hd hxarith harith (.inr rfl)
      arithmetic_saturatingAdd
    obtain ⟨-, -, -, hvalue⟩ := applyUpdateAssignment_ok (.inr hx) hd he
    rw [((h e he).2 x hx).2] at hvalue
    exact saturatingAdd_eq_iff.1 (Option.some.inj hvalue).symm
  · intro h e he
    obtain ⟨-, -, htype, hvalue⟩ := applyUpdateAssignment_ok (.inr hx) hd he
    refine ⟨fun hnull => absurd hnull (ne_null_of_toInteger hx), fun y hy => ⟨htype, ?_⟩⟩
    obtain rfl := Option.some.inj (hx.symm.trans hy)
    rw [hvalue, saturatingAdd_eq_iff.2]
    rcases h with rfl | h
    · -- a clamped sum is no number of the column
      have hsum := holds_of_toInteger hvalue
      rw [htype] at hsum
      simp only [DataBaseDataType.Holds, saturatingAdd, Arithmetic] at hsum ⊢
      omega
    · exact h

/-- A sum is kept unless it is clamped to 64 bits or NULL counts as 0 in it. -/
theorem sumKept_iff (column : String) (hT : T.IsInteger)
    (hstored : rowValues[columnId]?.getD .null = .null ∨ (rowValues[columnId]?.getD .null).dataType = T)
    (hd : delta.toInteger = some d) :
    SumKept T rowValues columnId column delta d ↔
      (T ≠ .integerI32 ∧ T ≠ .integerI64) ∨ ¬ Arithmetic d ∨
      (rowValues[columnId]?.getD .null = .null ∧ ¬ T.Holds d) ∨
      ∃ x, (rowValues[columnId]?.getD .null).toInteger = some x ∧ (T = .integerI32 ∨ Arithmetic (x + d)) := by
  have hvalue : ∃ x, rowValues[columnId]?.getD .null = .null ∧ x = 0 ∨
      (rowValues[columnId]?.getD .null).toInteger = some x := by
    rcases hstored with hnull | htype
    · exact ⟨0, .inl ⟨hnull, rfl⟩⟩
    · obtain ⟨x, hx⟩ := exists_toInteger hT htype
      exact ⟨x, .inr hx⟩
  obtain ⟨x, hx⟩ := hvalue
  by_cases hsupported : T = .integerI32 ∨ T = .integerI64
  swap
  · have h := not_or.1 hsupported
    exact iff_of_true (sumKept_of_unsupported hx hd (.inl h)) (.inl h)
  by_cases harith : Arithmetic d
  swap
  · exact iff_of_true (sumKept_of_unsupported hx hd (.inr harith)) (.inr (.inl harith))
  rw [or_iff_right fun h => hsupported.elim h.1 h.2, or_iff_right (not_not.2 harith)]
  rcases hx with ⟨hnull, rfl⟩ | hx
  · rw [sumKept_null hnull hd hsupported harith, and_iff_right hnull, or_iff_left]
    rintro ⟨x, hx, -⟩
    exact ne_null_of_toInteger hx hnull
  · have hholds : T.Holds x := by
      rcases hstored with hnull | htype
      · exact absurd hnull (ne_null_of_toInteger hx)
      · exact htype ▸ holds_of_toInteger hx
    rw [sumKept_integer hx hholds hd hsupported harith]
    constructor
    · exact fun h => .inr ⟨x, hx, h⟩
    · rintro (⟨hnull, -⟩ | ⟨y, hy, h⟩)
      · exact absurd hnull (ne_null_of_toInteger hx)
      · obtain rfl := Option.some.inj (hx.symm.trans hy)
        exact h

/-- A row with the column 1. -/
def rowWith (entry : DataBaseDataEntry) : RowData := (∅ : RowData).insert 1 entry

theorem sumKept_five : SumKept .integerI64 (rowWith (.integerI64 5)) 1 "c" (.integerI32 3) 3 :=
  (sumKept_iff "c" (by decide) (.inr (by decide +kernel)) (by decide)).2
    (.inr (.inr (.inr ⟨5, by decide +kernel, .inr (by decide)⟩)))

/-- One more than the largest number is the largest number. -/
theorem sum_clamped : ¬ SumKept .integerI64 (rowWith (.integerI64 Int64.maxValue)) 1 "c" (.integerI32 1) 1 := by
  intro h
  have hclamped : applyUpdateAssignment (.addColumn "c" (.integerI32 1))
      (rowWith (.integerI64 Int64.maxValue)) 1 .integerI64 = .ok (.integerI64 Int64.maxValue) := by
    decide +kernel
  have hsum := ((h _ hclamped).2 (2 ^ 63 - 1) (by decide +kernel)).2
  exact absurd hsum (by decide +kernel)

end Sum

end Dml

end AntDb
