/-
  What `split_copy_fields` reads of escaped fields.

  A line is read as a list of characters with `none` where a field ends (`readFields`), and the
  fields are what stands between.  Each character and each delimiter of escaped fields is read
  back on its own, unless the delimiter is the backslash or its escape means something else.
-/
import AntDb.CopyFormat

namespace AntDb.Copy

variable {delimiter c : Char} {u : Option Char} {us : List (Option Char)}
  {text rest current : List Char} {fields : List String} {digit : ℕ}

/-! ## Reading a line -/

/-- What a backslash and `c` stand for if `c` is no octal digit. -/
def unescapeChar : Char → Char
  | 'b' => Char.ofNat 0x08
  | 'f' => Char.ofNat 0x0c
  | 'n' => '\n'
  | 'r' => '\r'
  | 't' => '\t'
  | 'v' => Char.ofNat 0x0b
  | other => other

/-- The character with the code of an octal escape, if a byte can hold it. -/
def octalUnits (code : ℕ) : List (Option Char) := if code < 256 then [some (Char.ofNat code)] else []

/-- The characters of the fields of a line, with `none` for each delimiter. -/
def readFields (delimiter : Char) : List Char → List (Option Char)
  | [] => []
  | '\\' :: [] => [some '\\']
  | '\\' :: c :: text =>
    match octalDigit c with
    | some digit =>
      octalUnits (octalEscape digit text).1 ++ readFields delimiter (octalEscape digit text).2
    | none => some (unescapeChar c) :: readFields delimiter text
  | c :: text => (if c = delimiter then none else some c) :: readFields delimiter text
termination_by text => text.length
decreasing_by
  all_goals simp only [List.length_cons]
  · have := octalEscape_length digit text; omega
  all_goals omega

theorem splitFields_octal (h : octalDigit c = some digit) :
    splitFields delimiter fields current ('\\' :: c :: text) = splitFields delimiter fields
      (if (octalEscape digit text).1 < 256 then current ++ [Char.ofNat (octalEscape digit text).1]
        else current) (octalEscape digit text).2 := by
  rw [splitFields.eq_def]
  split
  · rename_i heq; cases heq
  · rename_i heq; cases heq
  · rename_i heq
    cases heq
    rw [h]
  · rename_i hne heq
    cases heq
    exact (hne _ _ rfl rfl).elim

theorem splitFields_escape (h : octalDigit c = none) :
    splitFields delimiter fields current ('\\' :: c :: text) =
      splitFields delimiter fields (current ++ [unescapeChar c]) text := by
  rw [splitFields.eq_def]
  split
  · rename_i heq; cases heq
  · rename_i heq; cases heq
  · rename_i heq
    cases heq
    rw [h]
    rfl
  · rename_i hne heq
    cases heq
    exact (hne _ _ rfl rfl).elim

theorem splitFields_char (h : c ≠ '\\') :
    splitFields delimiter fields current (c :: text) =
      if c = delimiter then splitFields delimiter (fields ++ [String.ofList current]) [] text
      else splitFields delimiter fields (current ++ [c]) text := by
  rw [splitFields.eq_def]
  split
  · rename_i heq; cases heq
  · rename_i heq; exact absurd (List.cons.inj heq).1 h
  · rename_i heq; exact absurd (List.cons.inj heq).1 h
  · rename_i heq; cases heq; rfl

theorem readFields_octal (h : octalDigit c = some digit) :
    readFields delimiter ('\\' :: c :: text) =
      octalUnits (octalEscape digit text).1 ++ readFields delimiter (octalEscape digit text).2 := by
  rw [readFields.eq_def]
  split
  · rename_i heq; cases heq
  · rename_i heq; cases heq
  · rename_i heq
    cases heq
    rw [h]
  · rename_i hne heq
    cases heq
    exact (hne _ _ rfl rfl).elim

theorem readFields_escape (h : octalDigit c = none) :
    readFields delimiter ('\\' :: c :: text) = some (unescapeChar c) :: readFields delimiter text := by
  rw [readFields.eq_def]
  split
  · rename_i heq; cases heq
  · rename_i heq; cases heq
  · rename_i heq
    cases heq
    rw [h]
  · rename_i hne heq
    cases heq
    exact (hne _ _ rfl rfl).elim

theorem readFields_char (h : c ≠ '\\') : readFields delimiter (c :: text) =
    (if c = delimiter then none else some c) :: readFields delimiter text := by
  rw [readFields.eq_def]
  split
  · rename_i heq; cases heq
  · rename_i heq; exact absurd (List.cons.inj heq).1 h
  · rename_i heq; exact absurd (List.cons.inj heq).1 h
  · rename_i heq; cases heq; rfl

/-- The field between two delimiters. -/
def fieldOf (us : List (Option Char)) : String := String.ofList us.reduceOption

theorem fieldOf_some (cs : List Char) : fieldOf (cs.map some) = String.ofList cs := by
  rw [fieldOf, List.reduceOption, List.filterMap_map]
  exact congrArg _ (List.filterMap_some)

/-- The loop of `split_copy_fields` gathers what is read between the delimiters. -/
theorem splitFields_eq : splitFields delimiter fields current text = fields ++
    (List.splitOnPPrepend (· == none) (readFields delimiter text) (current.map some).reverse).map
      fieldOf := by
  induction text using readFields.induct generalizing fields current with
  | case1 =>
    rw [splitFields, readFields, List.splitOnPPrepend_nil, List.reverse_reverse, List.map_singleton,
      fieldOf_some]
  | case2 =>
    rw [splitFields, readFields, List.splitOnPPrepend_cons_neg (by rfl), List.splitOnPPrepend_nil]
    simp [← fieldOf_some]
  | case3 c text digit hdigit ih =>
    rw [splitFields_octal hdigit, readFields_octal hdigit, ih, octalUnits]
    split_ifs with h
    · rw [List.singleton_append, List.splitOnPPrepend_cons_neg (by rfl)]
      simp
    · rfl
  | case4 c text hdigit ih =>
    rw [splitFields_escape hdigit, readFields_escape hdigit, ih,
      List.splitOnPPrepend_cons_neg (by rfl)]
    simp
  | case5 c text hne hne' ih =>
    have hc : c ≠ '\\' := by
      rintro rfl
      cases text with
      | nil => exact hne rfl rfl
      | cons c text => exact hne' c text rfl rfl
    rw [splitFields_char hc, readFields_char hc]
    split_ifs
    · rw [ih, List.splitOnPPrepend_cons_pos (by rfl), List.splitOnP_eq_splitOnPPrepend,
        List.reverse_reverse, List.map_cons, fieldOf_some]
      simp
    · rw [ih, List.splitOnPPrepend_cons_neg (by rfl)]
      simp

/-- The fields of a line are what is read between the delimiters. -/
theorem splitCopyFields_eq : splitCopyFields text delimiter =
    ((readFields delimiter text).splitOn none).map fieldOf := by
  rw [splitCopyFields, splitFields_eq, List.nil_append, List.map_nil, List.reverse_nil,
    ← List.splitOnP_eq_splitOnPPrepend, List.splitOn_eq_splitOnP]

theorem not_mem_of_mem_splitOn {us : List (Option Char)} : ∀ l ∈ us.splitOn none, none ∉ l := by
  induction us with
  | nil => simp
  | cons u us ih =>
    rw [List.splitOn_cons_eq_if_modifyHead]
    split_ifs with hu
    · intro l hl
      rcases List.mem_cons.1 hl with rfl | hl
      · exact List.not_mem_nil
      · exact ih l hl
    · obtain ⟨first, others, hsplit⟩ := List.exists_cons_of_ne_nil (List.splitOn_ne_nil none us)
      rw [hsplit] at ih ⊢
      intro l hl
      rcases List.mem_cons.1 hl with rfl | hl
      · rw [List.mem_cons]
        rintro (rfl | hmem)
        · exact hu rfl
        · exact ih first (by simp) hmem
      · exact ih l (by simp [hl])

/-- What is to be read of a line with these fields. -/
def unitsOf (fs : List String) : List (Option Char) :=
  [none].intercalate (fs.map fun f => f.toList.map some)

theorem some_fieldOf {l : List (Option Char)} (h : none ∉ l) : (fieldOf l).toList.map some = l := by
  rw [fieldOf, String.toList_ofList]
  induction l with
  | nil => rfl
  | cons u l ih =>
    rw [List.mem_cons, not_or] at h
    cases u with
    | none => exact absurd rfl h.1
    | some c => rw [List.reduceOption_cons_of_some, List.map_cons, ih h.2]

/-- A line has the fields `fs` if and only if this is what is read of it. -/
theorem splitCopyFields_iff {fs : List String} (h : fs ≠ []) :
    splitCopyFields text delimiter = fs ↔ readFields delimiter text = unitsOf fs := by
  rw [splitCopyFields_eq]
  constructor
  · rintro rfl
    rw [unitsOf, List.map_map]
    conv_lhs => rw [← @List.intercalate_splitOn _ (readFields delimiter text) _ _ none]
    exact congrArg _ ((List.map_congr_left fun l hl =>
      some_fieldOf (not_mem_of_mem_splitOn l hl)).trans (List.map_id _)).symm
  · intro hread
    rw [hread, unitsOf, List.splitOn_intercalate none (by simp) (by simpa using h), List.map_map]
    refine (List.map_congr_left fun f _ => ?_).trans (List.map_id _)
    exact (fieldOf_some f.toList).trans String.ofList_toList

/-! ## Escaped fields -/

/-- How a character or a delimiter is written. -/
def escapeUnit (delimiter : Char) : Option Char → List Char
  | none => [delimiter]
  | some c => escapeChar delimiter c

theorem joinFields_escaped (fs : List String) :
    joinFields delimiter (fs.map (escapeCopyField · delimiter)) =
      (unitsOf fs).flatMap (escapeUnit delimiter) := by
  induction fs with
  | nil => rfl
  | cons f fs ih =>
    have hfield : escapeCopyField f delimiter = (f.toList.map some).flatMap (escapeUnit delimiter) :=
      (List.flatMap_map (f := some) (g := escapeUnit delimiter) f.toList).symm
    cases fs with
    | nil => simpa [joinFields, unitsOf] using hfield
    | cons f' fs =>
      rw [joinFields] at ih ⊢
      rw [unitsOf] at ih ⊢
      simp only [List.map_cons, List.intercalate_cons_cons, List.flatMap_append] at ih ⊢
      rw [ih, hfield]
      rfl

/-- The escape of the delimiter stands for the delimiter. -/
def Escapable (delimiter : Char) : Prop := delimiter ∉ "bfnrtv01234567".toList

/-- The delimiter can stand between two fields of a line. -/
def Separating (delimiter : Char) : Prop := delimiter ∉ ['\\', '\n', '\r']

instance : Decidable (Escapable delimiter) := inferInstanceAs (Decidable (_ ∉ _))

instance : Decidable (Separating delimiter) := inferInstanceAs (Decidable (_ ∉ _))

theorem not_separating (h : ¬ Separating delimiter) :
    delimiter = '\\' ∨ delimiter = '\n' ∨ delimiter = '\r' := by
  have hmem : delimiter ∈ ['\\', '\n', '\r'] := not_not.1 h
  simpa using hmem

theorem octalDigit_some (h : octalDigit c = some digit) : c.toNat = 48 + digit ∧ digit < 8 := by
  unfold octalDigit at h
  split_ifs at h with hc
  obtain ⟨hlo, hhi⟩ := hc
  have hlo : 48 ≤ c.toNat := UInt32.le_iff_toNat_le.1 hlo
  have hhi : c.toNat ≤ 55 := UInt32.le_iff_toNat_le.1 hhi
  have hdigit : c.toNat - 48 = digit := Option.some.inj h
  omega

theorem octalDigit_eq_none (h : c ∉ "01234567".toList) : octalDigit c = none := by
  cases hdigit : octalDigit c with
  | none => rfl
  | some digit =>
    obtain ⟨hc, hlt⟩ := octalDigit_some hdigit
    rw [← Char.ofNat_toNat c, hc] at h
    interval_cases digit <;> exact absurd (by decide) h

theorem unescapeChar_eq (h : c ∉ "bfnrtv".toList) : unescapeChar c = c := by
  unfold unescapeChar
  split <;> first | rfl | exact absurd (by decide) h

theorem unescapeChar_ne (h : c ∈ "bfnrtv01234567".toList) (hdigit : octalDigit c = none) :
    unescapeChar c ≠ c := by
  have hcases : c = 'b' ∨ c = 'f' ∨ c = 'n' ∨ c = 'r' ∨ c = 't' ∨ c = 'v' ∨ c = '0' ∨ c = '1' ∨
      c = '2' ∨ c = '3' ∨ c = '4' ∨ c = '5' ∨ c = '6' ∨ c = '7' := by simpa using h
  rcases hcases with rfl | rfl | rfl | rfl | rfl | rfl | rfl | rfl | rfl | rfl | rfl | rfl | rfl | rfl
  all_goals first | decide | exact absurd hdigit (by decide)

/-- `u` is read back as it is written. -/
def ReadsBack (delimiter : Char) (u : Option Char) : Prop :=
  ∀ rest, readFields delimiter (escapeUnit delimiter u ++ rest) = u :: readFields delimiter rest

theorem readsBack_some (h : c ≠ delimiter ∨ Escapable delimiter) : ReadsBack delimiter (some c) := by
  intro rest
  rw [escapeUnit, escapeChar]
  split_ifs with h1 h2 h3 h4 h5
  · subst h1
    exact readFields_escape (by decide)
  · subst h2
    exact readFields_escape (by decide)
  · subst h3
    exact readFields_escape (by decide)
  · subst h4
    exact readFields_escape (by decide)
  · have hc : Escapable c := h5 ▸ h.resolve_left fun h => h h5
    have hletter : c ∉ "bfnrtv".toList := fun hmem =>
      hc (List.mem_append_left "01234567".toList hmem)
    have hoctal : c ∉ "01234567".toList := fun hmem =>
      hc (List.mem_append_right "bfnrtv".toList hmem)
    rw [List.cons_append, List.singleton_append, readFields_escape (octalDigit_eq_none hoctal),
      unescapeChar_eq hletter]
  · rw [List.singleton_append, readFields_char h1, if_neg h5]

theorem readsBack_none (h : delimiter ≠ '\\') : ReadsBack delimiter none := by
  intro rest
  rw [escapeUnit, List.singleton_append, readFields_char h, if_pos rfl]

theorem readFields_units (h : ∀ u ∈ us, ReadsBack delimiter u) :
    readFields delimiter (us.flatMap (escapeUnit delimiter) ++ rest) =
      us ++ readFields delimiter rest := by
  induction us with
  | nil => rfl
  | cons u us ih =>
    rw [List.flatMap_cons, List.append_assoc, h u (by simp), ih fun u hu => h u (by simp [hu])]
    rfl

/-! ## Delimiters that escape badly -/

/-- The escape of a character is the character, or a backslash and another one. -/
theorem escapeUnit_cases (delimiter : Char) (u : Option Char) :
    (∃ c, escapeUnit delimiter u = [c] ∧ (c = '\\' → delimiter = '\\')) ∨
      ∃ c, escapeUnit delimiter u = ['\\', c] := by
  cases u with
  | none => exact Or.inl ⟨delimiter, rfl, id⟩
  | some c =>
    rw [escapeUnit, escapeChar]
    split_ifs with h1
    · exact Or.inr ⟨_, rfl⟩
    · exact Or.inr ⟨_, rfl⟩
    · exact Or.inr ⟨_, rfl⟩
    · exact Or.inr ⟨_, rfl⟩
    · exact Or.inr ⟨_, rfl⟩
    · exact Or.inl ⟨c, rfl, fun h => absurd h h1⟩

/-- An octal digit after an octal escape is the whole of what is written there. -/
theorem octal_unit (hc : (octalDigit c).isSome = true)
    (h : us.flatMap (escapeUnit delimiter) = c :: rest) :
    ∃ u us', us = u :: us' ∧ rest = us'.flatMap (escapeUnit delimiter) := by
  cases us with
  | nil => cases h
  | cons u us =>
    refine ⟨u, us, rfl, ?_⟩
    rw [List.flatMap_cons] at h
    rcases escapeUnit_cases delimiter u with ⟨c', hu, -⟩ | ⟨c', hu⟩
    · rw [hu] at h
      exact (List.cons.inj h).2.symm
    · rw [hu] at h
      obtain rfl : '\\' = c := (List.cons.inj h).1
      exact absurd hc (by decide)

/-- An octal escape takes up to two characters more than it should. -/
theorem octalEscape_units (delimiter : Char) (us : List (Option Char)) (digit : ℕ) : ∃ n ≤ us.length,
    (octalEscape digit (us.flatMap (escapeUnit delimiter))).2 =
      (us.drop n).flatMap (escapeUnit delimiter) ∧
      (n = 0 → (octalEscape digit (us.flatMap (escapeUnit delimiter))).1 = digit) := by
  cases htext : us.flatMap (escapeUnit delimiter) with
  | nil => exact ⟨0, Nat.zero_le _, htext.symm, fun _ => rfl⟩
  | cons c text =>
    rw [octalEscape]
    cases hc : octalDigit c with
    | none => exact ⟨0, Nat.zero_le _, htext.symm, fun _ => rfl⟩
    | some second =>
      obtain ⟨u, us', rfl, rfl⟩ := octal_unit (by rw [hc]; rfl) htext
      have hone : 1 ≤ (u :: us').length := by simp
      cases htext' : us'.flatMap (escapeUnit delimiter) with
      | nil => exact ⟨1, hone, htext'.symm, fun h => absurd h one_ne_zero⟩
      | cons c' text' =>
        cases hc' : octalDigit c' with
        | none =>
          simp only [hc']
          exact ⟨1, hone, htext'.symm, fun h => absurd h one_ne_zero⟩
        | some third =>
          simp only [hc']
          obtain ⟨u', us'', rfl, rfl⟩ := octal_unit (by rw [hc']; rfl) htext'
          exact ⟨2, by simp, rfl, fun h => absurd h two_ne_zero⟩

/-- No more is read than was written. -/
theorem length_readFields (h : delimiter ≠ '\\') :
    (readFields delimiter (us.flatMap (escapeUnit delimiter))).length ≤ us.length := by
  induction hn : us.length using Nat.strong_induction_on generalizing us with
  | _ n ih =>
    subst hn
    cases us with
    | nil => rw [List.flatMap_nil, readFields]
    | cons u us =>
      have hlt : us.length < (u :: us).length := by simp
      rw [List.flatMap_cons, List.length_cons]
      rcases escapeUnit_cases delimiter u with ⟨c, hu, hc⟩ | ⟨c, hu⟩
      · rw [hu, List.singleton_append, readFields_char fun hc' => h (hc hc'), List.length_cons]
        exact Nat.succ_le_succ (ih _ hlt rfl)
      · rw [hu]
        cases hdigit : octalDigit c with
        | none =>
          rw [List.cons_append, List.singleton_append, readFields_escape hdigit, List.length_cons]
          exact Nat.succ_le_succ (ih _ hlt rfl)
        | some digit =>
          rw [List.cons_append, List.singleton_append, readFields_octal hdigit, List.length_append]
          obtain ⟨n, -, hrest, -⟩ := octalEscape_units delimiter us digit
          have hdrop : (us.drop n).length ≤ us.length := by simp
          have hbound := ih _ (lt_of_le_of_lt hdrop hlt) rfl
          have hunits : ∀ code, (octalUnits code).length ≤ 1 := by
            intro code
            unfold octalUnits
            split_ifs <;> simp
          rw [hrest]
          have := hunits (octalEscape digit (us.flatMap (escapeUnit delimiter))).1
          omega

/-- A delimiter in a field is read as something else if its escape does not stand for it. -/
theorem read_unescapable (h : ¬ Escapable delimiter) (post : List (Option Char)) :
    readFields delimiter ((some delimiter :: post).flatMap (escapeUnit delimiter)) ≠
      some delimiter :: post := by
  have hmem : delimiter ∈ "bfnrtv01234567".toList := not_not.1 h
  have hescape : escapeUnit delimiter (some delimiter) = ['\\', delimiter] := by
    have hne : delimiter ≠ '\\' ∧ delimiter ≠ '\n' ∧ delimiter ≠ '\r' ∧ delimiter ≠ '\t' := by
      refine ⟨?_, ?_, ?_, ?_⟩ <;> rintro rfl <;> exact absurd hmem (by decide)
    rw [escapeUnit, escapeChar, if_neg hne.1, if_neg hne.2.1, if_neg hne.2.2.1, if_neg hne.2.2.2,
      if_pos rfl]
  rw [List.flatMap_cons, hescape, List.cons_append, List.singleton_append]
  cases hdigit : octalDigit delimiter with
  | none =>
    rw [readFields_escape hdigit]
    intro heq
    have hsame : unescapeChar delimiter = delimiter := Option.some.inj (List.cons.inj heq).1
    exact unescapeChar_ne hmem hdigit hsame
  | some digit =>
    obtain ⟨hcode, hlt⟩ := octalDigit_some hdigit
    rw [readFields_octal hdigit]
    obtain ⟨n, hn, hrest, hone⟩ := octalEscape_units delimiter post digit
    rw [hrest]
    intro heq
    by_cases hzero : n = 0
    · -- the escape is the digit alone, and so the character with its value
      rw [hone hzero, octalUnits, if_pos (by omega)] at heq
      have hchar : Char.ofNat digit = delimiter := Option.some.inj (List.cons.inj heq).1
      have hnat : (Char.ofNat digit).toNat = 48 + digit := hchar ▸ hcode
      revert hnat
      clear heq hrest hone hcode hdigit hescape hchar
      interval_cases digit <;> decide
    · -- the escape takes part of what follows, and less is read than was written
      have hne : delimiter ≠ '\\' := by
        rintro rfl
        exact absurd hmem (by decide)
      have hbound : (readFields delimiter ((post.drop n).flatMap (escapeUnit delimiter))).length ≤
          (post.drop n).length := length_readFields hne
      have hlength := congrArg List.length heq
      rw [List.length_append, List.length_cons] at hlength
      rw [List.length_drop] at hbound
      have hunits : (octalUnits (octalEscape digit (post.flatMap (escapeUnit delimiter))).1).length ≤ 1 := by
        unfold octalUnits
        split_ifs <;> simp
      omega

/-- No field ends at a backslash. -/
theorem none_not_mem_readFields : none ∉ readFields '\\' text := by
  induction text using readFields.induct with
  | case1 => rw [readFields]; exact List.not_mem_nil
  | case2 => rw [readFields]; simp
  | case3 c text digit hdigit ih =>
    rw [readFields_octal hdigit, List.mem_append, not_or]
    refine ⟨?_, ih⟩
    unfold octalUnits
    split_ifs <;> simp
  | case4 c text hdigit ih =>
    rw [readFields_escape hdigit]
    simpa using ih
  | case5 c text hne hne' ih =>
    have hc : c ≠ '\\' := by
      rintro rfl
      cases text with
      | nil => exact hne rfl rfl
      | cons c text => exact hne' c text rfl rfl
    rw [readFields_char hc, if_neg hc]
    simpa using ih

/-! ## The round trip of fields -/

theorem some_mem_unitsOf {fs : List String} : some c ∈ unitsOf fs ↔ ∃ f ∈ fs, c ∈ f.toList := by
  induction fs with
  | nil => simp [unitsOf]
  | cons f fs ih =>
    cases fs with
    | nil => simp [unitsOf]
    | cons f' fs =>
      rw [unitsOf] at ih ⊢
      rw [List.map_cons] at ih
      rw [List.map_cons, List.map_cons, List.intercalate_cons_cons, List.mem_append, List.mem_append,
        ih]
      simp

theorem none_mem_unitsOf {fs : List String} : none ∈ unitsOf fs ↔ 2 ≤ fs.length := by
  cases fs with
  | nil => simp [unitsOf]
  | cons f fs =>
    cases fs with
    | nil => simp [unitsOf]
    | cons f' fs =>
      rw [unitsOf, List.map_cons, List.map_cons, List.intercalate_cons_cons]
      simp

/-- No line ends in the text. -/
def LineFree (text : List Char) : Prop := '\n' ∉ text ∧ '\r' ∉ text

theorem lineFree_escapeUnit (h : u = none → Separating delimiter) :
    LineFree (escapeUnit delimiter u) := by
  cases u with
  | none =>
    have hsep : ¬ (delimiter = '\\' ∨ delimiter = '\n' ∨ delimiter = '\r') := by
      simpa [Separating] using h rfl
    rw [escapeUnit, LineFree, List.mem_singleton, List.mem_singleton]
    exact ⟨fun he => hsep (Or.inr (Or.inl he.symm)), fun he => hsep (Or.inr (Or.inr he.symm))⟩
  | some c =>
    rw [escapeUnit, escapeChar]
    split_ifs with h1 h2 h3
    · exact ⟨by decide, by decide⟩
    · exact ⟨by decide, by decide⟩
    · exact ⟨by decide, by decide⟩
    · exact ⟨by decide, by decide⟩
    · simp [LineFree, Ne.symm h2, Ne.symm h3]
    · simp [LineFree, Ne.symm h2, Ne.symm h3]

/-- A delimiter that the options of some `COPY` have. -/
def Accepted (delimiter : Char) : Prop :=
  ∃ options parsed, parseCopyOptions options = .ok parsed ∧ parsed.delimiter = delimiter

theorem accepted_every (delimiter : Char) : Accepted delimiter :=
  ⟨[.delimiter delimiter], { CopyOptions.default with delimiter := delimiter }, rfl, rfl⟩

/-- The fields, escaped and joined, are one line, and the line has these fields. -/
def Lossless (delimiter : Char) (fs : List String) : Prop :=
  let text := joinFields delimiter (fs.map (escapeCopyField · delimiter))
  LineFree text ∧ splitCopyFields text delimiter = fs

/-- **Escaping is lossless** exactly if the escape of the delimiter, where a field has one, stands
    for the delimiter, and the delimiter, where there is one, can stand in a line. -/
theorem lossless_iff {fs : List String} (haccepted : Accepted delimiter) (hne : fs ≠ []) :
    Lossless delimiter fs ↔
      (Escapable delimiter ∨ ∀ f ∈ fs, delimiter ∉ f.toList) ∧
        (Separating delimiter ∨ fs.length = 1) := by
  rw [Lossless, splitCopyFields_iff hne, joinFields_escaped]
  constructor
  · rintro ⟨hline, hread⟩
    constructor
    · by_contra hbad
      push Not at hbad
      obtain ⟨hescape, f, hf, hc⟩ := hbad
      obtain ⟨pre, post, hunits, hpre⟩ :=
        List.eq_append_cons_of_mem (some_mem_unitsOf.2 ⟨f, hf, hc⟩)
      have hreads : ∀ u ∈ pre, ReadsBack delimiter u := by
        intro u hu
        cases u with
        | none =>
          refine readsBack_none ?_
          rintro rfl
          exact hescape (by decide)
        | some c => exact readsBack_some (Or.inl fun h => hpre (h ▸ hu))
      rw [hunits, List.flatMap_append, readFields_units hreads] at hread
      exact read_unescapable hescape post (List.append_cancel_left hread)
    · by_contra hbad
      rw [not_or] at hbad
      obtain ⟨hsep, hlen⟩ := hbad
      have hnone : none ∈ unitsOf fs := by
        refine none_mem_unitsOf.2 ?_
        have := List.length_pos_iff.2 hne
        omega
      have hmem : delimiter ∈ (unitsOf fs).flatMap (escapeUnit delimiter) :=
        List.mem_flatMap.2 ⟨none, hnone, List.mem_singleton_self _⟩
      rcases not_separating hsep with rfl | rfl | rfl
      · rw [← hread] at hnone
        exact none_not_mem_readFields hnone
      · exact hline.1 hmem
      · exact hline.2 hmem
  · rintro ⟨hescape, hsep⟩
    have hsep : none ∈ unitsOf fs → Separating delimiter := fun hnone =>
      hsep.resolve_right fun hlen => by
        have := none_mem_unitsOf.1 hnone
        omega
    constructor
    · have hall : ∀ c ∈ (unitsOf fs).flatMap (escapeUnit delimiter), c ≠ '\n' ∧ c ≠ '\r' := by
        intro c hc
        obtain ⟨u, hu, hc⟩ := List.mem_flatMap.1 hc
        obtain ⟨hn, hr⟩ : LineFree (escapeUnit delimiter u) := lineFree_escapeUnit fun h => hsep (h ▸ hu)
        exact ⟨fun h => hn (h ▸ hc), fun h => hr (h ▸ hc)⟩
      exact ⟨fun h => (hall _ h).1 rfl, fun h => (hall _ h).2 rfl⟩
    · have hreads : ∀ u ∈ unitsOf fs, ReadsBack delimiter u := by
        intro u hu
        cases u with
        | none =>
          refine readsBack_none ?_
          rintro rfl
          exact hsep hu (by simp)
        | some c =>
          obtain ⟨f, hf, hc⟩ := some_mem_unitsOf.1 hu
          refine readsBack_some ?_
          by_cases h : c = delimiter
          · exact Or.inr (hescape.resolve_right fun hnot => hnot f hf (h ▸ hc))
          · exact Or.inl h
      have hall : readFields delimiter ((unitsOf fs).flatMap (escapeUnit delimiter) ++ []) = _ :=
        readFields_units hreads
      rwa [List.append_nil, readFields, List.append_nil] at hall

theorem lossless_tab : Accepted '\t' ∧ (["a\tb", "\\", ""] : List String) ≠ [] ∧
    Lossless '\t' ["a\tb", "\\", ""] :=
  ⟨accepted_every _, by decide, (lossless_iff (accepted_every _) (by decide)).2
    ⟨Or.inl (by decide), Or.inl (by decide)⟩⟩

/-- With the delimiter `n` the escape of the delimiter is that of a line feed. -/
theorem lossy_letter : ¬ ∀ delimiter fs, Accepted delimiter → fs ≠ [] → Lossless delimiter fs := by
  intro h
  have hsplit := (h 'n' ["n"] (accepted_every _) (by decide)).2
  have hread : splitCopyFields ['\\', 'n'] 'n' = ["\n"] := by decide +kernel
  have htext : joinFields 'n' (["n"].map (escapeCopyField · 'n')) = ['\\', 'n'] := by decide +kernel
  rw [htext, hread] at hsplit
  exact absurd hsplit (by decide)

end AntDb.Copy
