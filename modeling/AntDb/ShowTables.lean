/-
  `SHOW TABLES` with a filter on the names.

  A `LIKE` pattern is cut at its percent signs on either end, and what is left is looked for as it
  stands: a percent sign further inside and an underscore anywhere are ordinary characters there.
-/
import AntDb.Expression
import AntDb.Lib.Wildcard

namespace AntDb

/-- The filter of the statement; the condition of a `WHERE` is not read. -/
inductive ShowStatementFilter where
  | like (pattern : String)
  | iLike (pattern : String)
  | where_

namespace ShowTables

/-! ## Matching names -/

def trimMatches (c : Char) (s : List Char) : List Char := (s.dropWhile (· == c)).rdropWhile (· == c)

/-- The text that is matched: as it stands, or in lower case. -/
def foldCase (caseInsensitive : Bool) (text : String) : List Char :=
  (if caseInsensitive then normalizeIdentifier text else text).toList

/-- `sql_like_matches` after both texts are folded. -/
def foldedLikeMatches (value pattern : List Char) : Bool :=
  if pattern = ['%'] then true
  else if pattern.head? = some '%' ∧ pattern.getLast? = some '%' then
    trimMatches '%' pattern <:+: value
  else if pattern.head? = some '%' then trimMatches '%' pattern <:+ value
  else if pattern.getLast? = some '%' then trimMatches '%' pattern <+: value
  else value = trimMatches '%' pattern

def sqlLikeMatches (value pattern : String) (caseInsensitive : Bool) : Bool :=
  foldedLikeMatches (foldCase caseInsensitive value) (foldCase caseInsensitive pattern)

def showTablesMatches (name : String) : ShowStatementFilter → Except DataBaseErrors Bool
  | .like pattern => .ok (sqlLikeMatches name pattern false)
  | .iLike pattern => .ok (sqlLikeMatches name pattern true)
  | .where_ => .error (.queryError "SHOW TABLES WHERE filtering is unsupported")

/-- The names the statement answers with. -/
def showTables (names : List String) : Option ShowStatementFilter → Except DataBaseErrors (List String)
  | some filter => names.filterM (showTablesMatches · filter)
  | none => .ok names

/-! ## The meaning of a pattern -/

/-- A character of a pattern without an escape. -/
def likeToken (c : Char) : Wildcard.Token Char :=
  if c = '%' then .any else if c = '_' then .one else .literal c

/-- What `value LIKE pattern` and `value ILIKE pattern` mean. -/
def Like (value pattern : String) (caseInsensitive : Bool) : Prop :=
  Wildcard.Matches ((foldCase caseInsensitive pattern).map likeToken) (foldCase caseInsensitive value)

/-- Wildcards stand at the ends of the pattern only, and are all percent signs. -/
def WildEnds (pattern : String) : Prop := ∀ c ∈ trimMatches '%' pattern.toList, c ≠ '%' ∧ c ≠ '_'

instance (pattern : String) : Decidable (WildEnds pattern) :=
  inferInstanceAs (Decidable (∀ c ∈ trimMatches '%' pattern.toList, c ≠ '%' ∧ c ≠ '_'))

section Trimming

variable {c : Char} {s t value pattern : List Char}

/-- A pattern is its middle part with percent signs around it. -/
theorem exists_trimMatches (c : Char) (s : List Char) :
    ∃ i j, s = List.replicate i c ++ (trimMatches c s ++ List.replicate j c) := by
  have hleft : s.takeWhile (· == c) = List.replicate _ c :=
    List.eq_replicate_iff.2 ⟨rfl, fun x hx => by simpa using List.mem_takeWhile_imp hx⟩
  have hright : (s.dropWhile (· == c)).rtakeWhile (· == c) = List.replicate _ c :=
    List.eq_replicate_iff.2 ⟨rfl, fun x hx => by simpa using List.mem_rtakeWhile_imp hx⟩
  refine ⟨(s.takeWhile (· == c)).length, ((s.dropWhile (· == c)).rtakeWhile (· == c)).length, ?_⟩
  rw [← hleft, ← hright, trimMatches, List.rdropWhile_append_rtakeWhile, List.takeWhile_append_dropWhile]

theorem infix_of_foldedLikeMatches (h : foldedLikeMatches value pattern = true) :
    trimMatches '%' pattern <:+: value := by
  unfold foldedLikeMatches at h
  split_ifs at h with hall _ _ _
  · subst hall
    exact ⟨[], value, rfl⟩
  · exact of_decide_eq_true h
  · exact (of_decide_eq_true h : _ <:+ _).isInfix
  · exact (of_decide_eq_true h : _ <+: _).isInfix
  · obtain rfl := of_decide_eq_true h
    exact List.infix_rfl

theorem map_likeToken (h : ∀ c ∈ t, c ≠ '%' ∧ c ≠ '_') : t.map likeToken = t.map .literal :=
  List.map_congr_left fun c hc => by
    obtain ⟨hany, hone⟩ := h c hc
    rw [likeToken, if_neg hany, if_neg hone]

theorem mem_of_literal (h : .literal c ∈ s.map likeToken) : c ∈ s ∧ c ≠ '%' ∧ c ≠ '_' := by
  obtain ⟨d, hd, heq⟩ := List.mem_map.1 h
  unfold likeToken at heq
  split_ifs at heq with hany hone
  obtain rfl := Wildcard.Token.literal.inj heq
  exact ⟨hd, hany, hone⟩

theorem map_likeToken_replicate (n : ℕ) :
    (List.replicate n '%').map likeToken = List.replicate n .any := by
  rw [List.map_replicate]
  rfl

theorem head?_fenced {i j : ℕ} (hc : c ∉ t) (ht : t ≠ []) :
    (List.replicate i c ++ (t ++ List.replicate j c)).head? = some c ↔ i ≠ 0 := by
  cases i with
  | succ i => simp [List.replicate_succ]
  | zero =>
    obtain ⟨a, t, rfl⟩ := List.exists_cons_of_ne_nil ht
    simp only [List.replicate_zero, List.nil_append, List.cons_append, List.head?_cons, Option.some.injEq,
      ne_eq, not_true_eq_false, iff_false]
    rintro rfl
    exact hc (List.mem_cons_self ..)

theorem getLast?_fenced {i j : ℕ} (hc : c ∉ t) (ht : t ≠ []) :
    (List.replicate i c ++ (t ++ List.replicate j c)).getLast? = some c ↔ j ≠ 0 := by
  rw [← List.head?_reverse, List.reverse_append, List.reverse_append, List.reverse_replicate,
    List.reverse_replicate, List.append_assoc]
  exact head?_fenced (by simpa using hc) (by simpa using ht)

theorem foldedLikeMatches_iff_of_wildEnds
    (h : ∀ c ∈ trimMatches '%' pattern, c ≠ '%' ∧ c ≠ '_') :
    foldedLikeMatches value pattern = true ↔ Wildcard.Matches (pattern.map likeToken) value := by
  obtain ⟨i, j, hpattern⟩ := exists_trimMatches '%' pattern
  generalize ht : trimMatches '%' pattern = t at h hpattern
  have hlike : Wildcard.Matches (pattern.map likeToken) value ↔
      ∃ u v, value = u ++ (t ++ v) ∧ (i = 0 → u = []) ∧ (j = 0 → v = []) := by
    rw [hpattern, List.map_append, List.map_append, map_likeToken h, map_likeToken_replicate,
      map_likeToken_replicate, Wildcard.matches_fenced]
  rw [hlike, foldedLikeMatches, ht]
  clear hlike
  by_cases hempty : t = []
  · -- the pattern is percent signs only
    subst hempty
    rw [List.nil_append, List.replicate_append_replicate] at hpattern
    rcases Nat.eq_zero_or_pos (i + j) with hn | hn
    · obtain ⟨rfl, rfl⟩ := Nat.add_eq_zero_iff.1 hn
      simp [hpattern]
    · have hhead : pattern.head? = some '%' := by rw [hpattern, List.head?_replicate, if_neg hn.ne']
      have hlast : pattern.getLast? = some '%' := by rw [hpattern, List.getLast?_replicate, if_neg hn.ne']
      simp only [hhead, hlast, and_self, if_true, List.nil_infix, decide_true, ite_self, List.nil_append,
        true_iff]
      by_cases hi : i = 0
      · exact ⟨[], value, rfl, fun _ => rfl, fun hj => absurd hn (by omega)⟩
      · exact ⟨value, [], (List.append_nil value).symm, fun h => absurd h hi, fun _ => rfl⟩
  · have hc : '%' ∉ t := fun hmem => (h _ hmem).1 rfl
    have hne : pattern ≠ ['%'] := by
      rintro rfl
      obtain ⟨a, ha⟩ := List.exists_mem_of_ne_nil t hempty
      have hmem : a ∈ ['%'] := hpattern ▸ by simp [ha]
      exact (h a ha).1 (List.mem_singleton.1 hmem)
    have hhead : pattern.head? = some '%' ↔ i ≠ 0 := hpattern ▸ head?_fenced hc hempty
    have hlast : pattern.getLast? = some '%' ↔ j ≠ 0 := hpattern ▸ getLast?_fenced hc hempty
    rw [if_neg hne]
    simp only [hhead, hlast]
    by_cases hi : i = 0 <;> by_cases hj : j = 0 <;> simp only [hi, hj, ne_eq, not_true_eq_false,
      not_false_eq_true, and_self, and_false, false_and, if_true, if_false, decide_eq_true_eq]
    · constructor
      · rintro rfl
        exact ⟨[], [], (List.append_nil _).symm, fun _ => rfl, fun _ => rfl⟩
      · rintro ⟨u, v, rfl, hu, hv⟩
        rw [hu trivial, hv trivial, List.append_nil, List.nil_append]
    · constructor
      · rintro ⟨v, rfl⟩
        exact ⟨[], v, rfl, fun _ => rfl, fun h => h.elim⟩
      · rintro ⟨u, v, rfl, hu, -⟩
        rw [hu trivial, List.nil_append]
        exact List.prefix_append t v
    · constructor
      · rintro ⟨u, rfl⟩
        exact ⟨u, [], by rw [List.append_nil], fun h => h.elim, fun _ => rfl⟩
      · rintro ⟨u, v, rfl, -, hv⟩
        rw [hv trivial, List.append_nil]
        exact List.suffix_append u t
    · constructor
      · rintro ⟨u, v, rfl⟩
        exact ⟨u, v, List.append_assoc .., fun h => h.elim, fun h => h.elim⟩
      · rintro ⟨u, v, rfl, -, -⟩
        exact ⟨u, v, List.append_assoc ..⟩

/-- A pattern with a wildcard further inside stands for a value that does not contain its middle. -/
theorem exists_missed {pattern : List Char} (h : ∃ c ∈ trimMatches '%' pattern, c = '%' ∨ c = '_') :
    Wildcard.Matches (pattern.map likeToken) (Wildcard.sample 'a' (pattern.map likeToken)) ∧
      foldedLikeMatches (Wildcard.sample 'a' (pattern.map likeToken)) pattern = false := by
  refine ⟨Wildcard.matches_sample 'a' _, ?_⟩
  obtain ⟨c, hc, hwild⟩ := h
  rw [← Bool.not_eq_true]
  intro hmatch
  have hmem : c ∈ Wildcard.sample 'a' (pattern.map likeToken) :=
    (infix_of_foldedLikeMatches hmatch).subset hc
  rcases Wildcard.mem_sample hmem with rfl | hlit
  · rcases hwild with h | h <;> cases h
  · obtain ⟨-, hany, hone⟩ := mem_of_literal hlit
    exact hwild.elim hany hone

/-! ## Lower case -/

theorem toLower_eq_iff {c d : Char} (hd : d.isAlpha = false) : c.toLower = d ↔ c = d := by
  have hkeep {c : Char} (h : c.isAlpha = false) : c.toLower = c :=
    Char.toLower_eq_of_not_isUpper (by simp_all [Char.isAlpha])
  constructor
  · intro h
    rw [← hkeep (c := c), h]
    rw [← Char.isAlpha_toLower_eq_isAlpha, h, hd]
  · rintro rfl
    exact hkeep hd

theorem trimMatches_map_toLower (hc : c.isAlpha = false) :
    trimMatches c (s.map Char.toLower) = (trimMatches c s).map Char.toLower := by
  have hsame : (fun x => x == c) ∘ Char.toLower = (fun x => x == c) := by
    funext x
    rw [Function.comp_apply, Bool.eq_iff_iff, beq_iff_eq, beq_iff_eq, toLower_eq_iff hc]
  rw [trimMatches, trimMatches, List.dropWhile_map, hsame, List.rdropWhile, List.rdropWhile,
    ← List.map_reverse, List.dropWhile_map, hsame, List.map_reverse]

theorem mem_trimMatches_toLower (hc : c.isAlpha = false) {d : Char} (hd : d.isAlpha = false) :
    d ∈ trimMatches c (s.map Char.toLower) ↔ d ∈ trimMatches c s := by
  rw [trimMatches_map_toLower hc, List.mem_map]
  constructor
  · rintro ⟨x, hx, hlower⟩
    rwa [← (toLower_eq_iff hd).1 hlower]
  · intro h
    exact ⟨d, h, (toLower_eq_iff hd).2 rfl⟩

theorem foldCase_ofList {caseInsensitive : Bool} (h : caseInsensitive = true → ∀ c ∈ s, c.toLower = c) :
    foldCase caseInsensitive (String.ofList s) = s := by
  cases caseInsensitive with
  | false => exact String.toList_ofList
  | true =>
    rw [foldCase, if_pos rfl, normalizeIdentifier, String.toList_map, String.toList_ofList]
    rw [List.map_congr_left (h rfl), List.map_id']

theorem foldCase_true (text : String) : foldCase true text = text.toList.map Char.toLower := by
  rw [foldCase, if_pos rfl, normalizeIdentifier, String.toList_map]

theorem mem_trimMatches_foldCase {text : String} {caseInsensitive : Bool} {d : Char}
    (hd : d.isAlpha = false) :
    d ∈ trimMatches '%' (foldCase caseInsensitive text) ↔ d ∈ trimMatches '%' text.toList := by
  cases caseInsensitive with
  | false => rfl
  | true => rw [foldCase_true, mem_trimMatches_toLower rfl hd]

end Trimming

theorem wildEnds_iff (pattern : String) (caseInsensitive : Bool) :
    WildEnds pattern ↔
      ∀ c ∈ trimMatches '%' (foldCase caseInsensitive pattern), c ≠ '%' ∧ c ≠ '_' := by
  have hboth {s : List Char} : (∀ c ∈ s, c ≠ '%' ∧ c ≠ '_') ↔ '%' ∉ s ∧ '_' ∉ s := by
    constructor
    · intro h
      exact ⟨fun hmem => (h _ hmem).1 rfl, fun hmem => (h _ hmem).2 rfl⟩
    · rintro ⟨hany, hone⟩ c hc
      exact ⟨fun h => hany (h ▸ hc), fun h => hone (h ▸ hc)⟩
  rw [WildEnds, hboth, hboth, mem_trimMatches_foldCase rfl, mem_trimMatches_foldCase rfl]

theorem foldCase_sample {pattern : String} {caseInsensitive : Bool} :
    foldCase caseInsensitive
        (String.ofList (Wildcard.sample 'a' ((foldCase caseInsensitive pattern).map likeToken))) =
      Wildcard.sample 'a' ((foldCase caseInsensitive pattern).map likeToken) := by
  refine foldCase_ofList fun hflag c hc => ?_
  subst hflag
  rcases Wildcard.mem_sample hc with rfl | hlit
  · rfl
  · have hpattern := (mem_of_literal hlit).1
    rw [foldCase_true] at hpattern
    obtain ⟨d, -, rfl⟩ := List.mem_map.1 hpattern
    exact Char.toLower_toLower_eq_toLower d

/-- A pattern is matched as `LIKE` says for every value exactly when its wildcards are percent signs at
    the ends. -/
theorem sqlLikeMatches_iff (pattern : String) (caseInsensitive : Bool) :
    (∀ value, sqlLikeMatches value pattern caseInsensitive = true ↔ Like value pattern caseInsensitive) ↔
      WildEnds pattern := by
  constructor
  · intro h
    by_contra hinner
    rw [wildEnds_iff pattern caseInsensitive] at hinner
    push Not at hinner
    obtain ⟨c, hc, hwild⟩ := hinner
    obtain ⟨hmatches, hmissed⟩ := exists_missed ⟨c, hc, or_iff_not_imp_left.2 hwild⟩
    have hsample := (h (String.ofList (Wildcard.sample 'a'
      ((foldCase caseInsensitive pattern).map likeToken)))).2 (by rwa [Like, foldCase_sample])
    rw [sqlLikeMatches, foldCase_sample, hmissed] at hsample
    cases hsample
  · intro h value
    exact foldedLikeMatches_iff_of_wildEnds ((wildEnds_iff pattern caseInsensitive).1 h)

/-- An underscore is looked for in the name. -/
theorem underscore_taken_literally :
    ¬ (sqlLikeMatches "axb" "a_b" false = true ↔ Like "axb" "a_b" false) := by
  rw [show sqlLikeMatches "axb" "a_b" false = false by decide, Like]
  exact fun h => absurd (h.2 (.literal 'a' (.one 'x' (.literal 'b' .nil)))) (by decide)

theorem filterAuxM_ok {p : String → Bool} {names kept : List String} :
    List.filterAuxM (fun name => (.ok (p name) : Except DataBaseErrors Bool)) names kept =
      .ok ((names.filter p).reverse ++ kept) := by
  induction names generalizing kept with
  | nil => rfl
  | cons name names ih =>
    rw [List.filterAuxM]
    refine Eq.trans ih ?_
    cases h : p name <;> simp [h]

theorem showTables_like (names : List String) (pattern : String) :
    showTables names (some (.like pattern)) = .ok (names.filter (sqlLikeMatches · pattern false)) := by
  change List.filterM (fun name => (.ok (sqlLikeMatches name pattern false) : Except DataBaseErrors Bool))
    names = _
  rw [List.filterM, filterAuxM_ok]
  simp [Bind.bind, Except.bind, pure, Except.pure]

/-- Where the wildcards are at the ends of the pattern, the statement lists the names it stands for. -/
theorem mem_showTables {names listed : List String} {pattern name : String} (h : WildEnds pattern)
    (hlisted : showTables names (some (.like pattern)) = .ok listed) :
    name ∈ listed ↔ name ∈ names ∧ Like name pattern false := by
  rw [showTables_like] at hlisted
  obtain rfl := Except.ok.inj hlisted
  rw [List.mem_filter, (sqlLikeMatches_iff pattern false).2 h name]

end ShowTables

end AntDb
