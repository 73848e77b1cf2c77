/-
  Filters against the three-valued logic of SQL.

  `evaluate` decides every comparison by the order of the entries, in which `NULL` is an entry, the
  least one.  In SQL a comparison with `NULL` is unknown.
-/
import AntDb.Lib.Kleene
import AntDb.Predicates

namespace AntDb

instance (operator : SearchOperator) (x y : ℤ) : Decidable (operator.Holds x y) :=
  match operator with
  | .equal => inferInstanceAs (Decidable (x = y))
  | .notEqual => inferInstanceAs (Decidable (x ≠ y))
  | .greaterThan => inferInstanceAs (Decidable (y < x))
  | .lessThan => inferInstanceAs (Decidable (x < y))
  | .greaterThanOrEqual => inferInstanceAs (Decidable (y ≤ x))
  | .lessThanOrEqual => inferInstanceAs (Decidable (x ≤ y))

/-! ## Truth values as entries -/

namespace DataBaseDataEntry

/-- The truth value of a condition; what is none counts as unknown. -/
def toTruth : Option DataBaseDataEntry → Option Bool
  | some (boolean flag) => some flag
  | _ => none

def ofTruth : Option Bool → DataBaseDataEntry
  | some flag => boolean flag
  | none => null

theorem toTruth_ofTruth (s : Option Bool) : toTruth (some (ofTruth s)) = s := by
  cases s <;> rfl

theorem toTruth_eq_some {value : Option DataBaseDataEntry} {flag : Bool} :
    toTruth value = some flag ↔ value = some (boolean flag) := by
  rcases value with _ | entry
  · simp [toTruth]
  · cases entry <;> simp [toTruth]

end DataBaseDataEntry

open DataBaseDataEntry Kleene SearchRequest

/-! ## SQL expressions -/

/-- What SQL says of two values of different types that are not both integers. -/
abbrev MixedComparison := SearchOperator → DataBaseDataEntry → DataBaseDataEntry → Option Bool

/-- Integers are compared as numbers, values of one type by its order. -/
def SearchOperator.sqlCompare (operator : SearchOperator) (mixed : MixedComparison)
    (a b : DataBaseDataEntry) : Option Bool :=
  if a.isNull ∨ b.isNull then none
  else match a.toInteger, b.toInteger with
    | some x, some y => some (decide (operator.Holds x y))
    | _, _ => if a.dataType = b.dataType then some (operator.compare a b) else mixed operator a b

namespace SqlExpr

section

variable (mixed : MixedComparison) (parseF64 : ParseF64) (ctx : RowEvaluationContext)

/-- The value of an expression on a row; conditions have the values TRUE, FALSE and NULL. -/
def sqlValue : SqlExpr → Option DataBaseDataEntry
  | .value literal => (parseSqlValue parseF64 literal).toOption
  | .identifier name => (ctx.resolve none name).toOption
  | .compoundIdentifier first rest =>
    match rest.getLast? with
    | none => (ctx.resolve none first).toOption
    | some last => (ctx.resolve (some first) last).toOption
  | .binaryOp left op right =>
    match op with
    | .and => some (ofTruth (and (toTruth (sqlValue left)) (toTruth (sqlValue right))))
    | .or => some (ofTruth (or (toTruth (sqlValue left)) (toTruth (sqlValue right))))
    | op =>
      match SearchOperator.fromSqlOperator op, sqlValue left, sqlValue right with
      | .ok operator, some a, some b => some (ofTruth (operator.sqlCompare mixed a b))
      | _, _, _ => none
  | .unaryNot expr => some (ofTruth (not (toTruth (sqlValue expr))))
  | .nested expr => sqlValue expr
  | .isNull expr => (sqlValue expr).map fun entry => .boolean entry.isNull
  | .isNotNull expr => (sqlValue expr).map fun entry => .boolean !entry.isNull
  | .other _ => none

/-- The truth value of a condition. -/
def truth (expr : SqlExpr) : Option Bool := toTruth (expr.sqlValue mixed parseF64 ctx)

end

end SqlExpr

/-- Comparing the entries says of `a` and `b` what SQL says or, of a comparison with `NULL`, what does
    no harm there: false, or true under a negation. -/
def SearchOperator.Harmless (operator : SearchOperator) (mixed : MixedComparison) (negated : Bool)
    (a b : DataBaseDataEntry) : Prop :=
  if a.isNull ∨ b.isNull then operator.compare a b = negated
  else match a.toInteger, b.toInteger with
    | some x, some y => operator.Undisturbed a.dataType b.dataType x y
    | _, _ => a.dataType = b.dataType ∨
      (operator.compare a b = !negated ↔ mixed operator a b = some !negated)

namespace SqlExpr

section

variable (mixed : MixedComparison) (parseF64 : ParseF64) (ctx : RowEvaluationContext)

/-- The comparisons that matter on the row, from left to right, are harmless. -/
def Harmless (negated : Bool) : SqlExpr → Prop
  | .binaryOp left op right =>
    match op with
    | .and => left.Harmless negated ∧
      (AndNeeds negated (left.truth mixed parseF64 ctx) → right.Harmless negated)
    | .or => left.Harmless negated ∧
      (OrNeeds negated (left.truth mixed parseF64 ctx) → right.Harmless negated)
    | op => ∀ operator, SearchOperator.fromSqlOperator op = .ok operator →
      ∀ a ∈ left.sqlValue mixed parseF64 ctx, ∀ b ∈ right.sqlValue mixed parseF64 ctx,
        operator.Harmless mixed negated a b
  | .unaryNot expr => expr.Harmless (!negated)
  | .nested expr => expr.Harmless negated
  | _ => True

end

/-- There is no AND and no OR outside of comparisons. -/
def Unjoined : SqlExpr → Prop
  | .binaryOp _ op _ => op ≠ .and ∧ op ≠ .or
  | .unaryNot expr | .nested expr => expr.Unjoined
  | _ => True

end SqlExpr

variable {mixed : MixedComparison} {parseF64 : ParseF64} {ctx : RowEvaluationContext} {negated b : Bool}
  {e : SqlExpr} {p : SearchExpression}

theorem SearchOperator.follows_iff {operator : SearchOperator} {x y : DataBaseDataEntry} :
    Follows negated (operator.compare x y) (operator.sqlCompare mixed x y) ↔
      operator.Harmless mixed negated x y := by
  unfold sqlCompare Harmless
  by_cases hnull : x.isNull = true ∨ y.isNull = true
  · rw [if_pos hnull, if_pos hnull]
    exact follows_none
  have hother : Follows negated (operator.compare x y)
      (if x.dataType = y.dataType then some (operator.compare x y) else mixed operator x y) ↔
        x.dataType = y.dataType ∨
          (operator.compare x y = !negated ↔ mixed operator x y = some !negated) := by
    split_ifs with htype
    · exact iff_of_true (follows_some.2 rfl) (Or.inl htype)
    · exact (or_iff_right htype).symm
  rw [if_neg hnull, if_neg hnull]
  cases hx : x.toInteger with
  | none => exact hother
  | some m =>
    cases hy : y.toInteger with
    | none => exact hother
    | some n =>
      dsimp only
      rw [follows_some, Bool.eq_iff_iff, decide_eq_true_iff]
      exact compare_holds_iff hx hy

namespace SqlExpr

/-- Columns resolve by their normalized names. -/
theorem resolve_normalized (table : Option String) (column : String) :
    ctx.resolve (table.map normalizeIdentifier) (normalizeIdentifier column) = ctx.resolve table column := by
  cases table <;> simp only [RowEvaluationContext.resolve, normalizeIdentifier_normalize, Option.map]

theorem ok_of_bind {α β : Type} {x : Except DataBaseErrors α} {f : α → Except DataBaseErrors β} {y : β}
    (h : (x >>= f) = .ok y) : ∃ a, x = .ok a ∧ f a = .ok y := by
  cases x with
  | error err => cases h
  | ok a => exact ⟨a, rfl, h⟩

theorem parse_binaryOp {left right : SqlExpr} {op : BinaryOperator}
    (h : parseSqlExpression parseF64 (.binaryOp left op right) = .ok p) :
    ∃ l r, parseSqlExpression parseF64 left = .ok l ∧ parseSqlExpression parseF64 right = .ok r ∧
      (op = .and ∧ p = .and l r ∨ op = .or ∧ p = .or l r ∨ op ≠ .and ∧ op ≠ .or ∧
        ∃ operator, SearchOperator.fromSqlOperator op = .ok operator ∧ p = .comparison l operator r) := by
  have hcomparison : ∀ op : BinaryOperator, (do
      let l ← parseSqlExpression parseF64 left
      let operator ← SearchOperator.fromSqlOperator op
      return SearchExpression.comparison l operator (← parseSqlExpression parseF64 right)) = .ok p →
      ∃ l r operator, parseSqlExpression parseF64 left = .ok l ∧
        parseSqlExpression parseF64 right = .ok r ∧
          SearchOperator.fromSqlOperator op = .ok operator ∧ p = .comparison l operator r := by
    intro op h
    obtain ⟨l, hl, h⟩ := ok_of_bind h
    obtain ⟨operator, hop, h⟩ := ok_of_bind h
    obtain ⟨r, hr, h⟩ := ok_of_bind h
    exact ⟨l, r, operator, hl, hr, hop, (Except.ok.inj h).symm⟩
  cases op with
  | and =>
    obtain ⟨l, hl, h⟩ := ok_of_bind h
    obtain ⟨r, hr, h⟩ := ok_of_bind h
    exact ⟨l, r, hl, hr, Or.inl ⟨rfl, (Except.ok.inj h).symm⟩⟩
  | or =>
    obtain ⟨l, hl, h⟩ := ok_of_bind h
    obtain ⟨r, hr, h⟩ := ok_of_bind h
    exact ⟨l, r, hl, hr, Or.inr (Or.inl ⟨rfl, (Except.ok.inj h).symm⟩)⟩
  | _ =>
    obtain ⟨l, r, operator, hl, hr, hop, rfl⟩ := hcomparison _ h
    exact ⟨l, r, hl, hr, Or.inr (Or.inr ⟨nofun, nofun, operator, hop, rfl⟩)⟩

/-- What an operand of a comparison resolves to is its value. -/
theorem sqlValue_of_resolved {value : DataBaseDataEntry} (hparse : parseSqlExpression parseF64 e = .ok p)
    (h : p.resolveValue ctx = .ok value) : e.sqlValue mixed parseF64 ctx = some value := by
  induction e generalizing p with
  | value literal =>
    unfold parseSqlExpression at hparse
    cases hliteral : parseSqlValue parseF64 literal with
    | error err => rw [hliteral] at hparse; cases hparse
    | ok entry =>
      rw [hliteral] at hparse
      cases hparse
      rw [sqlValue, hliteral]
      exact congrArg some (Except.ok.inj h)
  | identifier name =>
    cases hparse
    rw [sqlValue, ← resolve_normalized none]
    exact congrArg Except.toOption h
  | compoundIdentifier first rest =>
    unfold parseSqlExpression at hparse
    unfold sqlValue
    cases hlast : rest.getLast? with
    | none =>
      rw [hlast] at hparse
      cases hparse
      dsimp only
      rw [← resolve_normalized none]
      exact congrArg Except.toOption h
    | some last =>
      rw [hlast] at hparse
      cases hparse
      dsimp only
      rw [← resolve_normalized (some first)]
      exact congrArg Except.toOption h
  | nested expr ih =>
    unfold parseSqlExpression at hparse
    unfold sqlValue
    exact ih hparse h
  | binaryOp left op right =>
    obtain ⟨l, r, -, -, ⟨-, rfl⟩ | ⟨-, rfl⟩ | ⟨-, -, operator, -, rfl⟩⟩ := parse_binaryOp hparse
    · cases h
    · cases h
    · cases h
  | other debug => cases hparse
  | unaryNot expr | isNull expr | isNotNull expr =>
    unfold parseSqlExpression at hparse
    cases hexpr : parseSqlExpression parseF64 expr with
    | error err => rw [hexpr] at hparse; cases hparse
    | ok inner => rw [hexpr] at hparse; cases hparse; cases h

theorem truth_of_resolved (hparse : parseSqlExpression parseF64 e = .ok p)
    (h : (p.resolveValue ctx >>= SearchExpression.toBoolean) = .ok b) :
    e.truth mixed parseF64 ctx = some b := by
  cases hvalue : p.resolveValue ctx with
  | error err => rw [hvalue] at h; cases h
  | ok entry =>
    rw [hvalue] at h
    have hboolean : entry = .boolean b := by
      cases entry <;> cases h
      rfl
    rw [truth, sqlValue_of_resolved hparse hvalue, hboolean]
    rfl

/-- A column or a literal as a condition. -/
theorem evaluate_scalar (hscalar : (∃ v, e = .value v) ∨ (∃ name, e = .identifier name) ∨
      ∃ first rest, e = .compoundIdentifier first rest)
    (hparse : parseSqlExpression parseF64 e = .ok p) :
    p.evaluate ctx = p.resolveValue ctx >>= SearchExpression.toBoolean := by
  rcases hscalar with ⟨literal, rfl⟩ | ⟨name, rfl⟩ | ⟨first, rest, rfl⟩
  · unfold parseSqlExpression at hparse
    cases hliteral : parseSqlValue parseF64 literal with
    | error err => rw [hliteral] at hparse; cases hparse
    | ok entry => rw [hliteral] at hparse; cases hparse; rfl
  · cases hparse; rfl
  · unfold parseSqlExpression at hparse
    cases hlast : rest.getLast? with
    | none => rw [hlast] at hparse; cases hparse; rfl
    | some last => rw [hlast] at hparse; cases hparse; rfl

/-- `IS NULL` is an equality with `NULL`, `IS NOT NULL` an inequality. -/
theorem eq_null (entry : DataBaseDataEntry) : entry.eq .null = entry.isNull := by
  rw [Bool.eq_iff_iff, DataBaseDataEntry.eq_iff]
  cases entry <;> simp [DataBaseDataEntry.ordKey, DataBaseDataEntry.isNull]

section

variable {left right : SqlExpr} {op : BinaryOperator} {operator : SearchOperator} {x y : DataBaseDataEntry}
  (hop : SearchOperator.fromSqlOperator op = .ok operator)
  (hleft : left.sqlValue mixed parseF64 ctx = some x) (hright : right.sqlValue mixed parseF64 ctx = some y)

include hop hleft hright

theorem truth_comparison :
    (binaryOp left op right).truth mixed parseF64 ctx = operator.sqlCompare mixed x y := by
  unfold truth sqlValue
  rw [hleft, hright]
  cases op <;> cases hop <;> exact toTruth_ofTruth _

theorem harmless_comparison :
    (binaryOp left op right).Harmless mixed parseF64 ctx negated ↔ operator.Harmless mixed negated x y := by
  have hcompared : (∀ operator', SearchOperator.fromSqlOperator op = .ok operator' →
      ∀ a ∈ left.sqlValue mixed parseF64 ctx, ∀ b ∈ right.sqlValue mixed parseF64 ctx,
        operator'.Harmless mixed negated a b) ↔ operator.Harmless mixed negated x y := by
    rw [hleft, hright]
    constructor
    · exact fun h => h operator hop x rfl y rfl
    · intro h operator' hop' a ha b hb
      rwa [← Option.some.inj ha, ← Option.some.inj hb, ← Except.ok.inj (hop.symm.trans hop')]
  cases op with
  | and => cases hop
  | or => cases hop
  | _ => exact hcompared

end

/-- **What the evaluation follows.**  By induction on the expression, for both signs. -/
theorem follows_of_harmless (hparse : parseSqlExpression parseF64 e = .ok p)
    (heval : p.evaluate ctx = .ok b) :
    (e.Harmless mixed parseF64 ctx negated → Follows negated b (e.truth mixed parseF64 ctx)) ∧
      (e.Unjoined → Follows negated b (e.truth mixed parseF64 ctx) →
        e.Harmless mixed parseF64 ctx negated) := by
  induction e generalizing negated p b with
  | value literal =>
    rw [truth_of_resolved hparse ((evaluate_scalar (Or.inl ⟨literal, rfl⟩) hparse).symm.trans heval)]
    exact ⟨fun _ => follows_some.2 rfl, fun _ _ => trivial⟩
  | identifier name =>
    rw [truth_of_resolved hparse
      ((evaluate_scalar (Or.inr (Or.inl ⟨name, rfl⟩)) hparse).symm.trans heval)]
    exact ⟨fun _ => follows_some.2 rfl, fun _ _ => trivial⟩
  | compoundIdentifier first rest =>
    rw [truth_of_resolved hparse
      ((evaluate_scalar (Or.inr (Or.inr ⟨first, rest, rfl⟩)) hparse).symm.trans heval)]
    exact ⟨fun _ => follows_some.2 rfl, fun _ _ => trivial⟩
  | nested expr ih =>
    unfold parseSqlExpression at hparse
    exact ih hparse heval
  | unaryNot expr ih =>
    unfold parseSqlExpression at hparse
    cases hexpr : parseSqlExpression parseF64 expr with
    | error err => rw [hexpr] at hparse; cases hparse
    | ok inner =>
      rw [hexpr] at hparse
      cases hparse
      have heval : (do return !(← inner.evaluate ctx) : Except DataBaseErrors Bool) = .ok b := heval
      cases hinner : inner.evaluate ctx with
      | error err => rw [hinner] at heval; cases heval
      | ok flag =>
        rw [hinner] at heval
        cases heval
        have htruth : (unaryNot expr).truth mixed parseF64 ctx = not (expr.truth mixed parseF64 ctx) :=
          toTruth_ofTruth _
        rw [htruth, follows_not]
        exact ih hexpr hinner
  | isNull expr =>
    unfold parseSqlExpression at hparse
    cases hexpr : parseSqlExpression parseF64 expr with
    | error err => rw [hexpr] at hparse; cases hparse
    | ok inner =>
      rw [hexpr] at hparse
      cases hparse
      cases hvalue : inner.resolveValue ctx with
      | error err =>
        rw [SearchExpression.evaluate, hvalue] at heval
        cases heval
      | ok entry =>
        rw [SearchExpression.evaluate, hvalue] at heval
        cases heval
        have htruth : (isNull expr).truth mixed parseF64 ctx = some entry.isNull := by
          rw [truth, sqlValue, sqlValue_of_resolved hexpr hvalue]
          rfl
        rw [htruth]
        exact ⟨fun _ => follows_some.2 (eq_null entry), fun _ _ => trivial⟩
  | isNotNull expr =>
    unfold parseSqlExpression at hparse
    cases hexpr : parseSqlExpression parseF64 expr with
    | error err => rw [hexpr] at hparse; cases hparse
    | ok inner =>
      rw [hexpr] at hparse
      cases hparse
      cases hvalue : inner.resolveValue ctx with
      | error err =>
        rw [SearchExpression.evaluate, hvalue] at heval
        cases heval
      | ok entry =>
        rw [SearchExpression.evaluate, hvalue] at heval
        cases heval
        have htruth : (isNotNull expr).truth mixed parseF64 ctx = some !entry.isNull := by
          rw [truth, sqlValue, sqlValue_of_resolved hexpr hvalue]
          rfl
        rw [htruth]
        exact ⟨fun _ => follows_some.2 (congrArg (!·) (eq_null entry)), fun _ _ => trivial⟩
  | other debug => cases hparse
  | binaryOp left op right ihl ihr =>
    obtain ⟨l, r, hl, hr, ⟨rfl, rfl⟩ | ⟨rfl, rfl⟩ | ⟨-, -, operator, hop, rfl⟩⟩ :=
      parse_binaryOp hparse
    · have htruth : (binaryOp left .and right).truth mixed parseF64 ctx =
          and (left.truth mixed parseF64 ctx) (right.truth mixed parseF64 ctx) := toTruth_ofTruth _
      rw [htruth]
      refine ⟨fun h => ?_, fun h => absurd rfl h.1⟩
      obtain ⟨hleft, hright⟩ := h
      rw [SearchExpression.evaluate] at heval
      cases hflag : l.evaluate ctx with
      | error err => rw [hflag] at heval; cases heval
      | ok flag =>
        rw [hflag] at heval
        have hfollows := (ihl hl hflag).1 hleft
        cases flag with
        | true => exact follows_and hfollows fun hneeds => (ihr hr heval).1 (hright hneeds)
        | false =>
          cases heval
          exact follows_and_false hfollows
    · have htruth : (binaryOp left .or right).truth mixed parseF64 ctx =
          or (left.truth mixed parseF64 ctx) (right.truth mixed parseF64 ctx) := toTruth_ofTruth _
      rw [htruth]
      refine ⟨fun h => ?_, fun h => absurd rfl h.2⟩
      obtain ⟨hleft, hright⟩ := h
      rw [SearchExpression.evaluate] at heval
      cases hflag : l.evaluate ctx with
      | error err => rw [hflag] at heval; cases heval
      | ok flag =>
        rw [hflag] at heval
        have hfollows := (ihl hl hflag).1 hleft
        cases flag with
        | false => exact follows_or hfollows fun hneeds => (ihr hr heval).1 (hright hneeds)
        | true =>
          cases heval
          exact follows_or_true hfollows
    · rw [SearchExpression.evaluate] at heval
      cases hx : l.resolveValue ctx with
      | error err => rw [hx] at heval; cases heval
      | ok x =>
        cases hy : r.resolveValue ctx with
        | error err => rw [hx, hy] at heval; cases heval
        | ok y =>
          rw [hx, hy] at heval
          cases heval
          have hleft : left.sqlValue mixed parseF64 ctx = some x := sqlValue_of_resolved hl hx
          have hright : right.sqlValue mixed parseF64 ctx = some y := sqlValue_of_resolved hr hy
          rw [truth_comparison hop hleft hright, SearchOperator.follows_iff,
            harmless_comparison hop hleft hright]
          exact ⟨id, fun _ => id⟩

/-- **WHERE and three-valued logic.**  A row matches exactly when the condition is TRUE if the
    comparisons that matter are harmless; and only then if nothing is joined by AND or OR, which can
    make up for a comparison that is not. -/
theorem evaluate_three_valued (hparse : parseSqlExpression parseF64 e = .ok p)
    (heval : p.evaluate ctx = .ok b) :
    (e.Harmless mixed parseF64 ctx false →
      (b = true ↔ e.sqlValue mixed parseF64 ctx = some (.boolean true))) ∧
    (e.Unjoined → ((b = true ↔ e.sqlValue mixed parseF64 ctx = some (.boolean true)) ↔
      e.Harmless mixed parseF64 ctx false)) := by
  have hfollows : (e.Harmless mixed parseF64 ctx false → Follows false b (e.truth mixed parseF64 ctx)) ∧
      (e.Unjoined → Follows false b (e.truth mixed parseF64 ctx) →
        e.Harmless mixed parseF64 ctx false) := follows_of_harmless hparse heval
  have hiff : Follows false b (e.truth mixed parseF64 ctx) ↔
      (b = true ↔ e.sqlValue mixed parseF64 ctx = some (.boolean true)) := by
    rw [Follows, truth, toTruth_eq_some]
    rfl
  rw [hiff] at hfollows
  exact ⟨hfollows.1, fun hunjoined => ⟨hfollows.2 hunjoined, hfollows.1⟩⟩

/-- `NOT (id < 3)` -/
def notLess : SqlExpr := .unaryNot (.nested (.binaryOp (.identifier "id") .lt (.value (.number "3"))))

theorem evaluate_three_valued_notLess :
    (notLess.Harmless (fun _ _ _ => none) noFloats (idRow (.integerI32 5)) false →
      (true = true ↔ notLess.sqlValue (fun _ _ _ => none) noFloats (idRow (.integerI32 5)) =
        some (.boolean true))) ∧
    (notLess.Unjoined →
      ((true = true ↔ notLess.sqlValue (fun _ _ _ => none) noFloats (idRow (.integerI32 5)) =
        some (.boolean true)) ↔
          notLess.Harmless (fun _ _ _ => none) noFloats (idRow (.integerI32 5)) false)) :=
  @evaluate_three_valued _ _ _ true notLess
    (.not (.comparison (.column "id") .lessThan (.literal (.integerI32 3)))) (by decide +kernel)
    (by decide +kernel)

/-- `id <> 5` matches a row whose `id` is `NULL`. -/
theorem null_differs_from_five :
    parseSqlExpression noFloats (.binaryOp (.identifier "id") .notEq (.value (.number "5"))) =
      .ok (.comparison (.column "id") .notEqual (.literal (.integerI32 5))) ∧
    SearchExpression.evaluate (idRow .null)
      (.comparison (.column "id") .notEqual (.literal (.integerI32 5))) = .ok true ∧
    ∀ mixed : MixedComparison,
      (binaryOp (.identifier "id") .notEq (.value (.number "5"))).sqlValue mixed noFloats (idRow .null) ≠
        some (.boolean true) := by
  refine ⟨by decide +kernel, by decide +kernel, fun mixed => ?_⟩
  have hid : sqlValue mixed noFloats (idRow .null) (.identifier "id") = some .null := by
    show Except.toOption ((idRow .null).resolve none "id") = _
    decide +kernel
  have hfive : sqlValue mixed noFloats (idRow .null) (.value (.number "5")) = some (.integerI32 5) := by
    show Except.toOption (parseSqlValue noFloats (.number "5")) = _
    decide +kernel
  unfold sqlValue
  rw [hid, hfive]
  exact nofun

end SqlExpr

end AntDb
