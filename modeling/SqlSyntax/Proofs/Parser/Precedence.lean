import SqlSyntax.Proofs.Grammar.Admissible
import SqlSyntax.Proofs.Parser.Text
import SqlSyntax.Proofs.Token.Number

/-!
# Parsed trees are well formed

What the parser returns satisfies the conditions of the syntax at every node,
with no more levels of nesting than it was given. Precedence is one of them:
operands stand where the levels of their operators put them.

## Main results

* `parseStatement_admissible` — the tree of a text is admissible at the limit on
  its depth.
* `parseStatement_respectsLevels` — every expression in it respects precedence.
-/

namespace SqlSyntax

/-- The tree of a text is well formed and within the limit on its depth. -/
theorem parseStatement_admissible {limits : Limits} {sql : String} {s : Statement}
    (h : parseStatement limits sql = .ok s) :
    (Node.statement s).Admissible limits.maxDepth := by
  obtain ⟨ts, us, t, stream, statement, -⟩ := parseStatement_sound h
  refine statement.admissible (Grammar.phrases_admits ..) fun u hu kind => ?_
  have read : u ∈ (TokenStream.ofString sql).tokens := by simp [stream, hu]
  exact TokenStream.isNumber_of_mem read kind

theorem parseStatement_wellFormed {limits : Limits} {sql : String} {s : Statement}
    (h : parseStatement limits sql = .ok s) : s.WellFormed :=
  (parseStatement_admissible h).wellFormed

/-- Every expression of a parsed statement respects precedence. -/
theorem parseStatement_respectsLevels {limits : Limits} {sql : String} {s : Statement}
    (h : parseStatement limits sql = .ok s) : ∀ e ∈ s.expressions, e.RespectsLevels := by
  rw [Statement.expressions_eq]
  exact Node.respectsLevels (n := .statement s) (parseStatement_wellFormed h)

/-- A text of sums under `NOT`, comparisons and `AND`. -/
theorem respectsLevels_of_mixed_operators :
    ∃ s, parseStatement {} "SELECT NOT a + b * c = d AND e IS NULL" = .ok s ∧
      s.expressions.length = 11 ∧ ∀ e ∈ s.expressions, e.RespectsLevels := by
  have parsed : (match parseStatement {} "SELECT NOT a + b * c = d AND e IS NULL" with
      | .ok s => s.expressions.length
      | .error _ => 0) = 11 := by decide +kernel
  cases h : parseStatement {} "SELECT NOT a + b * c = d AND e IS NULL" with
  | error => simp [h] at parsed
  | ok s => exact ⟨s, rfl, by simpa only [h] using parsed, parseStatement_respectsLevels h⟩

/-- The left operand of a sum. -/
def Expr.leftOfSum? : Expr → Option Expr
  | ⟨_, .binary .plus l _⟩ => some l
  | _ => none

theorem Expr.leftOfSum?_eq_some {e l : Expr} (h : e.leftOfSum? = some l) :
    ∃ span r, e = ⟨span, .binary .plus l r⟩ := by
  unfold leftOfSum? at h
  split at h
  · cases h
    exact ⟨_, _, rfl⟩
  · cases h

/-- An `IS` predicate ends with its test, so an operator of a higher level can
come behind it and take it as its left operand. -/
theorem left_operand_below_sum :
    ∃ s, parseStatement {} "SELECT a IS NULL + 1" = .ok s ∧
      ∃ span l r, (⟨span, .binary .plus l r⟩ : Expr) ∈ s.expressions ∧
        ∃ k ∈ l.level?, k < BinaryOperator.plus.level := by
  have parsed : (match parseStatement {} "SELECT a IS NULL + 1" with
      | .ok s => s.expressions.any fun e =>
        e.leftOfSum?.any fun l => l.level?.any (· < BinaryOperator.plus.level)
      | .error _ => false) = true := by decide +kernel
  cases h : parseStatement {} "SELECT a IS NULL + 1" with
  | error => simp [h] at parsed
  | ok s =>
    simp only [h, List.any_eq_true] at parsed
    obtain ⟨e, he, sum⟩ := parsed
    obtain ⟨l, hl, below⟩ := Option.any_eq_true _ _ |>.1 sum
    obtain ⟨k, hk, lower⟩ := Option.any_eq_true _ _ |>.1 below
    obtain ⟨span, r, rfl⟩ := Expr.leftOfSum?_eq_some hl
    exact ⟨s, rfl, span, l, r, he, k, hk, of_decide_eq_true lower⟩

end SqlSyntax
