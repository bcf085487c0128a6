import SqlSyntax.Parser.Query

/-!
# Nesting

Expressions and queries nest in each other. The parsers are given the number
of levels that are left to them and fail when there is none, so they are
defined by recursion on that number.

An expression takes a level, and so does each operator that is folded onto
its operand, to the end of the expression: folding deepens the tree just as
nesting does. A query takes a level, and so does each of its set operators, to
the end of the query.

## Main results

* `expr_succ`, `query_succ` — what is nested has a level less.
* `combine_eq` — the clauses at the end of a query have the levels that its set
  operators leave.
-/

namespace SqlSyntax.Parser

/-- An operand and what is folded onto it. -/
def exprOf (sub : Nested) (fold : Expr → Parser Expr) : Parser Expr := do
  fold (← operand sub)

/-- A selection and what it is combined with. -/
def queryOf (sub : Nested) (combine : QueryBody → Parser Query) : Parser Query := do
  combine (.select (← select sub))

/-- Folds the next infix operator onto `left` if it binds above `level`, and
goes on with `deeper`, which is absent when no level is left. -/
def foldStep (max level : Nat) (left : Expr)
    (deeper : Option (InfixOperator → Parser Expr)) : Parser Expr := do
  match ← infixOperator? with
  | none => return left
  | some op =>
    if op.level ≤ level then return left
    else
      match deeper with
      | none => tooDeep max
      | some go => go op

/-- Combines the next selection with `left` and goes on with `deeper`, which is
absent when no level is left, or finishes the query. -/
def combineStep (max : Nat) (sub : Nested) (left : QueryBody)
    (deeper : Option (SetOperator → Parser Query)) : Parser Query := do
  match ← setOperator? with
  | none => queryTail sub left
  | some op =>
    match deeper with
    | none => tooDeep max
    | some go => go op

mutual

/-- An expression of operators that bind above `level`, with `depth` of `max`
levels left. -/
def expr (max depth level : Nat) : Parser Expr :=
  match depth with
  | 0 => tooDeep max
  | depth + 1 => exprOf ⟨expr max depth, query max depth⟩ (foldAbove max depth level)

/-- Folds the infix operators that bind above `level` onto `left`. -/
def foldAbove (max depth level : Nat) (left : Expr) : Parser Expr :=
  match depth with
  | 0 => foldStep max level left none
  | depth + 1 => foldStep max level left <| some fun op => do
    foldAbove max depth level (← foldInfix ⟨expr max depth, query max depth⟩ left op)

/-- A query, with `depth` of `max` levels left. -/
def query (max depth : Nat) : Parser Query :=
  match depth with
  | 0 => tooDeep max
  | depth + 1 => queryOf ⟨expr max depth, query max depth⟩ (combine max depth)

/-- Combines the selections that follow with `left` and finishes the query. -/
def combine (max depth : Nat) (left : QueryBody) : Parser Query :=
  match depth with
  | 0 => combineStep max ⟨fun _ => tooDeep max, tooDeep max⟩ left none
  | depth + 1 =>
    let sub : Nested := ⟨expr max depth, query max depth⟩
    combineStep max
      ⟨fun level => exprOf sub (foldAbove max depth level), queryOf sub (combine max depth)⟩
      left
      (some fun op => do combine max depth (← setOperand sub left op))

end

/-- The parsers with `depth` of `max` levels left. -/
def nested (max depth : Nat) : Nested := ⟨expr max depth, query max depth⟩

theorem expr_zero (max level : Nat) : expr max 0 level = tooDeep max := rfl

theorem expr_succ (max depth level : Nat) :
    expr max (depth + 1) level = exprOf (nested max depth) (foldAbove max depth level) := rfl

theorem query_zero (max : Nat) : query max 0 = tooDeep max := rfl

theorem query_succ (max depth : Nat) :
    query max (depth + 1) = queryOf (nested max depth) (combine max depth) := rfl

/-- A query is finished with the levels that its set operators leave. -/
theorem combine_eq (max depth : Nat) (left : QueryBody) :
    combine max depth left =
      combineStep max (nested max depth) left
        (match depth with
          | 0 => none
          | depth + 1 => some fun op => do
            combine max depth (← setOperand (nested max depth) left op)) := by
  cases depth <;> rfl

end SqlSyntax.Parser
