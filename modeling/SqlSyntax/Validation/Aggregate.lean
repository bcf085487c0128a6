import SqlSyntax.Canonical.Statement
import SqlSyntax.Tree.Node
import SqlSyntax.Unicode.LowerCase

/-!
# Aggregates and grouping

What belongs to an expression itself ends at subqueries: they group and
aggregate on their own. Within an expression the search for aggregates ends at
each aggregate, and the search for ungrouped columns ends at aggregates and at
expressions that are grouped by.

An expression counts as grouped by when its canonical text is that of a
grouping key, letter case aside.

## Main results

* `Expr.reach_eq` — a search is the expression and, unless it ends there, the
  searches of its operands.
-/

namespace SqlSyntax

open Unicode (lowerCase)

namespace Expr

/-- The expressions that are reached from an expression through operands, not
going below those where the search ends. -/
def reach (ends : Expr → Bool) (e : Expr) : List Expr :=
  e :: if ends e then [] else e.operands.attach.flatMap fun c => reach ends c.1
termination_by sizeOf e
decreasing_by exact sizeOf_lt_of_mem_operands c.2

theorem reach_eq (ends : Expr → Bool) (e : Expr) :
    e.reach ends = e :: if ends e then [] else e.operands.flatMap (reach ends) := by
  rw [reach, List.flatMap_subtype (g := reach ends) (fun _ _ => rfl), List.unattach_attach]

/-- The name of the aggregate that an expression calls, if it is a call of
one. -/
def aggregate? : Expr → Option QualifiedName
  | ⟨_, .call function _ _⟩ => if function.isAggregate then some function else none
  | _ => none

/-- The outermost aggregates in an expression and where they stand. -/
def aggregates (e : Expr) : List (QualifiedName × Span) :=
  (e.reach fun c => c.aggregate?.isSome).filterMap fun c => c.aggregate?.map (·, c.span)

/-- The canonical text of an expression in lower case. -/
def groupingText (e : Expr) : String := lowerCase (render e.pieces)

/-- The columns in an expression that are neither grouped nor aggregated, where
`keys` are the texts that are grouped by. -/
def ungroupedColumns (keys : List String) (e : Expr) : List (QualifiedName × Span) :=
  (e.reach fun c => keys.contains c.groupingText || c.aggregate?.isSome).filterMap fun c =>
    match c.form with
    | .column name => if keys.contains c.groupingText then none else some (name, c.span)
    | _ => none

end Expr

/-! ## Selections -/

namespace SelectItem

def expr? : SelectItem → Option Expr
  | .expr _ e _ => some e
  | _ => none

def alias? : SelectItem → Option Identifier
  | .expr _ _ label => label
  | _ => none

end SelectItem

namespace Select

/-- The expressions that the groups of a selection have to provide: those
projected, and the condition on groups. -/
def groupExprs (s : Select) : List Expr :=
  s.projection.filterMap SelectItem.expr? ++ s.having.toList

/-- Whether a selection aggregates. -/
def isAggregated (s : Select) : Bool := s.groupExprs.any fun e => !e.aggregates.isEmpty

/-- Whether the result of a selection has a row for a group. -/
def isGrouped (s : Select) : Bool := s.groupBy.isSome || s.isAggregated

/-- The texts that a selection groups by. -/
def groupingTexts (s : Select) : List String :=
  match s.groupBy with
  | none => []
  | some g => g.keys.map Expr.groupingText

/-- The aliases of the columns of a selection. -/
def aliases (s : Select) : List Identifier := s.projection.filterMap SelectItem.alias?

end Select

end SqlSyntax
