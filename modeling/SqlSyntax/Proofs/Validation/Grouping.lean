import Mathlib.Data.List.Flatten
import Mathlib.Data.List.Perm.Subperm
import SqlSyntax.Parser.Statement
import SqlSyntax.Proofs.Validation.Codes
import SqlSyntax.Proofs.Validation.Searches

/-!
# Columns in grouped selections

In a selection that groups or aggregates, a column has one value for each group when
it is inside an aggregate, or is or is inside what is grouped by. Which expressions
count as grouped by is a parameter here. The rules compare canonical texts in lower
case, which makes no difference between strings that differ in letter case only.

The condition on groups can refer to the columns of the result by their aliases, so
a column there that is named like an alias is left alone. What becomes of such a
column in the projection is left open.

## Main results

* `Select.isGrouped_eq` — which selections group or aggregate.
* `Select.ungroupedColumns`, `Select.strayColumns` — the columns without one value in
  each group, all of them and those that are not named like an alias.
* `Statement.reports_ungroupedColumn_subperm` — all of the latter are warned about, each
  once, and nothing that is not one of the former.
* `unreported_column_of_string` — with strings told apart, this misses a column.
-/

namespace SqlSyntax

open Unicode (lowerCase)

/-! ## Grouping -/

/-- Whether the canonical texts of two expressions are the same in lower case. -/
def Expr.sameText (a b : Expr) : Bool := a.groupingText = b.groupingText

namespace Select

/-- The expressions that a selection projects. -/
def projected (s : Select) : List Expr := s.projection.filterMap SelectItem.expr?

/-- The expressions that a selection groups by. -/
def keys (s : Select) : List Expr := s.groupBy.toList.flatMap (·.keys)

/-- A selection groups or aggregates when it has a `GROUP BY`, or when there is an
aggregate in what it projects or in its condition on groups, outside the queries there. -/
theorem isGrouped_eq (s : Select) : s.isGrouped =
    (s.groupBy.isSome || (s.projected ++ s.having.toList).any Expr.hasAggregate) := by
  have aggregated (e : Expr) : (!e.aggregates.isEmpty) = e.hasAggregate := by
    rw [e.aggregates_isEmpty, Bool.not_not]
  simp only [isGrouped, isAggregated, aggregated]
  rfl

section Columns

variable (same : Expr → Expr → Bool)

/-- The columns in some of the expressions of a selection that are neither in an
aggregate nor in a query, and that neither are nor are in an expression that is the
same as one that is grouped by. -/
def columnsIn (s : Select) (es : List Expr) : List (QualifiedName × Span) :=
  es.flatMap (Expr.ungrouped fun e => s.keys.any (same e))

/-- Warnings about the columns without one value in each group, if there are groups. -/
def ungroupedColumns (s : Select) : List Warning :=
  if s.groupBy.isSome || (s.projected ++ s.having.toList).any Expr.hasAggregate then
    (s.columnsIn same s.projected ++
      (s.columnsIn same s.having.toList).filter fun c => !s.isAlias c.1).map
        fun (column, span) => ⟨.ungroupedColumn column, span⟩
  else []

/-- Warnings about those of the columns without one value in each group that are not
named like an alias, in the projection either. -/
def strayColumns (s : Select) : List Warning :=
  if s.groupBy.isSome || (s.projected ++ s.having.toList).any Expr.hasAggregate then
    ((s.columnsIn same (s.projected ++ s.having.toList)).filter fun c => !s.isAlias c.1).map
      fun (column, span) => ⟨.ungroupedColumn column, span⟩
  else []

theorem strayColumns_sublist (s : Select) :
    (s.strayColumns same).Sublist (s.ungroupedColumns same) := by
  unfold strayColumns ungroupedColumns
  split
  · refine List.Sublist.map _ ?_
    rw [columnsIn, List.flatMap_append, List.filter_append]
    exact List.filter_sublist.append_right _
  · exact .slnil

end Columns

theorem contains_groupingTexts (s : Select) (e : Expr) :
    s.groupingTexts.contains e.groupingText = s.keys.any e.sameText := by
  rw [groupingTexts, keys]
  cases s.groupBy with
  | none => rfl
  | some g =>
    rw [List.contains_eq_any_beq, List.any_map, Option.toList_some, List.flatMap_singleton]
    rfl

/-- The rules warn about the columns that are not named like an alias. -/
theorem reports_ungroupedColumn (s : Select) :
    s.reports .ungroupedColumn = s.strayColumns Expr.sameText := by
  have search : Expr.ungroupedColumns s.groupingTexts =
      Expr.ungrouped fun e => s.keys.any e.sameText := by
    funext e
    rw [Expr.ungroupedColumns_eq_ungrouped]
    simp only [contains_groupingTexts]
  rw [reports, strayColumns, ← isGrouped_eq, ungroupedWarnings, columnsIn, search]
  rfl

end Select

/-! ## Statements -/

/-- The warnings about a node that is a selection. -/
def Node.ofSelect (warnings : Select → List Warning) (n : Node) : List Warning :=
  n.select?.toList.flatMap warnings

/-- In the selections of a statement, all columns are warned about that have no one value
in each group and are not named like an alias, each once. In the projections, other
columns are warned about at most once, and only when they are named like an alias. -/
theorem Statement.reports_ungroupedColumn_subperm (s : Statement) :
    (s.nodes.flatMap (Node.ofSelect (Select.strayColumns Expr.sameText))).Subperm
      (s.reports .ungroupedColumn) ∧
    (s.reports .ungroupedColumn).Subperm
      (s.nodes.flatMap (Node.ofSelect (Select.ungroupedColumns Expr.sameText))) := by
  have nodes : s.nodes = s.places.map Place.node :=
    (Place.map_node_preorder ⟨[], .statement s⟩).symm
  have silent : s.places.flatMap
      (fun p => p.warnings.filter fun w => w.code = .ungroupedColumn) = [] := by
    refine List.flatMap_eq_nil_iff.2 fun p _ => Place.filter_code ?_
    cases p.node <;> simp [Node.codes]
  have found : (s.reports .ungroupedColumn).Perm
      (s.nodes.flatMap (Node.ofSelect (Select.strayColumns Expr.sameText))) := by
    refine (s.reports_perm .ungroupedColumn).trans (.of_eq ?_)
    rw [silent, List.nil_append, nodes, List.flatMap_map]
    simp only [Select.reports_ungroupedColumn]
    rfl
  have fewer : (s.nodes.flatMap (Node.ofSelect (Select.strayColumns Expr.sameText))).Sublist
      (s.nodes.flatMap (Node.ofSelect (Select.ungroupedColumns Expr.sameText))) :=
    .flatMap_right _ fun n _ => .flatMap_right _ fun t _ => t.strayColumns_sublist _
  exact ⟨found.symm.subperm, found.subperm.trans fewer.subperm⟩

/-! ## Strings told apart -/

/-- A piece without the letter case of a name. -/
def Piece.caseless : Piece → Piece
  | .identifier value => .identifier (lowerCase value)
  | p => p

/-- Whether expressions are the same but for their spans and the letter case of names. -/
def Expr.sameButNames (a b : Expr) : Bool :=
  a.pieces.map Piece.caseless = b.pieces.map Piece.caseless

/-- Expressions that differ in the letter case of a string are taken for the same. -/
theorem unreported_column_of_string :
    ∃ s, parseStatement {} "SELECT a || 'X' FROM t GROUP BY a || 'x'" = .ok s ∧
      ¬ (s.reports .ungroupedColumn).Perm
        (s.nodes.flatMap (Node.ofSelect (Select.ungroupedColumns Expr.sameButNames))) := by
  have missed : (match parseStatement {} "SELECT a || 'X' FROM t GROUP BY a || 'x'" with
      | .ok s => decide ¬ (s.reports .ungroupedColumn).Perm
        (s.nodes.flatMap (Node.ofSelect (Select.ungroupedColumns Expr.sameButNames)))
      | .error _ => false) = true := by decide +kernel
  cases h : parseStatement {} "SELECT a || 'X' FROM t GROUP BY a || 'x'" with
  | error => simp [h] at missed
  | ok s =>
    rw [h] at missed
    exact ⟨s, rfl, of_decide_eq_true missed⟩

end SqlSyntax
