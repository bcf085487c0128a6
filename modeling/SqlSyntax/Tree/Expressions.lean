import SqlSyntax.Tree.Node

/-!
# Expressions of a statement

All expressions of a statement, each before its operands and its subquery, in
the order of the source. They are read off the tree directly, without the
nodes between them.

## Main results

* `Statement.expressions_eq` — they are the expressions among the nodes of the
  statement, in the same order.
-/

namespace SqlSyntax

mutual

def Expr.expressions : Expr → List Expr
  | ⟨span, form⟩ => ⟨span, form⟩ :: form.expressions

/-- The expressions below one of the given form. -/
def ExprForm.expressions : ExprForm → List Expr
  | .column _ | .literal _ => []
  | .unary _ e | .is e _ _ | .cast e _ | .nested e => e.expressions
  | .binary _ l r => l.expressions ++ r.expressions
  | .inList e _ items => e.expressions ++ Expr.expressionsOfList items
  | .inQuery e _ q => e.expressions ++ q.expressions
  | .between e _ low high => e.expressions ++ low.expressions ++ high.expressions
  | .like e _ pattern => e.expressions ++ pattern.expressions
  | .call _ _ arguments => arguments.expressions
  | .case operand branches otherwise =>
    Expr.expressionsOfOption operand ++ WhenBranch.expressions branches
      ++ Expr.expressionsOfOption otherwise
  | .existsQuery q | .subquery q => q.expressions

def Expr.expressionsOfList : List Expr → List Expr
  | [] => []
  | e :: es => e.expressions ++ Expr.expressionsOfList es

def Expr.expressionsOfOption : Option Expr → List Expr
  | none => []
  | some e => e.expressions

def Arguments.expressions : Arguments → List Expr
  | .star => []
  | .list items => Expr.expressionsOfList items

def WhenBranch.expressions : List WhenBranch → List Expr
  | [] => []
  | ⟨_, condition, result⟩ :: bs =>
    condition.expressions ++ result.expressions ++ WhenBranch.expressions bs

def Query.expressions : Query → List Expr
  | ⟨_, body, orderBy, limit⟩ =>
    body.expressions
      ++ (match orderBy with
        | none => []
        | some ⟨_, items⟩ => OrderItem.expressions items)
      ++ (match limit with
        | none => []
        | some ⟨_, count, offset⟩ => count.expressions ++ Expr.expressionsOfOption offset)

def QueryBody.expressions : QueryBody → List Expr
  | .select s => s.expressions
  | .setOperation _ left _ _ right => left.expressions ++ right.expressions

def Select.expressions : Select → List Expr
  | ⟨_, _, projection, source, condition, groupBy, having⟩ =>
    SelectItem.expressions projection
      ++ (match source with
        | none => []
        | some ⟨_, tables⟩ => JoinedTable.expressions tables)
      ++ Expr.expressionsOfOption condition
      ++ (match groupBy with
        | none => []
        | some ⟨_, keys⟩ => Expr.expressionsOfList keys)
      ++ Expr.expressionsOfOption having

def SelectItem.expressions : List SelectItem → List Expr
  | [] => []
  | .wildcard _ :: is | .qualifiedWildcard _ _ :: is => SelectItem.expressions is
  | .expr _ e _ :: is => e.expressions ++ SelectItem.expressions is

def JoinedTable.expressions : List JoinedTable → List Expr
  | [] => []
  | ⟨_, relation, joins⟩ :: ts =>
    relation.expressions ++ Join.expressions joins ++ JoinedTable.expressions ts

def Relation.expressions : Relation → List Expr
  | .table .. => []
  | .derived _ q _ => q.expressions

def Join.expressions : List Join → List Expr
  | [] => []
  | ⟨_, _, relation, condition⟩ :: js =>
    relation.expressions ++ condition.expressions ++ Join.expressions js

def JoinCondition.expressions : JoinCondition → List Expr
  | .on e => e.expressions
  | .shared _ | .none => []

def OrderItem.expressions : List OrderItem → List Expr
  | [] => []
  | ⟨_, e, _, _⟩ :: is => e.expressions ++ OrderItem.expressions is

end

namespace ColumnDefinition

/-- The expressions in the default values of a column. -/
def expressions (c : ColumnDefinition) : List Expr :=
  (c.options.filterMap ColumnOption.default?).flatMap Expr.expressions

end ColumnDefinition

namespace Statement

def expressions : Statement → List Expr
  | .query q => q.expressions
  | .insert s =>
    match s.source with
    | .values rows => rows.flatMap (·.flatMap Expr.expressions)
    | .query q => q.expressions
  | .update s =>
    s.assignments.flatMap (fun a => a.value.expressions)
      ++ s.condition.toList.flatMap Expr.expressions
  | .delete s => s.condition.toList.flatMap Expr.expressions
  | .createTable s => s.columns.flatMap ColumnDefinition.expressions
  | .alterTable s =>
    match s.alteration with
    | .addColumn c => c.expressions
    | _ => []
  | .createIndex _ | .createDatabase _ | .drop _ => []

end Statement

/-! ## Expressions among nodes -/

/-- The expression that a node is, if it is one. -/
def Node.expr? : Node → Option Expr
  | .expr e => some e
  | _ => none

/-- The expressions at and below a node, as the walk meets them. -/
def Node.expressions (n : Node) : List Expr := n.preorder.filterMap Node.expr?

theorem Node.expressions_eq (n : Node) :
    n.expressions = n.expr?.toList ++ n.children.flatMap Node.expressions := by
  have h : n.children.flatMap expressions = (n.children.flatMap preorder).filterMap expr? :=
    (List.filterMap_flatMap ..).symm
  rw [expressions, preorder_eq, h]
  cases he : n.expr? <;> simp [he]

/-! ### Lists -/

namespace Expr

theorem expressionsOfList_eq (es : List Expr) :
    expressionsOfList es = es.flatMap expressions := by
  induction es with
  | nil => simp [expressionsOfList]
  | cons e es ih => simp [expressionsOfList, ih]

theorem expressionsOfOption_eq (o : Option Expr) :
    expressionsOfOption o = o.toList.flatMap expressions := by
  cases o <;> simp [expressionsOfOption]

end Expr

theorem Arguments.expressions_eq (a : Arguments) :
    a.expressions = a.items.flatMap Expr.expressions := by
  cases a <;> simp [expressions, items, Expr.expressionsOfList_eq]

theorem WhenBranch.expressions_eq (bs : List WhenBranch) :
    expressions bs =
      (bs.flatMap fun b => [b.condition, b.result]).flatMap Expr.expressions := by
  induction bs with
  | nil => simp [expressions]
  | cons b bs ih =>
    obtain ⟨_, _, _⟩ := b
    simp [expressions, ih]

theorem OrderItem.expressions_eq (is : List OrderItem) :
    expressions is = is.flatMap fun i => i.expr.expressions := by
  induction is with
  | nil => simp [expressions]
  | cons i is ih =>
    obtain ⟨_, _, _, _⟩ := i
    simp [expressions, ih]

theorem SelectItem.expressions_cons (i : SelectItem) (is : List SelectItem) :
    expressions (i :: is) = expressions [i] ++ expressions is := by
  cases i <;> simp [expressions]

theorem SelectItem.expressions_eq (is : List SelectItem) :
    expressions is = is.flatMap fun i => expressions [i] := by
  induction is with
  | nil => simp [expressions]
  | cons i is ih => rw [expressions_cons, ih, List.flatMap_cons]

theorem Join.expressions_eq (js : List Join) :
    expressions js = js.flatMap fun j => expressions [j] := by
  induction js with
  | nil => simp [expressions]
  | cons j js ih =>
    obtain ⟨_, _, _, _⟩ := j
    simp [expressions, ih]

theorem JoinedTable.expressions_eq (ts : List JoinedTable) :
    expressions ts = ts.flatMap fun t =>
      t.relation.expressions ++ t.joins.flatMap fun j => Join.expressions [j] := by
  induction ts with
  | nil => simp [expressions]
  | cons t ts ih =>
    obtain ⟨_, relation, joins⟩ := t
    simp [expressions, ih, ← Join.expressions_eq joins]

theorem QueryBody.expressions_eq : ∀ b : QueryBody,
    b.expressions = b.selects.flatMap fun s => s.2.expressions
  | .select s => by simp [expressions]
  | .setOperation _ left _ _ right => by simp [expressions, expressions_eq left]

/-! ### Nodes -/

namespace Node

/-- The expressions at and below a node, read off the tree. -/
def directExpressions : Node → List Expr
  | .statement s => s.expressions
  | .query q => q.expressions
  | .select s => s.expressions
  | .selectItem i => SelectItem.expressions [i]
  | .relation r => r.expressions
  | .join j => Join.expressions [j]
  | .expr e => e.expressions
  | .column c => c.expressions

theorem directExpressions_expr (e : Expr) :
    directExpressions (.expr e) = e :: (Node.expr e).children.flatMap directExpressions := by
  obtain ⟨_, form⟩ := e
  cases form <;>
    simp [directExpressions, children, Expr.expressions, ExprForm.expressions, Expr.operands,
      Expr.query?, Expr.expressionsOfList_eq, Expr.expressionsOfOption_eq,
      WhenBranch.expressions_eq, Arguments.expressions_eq, List.flatMap_map]

theorem directExpressions_query (q : Query) :
    directExpressions (.query q) = (Node.query q).children.flatMap directExpressions := by
  obtain ⟨_, body, orderBy, limit⟩ := q
  rcases orderBy with _ | ⟨_, _⟩ <;> rcases limit with _ | ⟨_, _, _⟩ <;>
    simp [directExpressions, children, Query.expressions, Query.trailing,
      QueryBody.expressions_eq, OrderItem.expressions_eq, Expr.expressionsOfOption_eq,
      List.flatMap_map]

theorem directExpressions_select (s : Select) :
    directExpressions (.select s) = s.children.flatMap directExpressions := by
  obtain ⟨_, _, projection, source, condition, groupBy, having⟩ := s
  rcases source with _ | ⟨_, _⟩ <;> rcases groupBy with _ | ⟨_, _⟩ <;>
    simp [directExpressions, Select.expressions, Select.children,
      SelectItem.expressions_eq projection, JoinedTable.expressions_eq,
      Expr.expressionsOfList_eq, Expr.expressionsOfOption_eq, List.flatMap_map,
      List.flatMap_assoc]

theorem directExpressions_statement (s : Statement) :
    s.expressions = s.children.flatMap directExpressions := by
  cases s <;> simp [Statement.expressions, Statement.children, directExpressions, List.flatMap_map]
  case insert s =>
    cases s.source <;>
      simp [directExpressions, List.flatMap_map, List.flatten_eq_flatMap, List.flatMap_assoc]
  case alterTable s => cases s.alteration <;> simp [directExpressions]

/-- The expressions of a node are itself, if it is one, and those of the
nodes directly below it. -/
theorem directExpressions_eq (n : Node) :
    n.directExpressions = n.expr?.toList ++ n.children.flatMap directExpressions := by
  match n with
  | .statement s => exact directExpressions_statement s
  | .query q => exact directExpressions_query q
  | .select s => exact directExpressions_select s
  | .selectItem i => cases i <;> simp [directExpressions, expr?, children, SelectItem.expressions]
  | .relation r => cases r <;> simp [directExpressions, expr?, children, Relation.expressions]
  | .join ⟨_, _, _, condition⟩ =>
    cases condition <;>
      simp [directExpressions, expr?, children, Join.expressions, JoinCondition.expressions]
  | .expr e => exact directExpressions_expr e
  | .column c =>
    simp [directExpressions, expr?, children, ColumnDefinition.expressions, List.flatMap_map]

theorem expressions_eq_directExpressions (n : Node) : n.expressions = n.directExpressions := by
  induction n using Node.induction with
  | step n ih =>
    rw [expressions_eq, directExpressions_eq]
    congr 1
    simp only [List.flatMap]
    rw [List.map_congr_left ih]

end Node

/-- The expressions of a statement are those among its nodes, in the order of
the walk. -/
theorem Statement.expressions_eq (s : Statement) :
    s.expressions = s.nodes.filterMap Node.expr? :=
  (Node.expressions_eq_directExpressions (.statement s)).symm

/-! ## Names in expressions -/

namespace Expr

/-- The column that an expression refers to. -/
def columnReference? : Expr → Option QualifiedName
  | ⟨_, .column name⟩ => some name
  | _ => none

/-- The function that an expression calls. -/
def calledFunction? : Expr → Option QualifiedName
  | ⟨_, .call function _ _⟩ => some function
  | _ => none

end Expr

end SqlSyntax
