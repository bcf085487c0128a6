import SqlSyntax.Tree.Statement

/-!
# Nodes of a syntax tree

All nodes that a walk over a tree stops at, under one type, with the nodes
directly below each. A walk visits a node before what is below it, and what is
below it in the order of the source.

Literals and names have nothing below them. Clauses are no nodes of their own:
what they hold is below the query, the selection or the statement that they
belong to.

## Main results

* `Node.sizeOf_lt_of_mem_children` — what is below a node is smaller, so every
  walk ends.
* `Node.preorder_eq` — a walk is the node and then the walks below it.
* `Node.induction` — what holds of a node whenever it holds of all nodes below
  it holds of every node.
-/

namespace SqlSyntax

/-! ## Below an expression -/

/-- The expressions in an argument list. -/
def Arguments.items : Arguments → List Expr
  | .star => []
  | .list items => items

namespace Expr

/-- The expressions directly below an expression. -/
def operands : Expr → List Expr
  | ⟨_, .column _⟩ | ⟨_, .literal _⟩ | ⟨_, .existsQuery _⟩ | ⟨_, .subquery _⟩ => []
  | ⟨_, .unary _ e⟩ | ⟨_, .is e _ _⟩ | ⟨_, .inQuery e _ _⟩ | ⟨_, .cast e _⟩ | ⟨_, .nested e⟩ => [e]
  | ⟨_, .binary _ l r⟩ => [l, r]
  | ⟨_, .inList e _ items⟩ => e :: items
  | ⟨_, .between e _ low high⟩ => [e, low, high]
  | ⟨_, .like e _ pattern⟩ => [e, pattern]
  | ⟨_, .call _ _ arguments⟩ => arguments.items
  | ⟨_, .case operand branches otherwise⟩ =>
    operand.toList ++ branches.flatMap (fun b => [b.condition, b.result]) ++ otherwise.toList

/-- The query directly below an expression, if there is one. It comes after
the operands. -/
def query? : Expr → Option Query
  | ⟨_, .inQuery _ _ q⟩ | ⟨_, .existsQuery q⟩ | ⟨_, .subquery q⟩ => some q
  | _ => none

theorem sizeOf_lt_of_mem_toList {α : Type} [SizeOf α] {a : α} {o : Option α}
    (h : a ∈ o.toList) : sizeOf a < sizeOf o := by
  cases o with
  | none => simp at h
  | some b =>
    obtain rfl : a = b := by simpa using h
    simp

theorem sizeOf_lt_of_mem_branches {e : Expr} {branches : List WhenBranch}
    (h : e ∈ branches.flatMap fun b => [b.condition, b.result]) :
    sizeOf e < sizeOf branches := by
  obtain ⟨b, hb, he⟩ := List.mem_flatMap.1 h
  have hlt := List.sizeOf_lt_of_mem hb
  obtain ⟨_, condition, result⟩ := b
  simp only [List.mem_cons, List.not_mem_nil, or_false] at he
  simp only [WhenBranch.mk.sizeOf_spec] at hlt
  rcases he with rfl | rfl <;> omega

theorem sizeOf_lt_of_mem_items {e : Expr} {a : Arguments} (h : e ∈ a.items) :
    sizeOf e < sizeOf a := by
  cases a with
  | star => simp [Arguments.items] at h
  | list items =>
    have := List.sizeOf_lt_of_mem (show e ∈ items from h)
    simp only [Arguments.list.sizeOf_spec]
    omega

theorem sizeOf_lt_of_mem_operands {c e : Expr} (h : c ∈ e.operands) : sizeOf c < sizeOf e := by
  obtain ⟨_, form⟩ := e
  cases form
  case call f d a =>
    have := sizeOf_lt_of_mem_items (show c ∈ a.items from h)
    simp
    omega
  case case operand branches otherwise =>
    simp only [operands, List.mem_append] at h
    simp only [mk.sizeOf_spec, ExprForm.case.sizeOf_spec]
    rcases h with (h | h) | h
    · have := sizeOf_lt_of_mem_toList h
      omega
    · have := sizeOf_lt_of_mem_branches h
      omega
    · have := sizeOf_lt_of_mem_toList h
      omega
  case inList e _ items =>
    simp only [operands, List.mem_cons] at h
    simp only [mk.sizeOf_spec, ExprForm.inList.sizeOf_spec]
    rcases h with rfl | h
    · omega
    · have := List.sizeOf_lt_of_mem h
      omega
  case is | unary | inQuery | cast | nested =>
    obtain rfl := List.mem_singleton.1 h
    simp
    omega
  case binary | like =>
    simp only [operands, List.mem_cons, List.not_mem_nil, or_false] at h
    rcases h with rfl | rfl <;> simp <;> omega
  case between =>
    simp only [operands, List.mem_cons, List.not_mem_nil, or_false] at h
    rcases h with rfl | rfl | rfl <;> simp <;> omega
  all_goals simp [operands] at h

theorem sizeOf_lt_of_mem_query? {q : Query} {e : Expr} (h : q ∈ e.query?) :
    sizeOf q < sizeOf e := by
  obtain ⟨_, form⟩ := e
  cases form <;> simp_all [query?] <;> omega

end Expr

/-! ## Below a node -/

inductive Node where
  | statement (statement : Statement)
  | query (query : Query)
  | select (select : Select)
  | selectItem (item : SelectItem)
  | relation (relation : Relation)
  | join (join : Join)
  | expr (expr : Expr)
  | column (column : ColumnDefinition)

namespace Node

def span : Node → Span
  | .statement s => s.span
  | .query q => q.span
  | .select s => s.span
  | .selectItem i => i.span
  | .relation r => r.span
  | .join j => j.span
  | .expr e => e.span
  | .column c => c.span

end Node

namespace Statement

/-- The nodes directly below a statement. -/
def children : Statement → List Node
  | .query q => [.query q]
  | .insert s =>
    match s.source with
    | .values rows => rows.flatten.map .expr
    | .query q => [.query q]
  | .update s => s.assignments.map (fun a => .expr a.value) ++ s.condition.toList.map .expr
  | .delete s => s.condition.toList.map .expr
  | .createTable s => s.columns.map .column
  | .alterTable s =>
    match s.alteration with
    | .addColumn c => [.column c]
    | _ => []
  | .createIndex _ | .createDatabase _ | .drop _ => []

end Statement

namespace Query

/-- The expressions of a query outside its selections: what it orders by, and
its limit. -/
def trailing (q : Query) : List Expr :=
  (match q.orderBy with
    | none => []
    | some o => o.items.map (·.expr))
    ++ (match q.limit with
      | none => []
      | some l => l.count :: l.offset.toList)

end Query

namespace Select

/-- The nodes directly below a selection. -/
def children (s : Select) : List Node :=
  s.projection.map .selectItem
    ++ (match s.source with
      | none => []
      | some f => f.tables.flatMap fun t => .relation t.relation :: t.joins.map .join)
    ++ s.condition.toList.map .expr
    ++ (match s.groupBy with
      | none => []
      | some g => g.keys.map .expr)
    ++ s.having.toList.map .expr

end Select

namespace Node

/-- The nodes directly below a node, in the order in which a walk visits
them. -/
def children : Node → List Node
  | .statement s => s.children
  | .query q => q.body.selects.map (fun s => .select s.2) ++ q.trailing.map .expr
  | .select s => s.children
  | .selectItem (.expr _ e _) => [.expr e]
  | .selectItem _ => []
  | .relation (.derived _ q _) => [.query q]
  | .relation (.table ..) => []
  | .join ⟨_, _, r, .on e⟩ => [.relation r, .expr e]
  | .join ⟨_, _, r, _⟩ => [.relation r]
  | .expr e => e.operands.map .expr ++ e.query?.toList.map .query
  | .column c => (c.options.filterMap ColumnOption.default?).map .expr

/-! ## Below is smaller -/

theorem sizeOf_lt_of_mem_selects {s : Option (SetOperator × Bool) × Select} {b : QueryBody}
    (h : s ∈ b.selects) : sizeOf s.2 < sizeOf b := by
  match b, h with
  | .select _, h =>
    obtain rfl := List.mem_singleton.1 h
    simp
  | .setOperation _ left op all right, h =>
    rw [QueryBody.selects_setOperation, List.mem_append] at h
    simp only [QueryBody.setOperation.sizeOf_spec]
    rcases h with h | h
    · have := sizeOf_lt_of_mem_selects h
      omega
    · obtain rfl := List.mem_singleton.1 h
      simp only
      omega

theorem sizeOf_lt_of_mem_trailing {e : Expr} {q : Query} (h : e ∈ q.trailing) :
    sizeOf e < sizeOf q := by
  obtain ⟨_, _, orderBy, limit⟩ := q
  simp only [Query.trailing, List.mem_append] at h
  simp only [Query.mk.sizeOf_spec]
  rcases h with h | h
  · match orderBy, h with
    | some ⟨_, items⟩, h =>
      obtain ⟨⟨_, e, _, _⟩, hi, rfl⟩ := List.mem_map.1 h
      have := List.sizeOf_lt_of_mem hi
      simp only [OrderItem.mk.sizeOf_spec] at this
      simp only [Option.some.sizeOf_spec, OrderBy.mk.sizeOf_spec]
      omega
  · match limit, h with
    | some ⟨_, count, offset⟩, h =>
      simp only [Option.some.sizeOf_spec, Limit.mk.sizeOf_spec]
      rcases List.mem_cons.1 h with rfl | h
      · omega
      · have : sizeOf e < sizeOf offset := Expr.sizeOf_lt_of_mem_toList h
        omega

theorem sizeOf_lt_of_mem_tables {n : Node} {tables : List JoinedTable}
    (h : n ∈ tables.flatMap fun t => .relation t.relation :: t.joins.map .join) :
    sizeOf n < sizeOf tables := by
  obtain ⟨t, ht, hn⟩ := List.mem_flatMap.1 h
  have := List.sizeOf_lt_of_mem ht
  obtain ⟨_, relation, joins⟩ := t
  simp only [JoinedTable.mk.sizeOf_spec] at this
  rcases List.mem_cons.1 hn with rfl | hn
  · simp only [Node.relation.sizeOf_spec]
    omega
  · obtain ⟨j, hj, rfl⟩ := List.mem_map.1 hn
    have : sizeOf j < sizeOf joins := List.sizeOf_lt_of_mem hj
    simp only [Node.join.sizeOf_spec]
    omega

theorem sizeOf_le_of_mem_selectChildren {n : Node} {s : Select} (h : n ∈ s.children) :
    sizeOf n ≤ sizeOf s := by
  obtain ⟨_, _, projection, source, condition, groupBy, having⟩ := s
  simp only [Select.children, List.mem_append] at h
  simp only [Select.mk.sizeOf_spec]
  rcases h with (((h | h) | h) | h) | h
  · obtain ⟨i, hi, rfl⟩ := List.mem_map.1 h
    have := List.sizeOf_lt_of_mem hi
    simp only [Node.selectItem.sizeOf_spec]
    omega
  · match source, h with
    | some ⟨_, tables⟩, h =>
      have : sizeOf n < sizeOf tables := sizeOf_lt_of_mem_tables h
      simp only [Option.some.sizeOf_spec, From.mk.sizeOf_spec]
      omega
  · obtain ⟨e, he, rfl⟩ := List.mem_map.1 h
    have := Expr.sizeOf_lt_of_mem_toList he
    simp only [Node.expr.sizeOf_spec]
    omega
  · match groupBy, h with
    | some ⟨_, keys⟩, h =>
      obtain ⟨e, he, rfl⟩ := List.mem_map.1 h
      have : sizeOf e < sizeOf keys := List.sizeOf_lt_of_mem he
      simp only [Node.expr.sizeOf_spec, Option.some.sizeOf_spec, GroupBy.mk.sizeOf_spec]
      omega
  · obtain ⟨e, he, rfl⟩ := List.mem_map.1 h
    have := Expr.sizeOf_lt_of_mem_toList he
    simp only [Node.expr.sizeOf_spec]
    omega

theorem sizeOf_lt_of_mem_defaults {e : Expr} {options : List ColumnOption}
    (h : e ∈ options.filterMap ColumnOption.default?) : sizeOf e < sizeOf options := by
  obtain ⟨o, ho, he⟩ := List.mem_filterMap.1 h
  have := List.sizeOf_lt_of_mem ho
  match o, he with
  | .default _, rfl =>
    simp only [ColumnOption.default.sizeOf_spec] at this
    omega

theorem sizeOf_le_of_mem_statementChildren {n : Node} {s : Statement} (h : n ∈ s.children) :
    sizeOf n ≤ sizeOf s := by
  match s, h with
  | .query q, h =>
    obtain rfl := List.mem_singleton.1 h
    simp
  | .insert ⟨_, _, _, .values rows⟩, h =>
    obtain ⟨e, he, rfl⟩ := List.mem_map.1 h
    obtain ⟨row, hrow, he⟩ := List.mem_flatten.1 he
    have := List.sizeOf_lt_of_mem hrow
    have := List.sizeOf_lt_of_mem he
    simp
    omega
  | .insert ⟨_, _, _, .query q⟩, h =>
    obtain rfl := List.mem_singleton.1 h
    simp
    omega
  | .update ⟨_, _, _, assignments, condition⟩, h =>
    rcases List.mem_append.1 h with h | h
    · obtain ⟨⟨_, _, e⟩, ha, rfl⟩ := List.mem_map.1 h
      have := List.sizeOf_lt_of_mem ha
      simp only [Assignment.mk.sizeOf_spec] at this
      simp
      omega
    · obtain ⟨e, he, rfl⟩ := List.mem_map.1 h
      have : sizeOf e < sizeOf condition := Expr.sizeOf_lt_of_mem_toList he
      simp
      omega
  | .delete ⟨_, _, _, condition⟩, h =>
    obtain ⟨e, he, rfl⟩ := List.mem_map.1 h
    have : sizeOf e < sizeOf condition := Expr.sizeOf_lt_of_mem_toList he
    simp
    omega
  | .createTable ⟨_, _, _, columns, _⟩, h =>
    obtain ⟨c, hc, rfl⟩ := List.mem_map.1 h
    have : sizeOf c < sizeOf columns := List.sizeOf_lt_of_mem hc
    simp
    omega
  | .alterTable ⟨_, _, .addColumn c⟩, h =>
    obtain rfl := List.mem_singleton.1 h
    simp
    omega

/-- What is below a node is smaller. -/
theorem sizeOf_lt_of_mem_children {c n : Node} (h : c ∈ n.children) : sizeOf c < sizeOf n := by
  match n, h with
  | .statement s, h =>
    have := sizeOf_le_of_mem_statementChildren h
    simp only [Node.statement.sizeOf_spec]
    omega
  | .query q, h =>
    simp only [Node.query.sizeOf_spec]
    rcases List.mem_append.1 h with h | h
    · obtain ⟨s, hs, rfl⟩ := List.mem_map.1 h
      have := sizeOf_lt_of_mem_selects hs
      obtain ⟨_, body, _, _⟩ := q
      simp only [Node.select.sizeOf_spec, Query.mk.sizeOf_spec] at *
      omega
    · obtain ⟨e, he, rfl⟩ := List.mem_map.1 h
      have := sizeOf_lt_of_mem_trailing he
      simp only [Node.expr.sizeOf_spec]
      omega
  | .select s, h =>
    have := sizeOf_le_of_mem_selectChildren h
    simp only [Node.select.sizeOf_spec]
    omega
  | .selectItem (.expr _ e _), h =>
    obtain rfl := List.mem_singleton.1 h
    simp
    omega
  | .relation (.derived _ q _), h =>
    obtain rfl := List.mem_singleton.1 h
    simp
    omega
  | .join ⟨_, _, r, condition⟩, h =>
    have hmem : c = .relation r ∨ ∃ e, condition = .on e ∧ c = .expr e := by
      cases condition <;> simp_all [children]
    rcases hmem with rfl | ⟨e, rfl, rfl⟩ <;> simp <;> omega
  | .expr e, h =>
    simp only [Node.expr.sizeOf_spec]
    rcases List.mem_append.1 h with h | h
    · obtain ⟨c, hc, rfl⟩ := List.mem_map.1 h
      have := Expr.sizeOf_lt_of_mem_operands hc
      simp only [Node.expr.sizeOf_spec]
      omega
    · obtain ⟨q, hq, rfl⟩ := List.mem_map.1 h
      have := Expr.sizeOf_lt_of_mem_query? (Option.mem_toList.1 hq)
      simp only [Node.query.sizeOf_spec]
      omega
  | .column ⟨_, _, _, options⟩, h =>
    obtain ⟨e, he, rfl⟩ := List.mem_map.1 h
    have : sizeOf e < sizeOf options := sizeOf_lt_of_mem_defaults he
    simp
    omega

/-! ## Walks -/

/-- A node and all nodes below it: each before what is below it, and what is
below it in order. -/
def preorder (n : Node) : List Node :=
  n :: n.children.attach.flatMap fun c => preorder c.1
termination_by sizeOf n
decreasing_by exact sizeOf_lt_of_mem_children c.2

theorem preorder_eq (n : Node) : n.preorder = n :: n.children.flatMap preorder := by
  rw [preorder, List.flatMap_subtype, List.unattach_attach]
  exact fun _ _ => rfl

/-- What holds of a node whenever it holds of all nodes directly below it
holds of every node. -/
theorem induction {P : Node → Prop} (step : ∀ n : Node, (∀ c ∈ n.children, P c) → P n)
    (n : Node) : P n :=
  step n fun c _ => induction step c
termination_by sizeOf n
decreasing_by exact sizeOf_lt_of_mem_children ‹_›

end Node

/-- The nodes of a statement in the order in which a walk visits them. -/
def Statement.nodes (s : Statement) : List Node := (Node.statement s).preorder

end SqlSyntax
