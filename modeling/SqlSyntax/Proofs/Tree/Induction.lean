import SqlSyntax.Tree.Node

/-!
# Induction over syntax trees

`Node.induction` has one step for all nodes. Here it is split by what a node
is: one case for each form of expression, statement and so on, with the
hypotheses about what is below in the shape in which the form holds it.

## Main results

* `Node.forall_children_query`, `Node.forall_children_select`,
  `Node.forall_children_expr` — what all nodes directly below a node are.
* `Node.ne_statement_of_mem_below` — no statement is below a node.
* `Node.formCases`, `Node.formInduction` — case analysis and induction with one
  case for each form of node.
-/

namespace SqlSyntax

theorem Query.forall_trailing {P : Expr → Prop} (q : Query) :
    (∀ e ∈ q.trailing, P e) ↔ (∀ o ∈ q.orderBy, ∀ i ∈ o.items, P i.expr) ∧
      ∀ l ∈ q.limit, P l.count ∧ ∀ e ∈ l.offset, P e := by
  obtain ⟨_, body, orderBy, limit⟩ := q
  cases orderBy <;> cases limit <;>
    simp [trailing, List.forall_mem_append, List.forall_mem_map, List.forall_mem_cons,
      -List.mem_append, -List.mem_map, -List.mem_cons]

namespace Node

variable {P : Node → Prop}

/-! ## Below a node -/

theorem forall_children_query (q : Query) :
    (∀ c ∈ (Node.query q).children, P c) ↔
      (∀ s ∈ q.body.selects, P (.select s.2)) ∧
      (∀ o ∈ q.orderBy, ∀ i ∈ o.items, P (.expr i.expr)) ∧
      (∀ l ∈ q.limit, P (.expr l.count) ∧ ∀ e ∈ l.offset, P (.expr e)) := by
  simp only [children, List.forall_mem_append, List.forall_mem_map, Query.forall_trailing]

theorem forall_children_select (s : Select) :
    (∀ c ∈ s.children, P c) ↔
      (∀ i ∈ s.projection, P (.selectItem i)) ∧
      (∀ f ∈ s.source, ∀ t ∈ f.tables,
        P (.relation t.relation) ∧ ∀ j ∈ t.joins, P (.join j)) ∧
      (∀ e ∈ s.condition, P (.expr e)) ∧
      (∀ g ∈ s.groupBy, ∀ e ∈ g.keys, P (.expr e)) ∧ ∀ e ∈ s.having, P (.expr e) := by
  obtain ⟨_, _, projection, source, condition, groupBy, having⟩ := s
  cases source <;> cases groupBy <;>
    simp [Select.children, List.forall_mem_append, List.forall_mem_map, List.forall_mem_flatMap,
      List.forall_mem_cons, -List.mem_append, -List.mem_map, -List.mem_cons,
      -List.mem_flatMap]

theorem forall_children_join (j : Join) :
    (∀ c ∈ (Node.join j).children, P c) ↔
      P (.relation j.relation) ∧ ∀ e, j.condition = .on e → P (.expr e) := by
  obtain ⟨_, _, _, condition⟩ := j
  cases condition <;> simp [children]

theorem forall_children_expr (e : Expr) :
    (∀ c ∈ (Node.expr e).children, P c) ↔
      (∀ x ∈ e.operands, P (.expr x)) ∧ ∀ q ∈ e.query?, P (.query q) := by
  simp [children, or_imp, forall_and]

theorem forall_children_column (c : ColumnDefinition) :
    (∀ n ∈ (Node.column c).children, P n) ↔
      ∀ e, ColumnOption.default e ∈ c.options → P (.expr e) := by
  simp only [children, List.mem_map, List.mem_filterMap, forall_exists_index, and_imp]
  constructor
  · exact fun h e he => h _ e _ he rfl rfl
  · rintro h _ e option ho he rfl
    cases option <;> simp only [ColumnOption.default?, Option.some.injEq, reduceCtorEq] at he
    exact h e (he ▸ ho)

/-! ## Statements -/

/-- Statements stand at the root only. -/
theorem ne_statement_of_mem_children {n c : Node} (h : c ∈ n.children) (s : Statement) :
    c ≠ .statement s := by
  rintro rfl
  match n, h with
  | .statement (.insert ⟨_, _, _, .values _⟩), h =>
    obtain ⟨_, _, same⟩ := List.mem_map.1 h
    cases same
  | .statement (.alterTable ⟨_, _, alteration⟩), h =>
    cases alteration <;> simp [children, Statement.children] at h
  | .statement (.insert ⟨_, _, _, .query _⟩), h | .statement (.query _), h
  | .statement (.update _), h | .statement (.delete _), h | .statement (.createTable _), h =>
    simp [children, Statement.children] at h
  | .select ⟨_, _, _, source, _, groupBy, _⟩, h =>
    rcases source with _ | ⟨_, _⟩ <;> rcases groupBy with _ | ⟨_, _⟩ <;>
      simp [children, Select.children] at h
  | .join ⟨_, _, _, condition⟩, h => cases condition <;> simp [children] at h
  | .query _, h | .selectItem (.expr ..), h | .relation (.derived ..), h | .expr _, h
  | .column _, h => simp [children] at h

theorem eq_or_lower {root n : Node} (h : n ∈ root.preorder) :
    n = root ∨ ∀ s, n ≠ .statement s := by
  induction root using Node.induction with
  | step root ih =>
    rw [preorder_eq] at h
    rcases List.mem_cons.1 h with rfl | h
    · exact .inl rfl
    · obtain ⟨c, hc, hn⟩ := List.mem_flatMap.1 h
      rcases ih c hc hn with rfl | lower
      · exact .inr (ne_statement_of_mem_children hc)
      · exact .inr lower

theorem ne_statement_of_mem_below {root n : Node} (h : n ∈ root.children.flatMap preorder)
    (s : Statement) : n ≠ .statement s := by
  obtain ⟨c, hc, hn⟩ := List.mem_flatMap.1 h
  rcases eq_or_lower hn with rfl | lower
  · exact ne_statement_of_mem_children hc s
  · exact lower s

/-! ## Induction by form -/

/-- What every form of node gets from the nodes directly below it. -/
theorem formCases {Q : Node → Prop}
    (column : ∀ s n, Q (.expr ⟨s, .column n⟩))
    (literal : ∀ s v, Q (.expr ⟨s, .literal v⟩))
    (unary : ∀ s op e, P (.expr e) → Q (.expr ⟨s, .unary op e⟩))
    (binary : ∀ s op l r, P (.expr l) → P (.expr r) → Q (.expr ⟨s, .binary op l r⟩))
    (is : ∀ s e negated test, P (.expr e) → Q (.expr ⟨s, .is e negated test⟩))
    (inList : ∀ s e negated items, P (.expr e) → (∀ i ∈ items, P (.expr i)) →
      Q (.expr ⟨s, .inList e negated items⟩))
    (inQuery : ∀ s e negated q, P (.expr e) → P (.query q) →
      Q (.expr ⟨s, .inQuery e negated q⟩))
    (between : ∀ s e negated low high, P (.expr e) → P (.expr low) → P (.expr high) →
      Q (.expr ⟨s, .between e negated low high⟩))
    (like : ∀ s e negated pattern, P (.expr e) → P (.expr pattern) →
      Q (.expr ⟨s, .like e negated pattern⟩))
    (call : ∀ s n distinct arguments, (∀ i ∈ Arguments.items arguments, P (.expr i)) →
      Q (.expr ⟨s, .call n distinct arguments⟩))
    (case : ∀ s operand branches otherwise, (∀ e ∈ operand, P (.expr e)) →
      (∀ b ∈ branches, P (.expr (WhenBranch.condition b)) ∧ P (.expr b.result)) →
      (∀ e ∈ otherwise, P (.expr e)) → Q (.expr ⟨s, .case operand branches otherwise⟩))
    (cast : ∀ s e type, P (.expr e) → Q (.expr ⟨s, .cast e type⟩))
    (existsQuery : ∀ s q, P (.query q) → Q (.expr ⟨s, .existsQuery q⟩))
    (subquery : ∀ s q, P (.query q) → Q (.expr ⟨s, .subquery q⟩))
    (nested : ∀ s e, P (.expr e) → Q (.expr ⟨s, .nested e⟩))
    (query : ∀ q : Query, (∀ s ∈ q.body.selects, P (.select s.2)) →
      (∀ o ∈ q.orderBy, ∀ i ∈ o.items, P (.expr i.expr)) →
      (∀ l ∈ q.limit, P (.expr l.count) ∧ ∀ e ∈ l.offset, P (.expr e)) → Q (.query q))
    (select : ∀ s : Select, (∀ i ∈ s.projection, P (.selectItem i)) →
      (∀ f ∈ s.source, ∀ t ∈ f.tables, P (.relation t.relation) ∧ ∀ j ∈ t.joins, P (.join j)) →
      (∀ e ∈ s.condition, P (.expr e)) → (∀ g ∈ s.groupBy, ∀ e ∈ g.keys, P (.expr e)) →
      (∀ e ∈ s.having, P (.expr e)) → Q (.select s))
    (wildcard : ∀ s, Q (.selectItem (.wildcard s)))
    (qualifiedWildcard : ∀ s n, Q (.selectItem (.qualifiedWildcard s n)))
    (selected : ∀ s e label, P (.expr e) → Q (.selectItem (.expr s e label)))
    (table : ∀ s n label, Q (.relation (.table s n label)))
    (derived : ∀ s q label, P (.query q) → Q (.relation (.derived s q label)))
    (join : ∀ s kind relation condition, P (.relation relation) →
      (∀ e, condition = .on e → P (.expr e)) → Q (.join ⟨s, kind, relation, condition⟩))
    (columnDefinition : ∀ c : ColumnDefinition,
      (∀ e, ColumnOption.default e ∈ c.options → P (.expr e)) → Q (.column c))
    (statement : ∀ s : Statement, (∀ c ∈ s.children, P c) → Q (.statement s))
    (n : Node) (ih : ∀ c ∈ n.children, P c) : Q n := by
  match n, ih with
  | .statement s, ih => exact statement s ih
  | .query q, ih =>
    obtain ⟨selects, ordered, limited⟩ := (forall_children_query q).1 ih
    exact query q selects ordered limited
  | .select s, ih =>
    obtain ⟨items, tables, condition, keys, having⟩ := (forall_children_select s).1 ih
    exact select s items tables condition keys having
  | .selectItem (.wildcard s), _ => exact wildcard s
  | .selectItem (.qualifiedWildcard s n), _ => exact qualifiedWildcard s n
  | .selectItem (.expr s e label), ih => exact selected s e label (ih _ (by simp [children]))
  | .relation (.table s n label), _ => exact table s n label
  | .relation (.derived s q label), ih => exact derived s q label (ih _ (by simp [children]))
  | .join ⟨_, _, _, _⟩, ih =>
    obtain ⟨joined, condition⟩ := (forall_children_join _).1 ih
    exact join _ _ _ _ joined condition
  | .column c, ih => exact columnDefinition c ((forall_children_column c).1 ih)
  | .expr ⟨s, form⟩, ih =>
    obtain ⟨below, inside⟩ := (forall_children_expr _).1 ih
    clear ih
    cases form <;> simp only [Expr.operands, Expr.query?, List.mem_cons, List.mem_append,
      List.mem_flatMap, Option.mem_toList, List.not_mem_nil, or_false] at below inside
    case column => exact column _ _
    case literal => exact literal _ _
    case unary => exact unary _ _ _ (below _ rfl)
    case binary => exact binary _ _ _ _ (below _ (.inl rfl)) (below _ (.inr rfl))
    case is => exact is _ _ _ _ (below _ rfl)
    case inList =>
      exact inList _ _ _ _ (below _ (.inl rfl)) fun i hi => below _ (.inr hi)
    case inQuery => exact inQuery _ _ _ _ (below _ rfl) (inside _ rfl)
    case between =>
      exact between _ _ _ _ _ (below _ (.inl rfl)) (below _ (.inr (.inl rfl)))
        (below _ (.inr (.inr rfl)))
    case like => exact like _ _ _ _ (below _ (.inl rfl)) (below _ (.inr rfl))
    case call => exact call _ _ _ _ below
    case case =>
      exact case _ _ _ _ (fun e he => below e (.inl (.inl he)))
        (fun b hb => ⟨below _ (.inl (.inr ⟨b, hb, .inl rfl⟩)),
          below _ (.inl (.inr ⟨b, hb, .inr rfl⟩))⟩)
        fun e he => below e (.inr he)
    case cast => exact cast _ _ _ (below _ rfl)
    case existsQuery => exact existsQuery _ _ (inside _ rfl)
    case subquery => exact subquery _ _ (inside _ rfl)
    case nested => exact nested _ _ (below _ rfl)

/-- What every form of node inherits from the nodes directly below it holds of
every node. -/
theorem formInduction
    (column : ∀ s n, P (.expr ⟨s, .column n⟩))
    (literal : ∀ s v, P (.expr ⟨s, .literal v⟩))
    (unary : ∀ s op e, P (.expr e) → P (.expr ⟨s, .unary op e⟩))
    (binary : ∀ s op l r, P (.expr l) → P (.expr r) → P (.expr ⟨s, .binary op l r⟩))
    (is : ∀ s e negated test, P (.expr e) → P (.expr ⟨s, .is e negated test⟩))
    (inList : ∀ s e negated items, P (.expr e) → (∀ i ∈ items, P (.expr i)) →
      P (.expr ⟨s, .inList e negated items⟩))
    (inQuery : ∀ s e negated q, P (.expr e) → P (.query q) →
      P (.expr ⟨s, .inQuery e negated q⟩))
    (between : ∀ s e negated low high, P (.expr e) → P (.expr low) → P (.expr high) →
      P (.expr ⟨s, .between e negated low high⟩))
    (like : ∀ s e negated pattern, P (.expr e) → P (.expr pattern) →
      P (.expr ⟨s, .like e negated pattern⟩))
    (call : ∀ s n distinct arguments, (∀ i ∈ Arguments.items arguments, P (.expr i)) →
      P (.expr ⟨s, .call n distinct arguments⟩))
    (case : ∀ s operand branches otherwise, (∀ e ∈ operand, P (.expr e)) →
      (∀ b ∈ branches, P (.expr (WhenBranch.condition b)) ∧ P (.expr b.result)) →
      (∀ e ∈ otherwise, P (.expr e)) → P (.expr ⟨s, .case operand branches otherwise⟩))
    (cast : ∀ s e type, P (.expr e) → P (.expr ⟨s, .cast e type⟩))
    (existsQuery : ∀ s q, P (.query q) → P (.expr ⟨s, .existsQuery q⟩))
    (subquery : ∀ s q, P (.query q) → P (.expr ⟨s, .subquery q⟩))
    (nested : ∀ s e, P (.expr e) → P (.expr ⟨s, .nested e⟩))
    (query : ∀ q : Query, (∀ s ∈ q.body.selects, P (.select s.2)) →
      (∀ o ∈ q.orderBy, ∀ i ∈ o.items, P (.expr i.expr)) →
      (∀ l ∈ q.limit, P (.expr l.count) ∧ ∀ e ∈ l.offset, P (.expr e)) → P (.query q))
    (select : ∀ s : Select, (∀ i ∈ s.projection, P (.selectItem i)) →
      (∀ f ∈ s.source, ∀ t ∈ f.tables, P (.relation t.relation) ∧ ∀ j ∈ t.joins, P (.join j)) →
      (∀ e ∈ s.condition, P (.expr e)) → (∀ g ∈ s.groupBy, ∀ e ∈ g.keys, P (.expr e)) →
      (∀ e ∈ s.having, P (.expr e)) → P (.select s))
    (wildcard : ∀ s, P (.selectItem (.wildcard s)))
    (qualifiedWildcard : ∀ s n, P (.selectItem (.qualifiedWildcard s n)))
    (selected : ∀ s e label, P (.expr e) → P (.selectItem (.expr s e label)))
    (table : ∀ s n label, P (.relation (.table s n label)))
    (derived : ∀ s q label, P (.query q) → P (.relation (.derived s q label)))
    (join : ∀ s kind relation condition, P (.relation relation) →
      (∀ e, condition = .on e → P (.expr e)) → P (.join ⟨s, kind, relation, condition⟩))
    (columnDefinition : ∀ c : ColumnDefinition,
      (∀ e, ColumnOption.default e ∈ c.options → P (.expr e)) → P (.column c))
    (statement : ∀ s : Statement, (∀ c ∈ s.children, P c) → P (.statement s))
    (n : Node) : P n := by
  induction n using Node.induction with
  | step n ih =>
    exact formCases column literal unary binary is inList inQuery between like call case cast
      existsQuery subquery nested query select wildcard qualifiedWildcard selected table derived
      join columnDefinition statement n ih

end Node

end SqlSyntax
