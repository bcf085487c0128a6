import SqlSyntax.Analysis
import SqlSyntax.Proofs.Interchange.Spans
import SqlSyntax.Proofs.Tree.Moves

/-!
# Warnings and spans

What there is to warn about does not depend on where the nodes of a tree stand:
when its spans are changed, the spans of the warnings change with them and
nothing else does. Only the order of the warnings is that of the places they are
about, so it stays when the starts of spans keep their order.

The span of a row goes from one value to another, so a change of spans has to
respect the union of two.

## Main results

* `Place.preorder_mapSpans` — the places of a tree whose spans are changed.
* `Expr.aggregates_mapSpans`, `Expr.ungroupedColumns_mapSpans` — what is found in
  expressions.
* `Statement.warnings_mapSpans` — the warnings of a statement.
* `Analysis.ofStatement_mapSpans` — the analysis of a statement.
-/

namespace SqlSyntax

open Unicode (lowerCase)

/-! ## Changes of spans -/

def Finding.mapSpans (f : Span → Span) : Finding → Finding
  | .ungroupedColumn column => .ungroupedColumn (column.mapSpans f)
  | .aggregateInWhere function => .aggregateInWhere (function.mapSpans f)
  | .aggregateInJoin function => .aggregateInJoin (function.mapSpans f)
  | x => x

def Warning.mapSpans (f : Span → Span) (w : Warning) : Warning :=
  ⟨w.finding.mapSpans f, f w.span⟩

def Analysis.mapSpans (f : Span → Span) (a : Analysis) : Analysis :=
  ⟨a.statement.mapSpans f, a.warnings.map (Warning.mapSpans f)⟩

def Place.mapSpans (f : Span → Span) (p : Place) : Place := ⟨p.names, p.node.mapSpans f⟩

variable {f : Span → Span}

@[simp] theorem Warning.code_mapSpans (w : Warning) : (w.mapSpans f).code = w.code := by
  obtain ⟨finding, _⟩ := w
  cases finding <;> rfl

theorem Finding.aggregateName_mapSpans (function : QualifiedName) :
    aggregateName (function.mapSpans f) = aggregateName function := by
  rw [aggregateName, aggregateName, QualifiedName.pieces_mapSpans]

theorem Finding.message_mapSpans (x : Finding) : (x.mapSpans f).message = x.message := by
  cases x with
  | ungroupedColumn column =>
    show "Column '" ++ render (column.mapSpans f).pieces ++ _ = _
    rw [QualifiedName.pieces_mapSpans]
    rfl
  | aggregateInWhere function | aggregateInJoin function =>
    show "Aggregate " ++ aggregateName (function.mapSpans f) ++ _ = _
    rw [aggregateName_mapSpans]
    rfl
  | _ => exact congrArg message rfl

@[simp] theorem Warning.message_mapSpans (w : Warning) : (w.mapSpans f).message = w.message :=
  w.finding.message_mapSpans

/-! ## Names -/

@[simp] theorem QualifiedName.isAggregate_mapSpans (n : QualifiedName) :
    (n.mapSpans f).isAggregate = n.isAggregate := by
  simp [isAggregate, mapSpans]

@[simp] theorem QualifiedName.qualifier?_mapSpans (n : QualifiedName) :
    (n.mapSpans f).qualifier? = n.qualifier?.map (Identifier.mapSpans f) := by
  simp [qualifier?, mapSpans]

@[simp] theorem Relation.name?_mapSpans (r : Relation) : (r.mapSpans f).name? = r.name? := by
  cases r with
  | table _ n label => cases label <;> rfl
  | derived _ _ label => cases label <;> rfl

@[simp] theorem Relation.scopeName?_mapSpans (r : Relation) :
    (r.mapSpans f).scopeName? = r.scopeName? := by
  rw [scopeName?, scopeName?, name?_mapSpans]

/-! ## Nodes below -/

@[simp] theorem Expr.operands_mapSpans (e : Expr) :
    (e.mapSpans f).operands = e.operands.map (Expr.mapSpans f) := by
  obtain ⟨_, form⟩ := e
  cases form with
  | call _ _ arguments =>
    cases arguments <;> simp [Expr.mapSpans, ExprForm.mapSpans, operands, Arguments.mapSpans,
      Arguments.items]
  | case operand branches otherwise =>
    have below : (branches.map (WhenBranch.mapSpans f)).flatMap
        (fun b => [b.condition, b.result]) =
        (branches.flatMap fun b => [b.condition, b.result]).map (Expr.mapSpans f) := by
      rw [List.flatMap_map, List.map_flatMap]
      rfl
    cases operand <;> cases otherwise <;>
      simp [Expr.mapSpans, ExprForm.mapSpans, operands, below]
  | _ => simp [Expr.mapSpans, ExprForm.mapSpans, operands]

@[simp] theorem Expr.query?_mapSpans (e : Expr) :
    (e.mapSpans f).query? = e.query?.map (Query.mapSpans f) := by
  obtain ⟨_, form⟩ := e
  cases form <;> rfl

theorem Statement.children_mapSpans (s : Statement) :
    (s.mapSpans f).children = s.children.map (Node.mapSpans f) := by
  cases s with
  | insert s =>
    obtain ⟨_, _, _, source⟩ := s
    cases source <;> simp [Statement.mapSpans, children, InsertSource.mapSpans, Node.mapSpans,
      Function.comp_def]
  | update s =>
    obtain ⟨_, _, _, _, condition⟩ := s
    cases condition <;> simp [Statement.mapSpans, children, Assignment.mapSpans, Node.mapSpans]
  | delete s =>
    obtain ⟨_, _, _, condition⟩ := s
    cases condition <;> simp [Statement.mapSpans, children, Node.mapSpans]
  | createTable s => simp [Statement.mapSpans, children, Node.mapSpans]
  | alterTable s =>
    obtain ⟨_, _, alteration⟩ := s
    cases alteration <;> simp [Statement.mapSpans, children, Alteration.mapSpans, Node.mapSpans]
  | _ => rfl

theorem Query.trailing_mapSpans (q : Query) :
    (q.mapSpans f).trailing = q.trailing.map (Expr.mapSpans f) := by
  obtain ⟨_, _, orderBy, limit⟩ := q
  have limited (l : Limit) : (l.mapSpans f).offset.toList =
      l.offset.toList.map (Expr.mapSpans f) := by
    cases h : l.offset <;> simp [Limit.mapSpans, h]
  cases orderBy <;> cases limit <;>
    simp [Query.mapSpans, trailing, OrderBy.mapSpans, OrderItem.mapSpans, limited,
      Function.comp_def] <;> rfl

theorem Select.children_mapSpans (s : Select) :
    (s.mapSpans f).children = s.children.map (Node.mapSpans f) := by
  obtain ⟨_, _, _, source, condition, groupBy, having⟩ := s
  cases source <;> cases condition <;> cases groupBy <;> cases having <;>
    simp [Select.mapSpans, children, From.mapSpans, JoinedTable.mapSpans, GroupBy.mapSpans,
      Node.mapSpans, List.flatMap_map, List.map_flatMap, Function.comp_def]

theorem Node.children_mapSpans (n : Node) :
    (n.mapSpans f).children = n.children.map (Node.mapSpans f) := by
  cases n with
  | statement s => exact s.children_mapSpans
  | query q =>
    have body : (q.mapSpans f).body = q.body.mapSpans f := by
      obtain ⟨_, _, _, _⟩ := q
      rfl
    simp [mapSpans, children, q.trailing_mapSpans, body, Function.comp_def]
  | select s => exact s.children_mapSpans
  | selectItem i => cases i <;> rfl
  | relation r => cases r <;> rfl
  | join j =>
    obtain ⟨_, _, _, condition⟩ := j
    cases condition <;> rfl
  | expr e =>
    simp only [mapSpans, children, Expr.operands_mapSpans, Expr.query?_mapSpans, List.map_append,
      List.map_map]
    cases e.query? <;> rfl
  | column c =>
    have default (o : ColumnOption) :
        (o.mapSpans f).default? = o.default?.map (Expr.mapSpans f) := by cases o <;> rfl
    simp [mapSpans, children, ColumnDefinition.mapSpans, List.filterMap_map, List.map_filterMap,
      default, Function.comp_def]

/-! ## Places -/

@[simp] theorem Select.relations_mapSpans (s : Select) :
    (s.mapSpans f).relations = s.relations.map (Relation.mapSpans f) := by
  obtain ⟨_, _, _, source, _, _, _⟩ := s
  have joined (j : Join) : (j.mapSpans f).relation = j.relation.mapSpans f := by
    obtain ⟨_, _, _, _⟩ := j
    rfl
  cases source <;> simp [Select.mapSpans, relations, From.mapSpans, From.relations,
    JoinedTable.mapSpans, List.flatMap_map, List.map_flatMap, Function.comp_def, joined]

@[simp] theorem Select.scopeNames_mapSpans (s : Select) :
    (s.mapSpans f).scopeNames = s.scopeNames := by
  rw [scopeNames, scopeNames, relations_mapSpans, List.filterMap_map]
  exact List.filterMap_congr fun r _ => r.scopeName?_mapSpans

@[simp] theorem Query.scopeNames_mapSpans (q : Query) :
    (q.mapSpans f).scopeNames = q.scopeNames := by
  obtain ⟨_, body, _, _⟩ := q
  cases body with
  | select s => exact s.scopeNames_mapSpans
  | setOperation => rfl

@[simp] theorem Statement.scopeNames_mapSpans (s : Statement) :
    (s.mapSpans f).scopeNames = s.scopeNames := by
  cases s with
  | update s => cases h : s.alias? <;> simp [Statement.mapSpans, scopeNames, h]
  | delete s => cases h : s.alias? <;> simp [Statement.mapSpans, scopeNames, h]
  | _ => rfl

theorem Place.under_mapSpans (names : List String) (nodes : List Node) :
    under names (nodes.map (Node.mapSpans f)) = (under names nodes).map (Place.mapSpans f) := by
  simp [under, Place.mapSpans]

theorem Place.children_mapSpans (p : Place) :
    (p.mapSpans f).children = p.children.map (Place.mapSpans f) := by
  obtain ⟨names, n⟩ := p
  cases n with
  | statement s =>
    show under ((s.mapSpans f).scopeNames ++ names) (s.mapSpans f).children = _
    rw [s.scopeNames_mapSpans, s.children_mapSpans, under_mapSpans]
    rfl
  | query q =>
    have body : (q.mapSpans f).body = q.body.mapSpans f := by
      obtain ⟨_, _, _, _⟩ := q
      rfl
    have selections : (q.mapSpans f).body.selects.map (fun s => Node.select s.2) =
        (q.body.selects.map fun s => Node.select s.2).map (Node.mapSpans f) := by
      simp [body, Node.mapSpans]
    have trailing : (q.mapSpans f).trailing.map Node.expr =
        (q.trailing.map Node.expr).map (Node.mapSpans f) := by
      simp [q.trailing_mapSpans, Node.mapSpans]
    show under names _ ++ under ((q.mapSpans f).scopeNames ++ names) _ = _
    rw [selections, trailing, q.scopeNames_mapSpans, under_mapSpans, under_mapSpans,
      ← List.map_append]
    rfl
  | select s =>
    show under ((s.mapSpans f).scopeNames ++ names) (s.mapSpans f).children = _
    rw [s.scopeNames_mapSpans, s.children_mapSpans, under_mapSpans]
    rfl
  | selectItem i | relation i | join i | expr i | column i =>
    show under names (Node.mapSpans f _).children = (under names (Node.children _)).map _
    rw [Node.children_mapSpans, under_mapSpans]

/-- The places of a tree whose spans are changed. -/
theorem Place.preorder_mapSpans (p : Place) :
    (p.mapSpans f).preorder = p.preorder.map (Place.mapSpans f) := by
  rw [preorder_eq, preorder_eq, List.map_cons, children_mapSpans, List.flatMap_map,
    List.map_flatMap]
  congr 1
  exact List.flatMap_congr fun c hc => preorder_mapSpans c
termination_by sizeOf p.node
decreasing_by exact sizeOf_node_lt_of_mem_children hc

/-! ## Searches in expressions -/

theorem Expr.reach_mapSpans (ends : Expr → Bool) {ends' : Expr → Bool}
    (same : ∀ e, ends' (e.mapSpans f) = ends e) (e : Expr) :
    (e.mapSpans f).reach ends' = (e.reach ends).map (Expr.mapSpans f) := by
  rw [reach_eq, reach_eq, same, operands_mapSpans]
  split
  · rfl
  · rw [List.map_cons, List.flatMap_map, List.map_flatMap]
    congr 1
    exact List.flatMap_congr fun c hc => reach_mapSpans ends same c
termination_by sizeOf e
decreasing_by exact sizeOf_lt_of_mem_operands hc

@[simp] theorem Expr.aggregate?_mapSpans (e : Expr) :
    (e.mapSpans f).aggregate? = e.aggregate?.map (QualifiedName.mapSpans f) := by
  obtain ⟨_, form⟩ := e
  cases form with
  | call function _ _ =>
    simp only [Expr.mapSpans, ExprForm.mapSpans, aggregate?, QualifiedName.isAggregate_mapSpans]
    split <;> rfl
  | _ => rfl

/-- A name and where it was found, with their spans changed. -/
abbrev mapFound (f : Span → Span) : QualifiedName × Span → QualifiedName × Span :=
  Prod.map (QualifiedName.mapSpans f) f

@[simp] theorem Expr.aggregates_mapSpans (e : Expr) :
    (e.mapSpans f).aggregates = e.aggregates.map (mapFound f) := by
  rw [aggregates, aggregates, reach_mapSpans (fun c => c.aggregate?.isSome) (by simp),
    List.filterMap_map, List.map_filterMap]
  refine List.filterMap_congr fun c _ => ?_
  simp [Function.comp_def]

@[simp] theorem Expr.groupingText_mapSpans (e : Expr) :
    (e.mapSpans f).groupingText = e.groupingText := by
  rw [groupingText, groupingText, show (e.mapSpans f).pieces = e.pieces from
    Node.pieces_mapSpans f (.expr e)]

@[simp] theorem Expr.ungroupedColumns_mapSpans (keys : List String) (e : Expr) :
    (e.mapSpans f).ungroupedColumns keys = (e.ungroupedColumns keys).map (mapFound f) := by
  rw [ungroupedColumns, ungroupedColumns,
    reach_mapSpans (fun c => keys.contains c.groupingText || c.aggregate?.isSome) (by simp),
    List.filterMap_map, List.map_filterMap]
  refine List.filterMap_congr fun c _ => ?_
  have text := c.groupingText_mapSpans (f := f)
  obtain ⟨_, form⟩ := c
  cases form with
  | column name =>
    simp only [Function.comp_apply, text]
    simp only [Expr.mapSpans, ExprForm.mapSpans]
    split <;> rfl
  | _ => rfl

/-! ## Selections -/

namespace Select

variable (s : Select)

@[simp] theorem groupExprs_mapSpans :
    (s.mapSpans f).groupExprs = s.groupExprs.map (Expr.mapSpans f) := by
  obtain ⟨_, _, _, _, _, _, having⟩ := s
  have item (i : SelectItem) : (i.mapSpans f).expr? = i.expr?.map (Expr.mapSpans f) := by
    cases i <;> rfl
  cases having <;> simp [Select.mapSpans, groupExprs, List.filterMap_map, List.map_filterMap, item]

@[simp] theorem isAggregated_mapSpans : (s.mapSpans f).isAggregated = s.isAggregated := by
  simp [isAggregated, List.any_map, Function.comp_def]

@[simp] theorem groupBy_mapSpans :
    (s.mapSpans f).groupBy = s.groupBy.map (GroupBy.mapSpans f) := by
  obtain ⟨_, _, _, _, _, _, _⟩ := s
  simp [Select.mapSpans]

@[simp] theorem isGrouped_mapSpans : (s.mapSpans f).isGrouped = s.isGrouped := by
  simp [isGrouped]

@[simp] theorem groupingTexts_mapSpans : (s.mapSpans f).groupingTexts = s.groupingTexts := by
  rw [groupingTexts, groupingTexts, groupBy_mapSpans]
  cases s.groupBy <;> simp [GroupBy.mapSpans]

@[simp] theorem aliases_mapSpans :
    (s.mapSpans f).aliases = s.aliases.map (Identifier.mapSpans f) := by
  obtain ⟨_, _, _, _, _, _, _⟩ := s
  have item (i : SelectItem) : (i.mapSpans f).alias? = i.alias?.map (Identifier.mapSpans f) := by
    cases i <;> rfl
  simp [Select.mapSpans, aliases, List.filterMap_map, List.map_filterMap, item]

end Select

/-! ## Warnings -/

/-- Items with the same keys are repeated in the same places. -/
theorem repeats_map {α β : Type} (key : α → String) {key' : β → String} (g : α → β)
    (same : ∀ a, key' (g a) = key a) (items : List α) :
    repeats key' (items.map g) = (repeats key items).map g := by
  have after (seen : List String) :
      repeatsAfter key' seen (items.map g) = (repeatsAfter key seen items).map g := by
    induction items generalizing seen with
    | nil => rfl
    | cons a items ih =>
      rw [List.map_cons, repeatsAfter, repeatsAfter, same]
      split
      · rw [List.map_cons, ih]
      · exact ih _
  exact after []

theorem unknownQualifier_mapSpans (names : List String) (qualifier : Identifier) :
    unknownQualifier names (qualifier.mapSpans f) =
      (unknownQualifier names qualifier).map (Warning.mapSpans f) := by
  rw [unknownQualifier, unknownQualifier, Identifier.value_mapSpans]
  split <;> rfl

namespace Select

variable (s : Select)

theorem relationWarnings_mapSpans :
    (s.mapSpans f).relationWarnings = s.relationWarnings.map (Warning.mapSpans f) := by
  have named : (s.mapSpans f).relations.filterMap (fun r => r.scopeName?.map (·, r.span)) =
      (s.relations.filterMap fun r => r.scopeName?.map (·, r.span)).map (Prod.map id f) := by
    rw [relations_mapSpans, List.filterMap_map, List.map_filterMap]
    refine List.filterMap_congr fun r _ => ?_
    simp [Function.comp_def]
  rw [relationWarnings, named, repeats_map Prod.fst (Prod.map id f) fun _ => rfl,
    relationWarnings, List.map_map, List.map_map]
  rfl

theorem aliasWarnings_mapSpans :
    (s.mapSpans f).aliasWarnings = s.aliasWarnings.map (Warning.mapSpans f) := by
  rw [aliasWarnings, aliases_mapSpans,
    repeats_map (fun a => lowerCase a.value) (Identifier.mapSpans f) fun _ => rfl,
    aliasWarnings, List.map_map, List.map_map]
  rfl

theorem conditionWarnings_mapSpans :
    (s.mapSpans f).conditionWarnings = s.conditionWarnings.map (Warning.mapSpans f) := by
  obtain ⟨_, _, _, _, condition, _, _⟩ := s
  cases condition <;> simp [Select.mapSpans, conditionWarnings, Warning.mapSpans, Finding.mapSpans]

theorem havingWarnings_mapSpans :
    (s.mapSpans f).havingWarnings = s.havingWarnings.map (Warning.mapSpans f) := by
  have having : (s.mapSpans f).having = s.having.map (Expr.mapSpans f) := by
    obtain ⟨_, _, _, _, _, _, _⟩ := s
    simp [Select.mapSpans]
  rw [havingWarnings, having, isGrouped_mapSpans, Option.isSome_map, s.span_mapSpans,
    havingWarnings]
  split <;> rfl

theorem wildcardWarnings_mapSpans :
    (s.mapSpans f).wildcardWarnings = s.wildcardWarnings.map (Warning.mapSpans f) := by
  obtain ⟨_, _, projection, _, _, _, _⟩ := s
  have wild (i : SelectItem) : (i.mapSpans f).expr?.isNone = i.expr?.isNone := by cases i <;> rfl
  have place (i : SelectItem) : (i.mapSpans f).span = f i.span := by cases i <;> rfl
  simp [Select.mapSpans, wildcardWarnings, List.filter_map, Function.comp_def, wild, place,
    Warning.mapSpans, Finding.mapSpans]

theorem ungroupedWarnings_mapSpans :
    (s.mapSpans f).ungroupedWarnings = s.ungroupedWarnings.map (Warning.mapSpans f) := by
  have named (c : QualifiedName) : (s.mapSpans f).isAlias (c.mapSpans f) = s.isAlias c := by
    simp [isAlias, QualifiedName.mapSpans, Function.comp_def]
  have columns :
      (s.mapSpans f).groupExprs.flatMap (Expr.ungroupedColumns (s.mapSpans f).groupingTexts) =
      (s.groupExprs.flatMap (Expr.ungroupedColumns s.groupingTexts)).map (mapFound f) := by
    rw [groupExprs_mapSpans, groupingTexts_mapSpans, List.flatMap_map, List.map_flatMap]
    exact List.flatMap_congr fun e _ => e.ungroupedColumns_mapSpans _
  rw [ungroupedWarnings, columns, List.filter_map, ungroupedWarnings, List.map_map, List.map_map]
  simp only [Function.comp_def, mapFound, Prod.map_fst, named]
  rfl

theorem warnings_mapSpans : (s.mapSpans f).warnings = s.warnings.map (Warning.mapSpans f) := by
  simp only [warnings, aliasWarnings_mapSpans, conditionWarnings_mapSpans, havingWarnings_mapSpans,
    wildcardWarnings_mapSpans, ungroupedWarnings_mapSpans, isGrouped_mapSpans, List.map_append]
  split <;> simp

end Select

theorem Join.warnings_mapSpans (j : Join) :
    (j.mapSpans f).warnings = j.warnings.map (Warning.mapSpans f) := by
  obtain ⟨_, kind, _, condition⟩ := j
  cases condition with
  | none =>
    show (if kind = .cross then [] else _) = (if kind = .cross then [] else _ : List _).map _
    split <;> rfl
  | on e => simp [Join.mapSpans, JoinCondition.mapSpans, warnings, Warning.mapSpans,
      Finding.mapSpans]
  | shared => rfl

theorem Query.widthWarnings_mapSpans (q : Query) :
    (q.mapSpans f).widthWarnings = q.widthWarnings.map (Warning.mapSpans f) := by
  have leftmost (b : QueryBody) : (b.mapSpans f).leftmost = b.leftmost.mapSpans f := by
    induction b using QueryBody.leftmost.induct with
    | case1 s => rfl
    | case2 _ left _ _ _ ih => exact ih
  have width : (q.mapSpans f).width = q.width := by
    obtain ⟨_, body, _, _⟩ := q
    rw [Query.width, Query.width, Query.mapSpans, leftmost]
    obtain ⟨_, _, _, _, _, _, _⟩ := body.leftmost
    simp [Select.mapSpans]
  have span : (q.mapSpans f).span = f q.span := by
    obtain ⟨_, _, _, _⟩ := q
    rfl
  rw [widthWarnings, width, span, widthWarnings]
  split <;> rfl

/-! ## Statements -/

theorem CreateTable.warnings_mapSpans (s : CreateTable) :
    (s.mapSpans f).warnings = s.warnings.map (Warning.mapSpans f) := by
  have column (c : ColumnDefinition) : (c.mapSpans f).isPrimaryKey = c.isPrimaryKey := by
    have option (o : ColumnOption) : (o.mapSpans f).isPrimaryKey = o.isPrimaryKey := by
      cases o <;> rfl
    simp [ColumnDefinition.isPrimaryKey, ColumnDefinition.mapSpans, Function.comp_def, option]
  have keys : (s.mapSpans f).primaryKeys = s.primaryKeys.map f := by
    simp only [primaryKeys, CreateTable.mapSpans, List.filter_map, Function.comp_def, column,
      List.map_append, List.map_map, List.filterMap_map, List.map_filterMap]
    congr 1
    refine List.filterMap_congr fun c _ => ?_
    cases c <;> rfl
  rw [warnings, warnings, keys, ← List.map_drop, List.map_append, List.map_map, List.map_map,
    List.map_map]
  congr 1
  show (repeats _ (s.columns.map (ColumnDefinition.mapSpans f))).map _ = _
  rw [repeats_map (fun c => lowerCase c.name.value) (ColumnDefinition.mapSpans f)
    fun _ => rfl, List.map_map]
  rfl

section

variable (union : ∀ s t : Span, f (s.union t) = (f s).union (f t))

include union

theorem Insert.rowSpan_mapSpans (s : Insert) (row : List Expr) :
    (s.mapSpans f).rowSpan (row.map (Expr.mapSpans f)) = f (s.rowSpan row) := by
  rw [rowSpan, rowSpan, List.head?_map, List.getLast?_map]
  cases row.head? <;> cases row.getLast? <;> simp [Insert.mapSpans, union]

theorem Insert.warnings_mapSpans (s : Insert) :
    (s.mapSpans f).warnings = s.warnings.map (Warning.mapSpans f) := by
  obtain ⟨span, table, columns, source⟩ := s
  cases source with
  | query => rfl
  | values rows =>
    have length : (Insert.mapSpans f ⟨span, table, columns, .values rows⟩).expectedLength?
          (rows.map (·.map (Expr.mapSpans f))) =
        (Insert.mk span table columns (.values rows)).expectedLength? rows := by
      cases columns <;> cases rows <;> simp [Insert.mapSpans, expectedLength?]
    have spans := Insert.rowSpan_mapSpans union ⟨span, table, columns, .values rows⟩
    simp only [Insert.mapSpans, InsertSource.mapSpans] at length spans
    simp only [warnings, Insert.mapSpans, InsertSource.mapSpans, length]
    split
    · rfl
    · simp [List.filter_map, Function.comp_def, spans, Warning.mapSpans, Finding.mapSpans]

theorem Statement.ownWarnings_mapSpans (s : Statement) :
    (s.mapSpans f).ownWarnings = s.ownWarnings.map (Warning.mapSpans f) := by
  have absent (verb : Keyword) (condition : Option Expr) (span : Span) :
      SqlSyntax.missingWhere verb (condition.map (Expr.mapSpans f)) (f span) =
        (SqlSyntax.missingWhere verb condition span).map (Warning.mapSpans f) := by
    cases condition <;> rfl
  cases s with
  | insert s => exact s.warnings_mapSpans union
  | update s => exact absent ..
  | delete s => exact absent ..
  | createTable s => exact s.warnings_mapSpans
  | _ => rfl

omit union in
theorem Place.warnings_column (names : List String) (s : Span) (n : QualifiedName) :
    warnings ⟨names, .expr ⟨s, .column n⟩⟩ = n.qualifier?.elim [] (unknownQualifier names) := by
  cases h : n.qualifier? <;> simp [warnings, h]

theorem Place.warnings_mapSpans (p : Place) :
    (p.mapSpans f).warnings = p.warnings.map (Warning.mapSpans f) := by
  obtain ⟨names, n⟩ := p
  cases n with
  | statement s => exact s.ownWarnings_mapSpans union
  | select s => exact s.relationWarnings_mapSpans
  | selectItem i =>
    cases i with
    | qualifiedWildcard _ n => exact unknownQualifier_mapSpans names n.base
    | _ => rfl
  | join j => exact j.warnings_mapSpans
  | expr e =>
    obtain ⟨_, form⟩ := e
    cases form with
    | column n =>
      show warnings ⟨names, .expr ⟨_, .column (n.mapSpans f)⟩⟩ = _
      rw [warnings_column, warnings_column, n.qualifier?_mapSpans]
      cases n.qualifier? with
      | none => rfl
      | some qualifier => exact unknownQualifier_mapSpans names qualifier
    | subquery q => exact q.widthWarnings_mapSpans
    | inQuery _ _ q => exact q.widthWarnings_mapSpans
    | _ => rfl
  | _ => rfl

/-- What there is to warn about in a statement, place by place. -/
def Statement.findings (s : Statement) : List Warning :=
  s.places.flatMap Place.warnings ++ (s.nodes.filterMap Node.select?).flatMap Select.warnings

omit union in
theorem Statement.warnings_eq (s : Statement) : s.warnings =
    s.findings.mergeSort fun v w => decide (v.span.start ≤ w.span.start) := rfl

theorem Statement.findings_mapSpans (s : Statement) :
    (s.mapSpans f).findings = s.findings.map (Warning.mapSpans f) := by
  have places : (s.mapSpans f).places = s.places.map (Place.mapSpans f) :=
    Place.preorder_mapSpans (f := f) ⟨[], .statement s⟩
  have nodes : (s.mapSpans f).nodes = s.nodes.map (Node.mapSpans f) := by
    have same (t : Statement) : t.places.map (·.node) = t.nodes := Place.map_node_preorder _
    rw [← same, places, ← same, List.map_map, List.map_map]
    rfl
  have select (n : Node) : (n.mapSpans f).select? = n.select?.map (Select.mapSpans f) := by
    cases n <;> rfl
  have selections : (s.nodes.map (Node.mapSpans f)).filterMap Node.select? =
      (s.nodes.filterMap Node.select?).map (Select.mapSpans f) := by
    rw [List.filterMap_map, List.map_filterMap]
    exact List.filterMap_congr fun n _ => select n
  rw [findings, places, nodes, selections, List.flatMap_map, List.flatMap_map, findings,
    List.map_append, List.map_flatMap, List.map_flatMap]
  congr 1
  · exact List.flatMap_congr fun p _ => p.warnings_mapSpans union
  · exact List.flatMap_congr fun s _ => s.warnings_mapSpans

variable (order : ∀ s t : Span, s.start ≤ t.start ↔ (f s).start ≤ (f t).start)

include order

/-- The warnings of a statement whose spans are changed so that starts keep their
order. -/
theorem Statement.warnings_mapSpans (s : Statement) :
    (s.mapSpans f).warnings = s.warnings.map (Warning.mapSpans f) := by
  rw [warnings_eq, findings_mapSpans union, warnings_eq]
  refine (List.map_mergeSort fun v _ w _ => ?_).symm
  exact decide_eq_decide.2 (order v.span w.span)

/-- The analysis of a statement whose spans are changed in this way. -/
theorem Analysis.ofStatement_mapSpans (o : AnalysisOptions) (s : Statement) :
    ofStatement o (s.mapSpans f) = (ofStatement o s).mapSpans f := by
  unfold ofStatement mapSpans
  split
  · rw [s.warnings_mapSpans union order]
  · rfl

end

end SqlSyntax
