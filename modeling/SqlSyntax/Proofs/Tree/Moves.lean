import SqlSyntax.Proofs.Tree.Spans

/-!
# Moving the spans of a tree

What `mapSpans` does to the span of a node and to the parts of statements, and
that it does nothing when it moves no span.

## Main results

* `Node.mapSpans_id` — spans that are mapped to themselves leave a tree as it is.
-/

namespace SqlSyntax

/-- A span with both ends moved. -/
def Span.map (g : Nat → Nat) (s : Span) : Span := ⟨g s.start, g s.stop⟩

/-! ## Spans of nodes -/

@[simp] theorem Expr.span_mapSpans (g : Span → Span) (e : Expr) :
    (e.mapSpans g).span = g e.span := by
  obtain ⟨_, _⟩ := e
  rfl

@[simp] theorem QueryBody.span_mapSpans (g : Span → Span) (b : QueryBody) :
    (b.mapSpans g).span = g b.span := by
  cases b with
  | select s =>
    obtain ⟨_, _, _, _, _, _, _⟩ := s
    rfl
  | setOperation => rfl

@[simp] theorem Select.span_mapSpans (g : Span → Span) (s : Select) :
    (s.mapSpans g).span = g s.span := by
  obtain ⟨_, _, _, _, _, _, _⟩ := s
  rfl

@[simp] theorem Relation.span_mapSpans (g : Span → Span) (r : Relation) :
    (r.mapSpans g).span = g r.span := by
  cases r <;> rfl

/-! ## Parts of statements -/

def Insert.mapSpans (g : Span → Span) (s : Insert) : Insert :=
  ⟨g s.span, s.table.mapSpans g, s.columns.map (·.mapSpans g), s.source.mapSpans g⟩

def Update.mapSpans (g : Span → Span) (s : Update) : Update :=
  ⟨g s.span, s.table.mapSpans g, s.alias?.map (·.mapSpans g),
    s.assignments.map (·.mapSpans g), s.condition.map (·.mapSpans g)⟩

def Delete.mapSpans (g : Span → Span) (s : Delete) : Delete :=
  ⟨g s.span, s.table.mapSpans g, s.alias?.map (·.mapSpans g), s.condition.map (·.mapSpans g)⟩

def CreateTable.mapSpans (g : Span → Span) (s : CreateTable) : CreateTable :=
  ⟨g s.span, s.ifNotExists, s.name.mapSpans g, s.columns.map (·.mapSpans g),
    s.constraints.map (·.mapSpans g)⟩

def CreateIndex.mapSpans (g : Span → Span) (s : CreateIndex) : CreateIndex :=
  ⟨g s.span, s.unique, s.name.mapSpans g, s.table.mapSpans g, s.columns.map (·.mapSpans g)⟩

def CreateDatabase.mapSpans (g : Span → Span) (s : CreateDatabase) : CreateDatabase :=
  ⟨g s.span, s.name.mapSpans g⟩

def AlterTable.mapSpans (g : Span → Span) (s : AlterTable) : AlterTable :=
  ⟨g s.span, s.name.mapSpans g, s.alteration.mapSpans g⟩

def Drop.mapSpans (g : Span → Span) (s : Drop) : Drop :=
  ⟨g s.span, s.kind, s.ifExists, s.name.mapSpans g⟩

/-! ## Spans that stay -/

theorem map_eq_self {α : Type} {g : α → α} {l : List α} (h : ∀ a ∈ l, g a = a) : l.map g = l :=
  (List.map_congr_left h).trans (List.map_id' l)

theorem option_map_eq_self {α : Type} {g : α → α} {o : Option α} (h : ∀ a ∈ o, g a = a) :
    o.map g = o := by
  cases o with
  | none => rfl
  | some a => rw [Option.map_some, h a rfl]

@[simp] theorem Identifier.mapSpans_id (i : Identifier) : i.mapSpans id = i := rfl

@[simp] theorem Identifier.map_mapSpans_id (is : List Identifier) :
    is.map (·.mapSpans id) = is := map_eq_self fun _ _ => rfl

@[simp] theorem Identifier.option_map_mapSpans_id (o : Option Identifier) :
    o.map (·.mapSpans id) = o := option_map_eq_self fun _ _ => rfl

@[simp] theorem QualifiedName.mapSpans_id (n : QualifiedName) : n.mapSpans id = n := by
  simp [mapSpans]

theorem QueryBody.mapSpans_id_of_selects : ∀ b : QueryBody,
    (∀ s ∈ b.selects, s.2.mapSpans id = s.2) → b.mapSpans id = b
  | .select s, h => by rw [mapSpans, h (none, s) (List.mem_singleton_self _)]
  | .setOperation _ left op all right, h => by
    have hleft := mapSpans_id_of_selects left fun s hs => h s (by simp [hs])
    have hright := h (some (op, all), right) (by simp)
    simp_all [mapSpans]

theorem WhenBranch.mapSpans_id_of {b : WhenBranch} (hc : b.condition.mapSpans id = b.condition)
    (hr : b.result.mapSpans id = b.result) : b.mapSpans id = b := by
  obtain ⟨_, _, _⟩ := b
  simp_all [mapSpans]

theorem OrderBy.mapSpans_id_of {o : OrderBy}
    (h : ∀ i ∈ o.items, i.expr.mapSpans id = i.expr) : o.mapSpans id = o := by
  obtain ⟨_, items⟩ := o
  have same : items.map (·.mapSpans id) = items := map_eq_self fun i hi => by
    have same := h i hi
    obtain ⟨_, _, _, _⟩ := i
    simp_all [OrderItem.mapSpans]
  rw [mapSpans, same, id]

theorem Limit.mapSpans_id_of {l : Limit} (hc : l.count.mapSpans id = l.count)
    (ho : ∀ e ∈ l.offset, e.mapSpans id = e) : l.mapSpans id = l := by
  obtain ⟨_, count, offset⟩ := l
  rw [mapSpans, hc, option_map_eq_self ho, id]

theorem GroupBy.mapSpans_id_of {g : GroupBy} (h : ∀ e ∈ g.keys, e.mapSpans id = e) :
    g.mapSpans id = g := by
  obtain ⟨_, keys⟩ := g
  rw [mapSpans, map_eq_self h, id]

theorem From.mapSpans_id_of {f : From} (h : ∀ t ∈ f.tables,
    t.relation.mapSpans id = t.relation ∧ ∀ j ∈ t.joins, j.mapSpans id = j) :
    f.mapSpans id = f := by
  obtain ⟨_, tables⟩ := f
  have same : tables.map (·.mapSpans id) = tables := map_eq_self fun t ht => by
    obtain ⟨relation, joins⟩ := h t ht
    obtain ⟨_, _, _⟩ := t
    rw [JoinedTable.mapSpans, relation, map_eq_self joins, id]
  rw [mapSpans, same, id]

/-- Spans that are mapped to themselves leave a tree as it is. -/
theorem Node.mapSpans_id (n : Node) : n.mapSpans id = n := by
  induction n using Node.formInduction with
  | column | literal | unary | binary | is | inQuery | between | like | cast | existsQuery
  | subquery | nested | wildcard | qualifiedWildcard | selected | table | derived =>
    simp_all [mapSpans, Expr.mapSpans, ExprForm.mapSpans, SelectItem.mapSpans, Relation.mapSpans]
  | inList s e negated items ihe ih =>
    simp_all [mapSpans, Expr.mapSpans, ExprForm.mapSpans, map_eq_self]
  | call s n distinct arguments ih =>
    cases arguments <;>
      simp_all [mapSpans, Expr.mapSpans, ExprForm.mapSpans, Arguments.mapSpans, Arguments.items,
        map_eq_self]
  | case s operand branches otherwise iho ihb ihe =>
    simp only [mapSpans, expr.injEq] at iho ihb ihe
    have middle : branches.map (·.mapSpans id) = branches :=
      map_eq_self fun b hb => WhenBranch.mapSpans_id_of (ihb b hb).1 (ihb b hb).2
    simp_all [mapSpans, Expr.mapSpans, ExprForm.mapSpans, option_map_eq_self]
  | query q ihs iho ihl =>
    simp only [mapSpans, expr.injEq, select.injEq] at ihs iho ihl
    obtain ⟨_, body, orderBy, limit⟩ := q
    have ordered : orderBy.map (·.mapSpans id) = orderBy :=
      option_map_eq_self fun o ho => OrderBy.mapSpans_id_of (iho o ho)
    have limited : limit.map (·.mapSpans id) = limit :=
      option_map_eq_self fun l hl => Limit.mapSpans_id_of (ihl l hl).1 (ihl l hl).2
    simp [mapSpans, Query.mapSpans, body.mapSpans_id_of_selects ihs, ordered, limited]
  | select s ihi ihf ihc ihg ihh =>
    simp only [mapSpans, expr.injEq, selectItem.injEq, relation.injEq, join.injEq]
      at ihi ihf ihc ihg ihh
    obtain ⟨_, _, projection, source, condition, groupBy, having⟩ := s
    have tables : source.map (·.mapSpans id) = source :=
      option_map_eq_self fun f hf => From.mapSpans_id_of (ihf f hf)
    have keys : groupBy.map (·.mapSpans id) = groupBy :=
      option_map_eq_self fun g hg => GroupBy.mapSpans_id_of (ihg g hg)
    simp [mapSpans, Select.mapSpans, map_eq_self ihi, tables, option_map_eq_self ihc, keys,
      option_map_eq_self ihh]
  | join s kind relation condition ihr ihc =>
    cases condition <;> simp_all [mapSpans, Join.mapSpans, JoinCondition.mapSpans]
  | columnDefinition c ih =>
    have options : c.options.map (·.mapSpans id) = c.options := map_eq_self fun o ho => by
      cases o with
      | default e =>
        have same : e.mapSpans id = e := by simpa [mapSpans] using ih e ho
        rw [ColumnOption.mapSpans, same]
      | _ => rfl
    simp [mapSpans, ColumnDefinition.mapSpans, options]
  | statement s ih =>
    cases s with
    | query q => simpa [mapSpans, Statement.mapSpans, Statement.children] using ih
    | insert s =>
      obtain ⟨_, _, _, source⟩ := s
      cases source with
      | values rows =>
        simp only [Statement.children, List.forall_mem_map, List.forall_mem_flatten] at ih
        have same : rows.map (·.map (·.mapSpans id)) = rows := map_eq_self fun row hrow =>
          map_eq_self fun e he => by simpa [mapSpans] using ih row hrow e he
        simp [mapSpans, Statement.mapSpans, InsertSource.mapSpans, same]
      | query q =>
        simpa [mapSpans, Statement.mapSpans, InsertSource.mapSpans, Statement.children] using ih
    | update s =>
      obtain ⟨_, _, _, assignments, condition⟩ := s
      simp only [Statement.children, List.forall_mem_append, List.forall_mem_map,
        Option.mem_toList] at ih
      have set : assignments.map (·.mapSpans id) = assignments := map_eq_self fun a ha => by
        have same : a.value.mapSpans id = a.value := by simpa [mapSpans] using ih.1 a ha
        simp [Assignment.mapSpans, same]
      have filter : condition.map (·.mapSpans id) = condition := option_map_eq_self fun e he => by
        simpa [mapSpans] using ih.2 e he
      simp [mapSpans, Statement.mapSpans, set, filter]
    | delete s =>
      obtain ⟨_, _, _, condition⟩ := s
      simp only [Statement.children, List.forall_mem_map, Option.mem_toList] at ih
      have filter : condition.map (·.mapSpans id) = condition := option_map_eq_self fun e he => by
        simpa [mapSpans] using ih e he
      simp [mapSpans, Statement.mapSpans, filter]
    | createTable s =>
      obtain ⟨_, _, _, columns, constraints⟩ := s
      simp only [Statement.children, List.forall_mem_map] at ih
      have same : columns.map (·.mapSpans id) = columns := map_eq_self fun c hc => by
        simpa [mapSpans] using ih c hc
      have keys : constraints.map (·.mapSpans id) = constraints := map_eq_self fun c _ => by
        cases c <;> simp [TableConstraint.mapSpans]
      simp [mapSpans, Statement.mapSpans, same, keys]
    | alterTable s =>
      obtain ⟨_, _, alteration⟩ := s
      cases alteration with
      | addColumn c =>
        simpa [mapSpans, Statement.mapSpans, Alteration.mapSpans, Statement.children] using ih
      | _ =>
        simp [mapSpans, Statement.mapSpans, Alteration.mapSpans]
    | createIndex | createDatabase | drop =>
      simp [mapSpans, Statement.mapSpans]

end SqlSyntax
