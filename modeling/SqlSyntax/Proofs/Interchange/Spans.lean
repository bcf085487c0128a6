import SqlSyntax.Interchange.Statement
import SqlSyntax.Proofs.Tree.Spans

/-!
# Documents without spans

A document that was asked for without spans says nothing about where a node
stands, so trees that are equal up to spans have the same one.

## Main results

* `Node.document_mapSpans` — for every node, whatever happens to its spans.
* `Statement.structurallyEqual_of_unplaced_eq` — statements that are equal up
  to spans are structurally equal.
-/

namespace SqlSyntax

open Document

@[simp] theorem Document.spanned_false (s : Span) (d : Document) : d.spanned false s = d := rfl

section Names

variable (f : Span → Span)

@[simp] theorem Identifier.value_mapSpans (i : Identifier) : (i.mapSpans f).value = i.value := rfl

@[simp] theorem identifierDocuments_mapSpans (is : List Identifier) :
    identifierDocuments (is.map (·.mapSpans f)) = identifierDocuments is := by
  simp [identifierDocuments, Function.comp_def]

@[simp] theorem aliasDocument_mapSpans (label : Option Identifier) :
    aliasDocument (label.map (·.mapSpans f)) = aliasDocument label := by
  cases label <;> rfl

@[simp] theorem QualifiedName.base_value_mapSpans (n : QualifiedName) :
    (n.mapSpans f).base.value = n.base.value := rfl

@[simp] theorem QualifiedName.qualifierDocument_mapSpans (n : QualifiedName) :
    (n.mapSpans f).qualifierDocument = n.qualifierDocument := by
  simp [qualifierDocument, mapSpans, Function.comp_def]

@[simp] theorem QualifiedName.canonical_mapSpans (n : QualifiedName) :
    (n.mapSpans f).canonical = n.canonical := by
  rw [canonical, pieces_mapSpans, canonical]

@[simp] theorem tableDocument_mapSpans (n : QualifiedName) (label : Option Identifier) :
    tableDocument (n.mapSpans f) (label.map (·.mapSpans f)) = tableDocument n label := by
  simp [tableDocument]

@[simp] theorem tableDocument_mapSpans_none (n : QualifiedName) :
    tableDocument (n.mapSpans f) none = tableDocument n none :=
  tableDocument_mapSpans f n none

@[simp] theorem callDocument_mapSpans (n : QualifiedName) (distinct : Bool)
    (arguments : List Document) :
    callDocument (n.mapSpans f) distinct arguments = callDocument n distinct arguments := by
  have aggregate : (n.mapSpans f).isAggregate = n.isAggregate := by
    simp [QualifiedName.isAggregate, QualifiedName.mapSpans]
  simp [callDocument, aggregate, aggregateDocument, functionDocument]

end Names

/-! ## Lists -/

theorem Expr.documents_eq (spans : Bool) (es : List Expr) :
    documents spans es = es.map (document spans) := by
  induction es with
  | nil => rfl
  | cons e es ih => rw [documents, ih, List.map_cons]

/-- The entry of a branch. -/
def WhenBranch.entry (spans : Bool) (b : WhenBranch) : Document :=
  (object [("type", string "when"), ("cond", b.condition.document spans),
    ("result", b.result.document spans)]).spanned spans b.span

theorem WhenBranch.documents_eq (spans : Bool) (bs : List WhenBranch) :
    documents spans bs = bs.map (entry spans) := by
  induction bs with
  | nil => rfl
  | cons b bs ih =>
    obtain ⟨_, _, _⟩ := b
    rw [documents, ih, List.map_cons, entry]

theorem SelectItem.documents_eq (spans : Bool) (is : List SelectItem) :
    documents spans is = is.map (document spans) := by
  induction is with
  | nil => rfl
  | cons i is ih => rw [documents, ih, List.map_cons]

/-- The entry of an item of an order. -/
def OrderItem.entry (spans : Bool) (i : OrderItem) : Document :=
  (object [("expr", i.expr.document spans), ("type", string i.direction.keyword.text),
    ("nulls", match i.nulls with
      | none => null
      | some n => string n.word)]).spanned spans i.span

theorem OrderItem.documents_eq (spans : Bool) (is : List OrderItem) :
    documents spans is = is.map (entry spans) := by
  induction is with
  | nil => rfl
  | cons i is ih =>
    obtain ⟨_, _, _, nulls⟩ := i
    cases nulls <;> simp [documents, ih, entry]

/-- The entry of a join. -/
def Join.entry (spans : Bool) (j : Join) : Document :=
  ((((j.relation.document spans).set "join" (string (j.kind.keyword.text ++ " JOIN"))).set
    "on" (j.condition.onDocument spans)).set "using" j.condition.usingDocument).spanned spans j.span

theorem Join.documents_eq (spans : Bool) (js : List Join) :
    documents spans js = js.map (entry spans) := by
  induction js with
  | nil => rfl
  | cons j js ih =>
    obtain ⟨_, _, _, _⟩ := j
    rw [documents, ih, List.map_cons, entry]

/-- The entries of a table and of what is joined to it. -/
def JoinedTable.entries (spans : Bool) (t : JoinedTable) : List Document :=
  t.relation.document spans :: t.joins.map (Join.entry spans)

theorem JoinedTable.documents_eq (spans : Bool) (ts : List JoinedTable) :
    documents spans ts = ts.flatMap (entries spans) := by
  induction ts with
  | nil => rfl
  | cons t ts ih =>
    obtain ⟨_, _, _⟩ := t
    rw [documents, ih, List.flatMap_cons, entries, Join.documents_eq, List.cons_append]

/-- The columns of a selection. A lone `*` is written as such. -/
def SelectItem.columnsDocument (spans : Bool) : List SelectItem → Document
  | [.wildcard _] => string "*"
  | items => array (documents spans items)

theorem Select.document_eq (spans : Bool) (s : Select) :
    s.document spans = (object [("type", string "select"),
      ("distinct", if s.distinct then string "DISTINCT" else null),
      ("columns", SelectItem.columnsDocument spans s.projection),
      ("from", match s.source with
        | none => null
        | some f => array (JoinedTable.documents spans f.tables)),
      ("where", Expr.optionalDocument spans s.condition),
      ("groupby", match s.groupBy with
        | none => null
        | some g => array (Expr.documents spans g.keys)),
      ("having", Expr.optionalDocument spans s.having),
      ("orderby", null), ("limit", null)]).spanned spans s.span := by
  obtain ⟨_, _, projection, source, _, groupBy, _⟩ := s
  rcases source with _ | ⟨_, _⟩ <;> rcases groupBy with _ | ⟨_, _⟩ <;>
    rcases projection with _ | ⟨_ | _ | _, _ | ⟨_, _⟩⟩ <;> rfl

/-! ## Nodes -/

/-- The document of a node without spans. -/
def Node.document : Node → Document
  | .statement s => s.document false
  | .query q => q.document false
  | .select s => s.document false
  | .selectItem i => i.document false
  | .relation r => r.document false
  | .join j => j.entry false
  | .expr e => e.document false
  | .column c => c.document false

section Documents

variable {f : Span → Span}

theorem map_document_map {α : Type} {d : α → Document} {g : α → α} {l : List α}
    (h : ∀ a ∈ l, d (g a) = d a) : (l.map g).map d = l.map d := by
  rw [List.map_map]
  exact List.map_congr_left h

theorem Expr.optionalDocument_map {o : Option Expr}
    (h : ∀ e ∈ o, (e.mapSpans f).document false = e.document false) :
    optionalDocument false (o.map (·.mapSpans f)) = optionalDocument false o := by
  cases o with
  | none => rfl
  | some e => exact h e rfl

theorem QueryBody.document_mapSpans_of_selects : ∀ (b : QueryBody)
    (next : Option (String × Document)),
    (∀ s ∈ b.selects, (s.2.mapSpans f).document false = s.2.document false) →
    (b.mapSpans f).document false next = b.document false next
  | .select s, next, h => by
    have same := h (none, s) (List.mem_singleton_self _)
    simp only at same
    rw [mapSpans, document, same, document]
  | .setOperation _ left op all right, next, h => by
    have hright := h (some (op, all), right) (by simp)
    simp only at hright
    rw [mapSpans, document, hright,
      document_mapSpans_of_selects left _ fun s hs => h s (by simp [hs]), document]

theorem SelectItem.columnsDocument_map {is : List SelectItem}
    (h : ∀ i ∈ is, (i.mapSpans f).document false = i.document false) :
    columnsDocument false (is.map (·.mapSpans f)) = columnsDocument false is := by
  have items : documents false (is.map (·.mapSpans f)) = documents false is := by
    rw [documents_eq, documents_eq]
    exact map_document_map h
  rcases is with _ | ⟨i, _ | ⟨j, is⟩⟩
  · rfl
  · cases i with
    | wildcard => rfl
    | qualifiedWildcard => exact congrArg array items
    | expr => exact congrArg array items
  · cases i <;> exact congrArg array items

theorem ColumnDefinition.document_mapSpans_of_defaults {c : ColumnDefinition}
    (h : ∀ e, ColumnOption.default e ∈ c.options →
      (e.mapSpans f).document false = e.document false) :
    (c.mapSpans f).document false = c.document false := by
  have options := map_document_map (d := ColumnOption.document false)
    (g := (·.mapSpans f)) (l := c.options) fun o ho => by
      cases o with
      | default e => simp [ColumnOption.mapSpans, ColumnOption.document, h e ho]
      | _ => rfl
  have nullable : (c.options.map (·.mapSpans f)).filterMap ColumnOption.nullable? =
      c.options.filterMap ColumnOption.nullable? := by
    rw [List.filterMap_map]
    exact List.filterMap_congr fun o _ => by cases o <;> rfl
  have key (test : ColumnOption → Bool) (same : ∀ o, test (o.mapSpans f) = test o) :
      (c.options.map (·.mapSpans f)).any test = c.options.any test := by
    simp [List.any_map, Function.comp_def, same]
  have defaults : (c.options.map (·.mapSpans f)).filterMap ColumnOption.default? =
      (c.options.filterMap ColumnOption.default?).map (·.mapSpans f) := by
    rw [List.filterMap_map, List.map_filterMap]
    exact List.filterMap_congr fun o _ => by cases o <;> rfl
  have value := Expr.optionalDocument_map (f := f)
    (o := (c.options.filterMap ColumnOption.default?).getLast?) fun e he => by
      obtain ⟨o, ho, hoe⟩ := List.mem_filterMap.1 (List.mem_of_mem_getLast? he)
      cases o <;> simp only [ColumnOption.default?, Option.some.injEq, reduceCtorEq] at hoe
      exact h e (hoe ▸ ho)
  simp only [document, mapSpans, isPrimaryKey, options, nullable, defaults, List.getLast?_map,
    value, Identifier.value_mapSpans, spanned_false,
    key ColumnOption.isPrimaryKey fun o => by cases o <;> rfl,
    key ColumnOption.isUnique fun o => by cases o <;> rfl]

theorem Statement.document_mapSpans_of_children {s : Statement}
    (ih : ∀ c ∈ s.children, (c.mapSpans f).document = c.document) :
    (s.mapSpans f).document false = s.document false := by
  match s, ih with
  | .query q, ih => exact ih (.query q) (List.mem_singleton_self _)
  | .insert ⟨_, _, _, .values rows⟩, ih =>
    simp only [children, List.forall_mem_map, List.forall_mem_flatten] at ih
    have same := map_document_map (g := List.map (·.mapSpans f))
      (d := fun row => listDocument (row.map (Expr.document false))) (l := rows)
      fun row h => by rw [map_document_map (d := Expr.document false) (ih row h)]
    simp only [mapSpans, document, Insert.document, InsertSource.mapSpans, same]
    simp
  | .insert ⟨_, _, _, .query q⟩, ih =>
    have same : (q.mapSpans f).document false = q.document false :=
      ih (.query q) (List.mem_singleton_self _)
    simp [mapSpans, document, Insert.document, InsertSource.mapSpans, same]
  | .update ⟨_, _, _, assignments, condition⟩, ih =>
    simp only [children, List.forall_mem_append, List.forall_mem_map, Option.mem_toList] at ih
    have set := map_document_map (d := Assignment.document false) (g := (·.mapSpans f))
      (l := assignments) fun a h => by
        have same : (a.value.mapSpans f).document false = a.value.document false := ih.1 a h
        simp [Assignment.document, Assignment.mapSpans, same]
    have filter := Expr.optionalDocument_map (f := f) ih.2
    simp only [mapSpans, document, Update.document, set, filter, tableDocument_mapSpans,
      spanned_false]
  | .delete ⟨_, _, _, condition⟩, ih =>
    simp only [children, List.forall_mem_map, Option.mem_toList] at ih
    have filter := Expr.optionalDocument_map (f := f) ih
    simp only [mapSpans, document, Delete.document, filter, tableDocument_mapSpans, spanned_false]
  | .createTable ⟨_, _, _, columns, constraints⟩, ih =>
    simp only [children, List.forall_mem_map] at ih
    have same := map_document_map (d := ColumnDefinition.document false) ih
    have keys := map_document_map (d := TableConstraint.document false)
      (g := (·.mapSpans f)) (l := constraints) fun c _ => by
        cases c <;> simp [TableConstraint.mapSpans, TableConstraint.document, constraintDocument]
    simp only [mapSpans, document, CreateTable.document, same, keys, tableDocument_mapSpans_none,
      spanned_false]
  | .alterTable ⟨_, _, .addColumn c⟩, ih =>
    have same : (c.mapSpans f).document false = c.document false :=
      ih (.column c) (List.mem_singleton_self _)
    simp [mapSpans, document, AlterTable.document, Alteration.mapSpans, Alteration.document, same]
  | .alterTable ⟨_, _, .dropColumn _⟩, _ | .alterTable ⟨_, _, .renameTable _⟩, _
  | .alterTable ⟨_, _, .renameColumn _ _⟩, _ =>
    simp [mapSpans, document, AlterTable.document, Alteration.mapSpans, Alteration.document]
  | .createIndex _, _ | .createDatabase _, _ | .drop _, _ =>
    simp [mapSpans, document, CreateIndex.document, CreateDatabase.document, Drop.document]

variable (f)

/-- The document of a node without spans does not depend on spans. -/
theorem Node.document_mapSpans (n : Node) : (n.mapSpans f).document = n.document := by
  induction n using Node.formInduction with
  | column | literal | unary | binary | is | inQuery | between | like | cast | existsQuery
  | subquery | nested | wildcard | qualifiedWildcard | selected | table | derived =>
    simp_all [mapSpans, document, Expr.mapSpans, ExprForm.mapSpans, Expr.document,
      SelectItem.mapSpans, SelectItem.document, Relation.mapSpans, Relation.document]
  | inList s e negated items ihe ih =>
    have he : (e.mapSpans f).document false = e.document false := ihe
    simp only [mapSpans, document, Expr.mapSpans, ExprForm.mapSpans, Expr.document, he,
      Expr.mapSpansOfList_eq, Expr.documents_eq,
      map_document_map (d := Expr.document false) ih, spanned_false]
  | call s n distinct arguments ih =>
    have same : (arguments.mapSpans f).documents false = arguments.documents false := by
      cases arguments with
      | star => rfl
      | list items =>
        simp only [Arguments.mapSpans, Arguments.documents, Expr.mapSpansOfList_eq,
          Expr.documents_eq]
        exact map_document_map (d := Expr.document false) ih
    simp only [mapSpans, document, Expr.mapSpans, ExprForm.mapSpans, Expr.document, same,
      callDocument_mapSpans, spanned_false]
  | case s operand branches otherwise iho ihb ihe =>
    have entries := map_document_map (d := WhenBranch.entry false) (g := (·.mapSpans f))
      (l := branches) fun b hb => by
        obtain ⟨condition, result⟩ := ihb b hb
        simp only [mapSpans, document] at condition result
        simp [WhenBranch.entry, WhenBranch.mapSpans, condition, result]
    have last : Expr.elseDocument false (otherwise.map (·.mapSpans f)) =
        Expr.elseDocument false otherwise := by
      cases otherwise with
      | none => rfl
      | some e =>
        have same : (e.mapSpans f).document false = e.document false := ihe e rfl
        simp [Expr.elseDocument, same]
    simp only [mapSpans, document, Expr.mapSpans, ExprForm.mapSpans, Expr.document,
      Expr.mapSpansOfOption_eq, WhenBranch.mapSpansOfList_eq, WhenBranch.documents_eq,
      Expr.optionalDocument_map iho, entries, last, spanned_false]
  | query q ihs iho ihl =>
    have body := q.body.document_mapSpans_of_selects none ihs
    obtain ⟨_, b, orderBy, limit⟩ := q
    have ordered : ∀ o ∈ orderBy, OrderItem.documents false (o.items.map (·.mapSpans f)) =
        OrderItem.documents false o.items := fun o ho => by
      rw [OrderItem.documents_eq, OrderItem.documents_eq]
      refine map_document_map fun i hi => ?_
      have same : (i.expr.mapSpans f).document false = i.expr.document false := iho o ho i hi
      simp [OrderItem.entry, OrderItem.mapSpans, same]
    have offset : ∀ l ∈ limit, Expr.offsetDocument false (l.offset.map (·.mapSpans f)) =
        Expr.offsetDocument false l.offset := fun l hl => by
      have same := (ihl l hl).2
      cases h : l.offset with
      | none => rfl
      | some e => exact same e h
    have count : ∀ l ∈ limit, (l.count.mapSpans f).document false = l.count.document false :=
      fun l hl => (ihl l hl).1
    simp only at body
    rcases orderBy with _ | ⟨_, items⟩ <;> rcases limit with _ | ⟨_, c, o⟩ <;>
      simp_all [mapSpans, document, Query.mapSpans, Query.document, OrderBy.mapSpans,
        Limit.mapSpans]
  | select s ihi ihf ihc ihg ihh =>
    have columns := SelectItem.columnsDocument_map ihi
    have filter := Expr.optionalDocument_map ihc
    have grouped := Expr.optionalDocument_map ihh
    have tables : ∀ source ∈ s.source,
        JoinedTable.documents false (source.tables.map (·.mapSpans f)) =
          JoinedTable.documents false source.tables := by
      intro source h
      rw [JoinedTable.documents_eq, JoinedTable.documents_eq, List.flatMap_map]
      refine List.flatMap_congr fun t ht => ?_
      have relation : (t.relation.mapSpans f).document false = t.relation.document false :=
        (ihf source h t ht).1
      have joins := map_document_map (d := Join.entry false) (ihf source h t ht).2
      simp only [JoinedTable.entries, JoinedTable.mapSpans, relation, joins]
    have keys : ∀ g ∈ s.groupBy, Expr.documents false (g.keys.map (·.mapSpans f)) =
        Expr.documents false g.keys := fun g hg => by
      rw [Expr.documents_eq, Expr.documents_eq]
      exact map_document_map (ihg g hg)
    obtain ⟨_, _, _, source, _, groupBy, _⟩ := s
    simp only [mapSpans, document, Select.mapSpans, Select.document_eq,
      SelectItem.mapSpansOfList_eq, From.mapSpansOfOption_eq, Expr.mapSpansOfOption_eq,
      GroupBy.mapSpansOfOption_eq, columns, filter, grouped, spanned_false]
    rcases source with _ | f' <;> rcases groupBy with _ | g
    · rfl
    · simp only [Option.map_some, GroupBy.mapSpans, keys g rfl, Option.map_none]
    · simp only [Option.map_some, From.mapSpans, tables f' rfl, Option.map_none]
    · simp only [Option.map_some, From.mapSpans, GroupBy.mapSpans, tables f' rfl, keys g rfl]
  | join s kind relation condition ihr ihc =>
    cases condition <;>
      simp_all [mapSpans, document, Join.mapSpans, Join.entry, JoinCondition.mapSpans,
        JoinCondition.onDocument, JoinCondition.usingDocument]
  | columnDefinition c ih =>
    exact ColumnDefinition.document_mapSpans_of_defaults ih
  | statement s ih => exact Statement.document_mapSpans_of_children ih

end Documents

/-! ## Structural equality -/

/-- Statements that are equal up to spans are structurally equal. -/
theorem Statement.structurallyEqual_of_unplaced_eq {s t : Statement}
    (h : s.unplaced = t.unplaced) : s.structurallyEqual t := by
  have same (u : Statement) : u.unplaced.document false = u.document false :=
    (Node.statement u).document_mapSpans _
  rw [structurallyEqual, Document.same_iff, ← same s, h, same t]

end SqlSyntax
