import SqlSyntax.Proofs.Interchange.Spans
import SqlSyntax.Proofs.Document.Fields

/-!
# Taking the spans out of a document

A document with spans differs from the one without only by the fields that hold
them. Where several parts of a query share one object, a span can be set before
other fields and again after them; since taking a key out commutes with setting
another one, that makes no difference once all spans are gone.

## Main results

* `Node.spannedDocument_without` — the document of a node with spans, without
  its spans, is the one that was asked for without them.
-/

namespace SqlSyntax

open Document

theorem Document.spanned_true (s : Span) (d : Document) :
    d.spanned true s = d.set "span" s.document := rfl

/-- A span leaves nothing behind when it is taken out. -/
@[simp] theorem Document.without_spanned (s : Span) (d : Document) :
    (d.spanned true s).without "span" = d.without "span" :=
  without_set_self _ _ _

/-! ## Leaves -/

section Leaves

@[simp] theorem identifierDocuments_without (is : List Identifier) :
    (identifierDocuments is).without "span" = identifierDocuments is := by
  simp [identifierDocuments, Function.comp_def]

@[simp] theorem aliasDocument_without (label : Option Identifier) :
    (aliasDocument label).without "span" = aliasDocument label := by
  cases label <;> rfl

@[simp] theorem QualifiedName.qualifierDocument_without (n : QualifiedName) :
    n.qualifierDocument.without "span" = n.qualifierDocument := by
  rw [qualifierDocument]
  split <;> rfl

@[simp] theorem tableDocument_without (n : QualifiedName) (label : Option Identifier) :
    (tableDocument n label).without "span" = tableDocument n label := by
  simp [tableDocument]

@[simp] theorem columnDocument_without (table : Document) (column : String) :
    (columnDocument table column).without "span" =
      columnDocument (table.without "span") column := by
  simp [columnDocument]

@[simp] theorem nullDocument_without : nullDocument.without "span" = nullDocument := by
  simp [nullDocument]

@[simp] theorem boolDocument_without (b : Bool) :
    (boolDocument b).without "span" = boolDocument b := by
  simp [boolDocument]

@[simp] theorem starDocument_without : starDocument.without "span" = starDocument := by
  simp [starDocument]

theorem numberDocument_without (text : String) :
    (numberDocument text).without "span" = numberDocument text := by
  rw [numberDocument]
  split
  · rfl
  · split <;> rfl

@[simp] theorem Literal.document_without (l : Literal) :
    l.document.without "span" = l.document := by
  cases l <;> simp [Literal.document, numberDocument_without]

@[simp] theorem TruthTest.document_without (t : TruthTest) :
    t.document.without "span" = t.document := by
  cases t <;> simp [TruthTest.document]

@[simp] theorem unaryDocument_without (operator : String) (operand : Document) :
    (unaryDocument operator operand).without "span" =
      unaryDocument operator (operand.without "span") := by
  simp [unaryDocument]

@[simp] theorem binaryDocument_without (operator : String) (left right : Document) :
    (binaryDocument operator left right).without "span" =
      binaryDocument operator (left.without "span") (right.without "span") := by
  simp [binaryDocument]

@[simp] theorem listDocument_without (items : List Document) :
    (listDocument items).without "span" = listDocument (items.map (without "span")) := by
  simp [listDocument]

@[simp] theorem parenthesizedDocument_without (query : Document) :
    (parenthesizedDocument query).without "span" =
      parenthesizedDocument (query.without "span") := by
  simp [parenthesizedDocument]

@[simp] theorem DataType.document_without (t : DataType) :
    t.document.without "span" = t.document := by
  simp [DataType.document]

@[simp] theorem linkDocument_without (next : Option (String × Document)) (d : Document) :
    (linkDocument next d).without "span" =
      linkDocument (next.map fun n => (n.1, n.2.without "span"))
        (d.without "span") := by
  cases next <;> simp [linkDocument, without_set]

@[simp] theorem callDocument_without (function : QualifiedName) (distinct : Bool)
    (arguments : List Document) :
    (callDocument function distinct arguments).without "span" =
      callDocument function distinct (arguments.map (without "span")) := by
  unfold callDocument
  split
  · rcases arguments with _ | ⟨a, _ | ⟨b, rest⟩⟩ <;> cases distinct <;>
      simp [aggregateDocument]
  · cases distinct <;> simp [functionDocument, without_set]

end Leaves

/-! ## Nodes -/

/-- The document of a node with spans. -/
def Node.spannedDocument : Node → Document
  | .statement s => s.document true
  | .query q => q.document true
  | .select s => s.document true
  | .selectItem i => i.document true
  | .relation r => r.document true
  | .join j => j.entry true
  | .expr e => e.document true
  | .column c => c.document true

section Nodes

theorem map_without_map {α : Type} {d : Bool → α → Document} {l : List α}
    (h : ∀ a ∈ l, (d true a).without "span" = d false a) :
    (l.map (d true)).map (without "span") = l.map (d false) := by
  rw [List.map_map]
  exact List.map_congr_left h

theorem Expr.optionalDocument_without {o : Option Expr}
    (h : ∀ e ∈ o, (e.document true).without "span" = e.document false) :
    (optionalDocument true o).without "span" = optionalDocument false o := by
  cases o with
  | none => rfl
  | some e => exact h e rfl

theorem QueryBody.document_without : ∀ (b : QueryBody) (next : Option (String × Document)),
    (∀ s ∈ b.selects, (s.2.document true).without "span" = s.2.document false) →
    (b.document true next).without "span" =
      b.document false (next.map fun n => (n.1, n.2.without "span"))
  | .select s, next, h => by
    have same := h (none, s) (List.mem_singleton_self _)
    simp only at same
    rw [document, document, linkDocument_without, same]
  | .setOperation _ left op all right, next, h => by
    have hright := h (some (op, all), right) (by simp)
    simp only at hright
    rw [document, document_without left _ fun s hs => h s (by simp [hs]), document,
      Option.map_some, linkDocument_without, hright]

theorem SelectItem.columnsDocument_without {is : List SelectItem}
    (h : ∀ i ∈ is, (i.document true).without "span" = i.document false) :
    (columnsDocument true is).without "span" = columnsDocument false is := by
  have items : (array (documents true is)).without "span" = array (documents false is) := by
    rw [documents_eq, documents_eq, without_array, map_without_map h]
  rcases is with _ | ⟨i, _ | ⟨j, is⟩⟩
  · rfl
  · cases i with
    | wildcard => rfl
    | qualifiedWildcard => exact items
    | expr => exact items
  · cases i <;> exact items

theorem Select.document_without (s : Select)
    (items : ∀ i ∈ s.projection, (i.document true).without "span" = i.document false)
    (tables : ∀ f ∈ s.source, ∀ t ∈ f.tables,
      (t.relation.document true).without "span" = t.relation.document false ∧
      ∀ j ∈ t.joins, (j.entry true).without "span" = j.entry false)
    (condition : ∀ e ∈ s.condition, (e.document true).without "span" = e.document false)
    (keys : ∀ g ∈ s.groupBy, ∀ e ∈ g.keys,
      (e.document true).without "span" = e.document false)
    (having : ∀ e ∈ s.having, (e.document true).without "span" = e.document false) :
    (s.document true).without "span" = s.document false := by
  have entries : ∀ f ∈ s.source, (JoinedTable.documents true f.tables).map (without "span") =
      JoinedTable.documents false f.tables := fun f hf => by
    rw [JoinedTable.documents_eq, JoinedTable.documents_eq, List.map_flatMap]
    refine List.flatMap_congr fun t ht => ?_
    obtain ⟨relation, joins⟩ := tables f hf t ht
    rw [JoinedTable.entries, JoinedTable.entries, List.map_cons, relation, map_without_map joins]
  have grouped : ∀ g ∈ s.groupBy, (Expr.documents true g.keys).map (without "span") =
      Expr.documents false g.keys := fun g hg => by
    rw [Expr.documents_eq, Expr.documents_eq, map_without_map (keys g hg)]
  obtain ⟨_, distinct, projection, source, _, groupBy, _⟩ := s
  simp only [document_eq, without_spanned, without_object, withoutFields_cons,
    withoutFields_nil, without_string, without_null, String.reduceEq, if_false,
    SelectItem.columnsDocument_without items, Expr.optionalDocument_without condition,
    Expr.optionalDocument_without having, spanned_false]
  cases distinct <;> cases source <;> cases groupBy <;>
    simp [entries, grouped]

theorem ColumnDefinition.document_without {c : ColumnDefinition}
    (h : ∀ e, ColumnOption.default e ∈ c.options →
      (e.document true).without "span" = e.document false) :
    (c.document true).without "span" = c.document false := by
  have options := map_without_map (d := ColumnOption.document) (l := c.options)
    fun o ho => by
      cases o with
      | default e => simp [ColumnOption.document, h e ho]
      | _ => simp [ColumnOption.document]
  have value := Expr.optionalDocument_without
    (o := (c.options.filterMap ColumnOption.default?).getLast?) fun e he => by
      obtain ⟨o, ho, hoe⟩ := List.mem_filterMap.1 (List.mem_of_mem_getLast? he)
      cases o <;> simp only [ColumnOption.default?, Option.some.injEq, reduceCtorEq] at hoe
      exact h e (hoe ▸ ho)
  simp only [document, without_spanned, without_object, withoutFields_cons, withoutFields_nil,
    without_string, without_bool, without_null, columnDocument_without, DataType.document_without,
    without_array, value, options, String.reduceEq, if_false, spanned_false]
  cases (c.options.filterMap ColumnOption.nullable?).getLast? <;> rfl

theorem Statement.document_without_of_children {s : Statement}
    (ih : ∀ c ∈ s.children, c.spannedDocument.without "span" = c.document) :
    (s.document true).without "span" = s.document false := by
  match s, ih with
  | .query q, ih => exact ih (.query q) (List.mem_singleton_self _)
  | .insert ⟨_, _, columns, .values rows⟩, ih =>
    simp only [children, List.forall_mem_map, List.forall_mem_flatten] at ih
    have same := map_without_map
      (d := fun spans row => listDocument (row.map (Expr.document spans))) (l := rows)
      fun row h => by rw [listDocument_without, map_without_map (d := Expr.document) (ih row h)]
    cases columns <;> simp [document, Insert.document, same]
  | .insert ⟨_, _, columns, .query q⟩, ih =>
    have same : (q.document true).without "span" = q.document false :=
      ih (.query q) (List.mem_singleton_self _)
    cases columns <;> simp [document, Insert.document, same]
  | .update ⟨_, _, _, assignments, condition⟩, ih =>
    simp only [children, List.forall_mem_append, List.forall_mem_map, Option.mem_toList] at ih
    have set := map_without_map (d := Assignment.document) (l := assignments) fun a h => by
      have same : (a.value.document true).without "span" = a.value.document false := ih.1 a h
      simp [Assignment.document, same]
    simp [document, Update.document, set, Expr.optionalDocument_without ih.2]
  | .delete ⟨_, _, _, condition⟩, ih =>
    simp only [children, List.forall_mem_map, Option.mem_toList] at ih
    simp [document, Delete.document, Expr.optionalDocument_without ih]
  | .createTable ⟨_, ifNotExists, _, columns, constraints⟩, ih =>
    simp only [children, List.forall_mem_map] at ih
    have same := map_without_map (d := ColumnDefinition.document) ih
    have keys := map_without_map (d := TableConstraint.document) (l := constraints)
      fun c _ => by cases c <;> simp [TableConstraint.document, constraintDocument]
    cases ifNotExists <;> simp [document, CreateTable.document, same, keys]
  | .alterTable ⟨_, _, .addColumn c⟩, ih =>
    have same : (c.document true).without "span" = c.document false :=
      ih (.column c) (List.mem_singleton_self _)
    simp [document, AlterTable.document, Alteration.document, alterationDocument, same]
  | .alterTable ⟨_, _, .dropColumn _⟩, _ | .alterTable ⟨_, _, .renameTable _⟩, _
  | .alterTable ⟨_, _, .renameColumn _ _⟩, _ =>
    simp [document, AlterTable.document, Alteration.document, alterationDocument]
  | .createIndex _, _ | .createDatabase _, _ =>
    simp [document, CreateIndex.document, CreateDatabase.document]
  | .drop ⟨_, _, ifExists, _⟩, _ => cases ifExists <;> simp [document, Drop.document]

/-- The document of a node with spans is that without them once the spans are
taken out. -/
theorem Node.spannedDocument_without (n : Node) :
    n.spannedDocument.without "span" = n.document := by
  induction n using Node.formInduction with
  | column | literal | unary | binary | is | inQuery | between | like | cast | existsQuery
  | subquery | wildcard | qualifiedWildcard | selected | table | derived =>
    simp_all [spannedDocument, document, Expr.document, SelectItem.document, Relation.document]
  | nested s e ih =>
    simp only [spannedDocument, document] at ih
    simp [spannedDocument, document, Expr.document, without_set, ih]
  | inList s e negated items ihe ih =>
    simp only [spannedDocument, document] at ihe ih
    simp [spannedDocument, document, Expr.document, Expr.documents_eq, ihe,
      map_without_map (d := Expr.document) ih]
  | call s n distinct arguments ih =>
    have same : (arguments.documents true).map (without "span") = arguments.documents false := by
      cases arguments with
      | star => simp [Arguments.documents]
      | list items =>
        simp only [Arguments.documents, Expr.documents_eq]
        exact map_without_map (d := Expr.document) ih
    simp [spannedDocument, document, Expr.document, same]
  | case s operand branches otherwise iho ihb ihe =>
    have entries := map_without_map (d := WhenBranch.entry) (l := branches) fun b hb => by
      obtain ⟨condition, result⟩ := ihb b hb
      simp only [spannedDocument, document] at condition result
      simp [WhenBranch.entry, condition, result]
    have last : (Expr.elseDocument true otherwise).map (without "span") =
        Expr.elseDocument false otherwise := by
      cases otherwise with
      | none => rfl
      | some e =>
        have same : (e.document true).without "span" = e.document false := ihe e rfl
        simp [Expr.elseDocument, same]
    simp [spannedDocument, document, Expr.document, WhenBranch.documents_eq, entries, last,
      Expr.optionalDocument_without iho]
  | query q ihs iho ihl =>
    have body := q.body.document_without none ihs
    obtain ⟨_, b, orderBy, limit⟩ := q
    have ordered : ∀ o ∈ orderBy, (OrderItem.documents true o.items).map (without "span") =
        OrderItem.documents false o.items := fun o ho => by
      rw [OrderItem.documents_eq, OrderItem.documents_eq]
      refine map_without_map fun i hi => ?_
      have same : (i.expr.document true).without "span" = i.expr.document false := iho o ho i hi
      cases h : i.nulls <;> simp [OrderItem.entry, same, h]
    have offset : ∀ l ∈ limit, (Expr.offsetDocument true l.offset).without "span" =
        Expr.offsetDocument false l.offset := fun l hl => by
      have same := (ihl l hl).2
      cases h : l.offset with
      | none => simp [Expr.offsetDocument]
      | some e => exact same e h
    have count : ∀ l ∈ limit, (l.count.document true).without "span" =
        l.count.document false := fun l hl => (ihl l hl).1
    simp only [Option.map_none] at body
    rcases orderBy with _ | ⟨_, items⟩ <;> rcases limit with _ | ⟨_, c, o⟩ <;>
      simp_all [spannedDocument, document, Query.document, without_set]
  | select s ihi ihf ihc ihg ihh => exact s.document_without ihi ihf ihc ihg ihh
  | join s kind relation condition ihr ihc =>
    cases condition <;>
      simp_all [spannedDocument, document, Join.entry, JoinCondition.onDocument,
        JoinCondition.usingDocument, without_set]
  | columnDefinition c ih => exact ColumnDefinition.document_without ih
  | statement s ih => exact Statement.document_without_of_children ih

end Nodes

end SqlSyntax
