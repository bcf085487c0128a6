import SqlSyntax.Parser.Statement
import SqlSyntax.Proofs.Interchange.Faithful
import SqlSyntax.Tree.Expressions

/-!
# What structural equality means

Statements are structurally equal exactly when they are alike. That a document
tells no more than this is shown here node by node, as that it tells all of it is
in `Node.faithful`.

## Main results

* `Node.respected` — alike nodes have the same document.
* `Statement.structurallyEqual_iff` — structural equality is being alike.
* `confused_names` — so names are lost that differ only in their dots or in a `*`.
-/

namespace SqlSyntax

open Document

section

variable {α β : Type}

theorem map_eq_of_forall₂ {R : α → α → Prop} {d : α → β} {as bs : List α}
    (h : List.Forall₂ R as bs) (one : ∀ a ∈ as, ∀ b, R a b → d a = d b) :
    as.map d = bs.map d := by
  induction h with
  | nil => rfl
  | cons first _ ih =>
    rw [List.map_cons, List.map_cons, one _ (List.mem_cons_self ..) _ first,
      ih fun a ha => one a (List.mem_cons_of_mem _ ha)]

end

/-! ## Names -/

theorem identifierDocuments_congr {is is' : List Identifier}
    (h : is.map (·.value) = is'.map (·.value)) :
    identifierDocuments is = identifierDocuments is' := by
  have items (is : List Identifier) : identifierDocuments is =
      array ((is.map (·.value)).map string) := by
    simp [identifierDocuments, Function.comp_def]
  rw [items, items, h]

theorem aliasDocument_congr {label label' : Option Identifier}
    (h : label.map (·.value) = label'.map (·.value)) :
    aliasDocument label = aliasDocument label' := by
  cases label <;> cases label' <;> simp_all [aliasDocument]

namespace QualifiedName

variable {n n' : QualifiedName}

theorem Alike.qualifierDocument (h : n.Alike n') :
    n.qualifierDocument = n'.qualifierDocument := by
  rw [qualifierDocument_eq, qualifierDocument_eq, h.qualifier]

theorem Alike.tableDocument {label label' : Option Identifier} (h : n.Alike n')
    (labels : label.map (·.value) = label'.map (·.value)) :
    SqlSyntax.tableDocument n label = SqlSyntax.tableDocument n' label' := by
  rw [SqlSyntax.tableDocument, SqlSyntax.tableDocument, h.qualifierDocument, h.base,
    aliasDocument_congr labels]

theorem canonical_congr (h : n.values = n'.values) : n.canonical = n'.canonical := by
  have pieces (n : QualifiedName) : n.parts.map Identifier.pieces =
      n.values.map fun value => [.identifier value] := by
    rw [values, List.map_map]
    rfl
  rw [canonical, canonical, QualifiedName.pieces, QualifiedName.pieces, pieces, pieces, h]

theorem isAggregate_congr (h : n.values = n'.values) : n.isAggregate = n'.isAggregate := by
  simp only [values, parts, List.map_append] at h
  obtain ⟨qualifiers, base⟩ := List.append_inj' h rfl
  have qualified : n.qualifiers.isEmpty = n'.qualifiers.isEmpty := by
    rw [← List.isEmpty_map (f := (·.value)), qualifiers, List.isEmpty_map]
  have base : n.base.value = n'.base.value := List.singleton_inj.1 base
  rw [isAggregate, isAggregate, qualified, base]

/-- Calls of the same function name it in the same way. -/
theorem SameFunction.shown (h : n.SameFunction n') :
    n.isAggregate = n'.isAggregate ∧ callName n = callName n' := by
  cases h with
  | same values =>
    have kind := isAggregate_congr values
    exact ⟨kind, by rw [callName, callName, kind, canonical_congr values]⟩
  | aggregate isAggregate isAggregate' base =>
    refine ⟨isAggregate.trans isAggregate'.symm, ?_⟩
    rw [callName, callName, if_pos isAggregate, if_pos isAggregate',
      canonical_of_isAggregate isAggregate, canonical_of_isAggregate isAggregate', base]

end QualifiedName

/-! ## Respected nodes -/

/-- Whether all nodes that are alike have the same document. For expressions that is
asked for the shape of what is inside all parentheses. -/
def Node.Respected : Node → Prop
  | .statement s => ∀ t, s.Alike t → s.document false = t.document false
  | .query q => ∀ q', q.Alike q' → q.document false = q'.document false
  | .select s => ∀ s', s.Alike s' → s.document false = s'.document false
  | .selectItem i => ∀ i', i.Alike i' → i.document false = i'.document false
  | .relation r => ∀ r', r.Alike r' → r.document false = r'.document false
  | .join j => ∀ j', j.Alike j' → j.entry false = j'.entry false
  | .expr e => ∀ f, e.core.form.Alike f → e.core.form.shape? = f.shape?
  | .column c => ∀ c', c.Alike c' → c.document false = c'.document false

theorem Expr.document_congr {e e' : Expr} (respected : Node.Respected (.expr e))
    (h : e.Alike e') : e.document false = e'.document false := by
  cases h with
  | core parentheses form =>
    have shape := respected _ form
    obtain ⟨a, here⟩ := e.exists_shape_core
    rw [document_eq_core, document_eq_core e', parentheses, document_eq_of_shape? here,
      document_eq_of_shape? (shape ▸ here)]

theorem Expr.optionalDocument_congr {o o' : Option Expr}
    (respected : ∀ e ∈ o, Node.Respected (.expr e)) (h : Option.Rel Expr.Alike o o') :
    optionalDocument false o = optionalDocument false o' := by
  cases h with
  | none => rfl
  | some alike => exact document_congr (respected _ rfl) alike

theorem Expr.documents_congr {es es' : List Expr}
    (respected : ∀ e ∈ es, Node.Respected (.expr e)) (h : List.Forall₂ Expr.Alike es es') :
    es.map (document false) = es'.map (document false) :=
  map_eq_of_forall₂ h fun e he _ => document_congr (respected e he)

theorem Arguments.documents_congr {as as' : Arguments}
    (respected : ∀ e ∈ as.items, Node.Respected (.expr e)) (h : as.Alike as') :
    as.documents false = as'.documents false := by
  cases h with
  | star => rfl
  | list alike =>
    rw [documents, documents, Expr.documents_eq, Expr.documents_eq]
    exact Expr.documents_congr respected alike

theorem WhenBranch.entry_congr {b b' : WhenBranch}
    (respected : Node.Respected (.expr b.condition) ∧ Node.Respected (.expr b.result))
    (h : b.Alike b') : b.entry false = b'.entry false := by
  cases h with
  | branch condition result =>
    rw [entry, entry, Expr.document_congr respected.1 condition,
      Expr.document_congr respected.2 result]
    rfl

theorem Expr.elseDocument_congr {o o' : Option Expr}
    (respected : ∀ e ∈ o, Node.Respected (.expr e)) (h : Option.Rel Expr.Alike o o') :
    elseDocument false o = elseDocument false o' := by
  cases h with
  | none => rfl
  | some alike => rw [elseDocument, elseDocument, document_congr (respected _ rfl) alike]

/-! ## Selections and queries -/

theorem SelectItem.document_congr {i i' : SelectItem}
    (respected : ∀ s e label, i = .expr s e label → Node.Respected (.expr e)) (h : i.Alike i') :
    i.document false = i'.document false := by
  have column {s : Span} {n : QualifiedName} {text : String} (base : n.base.value = "*")
      (qualifier : n.qualifierText? = some text) :
      (⟨s, .column n⟩ : Expr).document false = columnDocument (string text) "*" := by
    rw [Expr.document, QualifiedName.qualifierDocument_eq, base, qualifier]
    rfl
  cases h with
  | wildcard => rfl
  | qualifiedWildcard s s' values =>
    rw [document, document, QualifiedName.canonical_congr values]
    rfl
  | expr s s' alike labels =>
    rw [document, document, Expr.document_congr (respected _ _ _ rfl) alike,
      aliasDocument_congr labels]
    rfl
  | columnForWildcard s s' t base qualifier =>
    rw [document, document, column base qualifier]
    rfl
  | wildcardForColumn s s' t base qualifier =>
    rw [document, document, column base qualifier]
    rfl

theorem SelectItem.columnsDocument_congr {is is' : List SelectItem}
    (respected : ∀ i ∈ is, Node.Respected (.selectItem i))
    (h : List.Forall₂ SelectItem.Alike is is') :
    columnsDocument false is = columnsDocument false is' := by
  have items : array (documents false is) = array (documents false is') := by
    rw [documents_eq, documents_eq, map_eq_of_forall₂ h respected]
  -- Only a lone item can be written as such, and only with one of its own form.
  cases h with
  | nil => rfl
  | cons first rest =>
    cases rest with
    | nil =>
      cases first with
      | wildcard => rfl
      | _ => exact items
    | cons => cases first <;> exact items

theorem Relation.document_congr {r r' : Relation}
    (respected : ∀ s q label, r = .derived s q label → Node.Respected (.query q))
    (h : r.Alike r') : r.document false = r'.document false := by
  cases h with
  | table s s' name labels =>
    rw [document, document, name.tableDocument labels]
    rfl
  | derived s s' query labels =>
    rw [document, document, respected _ _ _ rfl _ query, aliasDocument_congr labels]
    rfl

theorem JoinCondition.documents_congr {c c' : JoinCondition}
    (respected : ∀ e, c = .on e → Node.Respected (.expr e)) (h : c.Alike c') :
    c.onDocument false = c'.onDocument false ∧ c.usingDocument = c'.usingDocument := by
  cases h with
  | on condition => exact ⟨Expr.document_congr (respected _ rfl) condition, rfl⟩
  | shared values => exact ⟨rfl, identifierDocuments_congr values⟩
  | none => exact ⟨rfl, rfl⟩

theorem JoinedTable.entries_congr {t t' : JoinedTable}
    (respected : Node.Respected (.relation t.relation) ∧ ∀ j ∈ t.joins, Node.Respected (.join j))
    (h : t.Alike t') : t.entries false = t'.entries false := by
  cases h with
  | table relation joins =>
    rw [entries, entries, respected.1 _ relation, map_eq_of_forall₂ joins respected.2]

theorem OrderItem.entry_congr {i i' : OrderItem} (respected : Node.Respected (.expr i.expr))
    (h : i.Alike i') : i.entry false = i'.entry false := by
  cases h with
  | item expr direction nulls =>
    rw [entry, entry, Expr.document_congr respected expr, direction, nulls]
    rfl

theorem Offset.document_congr {o o' : Option Expr}
    (respected : ∀ e ∈ o, Node.Respected (.expr e)) (h : Offset.Alike o o') :
    Expr.offsetDocument false o = Expr.offsetDocument false o' := by
  have zero {s : Span} {text : String} (h : numberDocument text = numberDocument "0") :
      (⟨s, .literal (.number text)⟩ : Expr).document false = Expr.offsetDocument false none := by
    have value : numberDocument "0" = int 0 := by decide +kernel
    rw [Expr.document, Literal.document, h, value]
    rfl
  cases h with
  | absent => rfl
  | present alike => exact Expr.document_congr (respected _ rfl) alike
  | zero s h => exact (zero h).symm
  | zero' s h => exact zero h

theorem From.optionalDocument_congr {o o' : Option From}
    (respected : ∀ f ∈ o, ∀ t ∈ f.tables, Node.Respected (.relation t.relation) ∧
      ∀ j ∈ t.joins, Node.Respected (.join j))
    (h : Option.Rel From.Alike o o') : optionalDocument o = optionalDocument o' := by
  cases h with
  | none => rfl
  | some alike =>
    cases alike with
    | source tables =>
      rw [optionalDocument, optionalDocument, List.flatMap_def, List.flatMap_def,
        map_eq_of_forall₂ tables fun t ht _ => JoinedTable.entries_congr (respected _ rfl t ht)]

theorem GroupBy.optionalDocument_congr {o o' : Option GroupBy}
    (respected : ∀ g ∈ o, ∀ e ∈ g.keys, Node.Respected (.expr e))
    (h : Option.Rel GroupBy.Alike o o') : optionalDocument o = optionalDocument o' := by
  cases h with
  | none => rfl
  | some alike =>
    cases alike with
    | groupBy keys =>
      rw [optionalDocument, optionalDocument, Expr.documents_congr (respected _ rfl) keys]

theorem OrderBy.optionalDocument_congr {o o' : Option OrderBy}
    (respected : ∀ b ∈ o, ∀ i ∈ b.items, Node.Respected (.expr i.expr))
    (h : Option.Rel OrderBy.Alike o o') : optionalDocument false o = optionalDocument false o' := by
  cases h with
  | none => rfl
  | some alike =>
    cases alike with
    | orderBy items =>
      rw [optionalDocument, optionalDocument,
        map_eq_of_forall₂ items fun i hi _ => OrderItem.entry_congr (respected _ rfl i hi)]

theorem Limit.optionalDocument_congr {o o' : Option Limit}
    (respected : ∀ l ∈ o, Node.Respected (.expr l.count) ∧
      ∀ e ∈ l.offset, Node.Respected (.expr e))
    (h : Option.Rel Limit.Alike o o') : optionalDocument false o = optionalDocument false o' := by
  cases h with
  | none => rfl
  | some alike =>
    obtain ⟨count, offset⟩ := respected _ rfl
    cases alike with
    | limit counts offsets =>
      rw [optionalDocument, optionalDocument, Expr.document_congr count counts,
        Offset.document_congr offset offsets]

theorem Select.document_congr {s s' : Select}
    (items : ∀ i ∈ s.projection, Node.Respected (.selectItem i))
    (tables : ∀ f ∈ s.source, ∀ t ∈ f.tables, Node.Respected (.relation t.relation) ∧
      ∀ j ∈ t.joins, Node.Respected (.join j))
    (condition : ∀ e ∈ s.condition, Node.Respected (.expr e))
    (keys : ∀ g ∈ s.groupBy, ∀ e ∈ g.keys, Node.Respected (.expr e))
    (having : ∀ e ∈ s.having, Node.Respected (.expr e)) (h : s.Alike s') :
    s.document false = s'.document false := by
  cases h with
  | select distinct projection source filter groupBy filtered =>
    rw [document_eq_iff, fields, fields, distinct,
      SelectItem.columnsDocument_congr items projection, From.optionalDocument_congr tables source,
      Expr.optionalDocument_congr condition filter, GroupBy.optionalDocument_congr keys groupBy,
      Expr.optionalDocument_congr having filtered]

namespace QueryBody

theorem chain_congr : ∀ {l l' : List ((SetOperator × Bool) × Select)}, l.map shown = l'.map shown →
    chain false l = chain false l'
  | [], [], _ => rfl
  | [], _ :: _, h => by simp at h
  | _ :: _, [], h => by simp at h
  | ((op, all), s) :: l, ((op', all'), s') :: l', h => by
    rw [List.map_cons, List.map_cons] at h
    obtain ⟨first, rest⟩ := List.cons.inj h
    obtain ⟨operator, fields⟩ := Prod.mk.inj first
    obtain ⟨rfl, rfl⟩ := Prod.mk.inj operator
    rw [chain, chain, chain_congr rest, Select.document_eq_iff.2 fields]

theorem shown_congr : ∀ (b b' : QueryBody), (∀ s ∈ b.selects, Node.Respected (.select s.2)) →
    b.Alike b' → b.leftmost.fields = b'.leftmost.fields ∧ b.tail.map shown = b'.tail.map shown
  | .select s, b', respected, h => by
    cases h with
    | select alike =>
      have document := respected (none, s) (List.mem_singleton_self _) _ alike
      exact ⟨Select.document_eq_iff.1 document, rfl⟩
  | .setOperation span left op all right, b', respected, h => by
    cases h with
    | setOperation alike_left _ _ alike =>
      obtain ⟨first, front⟩ :=
        left.shown_congr _ (fun s hs => respected s (by simp [hs])) alike_left
      have last := respected (some (op, all), right) (by simp) _ alike
      refine ⟨first, ?_⟩
      simp only [tail, List.map_append, front, List.map_cons, List.map_nil, shown,
        Select.document_eq_iff.1 last]

end QueryBody

theorem Query.document_congr {q q' : Query}
    (selects : ∀ s ∈ q.body.selects, Node.Respected (.select s.2))
    (order : ∀ o ∈ q.orderBy, ∀ i ∈ o.items, Node.Respected (.expr i.expr))
    (limit : ∀ l ∈ q.limit, Node.Respected (.expr l.count) ∧
      ∀ e ∈ l.offset, Node.Respected (.expr e)) (h : q.Alike q') :
    q.document false = q'.document false := by
  cases h with
  | query body orderBy limited =>
    obtain ⟨first, rest⟩ := QueryBody.shown_congr _ _ selects body
    rw [document_eq_head, document_eq_head, Select.headDocument, Select.headDocument, first,
      OrderBy.optionalDocument_congr order orderBy, Limit.optionalDocument_congr limit limited,
      QueryBody.chain_congr rest]

/-! ## Statements -/

theorem ColumnOption.document_congr {o o' : ColumnOption}
    (respected : ∀ e, o = .default e → Node.Respected (.expr e)) (h : o.Alike o') :
    o.document false = o'.document false := by
  cases h with
  | default value => rw [document, document, Expr.document_congr (respected _ rfl) value]
  | _ => rfl

/-- What the summary of a column shows of one option. -/
def ColumnOption.summary (o : ColumnOption) : Option String × Bool × Bool × Option Document :=
  (o.nullable?, o.isPrimaryKey, o.isUnique, o.default?.map (Expr.document false))

theorem ColumnOption.summary_congr {o o' : ColumnOption}
    (respected : ∀ e, o = .default e → Node.Respected (.expr e)) (h : o.Alike o') :
    o.summary = o'.summary := by
  cases h with
  | default value =>
    have document := Expr.document_congr (respected _ rfl) value
    simp [summary, nullable?, isPrimaryKey, isUnique, default?, document]
  | _ => rfl

/-- The document of a column in terms of the summaries of its options. -/
theorem ColumnDefinition.document_eq (c : ColumnDefinition) : c.document false =
    let summaries := c.options.map ColumnOption.summary
    object [("resource", string "column"), ("column", columnDocument null c.name.value),
      ("definition", c.type.document),
      ("nullable", match (summaries.filterMap (·.1)).getLast? with
        | none => null
        | some words => string words),
      ("primary_key", bool (summaries.any (·.2.1))), ("unique", bool (summaries.any (·.2.2.1))),
      ("default_val", (summaries.filterMap (·.2.2.2)).getLast?.getD null),
      ("options", array (c.options.map (ColumnOption.document false)))] := by
  have value (o : Option Expr) :
      Expr.optionalDocument false o = (o.map (Expr.document false)).getD null := by
    cases o <;> rfl
  have defaults : (c.options.map ColumnOption.summary).filterMap (·.2.2.2) =
      (c.options.filterMap ColumnOption.default?).map (Expr.document false) := by
    rw [List.filterMap_map, List.map_filterMap]
    rfl
  rw [document, spanned_false, value, ← List.getLast?_map, ← defaults, isPrimaryKey]
  simp only [List.filterMap_map, List.any_map]
  rfl

theorem ColumnDefinition.document_congr {c c' : ColumnDefinition}
    (respected : ∀ e, ColumnOption.default e ∈ c.options → Node.Respected (.expr e))
    (h : c.Alike c') : c.document false = c'.document false := by
  have option (o : ColumnOption) (ho : o ∈ c.options) (e : Expr) (he : o = .default e) :
      Node.Respected (.expr e) := respected e (he ▸ ho)
  rw [document_eq, document_eq, h.name, h.type,
    map_eq_of_forall₂ h.options fun o ho _ => ColumnOption.summary_congr (option o ho),
    map_eq_of_forall₂ h.options fun o ho _ => ColumnOption.document_congr (option o ho)]

theorem TableConstraint.document_congr {c c' : TableConstraint} (h : c.Alike c') :
    c.document false = c'.document false := by
  cases h with
  | primaryKey _ _ values | unique _ _ values =>
    rw [document, document, constraintDocument, constraintDocument,
      identifierDocuments_congr values, spanned_false, spanned_false]

theorem Assignment.document_congr {a a' : Assignment} (respected : Node.Respected (.expr a.value))
    (h : a.Alike a') : a.document false = a'.document false := by
  rw [document, document, h.column, Expr.document_congr respected h.value]
  rfl

theorem Insert.document_congr {s s' : Insert}
    (respected : ∀ c ∈ (Statement.insert s).children, c.Respected) (h : s.Alike s') :
    s.document false = s'.document false := by
  obtain ⟨span, table, columns, source⟩ := s
  obtain ⟨span', table', columns', source'⟩ := s'
  obtain ⟨name, listed, alike⟩ := h
  have empty : columns.isEmpty = columns'.isEmpty := by
    simpa using congrArg List.isEmpty listed
  cases alike with
  | values rows =>
    have value (row : List Expr) (hrow : row ∈ _) (e : Expr) (he : e ∈ row) :
        Node.Respected (.expr e) :=
      respected _ (List.mem_map_of_mem (List.mem_flatten_of_mem hrow he))
    have items := map_eq_of_forall₂ (d := List.map (Expr.document false)) rows
      fun row hrow _ => Expr.documents_congr (value row hrow)
    have shown := congrArg (List.map listDocument) items
    rw [List.map_map, List.map_map] at shown
    simp only [document, name.tableDocument rfl, empty, identifierDocuments_congr listed]
    exact shown ▸ rfl
  | query query =>
    have same := respected (.query _) (List.mem_singleton_self _) _ query
    simp only [document, name.tableDocument rfl, empty, identifierDocuments_congr listed, same]

theorem Update.document_congr {s s' : Update}
    (respected : ∀ c ∈ (Statement.update s).children, c.Respected) (h : s.Alike s') :
    s.document false = s'.document false := by
  simp only [Statement.children, List.forall_mem_append, List.forall_mem_map,
    Option.mem_toList] at respected
  rw [document, document, h.table.tableDocument h.labels,
    map_eq_of_forall₂ h.assignments fun a ha _ => Assignment.document_congr (respected.1 a ha),
    Expr.optionalDocument_congr respected.2 h.condition]

theorem Delete.document_congr {s s' : Delete}
    (respected : ∀ c ∈ (Statement.delete s).children, c.Respected) (h : s.Alike s') :
    s.document false = s'.document false := by
  simp only [Statement.children, List.forall_mem_map, Option.mem_toList] at respected
  rw [document, document, h.table.tableDocument h.labels,
    Expr.optionalDocument_congr respected h.condition]

theorem CreateTable.document_congr {s s' : CreateTable}
    (respected : ∀ c ∈ s.columns, Node.Respected (.column c)) (h : s.Alike s') :
    s.document false = s'.document false := by
  rw [document, document, h.ifNotExists, h.name.tableDocument rfl,
    map_eq_of_forall₂ h.columns respected,
    map_eq_of_forall₂ h.constraints fun _ _ _ => TableConstraint.document_congr]

theorem CreateIndex.document_congr {s s' : CreateIndex} (h : s.Alike s') :
    s.document = s'.document := by
  rw [document, document, h.unique, h.name, h.table.tableDocument rfl,
    identifierDocuments_congr h.columns]

theorem Alteration.document_congr {a a' : Alteration}
    (respected : ∀ c, a = .addColumn c → Node.Respected (.column c)) (h : a.Alike a') :
    a.document false = a'.document false := by
  cases h with
  | addColumn column => rw [document, document, respected _ rfl _ column]
  | dropColumn column => rw [document, document, column]
  | renameTable name => rw [document, document, name]
  | renameColumn old new => rw [document, document, old, new]

theorem AlterTable.document_congr {s s' : AlterTable}
    (respected : ∀ c ∈ (Statement.alterTable s).children, c.Respected) (h : s.Alike s') :
    s.document false = s'.document false := by
  have column (c : ColumnDefinition) (hc : s.alteration = .addColumn c) :
      Node.Respected (.column c) := respected _ (by simp [Statement.children, hc])
  rw [document, document, h.name.tableDocument rfl, Alteration.document_congr column h.alteration]

theorem Drop.document_congr {s s' : Drop} (h : s.Alike s') : s.document = s'.document := by
  rw [document, document, h.kind, h.ifExists, h.name.tableDocument rfl]

theorem Statement.document_congr {s s' : Statement} (respected : ∀ c ∈ s.children, c.Respected)
    (h : s.Alike s') : s.document false = s'.document false := by
  cases h with
  | query alike => exact respected (.query _) (List.mem_singleton_self _) _ alike
  | insert alike => exact Insert.document_congr respected alike
  | update alike => exact Update.document_congr respected alike
  | delete alike => exact Delete.document_congr respected alike
  | createTable alike => exact CreateTable.document_congr (List.forall_mem_map.1 respected) alike
  | createIndex alike => exact CreateIndex.document_congr alike
  | createDatabase name =>
    simp only [document, CreateDatabase.document, name]
    rfl
  | alterTable alike => exact AlterTable.document_congr respected alike
  | drop alike => exact Drop.document_congr alike

/-! ## Nodes -/

/-- Alike nodes have the same document. -/
theorem Node.respected (n : Node) : n.Respected := by
  induction n using Node.formInduction with
  | column s n =>
    intro f h
    cases h with
    | column name =>
      simp only [Expr.core, ExprForm.shape?, name.base, name.qualifierDocument]
  | literal s v =>
    intro f h
    cases h with
    | number value => simp only [Expr.core, ExprForm.shape?, value]
    | literal => rfl
  | unary s op e ih =>
    intro f h
    cases h with
    | unary _ operand => simp only [Expr.core, ExprForm.shape?, Expr.document_congr ih operand]
  | binary s op l r ihl ihr =>
    intro f h
    cases h with
    | binary _ left right =>
      simp only [Expr.core, ExprForm.shape?, Expr.document_congr ihl left,
        Expr.document_congr ihr right]
  | is s e negated test ih =>
    intro f h
    cases h with
    | is operand => simp only [Expr.core, ExprForm.shape?, Expr.document_congr ih operand]
  | inList s e negated items ihe ihi =>
    intro f h
    cases h with
    | inList operand _ list =>
      simp only [Expr.core, ExprForm.shape?, Expr.document_congr ihe operand,
        Expr.documents_congr ihi list]
  | inQuery s e negated q ihe ihq =>
    intro f h
    cases h with
    | inQuery operand _ query =>
      simp only [Expr.core, ExprForm.shape?, Expr.document_congr ihe operand, ihq _ query]
  | between s e negated low high ihe ihl ihh =>
    intro f h
    cases h with
    | between operand _ lower upper =>
      simp only [Expr.core, ExprForm.shape?, Expr.document_congr ihe operand,
        Expr.document_congr ihl lower, Expr.document_congr ihh upper]
  | like s e negated pattern ihe ihp =>
    intro f h
    cases h with
    | like operand _ pattern =>
      simp only [Expr.core, ExprForm.shape?, Expr.document_congr ihe operand,
        Expr.document_congr ihp pattern]
  | call s n distinct arguments ih =>
    intro f h
    cases h with
    | call function _ alike =>
      obtain ⟨kind, name⟩ := function.shown
      simp only [Expr.core, ExprForm.shape?, callShape, callArguments, kind, name,
        Arguments.documents_congr ih alike]
  | case s operand branches otherwise iho ihb ihe =>
    intro f h
    cases h with
    | case first middle last =>
      simp only [Expr.core, ExprForm.shape?, Expr.optionalDocument_congr iho first,
        map_eq_of_forall₂ middle fun b hb _ => WhenBranch.entry_congr (ihb b hb),
        Expr.elseDocument_congr ihe last]
  | cast s e type ih =>
    intro f h
    cases h with
    | cast operand => simp only [Expr.core, ExprForm.shape?, Expr.document_congr ih operand]
  | existsQuery s q ih =>
    intro f h
    cases h with
    | existsQuery query => simp only [Expr.core, ExprForm.shape?, ih _ query]
  | subquery s q ih =>
    intro f h
    cases h with
    | subquery query => simp only [Expr.core, ExprForm.shape?, ih _ query]
  | nested s e ih => exact ih
  | query q ihs iho ihl => exact fun q' => Query.document_congr ihs iho ihl
  | select s ihi iht ihc ihg ihh => exact fun s' => Select.document_congr ihi iht ihc ihg ihh
  | wildcard s => exact fun i => SelectItem.document_congr fun _ _ _ h => by cases h
  | qualifiedWildcard s n => exact fun i => SelectItem.document_congr fun _ _ _ h => by cases h
  | selected s e label ih =>
    exact fun i => SelectItem.document_congr fun _ _ _ h => (SelectItem.expr.inj h).2.1 ▸ ih
  | table s n label => exact fun r => Relation.document_congr fun _ _ _ h => by cases h
  | derived s q label ih =>
    exact fun r => Relation.document_congr fun _ _ _ h => (Relation.derived.inj h).2.1 ▸ ih
  | join s kind relation condition ihr ihc =>
    intro j' h
    cases h with
    | join kinds relations conditions =>
      obtain ⟨on, using'⟩ := JoinCondition.documents_congr ihc conditions
      rw [Join.entry, Join.entry, ihr _ relations, kinds, on, using', spanned_false, spanned_false]
  | columnDefinition c ih => exact fun c' => ColumnDefinition.document_congr ih
  | statement s ih => exact fun t => Statement.document_congr ih

/-- Structural equality loses nothing but what makes statements alike. -/
theorem Statement.structurallyEqual_iff (s t : Statement) : s.structurallyEqual t ↔ s.Alike t := by
  rw [structurallyEqual, Document.same_iff]
  exact ⟨(Node.statement s).faithful t, (Node.statement s).respected t⟩

/-! ## Names in documents -/

/-- The names of all columns in the expressions of a statement, part by part. Places,
parentheses, the writing of numbers and of aggregates and an offset of zero have no part
in them. -/
def Statement.columnNames (s : Statement) : List (List String) :=
  s.expressions.filterMap fun e =>
    match e.form with
    | .column n => some n.values
    | _ => none

/-- The name of the table from which rows are deleted, part by part. -/
def Statement.deletedFrom? : Statement → Option (List String)
  | .delete s => some s.table.values
  | _ => none

/-- Whether two texts are parsed to structurally equal statements in which other
names are `seen`. -/
def Confused {α : Type} (seen : Statement → α) (sql sql' : String) : Prop :=
  ∃ s t, parseStatement {} sql = .ok s ∧ parseStatement {} sql' = .ok t ∧
    s.structurallyEqual t ∧ seen s ≠ seen t

theorem confused_of_run {α : Type} [DecidableEq α] {seen : Statement → α} {sql sql' : String}
    (h : (match parseStatement {} sql, parseStatement {} sql' with
      | .ok s, .ok t => s.structurallyEqual t && decide (seen s ≠ seen t)
      | _, _ => false) = true) : Confused seen sql sql' := by
  split at h
  case h_1 s t parsed parsed' =>
    rw [Bool.and_eq_true, decide_eq_true_eq] at h
    exact ⟨s, t, parsed, parsed', h⟩
  case h_2 => cases h

/-- A document does not tell which dots in a qualifier stand in one of its parts,
nor the columns of a relation from a column that is named `*`. -/
theorem confused_names :
    Confused Statement.columnNames "SELECT \"a.b\".c" "SELECT a.b.c" ∧
    Confused Statement.deletedFrom? "DELETE FROM \"a.b\".c" "DELETE FROM a.b.c" ∧
    Confused Statement.columnNames "SELECT t.*" "SELECT t.\"*\"" :=
  ⟨confused_of_run (by decide +kernel), confused_of_run (by decide +kernel),
    confused_of_run (by decide +kernel)⟩

end SqlSyntax
