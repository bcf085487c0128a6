import SqlSyntax.Proofs.Interchange.Chains
import SqlSyntax.Proofs.Interchange.Shapes
import SqlSyntax.Proofs.Tree.Induction

/-!
# Documents are faithful

The document of a statement tells all of it, but for what makes statements alike.
What a document of an expression tells at its top is its shape, and the shape tells
the form; a list of joined relations is taken apart by the fields that a join
sets; and the chain of selections in a query by the fields that link them.

## Main results

* `Node.faithful` — nodes with the same document are alike.
-/

namespace SqlSyntax

open Document

/-! ## Lists and options -/

section

variable {α β : Type}

theorem forall₂_of_map_eq {R : α → α → Prop} {d : α → β} {as bs : List α}
    (h : as.map d = bs.map d) (one : ∀ a ∈ as, ∀ b, d a = d b → R a b) :
    List.Forall₂ R as bs := by
  induction as generalizing bs with
  | nil =>
    obtain rfl := List.map_eq_nil_iff.1 h.symm
    exact .nil
  | cons a as ih =>
    obtain ⟨b, bs, rfl, first, rest⟩ := List.map_eq_cons_iff.1 h.symm
    exact .cons (one a (List.mem_cons_self ..) b first.symm)
      (ih rest.symm fun a ha => one a (List.mem_cons_of_mem _ ha))

/-- Where a list turns from marked items to others. -/
theorem append_inj_of_marked {mark : α → Bool} {as bs as' bs' : List α}
    (h : as ++ bs = as' ++ bs') (marked : ∀ a ∈ as, mark a) (marked' : ∀ a ∈ as', mark a)
    (turn : ∀ b ∈ bs.head?, mark b = false) (turn' : ∀ b ∈ bs'.head?, mark b = false) :
    as = as' ∧ bs = bs' := by
  have front {as bs : List α} (marked : ∀ a ∈ as, mark a)
      (turn : ∀ b ∈ bs.head?, mark b = false) : (as ++ bs).takeWhile mark = as := by
    rw [takeWhile_append_of_not_head turn, List.takeWhile_eq_self_iff.2 marked]
  have same : as = as' := by rw [← front marked turn, h, front marked' turn']
  subst same
  exact ⟨rfl, List.append_cancel_left h⟩

end

/-! ## Leaves -/

theorem TruthTest.document_inj {t t' : TruthTest} (h : t.document = t'.document) : t = t' := by
  cases t <;> cases t' <;> simp_all [document, nullDocument, boolDocument]

theorem Direction.text_inj {d d' : Direction} (h : d.keyword.text = d'.keyword.text) : d = d' := by
  revert h
  cases d <;> cases d' <;> decide

theorem NullsPlacement.word_inj {n n' : NullsPlacement} (h : n.word = n'.word) : n = n' := by
  revert h
  cases n <;> cases n' <;> decide

theorem JoinKind.name_inj {k k' : JoinKind}
    (h : k.keyword.text ++ " JOIN" = k'.keyword.text ++ " JOIN") : k = k' := by
  revert h
  cases k <;> cases k' <;> decide

theorem QualifiedName.sameFunction {n n' : QualifiedName} (kind : n.isAggregate = n'.isAggregate)
    (name : callName n = callName n') : n.SameFunction n' := by
  unfold callName at name
  rw [← kind] at name
  cases aggregate : n.isAggregate with
  | true =>
    have aggregate' : n'.isAggregate := kind ▸ aggregate
    refine .aggregate aggregate aggregate' ?_
    simpa [aggregate, canonical_of_isAggregate aggregate, canonical_of_isAggregate aggregate']
      using name
  | false => exact .same (values_eq_of_canonical_eq (by simpa [aggregate] using name))

/-! ## Faithful nodes -/

/-- Whether all nodes with the same document are alike. For expressions that is
asked for what is inside all parentheses. -/
def Node.Faithful : Node → Prop
  | .statement s => ∀ t, s.document false = t.document false → s.Alike t
  | .query q => ∀ q', q.document false = q'.document false → q.Alike q'
  | .select s => ∀ s', s.document false = s'.document false → s.Alike s'
  | .selectItem i => ∀ i', i.document false = i'.document false → i.Alike i'
  | .relation r => ∀ r', r.document false = r'.document false → r.Alike r'
  | .join j => ∀ j', j.entry false = j'.entry false → j.Alike j'
  | .expr e => ∀ f, e.core.form.shape? = f.shape? → e.core.form.Alike f
  | .column c => ∀ c', c.document false = c'.document false → c.Alike c'

section

open Node

theorem Expr.alike {e e' : Expr} (faithful : Faithful (.expr e))
    (h : e.document false = e'.document false) : e.Alike e' :=
  have ⟨parentheses, shape⟩ := Expr.shape?_core_eq h
  .core parentheses (faithful _ shape)

theorem Expr.alike_list {es es' : List Expr} (faithful : ∀ e ∈ es, Faithful (.expr e))
    (h : es.map (document false) = es'.map (document false)) : List.Forall₂ Expr.Alike es es' :=
  forall₂_of_map_eq h fun e he _ => (Expr.alike (faithful e he) ·)

theorem Expr.alike_option {o o' : Option Expr} (faithful : ∀ e ∈ o, Faithful (.expr e))
    (h : optionalDocument false o = optionalDocument false o') : Option.Rel Expr.Alike o o' := by
  cases o with
  | none =>
    cases o' with
    | none => exact .none
    | some e' =>
      have isObject := e'.isObject_document
      rw [show e'.document false = null from h.symm] at isObject
      exact isObject.elim
  | some e =>
    cases o' with
    | none =>
      have isObject := e.isObject_document
      rw [show e.document false = null from h] at isObject
      exact isObject.elim
    | some e' => exact .some (Expr.alike (faithful e rfl) h)

end

theorem listDocument_inj {ds ds' : List Document} (h : listDocument ds = listDocument ds') :
    ds = ds' := by
  simpa [listDocument] using h

theorem parenthesizedDocument_inj {d d' : Document}
    (h : parenthesizedDocument d = parenthesizedDocument d') : d = d' := by
  simpa [parenthesizedDocument] using h

theorem listDocument_ne_parenthesized {ds : List Document} {d : Document} :
    listDocument ds ≠ parenthesizedDocument d := by
  simp [listDocument, parenthesizedDocument]

/-! ## Expressions -/

theorem Expr.document_ne_star (e : Expr) : e.document false ≠ starDocument := by
  intro h
  exact e.field?_type_ne (t := "star") (by decide) (by rw [h]; rfl)

/-- What is an argument of a call is no list. -/
theorem Arguments.field?_type_ne {as : Arguments} :
    ∀ d ∈ as.documents false, d.field? "type" ≠ some (.string "expr_list") := by
  cases as with
  | star =>
    intro d hd
    rw [List.mem_singleton.1 hd]
    decide
  | list items =>
    intro d hd
    rw [documents, Expr.documents_eq] at hd
    obtain ⟨e, -, rfl⟩ := List.mem_map.1 hd
    exact e.field?_type_ne (by decide)

/-- The arguments of a call can be told from what it shows of them. -/
theorem Arguments.documents_eq_of_callArguments {n n' : QualifiedName} {as as' : Arguments}
    (kind : n.isAggregate = n'.isAggregate)
    (h : callArguments n (as.documents false) = callArguments n' (as'.documents false)) :
    as.documents false = as'.documents false := by
  unfold callArguments at h
  rw [← kind] at h
  cases aggregate : n.isAggregate with
  | false => simpa [aggregate] using h
  | true =>
    rw [aggregate, if_pos rfl, if_pos rfl] at h
    have lone {as : Arguments} {d : Document} (only : as.documents false = [d])
        (ds : List Document) : d ≠ listDocument ds := by
      rintro rfl
      exact as.field?_type_ne _ (by rw [only]; exact List.mem_singleton_self _) rfl
    split at h
    · rename_i only
      split at h
      · rename_i only'
        rw [only, only', h]
      · exact absurd h (lone only _)
    · split at h
      · rename_i only'
        exact absurd h.symm (lone only' _)
      · simpa [listDocument] using h

theorem Arguments.alike {as as' : Arguments}
    (faithful : ∀ e ∈ as.items, Node.Faithful (.expr e))
    (h : as.documents false = as'.documents false) : as.Alike as' := by
  have star {items : List Expr} : Expr.documents false items ≠ [starDocument] := by
    intro same
    rw [Expr.documents_eq] at same
    obtain ⟨e, -, document⟩ := List.map_eq_singleton_iff.1 same
    exact e.document_ne_star document
  cases as with
  | star =>
    cases as' with
    | star => exact .star
    | list items' => exact absurd h.symm star
  | list items =>
    cases as' with
    | star => exact absurd h star
    | list items' =>
      rw [documents, documents, Expr.documents_eq, Expr.documents_eq] at h
      exact .list (Expr.alike_list faithful h)

theorem WhenBranch.alike {b b' : WhenBranch} (condition : Node.Faithful (.expr b.condition))
    (result : Node.Faithful (.expr b.result)) (h : b.entry false = b'.entry false) :
    b.Alike b' := by
  simp only [entry, spanned_false, object.injEq, List.cons.injEq, Prod.mk.injEq, true_and,
    and_true] at h
  exact .branch (Expr.alike condition h.1) (Expr.alike result h.2)

/-- The entries of a `CASE` end with that of its `ELSE`, if there is one. -/
theorem case_entries_inj {bs bs' : List WhenBranch} {o o' : Option Expr}
    (h : bs.map (WhenBranch.entry false) ++ Expr.elseDocument false o =
      bs'.map (WhenBranch.entry false) ++ Expr.elseDocument false o') :
    bs.map (WhenBranch.entry false) = bs'.map (WhenBranch.entry false) ∧
      Expr.optionalDocument false o = Expr.optionalDocument false o' := by
  have marked (bs : List WhenBranch) : ∀ d ∈ bs.map (WhenBranch.entry false),
      decide (d.field? "type" = some (.string "when")) := by
    intro d hd
    obtain ⟨b, -, rfl⟩ := List.mem_map.1 hd
    simp [WhenBranch.entry, field?]
  have turn (o : Option Expr) : ∀ d ∈ (Expr.elseDocument false o).head?,
      decide (d.field? "type" = some (.string "when")) = false := by
    cases o with
    | none => exact fun d hd => by cases hd
    | some e =>
      intro d hd
      rw [← Option.some.inj hd]
      simp [field?]
  obtain ⟨branches, last⟩ := append_inj_of_marked h (marked bs) (marked bs') (turn o) (turn o')
  refine ⟨branches, ?_⟩
  cases o <;> cases o' <;> simp_all [Expr.elseDocument, Expr.optionalDocument]

theorem ExprForm.eq_column_of_shape? {f : ExprForm} {table : Document} {name : String}
    (h : f.shape? = some (.column table name)) :
    ∃ n, f = .column n ∧ n.qualifierDocument = table ∧ n.base.value = name := by
  cases f with
  | column n =>
    obtain ⟨qualifier, base⟩ := Shape.column.inj (Option.some.inj h)
    exact ⟨n, rfl, qualifier, base⟩
  | literal v => cases v <;> cases h
  | _ => cases h

theorem ExprForm.eq_number_of_shape? {f : ExprForm} {d : Document}
    (h : f.shape? = some (.number d)) :
    ∃ text, f = .literal (.number text) ∧ numberDocument text = d := by
  cases f with
  | literal v =>
    cases v with
    | number text => exact ⟨text, rfl, Shape.number.inj (Option.some.inj h)⟩
    | _ => cases h
  | _ => cases h

/-! ## Selections -/

theorem aliasDocument_inj {label label' : Option Identifier}
    (h : aliasDocument label = aliasDocument label') :
    label.map (·.value) = label'.map (·.value) := by
  cases label <;> cases label' <;> simp_all [aliasDocument]

theorem identifierDocuments_inj {is is' : List Identifier}
    (h : identifierDocuments is = identifierDocuments is') :
    is.map (·.value) = is'.map (·.value) := by
  have values : (is.map (·.value)).map string = (is'.map (·.value)).map string := by
    simpa [identifierDocuments, Function.comp_def] using h
  exact (List.map_inj_right fun _ _ => Document.string.inj).1 values

theorem tableDocument_inj {n n' : QualifiedName} {label label' : Option Identifier}
    (h : tableDocument n label = tableDocument n' label') :
    n.Alike n' ∧ label.map (·.value) = label'.map (·.value) := by
  simp only [tableDocument, object.injEq, List.cons.injEq, Prod.mk.injEq, Document.string.injEq,
    true_and, and_true] at h
  exact ⟨⟨h.2.1, QualifiedName.qualifierText?_eq h.1⟩, aliasDocument_inj h.2.2⟩

/-- The columns of a relation have the document of a column that is named `*`. -/
theorem Expr.eq_column_of_star {e : Expr} {qualifier : String}
    (h : e.document false = columnDocument (string qualifier) "*") :
    ∃ s n, e = ⟨s, .column n⟩ ∧ n.base.value = "*" ∧ n.qualifierText? = some qualifier := by
  obtain ⟨s, form⟩ := e
  have shape := (Expr.shape?_eq_of_document (a := .column (string qualifier) "*") h rfl).2
  obtain ⟨n, rfl, table, base⟩ := ExprForm.eq_column_of_shape? shape
  refine ⟨s, n, rfl, base, ?_⟩
  rw [QualifiedName.qualifierDocument_eq] at table
  cases text : n.qualifierText? <;> simp_all

theorem SelectItem.alike {i i' : SelectItem}
    (faithful : ∀ s e label, i = .expr s e label → Node.Faithful (.expr e))
    (h : i.document false = i'.document false) : i.Alike i' := by
  have star_ne_column (table : Document) (name : String) :
      starDocument ≠ columnDocument table name := by
    simp [starDocument, columnDocument]
  cases i <;> cases i' <;> simp only [document, spanned_false, object.injEq, List.cons.injEq,
    Prod.mk.injEq, true_and, and_true] at h
  case wildcard.wildcard s s' => exact .wildcard s s'
  case wildcard.qualifiedWildcard => exact absurd h (star_ne_column _ _)
  case wildcard.expr s s' e label => exact absurd h.1.symm e.document_ne_star
  case qualifiedWildcard.wildcard => exact absurd h.symm (star_ne_column _ _)
  case qualifiedWildcard.qualifiedWildcard s n s' n' =>
    have same : n.canonical = n'.canonical := by simpa [columnDocument] using h
    exact .qualifiedWildcard s s' (QualifiedName.values_eq_of_canonical_eq same)
  case qualifiedWildcard.expr s n s' e label =>
    obtain ⟨t, n', rfl, base, qualifier⟩ := Expr.eq_column_of_star h.1.symm
    cases label with
    | none => exact .columnForWildcard s s' t base qualifier
    | some => cases h.2
  case expr.wildcard s e label s' => exact absurd h.1 e.document_ne_star
  case expr.qualifiedWildcard s e label s' n =>
    obtain ⟨t, n', rfl, base, qualifier⟩ := Expr.eq_column_of_star h.1
    cases label with
    | none => exact .wildcardForColumn s s' t base qualifier
    | some => cases h.2
  case expr.expr s e label s' e' label' =>
    exact .expr s s' (Expr.alike (faithful s e label rfl) h.1) (aliasDocument_inj h.2)

/-- The columns of a selection are a lone `*` or a list. -/
theorem SelectItem.columnsDocument_inj {is is' : List SelectItem}
    (h : columnsDocument false is = columnsDocument false is') :
    (∃ s s', is = [.wildcard s] ∧ is' = [.wildcard s']) ∨
      is.map (document false) = is'.map (document false) := by
  unfold columnsDocument at h
  split at h <;> split at h
  · exact .inl ⟨_, _, rfl, rfl⟩
  · cases h
  · cases h
  · rw [documents_eq, documents_eq] at h
    exact .inr (Document.array.inj h)

/-! ## Queries -/

namespace QueryBody

/-- Bodies are alike when their first selections and those behind them are. -/
theorem alike : ∀ (b b' : QueryBody), (∀ s ∈ b.selects, Node.Faithful (.select s.2)) →
    b.leftmost.fields = b'.leftmost.fields → b.tail.map shown = b'.tail.map shown → b.Alike b'
  | .select s, .select s', faithful, first, _ =>
    .select (faithful (none, s) (List.mem_singleton_self _) s' (Select.document_eq_iff.2 first))
  | .select _, .setOperation .., _, _, rest => by simp [tail] at rest
  | .setOperation .., .select _, _, _, rest => by simp [tail] at rest
  | .setOperation _ left op all right, .setOperation _ left' op' all' right', faithful, first,
      rest => by
    rw [tail, tail, List.map_append, List.map_append] at rest
    obtain ⟨front, last⟩ := List.append_inj' rest rfl
    obtain ⟨operator, fields⟩ := Prod.mk.inj (List.singleton_inj.1 last)
    obtain ⟨rfl, rfl⟩ := Prod.mk.inj operator
    have before := alike left left' (fun s hs => faithful s (by simp [hs])) first front
    have last := faithful (some (op, all), right) (by simp) right' (Select.document_eq_iff.2 fields)
    exact .setOperation before op all last

end QueryBody

theorem OrderItem.alike {i i' : OrderItem} (faithful : Node.Faithful (.expr i.expr))
    (h : i.entry false = i'.entry false) : i.Alike i' := by
  obtain ⟨s, e, direction, nulls⟩ := i
  obtain ⟨s', e', direction', nulls'⟩ := i'
  simp only [entry, spanned_false, object.injEq, List.cons.injEq, Prod.mk.injEq,
    Document.string.injEq, true_and, and_true] at h
  obtain ⟨expr, ordered, placed⟩ := h
  refine .item (Expr.alike faithful expr) ?_ ?_
  · exact Direction.text_inj ordered
  · cases nulls with
    | none =>
      cases nulls' with
      | none => rfl
      | some => cases placed
    | some n =>
      cases nulls' with
      | none => cases placed
      | some n' => exact congrArg some (NullsPlacement.word_inj (Document.string.inj placed))

theorem Offset.alike {o o' : Option Expr} (faithful : ∀ e ∈ o, Node.Faithful (.expr e))
    (h : Expr.offsetDocument false o = Expr.offsetDocument false o') : Offset.Alike o o' := by
  have zero : numberDocument "0" = int 0 := by decide +kernel
  have eq_number {e : Expr} (h : e.document false = Expr.offsetDocument false none) :
      ∃ s text, e = ⟨s, .literal (.number text)⟩ ∧ numberDocument text = numberDocument "0" := by
    obtain ⟨s, form⟩ := e
    have shape := (Expr.shape?_eq_of_document (a := .number (int 0)) h rfl).2
    obtain ⟨text, rfl, value⟩ := ExprForm.eq_number_of_shape? shape
    exact ⟨s, text, rfl, value.trans zero.symm⟩
  cases o with
  | none =>
    cases o' with
    | none => exact .absent
    | some e' =>
      obtain ⟨s, text, rfl, value⟩ := eq_number h.symm
      exact .zero s value
  | some e =>
    cases o' with
    | none =>
      obtain ⟨s, text, rfl, value⟩ := eq_number h
      exact .zero' s value
    | some e' => exact .present (Expr.alike (faithful e rfl) h)

theorem OrderBy.alike_option {o o' : Option OrderBy}
    (faithful : ∀ b ∈ o, ∀ i ∈ b.items, Node.Faithful (.expr i.expr))
    (h : optionalDocument false o = optionalDocument false o') : Option.Rel OrderBy.Alike o o' := by
  cases o <;> cases o' <;> simp only [optionalDocument, Document.array.injEq, reduceCtorEq] at h
  case none.none => exact .none
  case some.some o o' =>
    exact .some (.orderBy (forall₂_of_map_eq h
      fun i hi _ => (OrderItem.alike (faithful o rfl i hi) ·)))

theorem Limit.alike_option {o o' : Option Limit}
    (faithful : ∀ l ∈ o, Node.Faithful (.expr l.count) ∧ ∀ e ∈ l.offset, Node.Faithful (.expr e))
    (h : optionalDocument false o = optionalDocument false o') : Option.Rel Limit.Alike o o' := by
  cases o <;> cases o' <;> simp only [optionalDocument, Document.array.injEq, List.cons.injEq,
    and_true, reduceCtorEq] at h
  case none.none => exact .none
  case some.some l l' =>
    exact .some (.limit (Expr.alike (faithful l rfl).1 h.2) (Offset.alike (faithful l rfl).2 h.1))

theorem Query.alike {q q' : Query} (selects : ∀ s ∈ q.body.selects, Node.Faithful (.select s.2))
    (order : ∀ o ∈ q.orderBy, ∀ i ∈ o.items, Node.Faithful (.expr i.expr))
    (limit : ∀ l ∈ q.limit, Node.Faithful (.expr l.count) ∧ ∀ e ∈ l.offset, Node.Faithful (.expr e))
    (h : q.document false = q'.document false) : q.Alike q' := by
  rw [document_eq_head, document_eq_head] at h
  obtain ⟨first, ordered, limited, rest⟩ := Select.headDocument_inj h
  exact .query (QueryBody.alike _ _ selects first (QueryBody.chain_inj rest))
    (OrderBy.alike_option order ordered) (Limit.alike_option limit limited)

/-! ## Relations and selections -/

theorem Relation.alike {r r' : Relation}
    (faithful : ∀ s q label, r = .derived s q label → Node.Faithful (.query q))
    (h : r.document false = r'.document false) : r.Alike r' := by
  cases r <;> cases r' <;> simp only [document, spanned_false] at h
  case table.table s n label s' n' label' =>
    obtain ⟨name, labels⟩ := tableDocument_inj h
    exact .table s s' name labels
  case derived.derived s q label s' q' label' =>
    simp only [parenthesizedDocument, object.injEq, List.cons.injEq, Prod.mk.injEq, true_and,
      and_true] at h
    exact .derived s s' (faithful s q label rfl q' h.1) (aliasDocument_inj h.2)
  all_goals simp [tableDocument] at h

/-- What a join sets in the document of its relation. -/
theorem Join.entry_inj {j j' : Join} (h : j.entry false = j'.entry false) :
    j.relation.document false = j'.relation.document false ∧ j.kind = j'.kind ∧
      j.condition.onDocument false = j'.condition.onDocument false ∧
      j.condition.usingDocument = j'.condition.usingDocument := by
  obtain ⟨s, kind, relation, condition⟩ := j
  obtain ⟨s', kind', relation', condition'⟩ := j'
  cases relation <;> cases relation' <;>
    simp only [entry, spanned_false, Relation.document, tableDocument, Document.set, setField,
      object.injEq, List.cons.injEq, Prod.mk.injEq, Document.string.injEq, String.reduceEq,
      if_false, true_and, and_true, false_and] at h ⊢
  case table.table =>
    obtain ⟨db, table, label, name, conditions⟩ := h
    exact ⟨⟨db, table, label⟩, JoinKind.name_inj name, conditions⟩
  case derived.derived =>
    obtain ⟨query, label, name, conditions⟩ := h
    exact ⟨⟨query, label⟩, JoinKind.name_inj name, conditions⟩

theorem JoinCondition.alike {c c' : JoinCondition}
    (faithful : ∀ e, c = .on e → Node.Faithful (.expr e))
    (on : c.onDocument false = c'.onDocument false) (using' : c.usingDocument = c'.usingDocument) :
    c.Alike c' := by
  have ne_null (e : Expr) : e.document false ≠ null := by
    intro h
    have isObject := e.isObject_document
    rw [h] at isObject
    exact isObject
  cases c <;> cases c' <;> simp only [onDocument, usingDocument] at on using'
  case on.on e e' => exact .on (Expr.alike (faithful e rfl) on)
  case shared.shared columns columns' => exact .shared (identifierDocuments_inj using')
  case none.none => exact .none
  case on.shared e _ | on.none e => exact absurd on (ne_null e)
  case shared.on _ e | none.on e => exact absurd on.symm (ne_null e)
  all_goals cases using'

/-- The entries of a `FROM` clause turn to the next table where one has no join. -/
theorem JoinedTable.alike_list : ∀ {ts ts' : List JoinedTable},
    (∀ t ∈ ts, Node.Faithful (.relation t.relation) ∧
      ∀ j ∈ t.joins, Node.Faithful (.join j)) →
    ts.flatMap (entries false) = ts'.flatMap (entries false) →
    List.Forall₂ JoinedTable.Alike ts ts'
  | [], [], _, _ => .nil
  | [], _ :: _, _, h => by simp [entries] at h
  | _ :: _, [], _, h => by simp [entries] at h
  | t :: ts, t' :: ts', faithful, h => by
    have marked (joins : List Join) : ∀ d ∈ joins.map (Join.entry false),
        (d.field? "join").isSome := by
      intro d hd
      obtain ⟨⟨_, _, r, _⟩, -, rfl⟩ := List.mem_map.1 hd
      cases r <;> rfl
    have turn (ts : List JoinedTable) : ∀ d ∈ (ts.flatMap (entries false)).head?,
        (d.field? "join").isSome = false := by
      intro d hd
      rcases ts with _ | ⟨⟨_, r, _⟩, _⟩
      · cases hd
      · rw [← Option.some.inj hd]
        cases r <;> rfl
    simp only [List.flatMap_cons, entries, List.cons_append, List.cons.injEq] at h
    obtain ⟨first, others⟩ := h
    obtain ⟨joined, rest⟩ :=
      append_inj_of_marked others (marked t.joins) (marked t'.joins) (turn ts) (turn ts')
    obtain ⟨relation, conditions⟩ := faithful t (List.mem_cons_self ..)
    exact .cons (.table (relation t'.relation first)
      (forall₂_of_map_eq joined fun j hj j' => conditions j hj j'))
      (alike_list (fun t ht => faithful t (List.mem_cons_of_mem _ ht)) rest)

theorem From.alike_option {o o' : Option From}
    (faithful : ∀ f ∈ o, ∀ t ∈ f.tables, Node.Faithful (.relation t.relation) ∧
      ∀ j ∈ t.joins, Node.Faithful (.join j))
    (h : optionalDocument o = optionalDocument o') : Option.Rel From.Alike o o' := by
  cases o <;> cases o' <;> simp only [optionalDocument, Document.array.injEq, reduceCtorEq] at h
  case none.none => exact .none
  case some.some f f' => exact .some (.source (JoinedTable.alike_list (faithful f rfl) h))

theorem GroupBy.alike_option {o o' : Option GroupBy}
    (faithful : ∀ g ∈ o, ∀ e ∈ g.keys, Node.Faithful (.expr e))
    (h : optionalDocument o = optionalDocument o') : Option.Rel GroupBy.Alike o o' := by
  cases o <;> cases o' <;> simp only [optionalDocument, Document.array.injEq, reduceCtorEq] at h
  case none.none => exact .none
  case some.some g g' => exact .some (.groupBy (Expr.alike_list (faithful g rfl) h))

theorem Select.alike {s s' : Select}
    (items : ∀ i ∈ s.projection, Node.Faithful (.selectItem i))
    (tables : ∀ f ∈ s.source, ∀ t ∈ f.tables, Node.Faithful (.relation t.relation) ∧
      ∀ j ∈ t.joins, Node.Faithful (.join j))
    (condition : ∀ e ∈ s.condition, Node.Faithful (.expr e))
    (keys : ∀ g ∈ s.groupBy, ∀ e ∈ g.keys, Node.Faithful (.expr e))
    (having : ∀ e ∈ s.having, Node.Faithful (.expr e))
    (h : s.document false = s'.document false) : s.Alike s' := by
  have shown := document_eq_iff.1 h
  simp only [fields, List.cons.injEq, Prod.mk.injEq, true_and, and_true] at shown
  obtain ⟨distinct, columns, source, filter, grouped, filtered⟩ := shown
  refine .select ?_ ?_ (From.alike_option tables source) (Expr.alike_option condition filter)
    (GroupBy.alike_option keys grouped) (Expr.alike_option having filtered)
  · cases hd : s.distinct <;> cases hd' : s'.distinct <;> simp_all
  · rcases SelectItem.columnsDocument_inj columns with ⟨t, t', hp, hp'⟩ | same
    · rw [hp, hp']
      exact .cons (.wildcard t t') .nil
    · exact forall₂_of_map_eq same fun i hi i' => items i hi i'

/-! ## Statements -/

theorem ColumnOption.alike {o o' : ColumnOption}
    (faithful : ∀ e, o = .default e → Node.Faithful (.expr e))
    (h : o.document false = o'.document false) : o.Alike o' := by
  cases o <;> cases o' <;> simp only [document, object.injEq, List.cons.injEq, Prod.mk.injEq,
    Document.string.injEq, String.reduceEq, and_true, true_and, and_false, reduceCtorEq] at h
  case null.null => exact .null
  case notNull.notNull => exact .notNull
  case primaryKey.primaryKey => exact .primaryKey
  case unique.unique => exact .unique
  case default.default e e' => exact .default (Expr.alike (faithful e rfl) h)

theorem ColumnDefinition.alike {c c' : ColumnDefinition}
    (faithful : ∀ e, ColumnOption.default e ∈ c.options → Node.Faithful (.expr e))
    (h : c.document false = c'.document false) : c.Alike c' := by
  simp only [document, columnDocument, spanned_false, object.injEq, List.cons.injEq,
    Prod.mk.injEq, Document.string.injEq, Document.array.injEq, true_and, and_true] at h
  exact {
    name := h.1
    type := DataType.document_inj h.2.1
    options := forall₂_of_map_eq h.2.2.2.2.2.2 fun o ho _ =>
      (ColumnOption.alike (fun e he => faithful e (he ▸ ho)) ·) }

theorem TableConstraint.alike {c c' : TableConstraint} (h : c.document false = c'.document false) :
    c.Alike c' := by
  cases c <;> cases c' <;> simp only [document, constraintDocument, spanned_false, object.injEq,
    List.cons.injEq, Prod.mk.injEq, Document.string.injEq, String.reduceEq, and_true, true_and,
    and_false, false_and] at h
  case primaryKey.primaryKey s _ s' _ => exact .primaryKey s s' (identifierDocuments_inj h)
  case unique.unique s _ s' _ => exact .unique s s' (identifierDocuments_inj h)

theorem Assignment.alike {a a' : Assignment} (faithful : Node.Faithful (.expr a.value))
    (h : a.document false = a'.document false) : a.Alike a' := by
  simp only [document, spanned_false, object.injEq, List.cons.injEq, Prod.mk.injEq,
    Document.string.injEq, true_and, and_true] at h
  exact ⟨h.1, Expr.alike faithful h.2⟩

theorem Insert.alike {s s' : Insert}
    (faithful : ∀ c ∈ (Statement.insert s).children, c.Faithful)
    (h : s.document false = s'.document false) : s.Alike s' := by
  have columns_inj {is is' : List Identifier}
      (h : (if is.isEmpty then null else identifierDocuments is) =
        if is'.isEmpty then null else identifierDocuments is') :
      is.map (·.value) = is'.map (·.value) := by
    cases is <;> cases is' <;>
      simp only [List.isEmpty_nil, List.isEmpty_cons, if_true, if_false, Bool.false_eq_true] at h
    case nil.nil => rfl
    case cons.cons => exact identifierDocuments_inj h
    all_goals cases h
  obtain ⟨span, table, columns, source⟩ := s
  obtain ⟨span', table', columns', source'⟩ := s'
  simp only [Insert.document, object.injEq, List.cons.injEq, Prod.mk.injEq, Document.array.injEq,
    true_and, and_true] at h
  obtain ⟨name, listed, values, select⟩ := h
  refine ⟨(tableDocument_inj name).1, columns_inj listed, ?_⟩
  cases source <;> cases source' <;> simp only at values select
  case values.values rows rows' =>
    have value (row : List Expr) (hrow : row ∈ rows) (e : Expr) (he : e ∈ row) :
        Node.Faithful (.expr e) :=
      faithful _ (List.mem_map_of_mem (List.mem_flatten_of_mem hrow he))
    refine .values (forall₂_of_map_eq (Document.array.inj values) fun row hrow row' same => ?_)
    have items : row.map (Expr.document false) = row'.map (Expr.document false) := by
      simpa [listDocument] using same
    exact Expr.alike_list (value row hrow) items
  case query.query q q' =>
    exact .query (faithful (.query q) (by simp [Statement.children]) q' select)
  all_goals cases values

theorem Update.alike {s s' : Update}
    (faithful : ∀ c ∈ (Statement.update s).children, c.Faithful)
    (h : s.document false = s'.document false) : s.Alike s' := by
  simp only [Statement.children, List.forall_mem_append, List.forall_mem_map,
    Option.mem_toList] at faithful
  simp only [document, object.injEq, List.cons.injEq, Prod.mk.injEq, Document.array.injEq,
    true_and, and_true] at h
  obtain ⟨name, set, filter⟩ := h
  obtain ⟨table, labels⟩ := tableDocument_inj name
  exact {
    table := table
    labels := labels
    assignments := forall₂_of_map_eq set fun a ha _ => (Assignment.alike (faithful.1 a ha) ·)
    condition := Expr.alike_option faithful.2 filter }

theorem Delete.alike {s s' : Delete}
    (faithful : ∀ c ∈ (Statement.delete s).children, c.Faithful)
    (h : s.document false = s'.document false) : s.Alike s' := by
  simp only [Statement.children, List.forall_mem_map, Option.mem_toList] at faithful
  simp only [document, object.injEq, List.cons.injEq, Prod.mk.injEq, Document.array.injEq,
    true_and, and_true] at h
  obtain ⟨name, filter⟩ := h
  obtain ⟨table, labels⟩ := tableDocument_inj name
  exact ⟨table, labels, Expr.alike_option faithful filter⟩

theorem CreateTable.alike {s s' : CreateTable}
    (faithful : ∀ c ∈ s.columns, Node.Faithful (.column c))
    (h : s.document false = s'.document false) : s.Alike s' := by
  have marked (columns : List ColumnDefinition) :
      ∀ d ∈ columns.map (ColumnDefinition.document false),
      decide (d.field? "resource" = some (string "column")) := by
    intro d hd
    obtain ⟨c, -, rfl⟩ := List.mem_map.1 hd
    simp [ColumnDefinition.document, field?]
  have turn (constraints : List TableConstraint) :
      ∀ d ∈ (constraints.map (TableConstraint.document false)).head?,
        decide (d.field? "resource" = some (string "column")) = false := by
    intro d hd
    rcases constraints with _ | ⟨_ | _, _⟩
    · cases hd
    all_goals
      rw [← Option.some.inj hd]
      simp [TableConstraint.document, constraintDocument, field?]
  simp only [document, object.injEq, List.cons.injEq, Prod.mk.injEq, Document.array.injEq,
    true_and, and_true] at h
  obtain ⟨guard, name, elements⟩ := h
  obtain ⟨columns, constraints⟩ := append_inj_of_marked elements (marked s.columns)
    (marked s'.columns) (turn s.constraints) (turn s'.constraints)
  exact {
    ifNotExists := by
      cases hs : s.ifNotExists <;> cases hs' : s'.ifNotExists <;> simp_all
    name := (tableDocument_inj name).1
    columns := forall₂_of_map_eq columns fun c hc => faithful c hc
    constraints := forall₂_of_map_eq constraints fun _ _ _ => TableConstraint.alike }

theorem CreateIndex.alike {s s' : CreateIndex} (h : s.document = s'.document) : s.Alike s' := by
  simp only [document, object.injEq, List.cons.injEq, Prod.mk.injEq, Document.string.injEq,
    Document.bool.injEq, true_and, and_true] at h
  exact ⟨h.1, h.2.1, (tableDocument_inj h.2.2.1).1, identifierDocuments_inj h.2.2.2⟩

theorem Alteration.alike {a a' : Alteration}
    (faithful : ∀ c, a = .addColumn c → Node.Faithful (.column c))
    (h : a.document false = a'.document false) : a.Alike a' := by
  cases a <;> cases a' <;> simp only [document, alterationDocument, object.injEq, List.cons.injEq,
    Prod.mk.injEq, Document.string.injEq, String.reduceEq, and_true, true_and, and_false,
    false_and] at h
  case addColumn.addColumn c c' => exact .addColumn (faithful c rfl c' h)
  case dropColumn.dropColumn => exact .dropColumn h
  case renameTable.renameTable => exact .renameTable h
  case renameColumn.renameColumn => exact .renameColumn h.1 h.2

theorem AlterTable.alike {s s' : AlterTable}
    (faithful : ∀ c ∈ (Statement.alterTable s).children, c.Faithful)
    (h : s.document false = s'.document false) : s.Alike s' := by
  simp only [document, object.injEq, List.cons.injEq, Prod.mk.injEq, Document.array.injEq,
    true_and, and_true] at h
  refine ⟨(tableDocument_inj h.1).1, Alteration.alike (fun c hc => ?_) h.2⟩
  exact faithful (.column c) (by simp [Statement.children, hc])

theorem Drop.alike {s s' : Drop} (h : s.document = s'.document) : s.Alike s' := by
  simp only [document, object.injEq, List.cons.injEq, Prod.mk.injEq, Document.string.injEq,
    Document.array.injEq, true_and, and_true] at h
  obtain ⟨kind, guard, name⟩ := h
  exact {
    kind := by
      cases hs : s.kind <;> cases hs' : s'.kind <;> simp_all [ObjectKind.name]
    ifExists := by
      cases hs : s.ifExists <;> cases hs' : s'.ifExists <;> simp_all
    name := (tableDocument_inj name).1 }

theorem Statement.alike {s s' : Statement} (faithful : ∀ c ∈ s.children, c.Faithful)
    (h : s.document false = s'.document false) : s.Alike s' := by
  cases s <;> cases s' <;> simp only [document, spanned_false] at h
  case query.query q q' =>
    exact .query (faithful (.query q) (List.mem_singleton_self _) q' h)
  case insert.insert => exact .insert (Insert.alike faithful h)
  case update.update => exact .update (Update.alike faithful h)
  case delete.delete => exact .delete (Delete.alike faithful h)
  case createTable.createTable =>
    exact .createTable (CreateTable.alike (List.forall_mem_map.1 faithful) h)
  case createIndex.createIndex => exact .createIndex (CreateIndex.alike h)
  case createDatabase.createDatabase =>
    exact .createDatabase (by simpa [CreateDatabase.document] using h)
  case alterTable.alterTable => exact .alterTable (AlterTable.alike faithful h)
  case drop.drop => exact .drop (Drop.alike h)
  all_goals
    exfalso
    simp [Query.document_eq_head, Select.headDocument, Select.fields, Insert.document,
      Update.document, Delete.document, CreateTable.document, CreateIndex.document,
      CreateDatabase.document, AlterTable.document, Drop.document] at h

/-! ## Nodes -/

/-- Nodes with the same document are alike. -/
theorem Node.faithful (n : Node) : n.Faithful := by
  induction n using Node.formInduction with
  | column s n =>
    intro f h
    obtain ⟨n', rfl, qualifier, base⟩ := ExprForm.eq_column_of_shape? h.symm
    exact .column ⟨base.symm, QualifiedName.qualifierText?_eq qualifier.symm⟩
  | literal s v =>
    intro f h
    cases f with
    | literal v' =>
      cases v <;> cases v' <;> simp only [Expr.core, ExprForm.shape?, Option.some.injEq,
        Shape.number.injEq, Shape.string.injEq, Shape.bool.injEq, reduceCtorEq] at h
      case number.number => exact .number h
      case string.string => exact h ▸ .literal _
      case boolean.boolean => exact h ▸ .literal _
      case null.null => exact .literal _
    | _ => cases v <;> cases h
  | unary s op e ih =>
    intro f h
    cases f with
    | unary op' e' =>
      obtain ⟨operator, operand⟩ := Shape.unary.inj (Option.some.inj h)
      obtain rfl := PrefixName.operator.inj operator
      exact .unary op (Expr.alike ih operand)
    | literal v => cases v <;> cases h
    | _ => cases h
  | binary s op l r ihl ihr =>
    intro f h
    cases f with
    | binary op' l' r' =>
      obtain ⟨operator, left, right⟩ := Shape.binary.inj (Option.some.inj h)
      obtain rfl := InfixName.operator.inj operator
      exact .binary op (Expr.alike ihl left) (Expr.alike ihr right)
    | literal v => cases v <;> cases h
    | _ => cases h
  | is s e negated test ih =>
    intro f h
    cases f with
    | is e' negated' test' =>
      obtain ⟨operator, left, right⟩ := Shape.binary.inj (Option.some.inj h)
      obtain rfl := InfixName.is.inj operator
      obtain rfl := TruthTest.document_inj right
      exact .is (Expr.alike ih left) negated test
    | literal v => cases v <;> cases h
    | _ => cases h
  | inList s e negated items ihe ihi =>
    intro f h
    cases f with
    | inList e' negated' items' =>
      obtain ⟨operator, left, right⟩ := Shape.binary.inj (Option.some.inj h)
      obtain rfl := InfixName.membership.inj operator
      exact .inList (Expr.alike ihe left) negated (Expr.alike_list ihi (listDocument_inj right))
    | inQuery e' negated' q' =>
      have right := (Shape.binary.inj (Option.some.inj h)).2.2
      exact absurd right listDocument_ne_parenthesized
    | literal v => cases v <;> cases h
    | _ => cases h
  | inQuery s e negated q ihe ihq =>
    intro f h
    cases f with
    | inQuery e' negated' q' =>
      obtain ⟨operator, left, right⟩ := Shape.binary.inj (Option.some.inj h)
      obtain rfl := InfixName.membership.inj operator
      exact .inQuery (Expr.alike ihe left) negated (ihq q' (parenthesizedDocument_inj right))
    | inList e' negated' items' =>
      have right := (Shape.binary.inj (Option.some.inj h)).2.2
      exact absurd right.symm listDocument_ne_parenthesized
    | literal v => cases v <;> cases h
    | _ => cases h
  | between s e negated low high ihe ihl ihh =>
    intro f h
    cases f with
    | between e' negated' low' high' =>
      obtain ⟨operator, left, right⟩ := Shape.binary.inj (Option.some.inj h)
      obtain rfl := InfixName.between.inj operator
      have bounds := listDocument_inj right
      simp only [List.cons.injEq, and_true] at bounds
      exact .between (Expr.alike ihe left) negated (Expr.alike ihl bounds.1)
        (Expr.alike ihh bounds.2)
    | literal v => cases v <;> cases h
    | _ => cases h
  | like s e negated pattern ihe ihp =>
    intro f h
    cases f with
    | like e' negated' pattern' =>
      obtain ⟨operator, left, right⟩ := Shape.binary.inj (Option.some.inj h)
      obtain rfl := InfixName.like.inj operator
      exact .like (Expr.alike ihe left) negated (Expr.alike ihp right)
    | literal v => cases v <;> cases h
    | _ => cases h
  | call s n distinct arguments ih =>
    intro f h
    cases f with
    | call n' distinct' arguments' =>
      obtain ⟨kind, name, rfl, shown⟩ := Shape.call.inj (Option.some.inj h)
      exact .call (QualifiedName.sameFunction kind name) distinct
        (Arguments.alike ih (Arguments.documents_eq_of_callArguments kind shown))
    | literal v => cases v <;> cases h
    | _ => cases h
  | case s operand branches otherwise iho ihb ihe =>
    intro f h
    cases f with
    | case operand' branches' otherwise' =>
      obtain ⟨first, entries⟩ := Shape.case.inj (Option.some.inj h)
      obtain ⟨middle, last⟩ := case_entries_inj entries
      exact .case (Expr.alike_option iho first)
        (forall₂_of_map_eq middle fun b hb _ => (WhenBranch.alike (ihb b hb).1 (ihb b hb).2 ·))
        (Expr.alike_option ihe last)
    | literal v => cases v <;> cases h
    | _ => cases h
  | cast s e type ih =>
    intro f h
    cases f with
    | cast e' type' =>
      obtain ⟨operand, rfl⟩ := Shape.cast.inj (Option.some.inj h)
      exact .cast (Expr.alike ih operand) type
    | literal v => cases v <;> cases h
    | _ => cases h
  | existsQuery s q ih =>
    intro f h
    cases f with
    | existsQuery q' =>
      have query := (Shape.unary.inj (Option.some.inj h)).2
      exact .existsQuery (ih q' (parenthesizedDocument_inj query))
    | literal v => cases v <;> cases h
    | _ => cases h
  | subquery s q ih =>
    intro f h
    cases f with
    | subquery q' => exact .subquery (ih q' (Shape.query.inj (Option.some.inj h)))
    | literal v => cases v <;> cases h
    | _ => cases h
  | nested s e ih => exact ih
  | query q ihs iho ihl => exact fun q' => Query.alike ihs iho ihl
  | select s ihi iht ihc ihg ihh => exact fun s' => Select.alike ihi iht ihc ihg ihh
  | wildcard s => exact fun i => SelectItem.alike fun _ _ _ h => by cases h
  | qualifiedWildcard s n => exact fun i => SelectItem.alike fun _ _ _ h => by cases h
  | selected s e label ih =>
    exact fun i => SelectItem.alike fun _ _ _ h => (SelectItem.expr.inj h).2.1 ▸ ih
  | table s n label => exact fun r => Relation.alike fun _ _ _ h => by cases h
  | derived s q label ih =>
    exact fun r => Relation.alike fun _ _ _ h => (Relation.derived.inj h).2.1 ▸ ih
  | join s kind relation condition ihr ihc =>
    intro j' h
    obtain ⟨relations, kinds, on, shared⟩ := Join.entry_inj h
    exact .join kinds (ihr _ relations) (JoinCondition.alike ihc on shared)
  | columnDefinition c ih => exact fun c' => ColumnDefinition.alike ih
  | statement s ih => exact fun t => Statement.alike ih

end SqlSyntax
