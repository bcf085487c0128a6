import SqlSyntax.Proofs.Interchange.Spans

/-!
# Queries as chains of selections

The document of a query is that of its first selection, which also holds the order
and the limit and is linked to the document of the next one, and so on. Every
selection has the same fields in front and those of its link behind, so the
document can be taken apart again.

## Main results

* `Query.document_eq_head` — the document of a query in terms of its selections.
* `Select.headDocument_inj`, `QueryBody.chain_inj` — what it tells of them.
-/

namespace SqlSyntax

open Document

/-! ## Clauses -/

def From.optionalDocument : Option From → Document
  | none => null
  | some f => array (f.tables.flatMap (JoinedTable.entries false))

def GroupBy.optionalDocument : Option GroupBy → Document
  | none => null
  | some g => array (g.keys.map (Expr.document false))

def OrderBy.optionalDocument (spans : Bool) : Option OrderBy → Document
  | none => null
  | some o => array (o.items.map (OrderItem.entry spans))

def Limit.optionalDocument (spans : Bool) : Option Limit → Document
  | none => null
  | some l => array [Expr.offsetDocument spans l.offset, l.count.document spans]

/-- The fields of a selection that no query sets. -/
def Select.fields (s : Select) : List (String × Document) :=
  [("type", string "select"), ("distinct", if s.distinct then string "DISTINCT" else null),
    ("columns", SelectItem.columnsDocument false s.projection),
    ("from", From.optionalDocument s.source),
    ("where", Expr.optionalDocument false s.condition),
    ("groupby", GroupBy.optionalDocument s.groupBy),
    ("having", Expr.optionalDocument false s.having)]

def linkFields : Option (String × Document) → List (String × Document)
  | none => []
  | some (op, following) => [("set_op", string op), ("_next", following)]

/-- The document of a selection that has an order, a limit and a selection behind it. -/
def Select.headDocument (s : Select) (order limit : Document) (next : Option (String × Document)) :
    Document :=
  object (s.fields ++ (("orderby", order) :: ("limit", limit) :: linkFields next))

theorem Select.document_eq_head (s : Select) :
    s.document false = s.headDocument null null none := by
  obtain ⟨_, _, _, source, _, groupBy, _⟩ := s
  cases source <;> cases groupBy <;>
    simp [document_eq, headDocument, fields, linkFields, From.optionalDocument,
      GroupBy.optionalDocument, JoinedTable.documents_eq, Expr.documents_eq]

theorem Select.linkDocument_eq (s : Select) (next : Option (String × Document)) :
    linkDocument next (s.document false) = s.headDocument null null next := by
  rw [document_eq_head]
  cases next <;> rfl

theorem Select.headDocument_inj {s s' : Select} {order order' limit limit' : Document}
    {next next' : Option (String × Document)}
    (h : s.headDocument order limit next = s'.headDocument order' limit' next') :
    s.fields = s'.fields ∧ order = order' ∧ limit = limit' ∧ next = next' := by
  obtain ⟨fields, rest⟩ := List.append_inj (object.inj h) rfl
  simp only [List.cons.injEq, Prod.mk.injEq, true_and] at rest
  obtain ⟨order, limit, link⟩ := rest
  refine ⟨fields, order, limit, ?_⟩
  cases next <;> cases next' <;> simp_all [linkFields, Prod.ext_iff]

/-- A selection shows its fields and nothing else. -/
theorem Select.document_eq_iff {s s' : Select} :
    s.document false = s'.document false ↔ s.fields = s'.fields := by
  rw [document_eq_head, document_eq_head]
  exact ⟨fun h => (headDocument_inj h).1, fun h => by rw [headDocument, headDocument, h]⟩

theorem setOperatorName_inj {op op' : SetOperator} {all all' : Bool}
    (h : setOperatorName op all = setOperatorName op' all') : op = op' ∧ all = all' := by
  revert h
  cases op <;> cases op' <;> cases all <;> cases all' <;> decide

namespace QueryBody

/-- The selections behind the first one, each with the operator before it. -/
def tail : QueryBody → List ((SetOperator × Bool) × Select)
  | .select _ => []
  | .setOperation _ left op all right => left.tail ++ [((op, all), right)]

/-- The fields that link a selection to those behind it. -/
def chain (spans : Bool) : List ((SetOperator × Bool) × Select) → Option (String × Document)
  | [] => none
  | ((op, all), s) :: rest =>
    some (setOperatorName op all, linkDocument (chain spans rest) (s.document spans))

theorem document_chain (spans : Bool) : ∀ (b : QueryBody)
    (rest : List ((SetOperator × Bool) × Select)),
    b.document spans (chain spans rest) =
      linkDocument (chain spans (b.tail ++ rest)) (b.leftmost.document spans)
  | .select s, rest => by rw [document, tail, leftmost, List.nil_append]
  | .setOperation _ left op all right, rest => by
    have linked := left.document_chain spans (((op, all), right) :: rest)
    rw [document, tail, leftmost, List.append_assoc]
    exact linked

/-- What a link shows of a selection. -/
def shown (p : (SetOperator × Bool) × Select) : (SetOperator × Bool) × List (String × Document) :=
  (p.1, p.2.fields)

theorem chain_inj : ∀ {l l' : List ((SetOperator × Bool) × Select)},
    chain false l = chain false l' → l.map shown = l'.map shown
  | [], [], _ => rfl
  | [], _ :: _, h => by cases h
  | _ :: _, [], h => by cases h
  | ((op, all), s) :: l, ((op', all'), s') :: l', h => by
    obtain ⟨name, linked⟩ := Prod.mk.inj (Option.some.inj h)
    rw [Select.linkDocument_eq, Select.linkDocument_eq] at linked
    obtain ⟨fields, -, -, following⟩ := Select.headDocument_inj linked
    obtain ⟨rfl, rfl⟩ := setOperatorName_inj name
    rw [List.map_cons, List.map_cons, chain_inj following, shown, shown, fields]

end QueryBody

theorem Query.document_eq_head (q : Query) : q.document false =
    q.body.leftmost.headDocument (OrderBy.optionalDocument false q.orderBy)
      (Limit.optionalDocument false q.limit) (QueryBody.chain false q.body.tail) := by
  obtain ⟨s, body, orderBy, limit⟩ := q
  have head : body.document false none =
      body.leftmost.headDocument null null (QueryBody.chain false body.tail) := by
    rw [← Select.linkDocument_eq, ← List.append_nil body.tail, ← QueryBody.document_chain]
    rfl
  rcases orderBy with _ | ⟨_, _⟩ <;> rcases limit with _ | ⟨_, _, _⟩ <;>
    simp only [document, head, OrderBy.optionalDocument, Limit.optionalDocument,
      OrderItem.documents_eq, spanned_false] <;> rfl

end SqlSyntax
