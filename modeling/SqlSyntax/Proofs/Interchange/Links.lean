import SqlSyntax.Proofs.Interchange.Chains
import SqlSyntax.Proofs.Interchange.SpanFields
import SqlSyntax.Proofs.Parser.Spans
import SqlSyntax.Tree.Equality
import SqlSyntax.Unicode.LowerCase

/-!
# Selections in a row

The tree of a chain of set operations leans to the left and holds each operator next to
the selection behind it. In a document the operator stands next to the selection before it,
which holds the next selection in turn. Neither is as the source has it, a selection and then
operators and selections in turn. Here all three are the same list.

## Main results

* `Grammar.combination_of_queries` — the selections of a query in the order of the source.
* `Select.field?_link`, `Query.field?_document` — every field of a document in a chain.
* `QueryBody.shows_linksBehind` — what is found by following the links of a chain.
* `Query.links_document` — the documents that are linked in the document of a query.
* `parseStatement_links` — the selections in the source are the documents that are linked.
-/

namespace SqlSyntax

open Document

/-! ## In the source -/

namespace Grammar

/-- A set operator and the selection behind it. -/
inductive IsOperation : List Token → (SetOperator × Bool) × Select → Prop where
  | intro {t : Token} {as ss : List Token} {op : SetOperator} {all : Bool} {s : Select}
      {depth : Nat} (kind : t.kind = .keyword op.keyword) (quantifier : Flag .ALL as all)
      (select : IsSelect (phrases True depth) ss s) : IsOperation (t :: (as ++ ss)) ((op, all), s)

/-- A selection, operators and selections in turn, and what belongs to the whole. -/
inductive IsCombination : List Token → Query → Prop where
  | intro {us vs ws : List Token} {q : Query} {depth depth' : Nat}
      (first : IsSelect (phrases True depth) us q.body.leftmost)
      (others : Many IsOperation vs q.body.tail)
      (last : IsQueryTail (phrases True depth') (us ++ vs) q.body ws q) :
      IsCombination (us ++ (vs ++ ws)) q

/-- Operators and selections that add to those of `left`, which stand in `before`, and what
belongs to the whole. -/
inductive Continues (before : List Token) (left : QueryBody) : List Token → Query → Prop where
  | intro {vs ws : List Token} {q : Query} {others : List ((SetOperator × Bool) × Select)}
      {depth : Nat} (operations : Many IsOperation vs others)
      (leftmost : q.body.leftmost = left.leftmost) (tail : q.body.tail = left.tail ++ others)
      (last : IsQueryTail (phrases True depth) (before ++ vs) q.body ws q) :
      Continues before left (vs ++ ws) q

section

variable {depth : Nat} {before ts us vs : List Token} {left b : QueryBody} {q : Query}

theorem continues_of_tail (h : IsQueryTail (phrases True depth) before left ts q) :
    Continues before left ts q := by
  have body : q.body = left := by
    obtain ⟨-, -⟩ := h
    rfl
  have last : IsQueryTail (phrases True depth) (before ++ []) q.body ts q := by
    rwa [List.append_nil, body]
  exact @Continues.intro before left [] ts q [] depth .nil (by rw [body])
    (by rw [body, List.append_nil]) last

/-- One operator more in front. -/
theorem continues_of_operand {op : SetOperator}
    (h : IsSetOperand (phrases True depth) left op us b) (rest : Continues (before ++ us) b vs q) :
    Continues before left (us ++ vs) q := by
  obtain @⟨t, as, ss, all, right, kind, quantifier, select⟩ := h
  obtain @⟨vs, ws, q, others, depth', operations, leftmost, tail, last⟩ := rest
  rw [← List.append_assoc]
  rw [List.append_assoc] at last
  refine .intro (.cons (.intro kind quantifier select) operations) leftmost ?_ last
  rw [tail, QueryBody.tail, List.append_assoc]
  rfl

/-- Selections are combined with those before them one by one. -/
theorem continues_of_combines (h : combines True depth before left ts q) :
    Continues before left ts q := by
  induction depth generalizing before left ts with
  | zero =>
    have tail : IsQueryTail (phrases True 0) before left ts q := h
    exact continues_of_tail tail
  | succ depth ih =>
    rcases (combines_succ ..).1 h with tail | ⟨op, us, vs, b, rfl, operand, rest⟩
    · exact continues_of_tail tail
    · exact continues_of_operand operand (ih rest)

end

/-- The selections of a query stand in its tokens in their order. -/
theorem combination_of_queries {depth : Nat} {ts : List Token} {q : Query}
    (h : queries True depth ts q) : IsCombination ts q := by
  cases depth with
  | zero => exact h.elim
  | succ depth =>
    obtain ⟨us, vs, s, rfl, select, combined⟩ := h
    obtain ⟨operations, leftmost, tail, last⟩ := continues_of_combines combined
    rw [QueryBody.tail, List.nil_append] at tail
    exact .intro (by rwa [leftmost]) (by rwa [tail]) last

end Grammar

/-! ## In a document -/

theorem Document.sizeOf_lt_of_field? {d v : Document} {key : String}
    (h : d.field? key = some v) : sizeOf v < sizeOf d := by
  cases d with
  | object fields =>
    obtain ⟨before, behind, rfl, -⟩ := List.lookup_eq_some_iff.1 h
    have mem : (key, v) ∈ before ++ (key, v) :: behind := by simp
    have := List.sizeOf_lt_of_mem mem
    simp only [Prod.mk.sizeOf_spec, object.sizeOf_spec] at this ⊢
    omega
  | _ => cases h

/-- A document and those that are found by following `_next` from it. -/
def Document.links (d : Document) : List Document :=
  d :: match _h : d.field? "_next" with
    | none => []
    | some next => next.links
termination_by sizeOf d
decreasing_by exact sizeOf_lt_of_field? _h

theorem Document.links_eq_cons (d : Document) :
    d.links = d :: (d.field? "_next").elim [] links := by
  rw [links]
  congr 1
  split <;> simp_all

/-! ### Fields -/

/-- Linking sets two fields, which a selection by itself does not have. -/
theorem Select.field?_link (s : Select) (spans : Bool) (next : Option (String × Document))
    (key : String) : (linkDocument next (s.document spans)).field? key =
      if key = "_next" then next.map (·.2)
      else if key = "set_op" then next.map (string ·.1)
      else (s.document spans).field? key := by
  obtain ⟨operator, after, -⟩ := s.field?_document spans
  have isObject := s.isObject_document spans
  cases next with
  | none =>
    rw [linkDocument]
    by_cases hnext : key = "_next"
    · rw [if_pos hnext, hnext, after]
      rfl
    · by_cases hop : key = "set_op"
      · rw [if_neg hnext, if_pos hop, hop, operator]
        rfl
      · rw [if_neg hnext, if_neg hop]
  | some next =>
    rw [linkDocument, field?_set (isObject_set.2 isObject), field?_set isObject]
    rfl

/-- Setting a field that is `null`, or leaving it so. -/
theorem Document.field?_elim_set {d : Document} {key : String} (h : d.field? key = some null)
    (value : Option Document) (k : String) :
    (value.elim d (d.set key)).field? k =
      if k = key then some (value.getD null) else d.field? k := by
  cases value with
  | none =>
    by_cases hk : k = key
    · rw [if_pos hk, hk]
      exact h
    · rw [if_neg hk]
      rfl
  | some v => exact field?_set (isObject_of_field? h) key k v

theorem Document.field?_spanned_eq {d : Document} (h : d.IsObject) (spans : Bool) (s : Span)
    (k : String) : (d.spanned spans s).field? k =
      if spans ∧ k = "span" then some s.document else d.field? k := by
  cases spans with
  | false => simp
  | true =>
    rw [spanned_true, field?_set h]
    simp

/-- The first selection of a query, linked to the next one, with what belongs to the whole. -/
theorem Query.document_eq_set (q : Query) (spans : Bool) :
    let head := linkDocument (QueryBody.chain spans q.body.tail) (q.body.leftmost.document spans)
    let ordered := (q.orderBy.map (OrderBy.optionalDocument spans ∘ some)).elim head
      (head.set "orderby")
    q.document spans = ((q.limit.map (Limit.optionalDocument spans ∘ some)).elim ordered
      (ordered.set "limit")).spanned spans q.span := by
  obtain ⟨span, body, orderBy, limit⟩ := q
  have linked := body.document_chain spans []
  rw [List.append_nil, QueryBody.chain] at linked
  rcases orderBy with _ | ⟨_, _⟩ <;> rcases limit with _ | ⟨_, _, _⟩ <;>
    simp only [document, linked, OrderItem.documents_eq] <;> rfl

/-- What belongs to the whole is set in the first selection, and nothing else is. -/
theorem Query.field?_document (q : Query) (spans : Bool) (key : String) :
    (q.document spans).field? key =
      if spans ∧ key = "span" then some q.span.document
      else if key = "limit" then some (Limit.optionalDocument spans q.limit)
      else if key = "orderby" then some (OrderBy.optionalDocument spans q.orderBy)
      else (linkDocument (QueryBody.chain spans q.body.tail)
        (q.body.leftmost.document spans)).field? key := by
  obtain ⟨-, -, order, limit, -⟩ := q.body.leftmost.field?_document spans
  have link := q.body.leftmost.field?_link spans (QueryBody.chain spans q.body.tail)
  have ordered := field?_elim_set ((link "orderby").trans order)
    (q.orderBy.map (OrderBy.optionalDocument spans ∘ some))
  have limited := field?_elim_set ((ordered "limit").trans ((link "limit").trans limit))
    (q.limit.map (Limit.optionalDocument spans ∘ some))
  have isObject := isObject_of_field? (limited "limit")
  rw [document_eq_set, field?_spanned_eq isObject, limited, ordered]
  cases q.orderBy <;> cases q.limit <;> rfl

/-! ### Links -/

/-- The name of a set operator in a document, `ALL` included. -/
def operatorName (o : SetOperator × Bool) : String :=
  Unicode.lowerCase o.1.keyword.text ++ if o.2 then " all" else ""

theorem setOperatorName_eq (op : SetOperator) (all : Bool) :
    setOperatorName op all = operatorName (op, all) := by
  cases op <;> cases all <;> decide +kernel

/-- Whether a document is that of the selection `s`, but that it has the span, the order and
the limit that are given, and is linked by `operator` to `next`. -/
structure Document.Shows (d : Document) (spans : Bool) (s : Select) (span : Span)
    (order limit : Document) (operator : Option String) (next : Option Document) : Prop where
  selection : ∀ key ∉ ["set_op", "_next", "orderby", "limit", "span"],
    d.field? key = (s.document spans).field? key
  operator : d.field? "set_op" = operator.map string
  next : d.field? "_next" = next
  order : d.field? "orderby" = some order
  limit : d.field? "limit" = some limit
  span : d.field? "span" = if spans then some span.document else none

theorem Select.shows_link (s : Select) (spans : Bool) (next : Option (String × Document)) :
    (linkDocument next (s.document spans)).Shows spans s s.span null null (next.map (·.1))
      (next.map (·.2)) := by
  obtain ⟨-, -, order, limit, span⟩ := s.field?_document spans
  have link := s.field?_link spans next
  refine ⟨fun key hkey => ?_, ?_, link "_next", (link _).trans order, (link _).trans limit,
    (link _).trans span⟩
  · simp only [List.mem_cons, List.not_mem_nil, or_false, not_or] at hkey
    rw [link, if_neg hkey.2.1, if_neg hkey.1]
  · rw [Option.map_map]
    exact link "set_op"

theorem Query.shows_document (q : Query) (spans : Bool) :
    (q.document spans).Shows spans q.body.leftmost q.span
      (OrderBy.optionalDocument spans q.orderBy) (Limit.optionalDocument spans q.limit)
      ((QueryBody.chain spans q.body.tail).map (·.1))
      ((QueryBody.chain spans q.body.tail).map (·.2)) := by
  obtain ⟨selection, operator, next, -, -, span⟩ :=
    q.body.leftmost.shows_link spans (QueryBody.chain spans q.body.tail)
  have field := q.field?_document spans
  refine ⟨fun key hkey => ?_, ?_, ?_, ?_, ?_, ?_⟩
  · rw [field, ← selection key hkey]
    simp only [List.mem_cons, List.not_mem_nil, or_false, not_or] at hkey
    rw [if_neg fun h => hkey.2.2.2.2 h.2, if_neg hkey.2.2.2.1, if_neg hkey.2.2.1]
  · simpa [field] using operator
  · simpa [field] using next
  · simp [field]
  · simp [field]
  · cases spans
    · simpa [field] using span
    · simp [field]

theorem QueryBody.chain_cons (spans : Bool) (o : SetOperator × Bool) (s : Select)
    (l : List ((SetOperator × Bool) × Select)) : chain spans ((o, s) :: l) =
      some (operatorName o, linkDocument (chain spans l) (s.document spans)) := by
  rw [chain, setOperatorName_eq]

theorem QueryBody.operator_chain (spans : Bool) (l : List ((SetOperator × Bool) × Select)) :
    (chain spans l).map (·.1) = l.head?.map fun o => operatorName o.1 := by
  cases l with
  | nil => rfl
  | cons o l => rw [chain_cons]; rfl

/-- What is linked behind a selection. -/
def QueryBody.linksBehind (spans : Bool) (l : List ((SetOperator × Bool) × Select)) :
    List Document :=
  ((chain spans l).map (·.2)).elim [] links

theorem QueryBody.linksBehind_cons (spans : Bool) (o : SetOperator × Bool) (s : Select)
    (l : List ((SetOperator × Bool) × Select)) : linksBehind spans ((o, s) :: l) =
      linkDocument (chain spans l) (s.document spans) :: linksBehind spans l := by
  rw [linksBehind, chain_cons, Option.map_some, Option.elim_some, links_eq_cons,
    (s.shows_link spans _).next, linksBehind]

theorem QueryBody.head?_linksBehind (spans : Bool) (l : List ((SetOperator × Bool) × Select)) :
    (linksBehind spans l).head? = (chain spans l).map (·.2) := by
  cases l with
  | nil => rfl
  | cons o l =>
    rw [linksBehind_cons, chain_cons]
    rfl

/-- By following the links of a chain one comes to its selections, in their order. -/
theorem QueryBody.shows_linksBehind (spans : Bool) (l : List ((SetOperator × Bool) × Select)) :
    (linksBehind spans l).length = l.length ∧
      ∀ (i : Nat) (o : (SetOperator × Bool) × Select), l[i]? = some o →
        ∃ d, (linksBehind spans l)[i]? = some d ∧ d.Shows spans o.2 o.2.span null null
          (l[i + 1]?.map fun o => operatorName o.1) (linksBehind spans l)[i + 1]? := by
  induction l with
  | nil => exact ⟨rfl, nofun⟩
  | cons first l ih =>
    obtain ⟨length, inner⟩ := ih
    rw [linksBehind_cons]
    refine ⟨by rw [List.length_cons, length, List.length_cons], fun i o ho => ?_⟩
    cases i with
    | zero =>
      obtain rfl : first = o := Option.some.inj ho
      refine ⟨_, rfl, ?_⟩
      have shows := first.2.shows_link spans (chain spans l)
      rw [operator_chain, ← head?_linksBehind, List.head?_eq_getElem?,
        List.head?_eq_getElem?] at shows
      exact shows
    | succ i => exact inner i o ho

/-- In the document of a query the selections are linked in their order, each by the operator
behind it. Order and limit stand in the first one only. -/
theorem Query.links_document (q : Query) (spans : Bool) :
    ∃ rest, (q.document spans).links = q.document spans :: rest ∧
      rest.length = q.body.tail.length ∧
      (q.document spans).Shows spans q.body.leftmost q.span
        (OrderBy.optionalDocument spans q.orderBy) (Limit.optionalDocument spans q.limit)
        (q.body.tail[0]?.map fun o => operatorName o.1) rest[0]? ∧
      ∀ (i : Nat) (o : (SetOperator × Bool) × Select), q.body.tail[i]? = some o →
        ∃ d, rest[i]? = some d ∧ d.Shows spans o.2 o.2.span null null
          (q.body.tail[i + 1]?.map fun o => operatorName o.1) rest[i + 1]? := by
  have head := q.shows_document spans
  obtain ⟨length, inner⟩ := QueryBody.shows_linksBehind spans q.body.tail
  refine ⟨QueryBody.linksBehind spans q.body.tail, ?_, length, ?_, inner⟩
  · rw [links_eq_cons, head.next]
    rfl
  · rwa [QueryBody.operator_chain, ← QueryBody.head?_linksBehind, List.head?_eq_getElem?,
      List.head?_eq_getElem?] at head

/-! ## From the source to the document -/

/-- A query that is parsed is a selection, and operators and selections in turn behind it.
The documents that are linked in its document are those of the selections, in the order of
the source: each names the operator behind its selection and holds the next document, and
the first one has the order and the limit of the whole, where the others have none. -/
theorem parseStatement_links {limits : Limits} {sql : String} {s : Statement}
    (h : parseStatement limits sql = .ok s) {q : Query} (within : (Part.query q).Within s.part)
    (spans : Bool) :
    (∃ ts, ts <:+: (TokenStream.ofString sql).tokens ∧ Grammar.Covers ts q.span ∧
      Grammar.IsCombination ts q) ∧
    ∃ rest, (q.document spans).links = q.document spans :: rest ∧
      rest.length = q.body.tail.length ∧
      (q.document spans).Shows spans q.body.leftmost q.span
        (OrderBy.optionalDocument spans q.orderBy) (Limit.optionalDocument spans q.limit)
        (q.body.tail[0]?.map fun o => operatorName o.1) rest[0]? ∧
      ∀ (i : Nat) (o : (SetOperator × Bool) × Select), q.body.tail[i]? = some o →
        ∃ d, rest[i]? = some d ∧ d.Shows spans o.2 o.2.span null null
          (q.body.tail[i + 1]?.map fun o => operatorName o.1) rest[i + 1]? := by
  refine ⟨?_, q.links_document spans⟩
  obtain ⟨ts, us, last, stream, statement, -⟩ := parseStatement_sound h
  have inner : ∀ t ∈ ts, t.isEnd = false := fun t ht =>
    (TokenStream.isEnd_of_eq stream).1 t (List.mem_append_left _ ht)
  have ordered : Ordered ts := by
    rw [List.append_assoc] at stream
    exact TokenStream.ordered_of_readFrom stream inner
  obtain ⟨vs, ⟨front, behind, rfl⟩, laid⟩ :=
    (statement.laid (Grammar.phrases_lay _) ordered).within within
  obtain ⟨depth, reading⟩ := laid.reading
  refine ⟨vs, ?_, laid.covers, Grammar.combination_of_queries reading⟩
  rw [stream]
  exact ⟨front, behind ++ us ++ [last], by simp⟩

/-- The selection of a number of one digit, `SELECT` being at the offset `n`. -/
def Select.ofDigit (n : Nat) (digit : String) : Select :=
  ⟨⟨n, n + 8⟩, false, [.expr ⟨n + 7, n + 8⟩ ⟨⟨n + 7, n + 8⟩, .literal (.number digit)⟩ none],
    none, none, none, none⟩

/-- Three selections, with a limit that is that of the whole. -/
theorem links_of_three_selections : ∃ q : Query,
    parseStatement ⟨100, 10⟩ "SELECT 1 UNION ALL SELECT 2 EXCEPT SELECT 3 LIMIT 4" =
      .ok (.query q) ∧
    (q.document false).links.map (·.field? "set_op") =
      [some (string "union all"), some (string "except"), none] := by
  let first : QueryBody := .setOperation ⟨0, 27⟩ (.select (.ofDigit 0 "1")) .union true
    (.ofDigit 19 "2")
  let q : Query := ⟨⟨0, 51⟩, .setOperation ⟨0, 43⟩ first .except false (.ofDigit 35 "3"), none,
    some ⟨⟨44, 51⟩, ⟨⟨50, 51⟩, .literal (.number "4")⟩, none⟩⟩
  have parsed : parseStatement ⟨100, 10⟩ "SELECT 1 UNION ALL SELECT 2 EXCEPT SELECT 3 LIMIT 4" =
      .ok (.query q) := by decide +kernel
  obtain ⟨-, rest, links, length, head, inner⟩ := parseStatement_links parsed (.refl _) false
  have tail : q.body.tail =
      [((.union, true), .ofDigit 19 "2"), ((.except, false), .ofDigit 35 "3")] := rfl
  rw [tail] at length head inner
  obtain ⟨d, d', rfl⟩ := List.length_eq_two.1 length
  obtain ⟨_, ⟨⟩, second⟩ := inner 0 _ rfl
  obtain ⟨_, ⟨⟩, third⟩ := inner 1 _ rfl
  have names : operatorName (.union, true) = "union all" ∧
      operatorName (.except, false) = "except" := by decide +kernel
  refine ⟨q, parsed, ?_⟩
  rw [links, List.map_cons, List.map_cons, List.map_singleton, head.operator, second.operator,
    third.operator]
  simp [names]

end SqlSyntax
