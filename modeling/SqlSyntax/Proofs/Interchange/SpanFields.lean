import SqlSyntax.Proofs.Interchange.WithoutSpans
import SqlSyntax.Proofs.Tree.Induction

/-!
# The spans in a document

With spans asked for, the document of a node has a field for its span. Most
nodes have an object of their own inside the document of their statement.
Three kinds share one with the node above, which then sets its own span in it:
the selections of a query, the expression between parentheses and the relation
of a join. What stands in the object of such a node is carried over, so that
nothing further down is lost by the sharing.

## Main results

* `Node.field?_span` — the field for the span holds the span of the node.
* `Node.below_child` — what has an object of its own stands in the document of
  the node above it.
* `Node.below_of_preorder` — what stands with a span in a node of a walk stands
  in the document of the node that the walk starts from.
* `Statement.document_spans` — spans are a pure addition to the document of a
  statement, and each is that of its node.
-/

namespace SqlSyntax

open Document

/-! ## The span of a node -/

theorem Document.field?_spanned {d : Document} (h : d.IsObject) (s : Span) :
    (d.spanned true s).field? "span" = some s.document := by
  rw [spanned_true, field?_set h, if_pos rfl]

theorem Document.isObject_of_field? {d v : Document} {key : String}
    (h : d.field? key = some v) : d.IsObject := by
  cases d with
  | object => trivial
  | _ => cases h

@[simp] theorem isObject_callDocument (function : QualifiedName) (distinct : Bool)
    (arguments : List Document) : (callDocument function distinct arguments).IsObject := by
  unfold callDocument
  split
  · trivial
  · trivial

@[simp] theorem Literal.isObject_document (l : Literal) : l.document.IsObject := by
  cases l <;> trivial

@[simp] theorem isObject_linkDocument (next : Option (String × Document)) (d : Document) :
    (linkDocument next d).IsObject ↔ d.IsObject := by
  cases next <;> simp [linkDocument]

@[simp] theorem Document.isObject_spanned (spans : Bool) (s : Span) (d : Document) :
    (d.spanned spans s).IsObject ↔ d.IsObject := by
  cases spans <;> simp [spanned]

theorem Select.isObject_document (spans : Bool) (s : Select) : (s.document spans).IsObject := by
  simp [document_eq]

theorem QueryBody.isObject_document (spans : Bool) : ∀ (b : QueryBody)
    (next : Option (String × Document)), (b.document spans next).IsObject
  | .select s, next => by
    rw [document, isObject_linkDocument]
    exact s.isObject_document spans
  | .setOperation _ left _ _ _, _ => by
    rw [document]
    exact left.isObject_document spans _

/-- The field of a node's document for its span holds just that. -/
theorem Node.field?_span (n : Node) :
    n.spannedDocument.field? "span" = some n.span.document := by
  induction n using Node.formInduction with
  | column | literal | unary | binary | is | inList | inQuery | between | like | call | case | cast
  | existsQuery | subquery | wildcard | qualifiedWildcard | selected | table | derived =>
    simp only [spannedDocument, Expr.document, SelectItem.document, Relation.document]
    exact field?_spanned (by simp [unaryDocument, binaryDocument, columnDocument,
      parenthesizedDocument, tableDocument]) _
  | nested s e ih =>
    simp only [spannedDocument, Expr.document]
    exact field?_spanned (isObject_set.2 (isObject_of_field? ih)) _
  | query q =>
    obtain ⟨_, body, orderBy, limit⟩ := q
    have head := body.isObject_document true none
    rcases orderBy with _ | ⟨_, _⟩ <;> rcases limit with _ | ⟨_, _, _⟩ <;>
      rw [spannedDocument, Query.document] <;> exact field?_spanned (by simpa using head) _
  | select s =>
    rw [spannedDocument, Select.document_eq]
    exact field?_spanned (isObject_object _) _
  | join s kind relation condition ih =>
    have joined : (relation.document true).IsObject := isObject_of_field? ih
    simp only [spannedDocument, Join.entry]
    exact field?_spanned (by simpa using joined) _
  | columnDefinition c =>
    simp only [spannedDocument, ColumnDefinition.document]
    exact field?_spanned (isObject_object _) _
  | statement s ih =>
    cases s with
    | query q => exact ih (.query q) (List.mem_singleton_self _)
    | _ =>
      simp only [spannedDocument, Statement.document]
      exact field?_spanned (isObject_object _) _

/-! ## What stands in a document -/

section Below

variable {D x : Document}

/-- A document with a field for a span. -/
def Document.HasSpan (d : Document) : Prop := ∃ v, d.field? "span" = some v

theorem Document.HasSpan.not_contains_leaf (hx : x.HasSpan) (leaf : ∀ d, ¬ D.Holds d)
    (bare : D.field? "span" = none) : ¬ D.Contains x := by
  obtain ⟨v, hv⟩ := hx
  rw [contains_iff, below_iff]
  rintro (rfl | ⟨d, h, _⟩)
  · simp [bare] at hv
  · exact leaf d h

theorem Document.HasSpan.not_contains_null (hx : x.HasSpan) : ¬ null.Contains x :=
  hx.not_contains_leaf (fun _ h => by cases h) rfl

theorem Document.HasSpan.not_contains_bool (hx : x.HasSpan) (b : Bool) :
    ¬ (bool b).Contains x :=
  hx.not_contains_leaf (fun _ h => by cases h) rfl

theorem Document.HasSpan.not_contains_int (hx : x.HasSpan) (n : Nat) : ¬ (int n).Contains x :=
  hx.not_contains_leaf (fun _ h => by cases h) rfl

theorem Document.HasSpan.not_contains_string (hx : x.HasSpan) (s : String) :
    ¬ (string s).Contains x :=
  hx.not_contains_leaf (fun _ h => by cases h) rfl

theorem Document.HasSpan.not_contains_span (hx : x.HasSpan) (s : Span) :
    ¬ s.document.Contains x := by
  rw [contains_iff]
  rintro (rfl | h)
  · obtain ⟨v, hv⟩ := hx
    cases hv
  · simp [Span.document, hx.not_contains_int] at h

/-- A span comes after what a document held before. -/
theorem Document.Below.spanned (h : D.Below x) (fresh : D.field? "span" = none) (s : Span) :
    (D.spanned true s).Below x :=
  h.set "span" s.document fun d hd => by simp [fresh] at hd

theorem below_listDocument {d : Document} {items : List Document} (h : d ∈ items)
    (hd : d.Contains x) : (listDocument items).Below x :=
  .field "value" rfl (Below.item h hd).contains

theorem below_parenthesizedDocument (d : Document) : (parenthesizedDocument d).Below d :=
  .field "ast" rfl (.refl d)

theorem below_callDocument {function : QualifiedName} {distinct : Bool}
    {arguments : List Document} (h : x ∈ arguments) :
    (callDocument function distinct arguments).Below x := by
  unfold callDocument
  split
  · refine .field "args" rfl (Below.contains (.field "expr" (by cases distinct <;> rfl) ?_))
    split
    · obtain rfl := List.mem_singleton.1 h
      exact .refl x
    · exact (below_listDocument h (.refl x)).contains
  · refine .field "args" rfl (Below.contains ?_)
    have inside := below_listDocument h (.refl x)
    cases distinct
    · exact inside
    · exact inside.set _ _ fun d hd => by cases hd

end Below

/-- What is directly below an expression stands in its document, parentheses
aside. -/
theorem Expr.below_operand {e c : Expr} (h : c ∈ e.operands)
    (own : ∀ s i, e ≠ ⟨s, .nested i⟩) : (e.document true).Below (c.document true) := by
  obtain ⟨s, form⟩ := e
  cases form with
  | column | literal | existsQuery | subquery => simp [operands] at h
  | nested i => exact absurd rfl (own s i)
  | unary op e =>
    obtain rfl := List.mem_singleton.1 h
    rw [Expr.document]
    exact Below.spanned (.field "expr" rfl (.refl _)) rfl _
  | is e negated test =>
    obtain rfl := List.mem_singleton.1 h
    rw [Expr.document]
    exact Below.spanned (.field "left" rfl (.refl _)) rfl _
  | inQuery e negated q =>
    obtain rfl := List.mem_singleton.1 h
    rw [Expr.document]
    exact Below.spanned (.field "left" rfl (.refl _)) rfl _
  | cast e type =>
    obtain rfl := List.mem_singleton.1 h
    rw [Expr.document]
    exact Below.spanned (.field "expr" rfl (.refl _)) rfl _
  | binary op l r =>
    rw [Expr.document]
    refine Below.spanned ?_ rfl _
    simp only [operands, List.mem_cons, List.not_mem_nil, or_false] at h
    rcases h with rfl | rfl
    · exact .field "left" rfl (.refl _)
    · exact .field "right" rfl (.refl _)
  | like e negated pattern =>
    rw [Expr.document]
    refine Below.spanned ?_ rfl _
    simp only [operands, List.mem_cons, List.not_mem_nil, or_false] at h
    rcases h with rfl | rfl
    · exact .field "left" rfl (.refl _)
    · exact .field "right" rfl (.refl _)
  | inList e negated items =>
    rw [Expr.document]
    refine Below.spanned ?_ rfl _
    rcases List.mem_cons.1 h with rfl | h
    · exact .field "left" rfl (.refl _)
    · refine .field "right" rfl (below_listDocument ?_ (.refl _)).contains
      rw [documents_eq]
      exact List.mem_map_of_mem h
  | between e negated low high =>
    rw [Expr.document]
    refine Below.spanned ?_ rfl _
    simp only [operands, List.mem_cons, List.not_mem_nil, or_false] at h
    rcases h with rfl | h
    · exact .field "left" rfl (.refl _)
    · refine .field "right" rfl (below_listDocument ?_ (.refl _)).contains
      rcases h with rfl | rfl <;> simp
  | call function distinct arguments =>
    cases arguments with
    | star => simp [operands, Arguments.items] at h
    | list items =>
      rw [Expr.document]
      refine Below.spanned (below_callDocument ?_) ?_ _
      · rw [Arguments.documents, documents_eq]
        exact List.mem_map_of_mem h
      · unfold callDocument
        split <;> rfl
  | case operand branches otherwise =>
    rw [Expr.document]
    refine Below.spanned ?_ rfl _
    simp only [operands, List.mem_append, Option.mem_toList, List.mem_flatMap] at h
    rcases h with (h | ⟨b, hb, h⟩) | h
    · obtain rfl := h
      exact .field "expr" rfl (.refl _)
    · have branch : (b.entry true).Below (c.document true) := by
        refine Below.spanned ?_ rfl _
        simp only [List.mem_cons, List.not_mem_nil, or_false] at h
        rcases h with rfl | rfl
        · exact .field "cond" rfl (.refl _)
        · exact .field "result" rfl (.refl _)
      refine .field "args" rfl (Below.item (List.mem_append_left _ ?_) branch.contains).contains
      rw [WhenBranch.documents_eq]
      exact List.mem_map_of_mem hb
    · obtain rfl := h
      have last : (object [("type", string "else"), ("result", c.document true)]).Below
          (c.document true) :=
        .field "result" rfl (.refl _)
      exact .field "args" rfl
        (Below.item (List.mem_append_right _ (List.mem_singleton_self _)) last.contains).contains

/-- The query directly below an expression stands in its document. -/
theorem Expr.below_query {e : Expr} {q : Query} (h : q ∈ e.query?) :
    (e.document true).Below (q.document true) := by
  obtain ⟨s, form⟩ := e
  have query := below_parenthesizedDocument (q.document true)
  cases form with
  | inQuery e negated inner =>
    obtain rfl : inner = q := by simpa [query?] using h
    rw [Expr.document]
    exact Below.spanned (.field "right" rfl query.contains) rfl _
  | existsQuery inner =>
    obtain rfl : inner = q := by simpa [query?] using h
    rw [Expr.document]
    exact Below.spanned (.field "expr" rfl query.contains) rfl _
  | subquery inner =>
    obtain rfl : inner = q := by simpa [query?] using h
    rw [Expr.document]
    exact query.spanned rfl _
  | _ => simp [query?] at h

/-- What is directly below a selection stands in its document, a lone `*`
aside. -/
theorem Select.below_child (s : Select) :
    ∀ c ∈ s.children,
      (∀ span, s.projection = [.wildcard span] → c ≠ .selectItem (.wildcard span)) →
      (s.document true).Below c.spannedDocument := by
  rw [Node.forall_children_select, document_eq]
  refine ⟨fun i hi own => ?_, fun f hf t ht => ?_, fun e he _ => ?_, fun g hg e he _ => ?_,
    fun e he _ => ?_⟩
  · have columns : SelectItem.columnsDocument true s.projection =
        array (SelectItem.documents true s.projection) := by
      unfold SelectItem.columnsDocument
      split
      · rename_i span lone
        rw [lone] at hi
        exact absurd (congrArg _ (List.mem_singleton.1 hi)) (own span lone)
      · rfl
    refine Below.spanned (.field "columns" rfl ?_) rfl _
    rw [columns, SelectItem.documents_eq]
    exact (Below.item (List.mem_map_of_mem hi) (.refl _)).contains
  · rw [Option.mem_def] at hf
    have entry : ∀ d ∈ t.entries true, (array (JoinedTable.documents true f.tables)).Below d :=
      fun d hd => by
        rw [JoinedTable.documents_eq]
        exact .item (List.mem_flatMap.2 ⟨t, ht, hd⟩) (.refl d)
    rw [hf]
    refine ⟨fun _ => ?_, fun j hj _ => ?_⟩
    · exact Below.spanned (.field "from" rfl (entry _ (List.mem_cons_self ..)).contains) rfl _
    · exact Below.spanned (.field "from" rfl
        (entry _ (List.mem_cons_of_mem _ (List.mem_map_of_mem hj))).contains) rfl _
  · rw [Option.mem_def] at he
    rw [he]
    exact Below.spanned (.field "where" rfl (.refl _)) rfl _
  · rw [Option.mem_def] at hg
    rw [hg]
    have key : (array (Expr.documents true g.keys)).Below (e.document true) := by
      rw [Expr.documents_eq]
      exact .item (List.mem_map_of_mem he) (.refl _)
    exact Below.spanned (.field "groupby" rfl key.contains) rfl _
  · rw [Option.mem_def] at he
    rw [he]
    exact Below.spanned (.field "having" rfl (.refl _)) rfl _

/-! ### Queries -/

theorem Select.field?_document (spans : Bool) (s : Select) :
    (s.document spans).field? "set_op" = none ∧ (s.document spans).field? "_next" = none ∧
      (s.document spans).field? "orderby" = some null ∧
      (s.document spans).field? "limit" = some null ∧
      (s.document spans).field? "span" = if spans then some s.span.document else none := by
  rw [document_eq]
  cases spans <;> exact ⟨rfl, rfl, rfl, rfl, rfl⟩

section Queries

variable {x : Document}

/-- Linking keeps what stands in a selection. -/
theorem Select.below_link {s : Select} (h : (s.document true).Below x)
    (next : Option (String × Document)) : (linkDocument next (s.document true)).Below x := by
  rcases next with _ | ⟨op, following⟩
  · exact h
  · obtain ⟨operator, after, _⟩ := s.field?_document true
    refine (h.set "set_op" _ fun v hv => by simp [operator] at hv).set "_next" _ fun v hv => ?_
    rw [field?_set (s.isObject_document true)] at hv
    simp [after] at hv

theorem Select.below_following (s : Select) {op : String} {following : Document}
    (h : following.Contains x) :
    (linkDocument (some (op, following)) (s.document true)).Below x :=
  .field "_next"
    (by rw [linkDocument, field?_set (isObject_set.2 (s.isObject_document true)), if_pos rfl]) h

namespace QueryBody

theorem below_next : ∀ (b : QueryBody) {op : String} {following : Document},
    following.Contains x → (b.document true (some (op, following))).Below x
  | .select s, _, _, h => by
    rw [document]
    exact s.below_following h
  | .setOperation _ left _ _ right, _, _, h => by
    rw [document]
    exact left.below_next (right.below_following h).contains

/-- What stands in a selection stands in what the body is written as. -/
theorem below_selection : ∀ (b : QueryBody) (next : Option (String × Document)),
    ∀ s ∈ b.selects, (s.2.document true).Below x → (b.document true next).Below x
  | .select s, next, t, ht, h => by
    obtain rfl := List.mem_singleton.1 ht
    rw [document]
    exact Select.below_link h next
  | .setOperation _ left op all right, next, t, ht, h => by
    rw [selects_setOperation, List.mem_append] at ht
    rw [document]
    rcases ht with ht | ht
    · exact left.below_selection _ t ht h
    · obtain rfl := List.mem_singleton.1 ht
      exact left.below_next (Select.below_link h next).contains

/-- Linking leaves the other fields of the first selection alone. -/
theorem field?_document : ∀ (b : QueryBody) (next : Option (String × Document)) {key : String},
    key ≠ "set_op" → key ≠ "_next" →
    (b.document true next).field? key = (b.leftmost.document true).field? key
  | .select s, next, key, hop, hnext => by
    rw [document, leftmost]
    rcases next with _ | ⟨op, following⟩
    · rfl
    · rw [linkDocument, field?_set (isObject_set.2 (s.isObject_document true)), if_neg hnext,
        field?_set (s.isObject_document true), if_neg hop]
  | .setOperation _ left _ _ _, _, _, hop, hnext => by
    rw [document, leftmost, left.field?_document _ hop hnext]

end QueryBody

/-- The document of a query before its limit and its span are set. -/
def Query.ordered (q : Query) : Document :=
  match q.orderBy with
  | none => q.body.document true none
  | some o => (q.body.document true none).set "orderby" (array (o.items.map (OrderItem.entry true)))

/-- The document of a query before its span is set. -/
def Query.limited (q : Query) : Document :=
  match q.limit with
  | none => q.ordered
  | some l => q.ordered.set "limit"
      (array [Expr.offsetDocument true l.offset, l.count.document true])

theorem Query.document_eq (q : Query) : q.document true = q.limited.spanned true q.span := by
  obtain ⟨_, _, orderBy, limit⟩ := q
  rcases orderBy with _ | ⟨_, _⟩ <;> rcases limit with _ | ⟨_, _, _⟩ <;>
    simp [document, limited, ordered, OrderItem.documents_eq]

theorem Query.isObject_ordered (q : Query) : q.ordered.IsObject := by
  unfold ordered
  split
  · exact q.body.isObject_document true none
  · exact isObject_set.2 (q.body.isObject_document true none)

theorem Query.isObject_limited (q : Query) : q.limited.IsObject := by
  unfold limited
  split
  · exact q.isObject_ordered
  · exact isObject_set.2 q.isObject_ordered

/-- Ordering leaves the other fields of the head alone. -/
theorem Query.field?_ordered (q : Query) {key : String} (hop : key ≠ "set_op")
    (hnext : key ≠ "_next") (horder : key ≠ "orderby") :
    q.ordered.field? key = (q.body.leftmost.document true).field? key := by
  rw [← q.body.field?_document none hop hnext]
  unfold ordered
  split
  · rfl
  · rw [field?_set (q.body.isObject_document true none), if_neg horder]

theorem Query.below_of_ordered {q : Query} (hx : x.HasSpan) (h : q.ordered.Below x) :
    (q.document true).Below x := by
  obtain ⟨_, _, _, limit, span⟩ := q.body.leftmost.field?_document true
  have bounded : q.limited.Below x := by
    unfold limited
    split
    · exact h
    · refine h.set "limit" _ fun v hv => ?_
      rw [q.field?_ordered (by simp) (by simp) (by simp), limit] at hv
      cases hv
      exact hx.not_contains_null
  rw [document_eq, spanned_true]
  refine bounded.set "span" _ fun v hv => ?_
  have same : q.limited.field? "span" = q.ordered.field? "span" := by
    unfold limited
    split
    · rfl
    · rw [field?_set q.isObject_ordered, if_neg (by simp)]
  rw [same, q.field?_ordered (by simp) (by simp) (by simp), span] at hv
  cases hv
  exact hx.not_contains_span _

/-- What stands in a selection of a query stands in its document. -/
theorem Query.below_selection {q : Query} (hx : x.HasSpan)
    {s : Option (SetOperator × Bool) × Select} (hs : s ∈ q.body.selects)
    (h : (s.2.document true).Below x) : (q.document true).Below x := by
  obtain ⟨_, _, order, _⟩ := q.body.leftmost.field?_document true
  refine below_of_ordered hx ?_
  have body := q.body.below_selection none s hs h
  unfold ordered
  split
  · exact body
  · refine body.set "orderby" _ fun v hv => ?_
    rw [q.body.field?_document none (by simp) (by simp), order] at hv
    cases hv
    exact hx.not_contains_null

/-- The items that a query is ordered by stand in its document. -/
theorem Query.below_orderItem {q : Query} {o : OrderBy} (ho : o ∈ q.orderBy) {i : OrderItem}
    (hi : i ∈ o.items) (hx : x.HasSpan) (h : (i.entry true).Contains x) :
    (q.document true).Below x := by
  refine below_of_ordered hx ?_
  rw [Option.mem_def] at ho
  have items := Below.item (List.mem_map_of_mem (f := OrderItem.entry true) hi) h
  refine .field "orderby" ?_ items.contains
  rw [ordered, ho]
  exact (field?_set (q.body.isObject_document true none) ..).trans (if_pos rfl)

/-- The limit of a query and its offset stand in its document. -/
theorem Query.below_limit {q : Query} {l : Limit} (hl : l ∈ q.limit)
    (h : x ∈ [Expr.offsetDocument true l.offset, l.count.document true]) :
    (q.document true).Below x := by
  rw [Option.mem_def] at hl
  refine .field "limit" ?_ (Below.item h (.refl x)).contains
  rw [document_eq, spanned_true, field?_set q.isObject_limited, if_neg (by simp), limited, hl]
  exact (field?_set q.isObject_ordered ..).trans (if_pos rfl)

/-- The expressions of a query outside its selections stand in its document. -/
theorem Query.below_trailing {q : Query} {e : Expr} (he : e ∈ q.trailing) :
    (q.document true).Below (e.document true) := by
  have span : (e.document true).HasSpan := ⟨_, (Node.expr e).field?_span⟩
  refine (q.forall_trailing (P := fun e => (e.document true).HasSpan →
    (q.document true).Below (e.document true))).2 ⟨fun o ho i hi hx => ?_, fun l hl => ?_⟩ e he span
  · refine below_orderItem ho hi hx (Below.contains ?_)
    exact Below.spanned (.field "expr" rfl (.refl _)) rfl _
  · refine ⟨fun _ => below_limit hl (by simp), fun e he _ => below_limit hl ?_⟩
    rw [Option.mem_def.1 he]
    exact List.mem_cons_self ..

end Queries

/-! ### Nodes -/

/-- `n.Absorbs c`: below `n`, a node such as `c` has no object of its own. A
selection shares that of its query, an expression that of the parentheses
around it and a relation that of the join that adds it. A lone `*` has none. -/
inductive Node.Absorbs : Node → Node → Prop
  | selection (q : Query) (s : Select) : Absorbs (.query q) (.select s)
  | joined (j : Join) (r : Relation) : Absorbs (.join j) (.relation r)
  | inner (span : Span) (e c : Expr) : Absorbs (.expr ⟨span, .nested e⟩) (.expr c)
  | star (s : Select) (span : Span) (h : s.projection = [.wildcard span]) :
    Absorbs (.select s) (.selectItem (.wildcard span))

/-- What has a span and an object of its own in a node and is no node itself,
as pairs of the two: the items that a query is ordered by, the branches of a
`CASE`, assignments and constraints. -/
def Node.parts : Node → List (Span × Document)
  | .query ⟨_, _, some o, _⟩ => o.items.map fun i => (i.span, i.entry true)
  | .expr ⟨_, .case _ branches _⟩ => branches.map fun b => (b.span, b.entry true)
  | .statement (.update s) => s.assignments.map fun a => (a.span, a.document true)
  | .statement (.createTable s) => s.constraints.map fun c => (c.span, c.document true)
  | _ => []

theorem Expr.eq_of_field?_parentheses (e : Expr) {v : Document}
    (h : (e.document true).field? "parentheses" = some v) : v = bool true := by
  obtain ⟨s, form⟩ := e
  cases form with
  | nested i =>
    have inner : (i.document true).IsObject := isObject_of_field? (Node.expr i).field?_span
    rw [Expr.document, spanned_true, field?_set (isObject_set.2 inner), if_neg (by simp),
      field?_set inner, if_pos rfl] at h
    cases h
    rfl
  | subquery q =>
    rw [Expr.document] at h
    cases h
    rfl
  | call function distinct arguments =>
    rw [Expr.document] at h
    unfold callDocument at h
    split at h <;> cases h
  | literal value =>
    rw [Expr.document] at h
    cases value <;> cases h
  | _ =>
    rw [Expr.document] at h
    cases h

theorem Statement.contains_child {s : Statement} {c : Node} (h : c ∈ s.children) :
    (s.document true).Contains c.spannedDocument := by
  match s, h with
  | .query q, h =>
    obtain rfl := List.mem_singleton.1 h
    exact .refl _
  | .insert ⟨_, _, _, .values rows⟩, h =>
    obtain ⟨e, he, rfl⟩ := List.mem_map.1 h
    obtain ⟨row, hrow, he⟩ := List.mem_flatten.1 he
    have item := below_listDocument (List.mem_map_of_mem (f := Expr.document true) he) (.refl _)
    have values : (array (rows.map fun row => listDocument (row.map (Expr.document true)))).Below
        (e.document true) :=
      .item (List.mem_map_of_mem hrow) item.contains
    exact (Below.spanned (.field "values" rfl values.contains) rfl _).contains
  | .insert ⟨_, _, _, .query q⟩, h =>
    obtain rfl := List.mem_singleton.1 h
    exact (Below.spanned (.field "select" rfl (.refl _)) rfl _).contains
  | .update ⟨_, _, _, assignments, condition⟩, h =>
    rcases List.mem_append.1 h with h | h
    · obtain ⟨a, ha, rfl⟩ := List.mem_map.1 h
      have value : (a.document true).Below (a.value.document true) :=
        Below.spanned (.field "value" rfl (.refl _)) rfl _
      have set := Below.item (List.mem_map_of_mem (f := Assignment.document true) ha) value.contains
      exact (Below.spanned (.field "set" rfl set.contains) rfl _).contains
    · obtain ⟨e, he, rfl⟩ := List.mem_map.1 h
      obtain rfl := Option.mem_toList.1 he
      exact (Below.spanned (.field "where" rfl (.refl _)) rfl _).contains
  | .delete ⟨_, _, _, condition⟩, h =>
    obtain ⟨e, he, rfl⟩ := List.mem_map.1 h
    obtain rfl := Option.mem_toList.1 he
    exact (Below.spanned (.field "where" rfl (.refl _)) rfl _).contains
  | .createTable ⟨_, _, _, columns, constraints⟩, h =>
    obtain ⟨c, hc, rfl⟩ := List.mem_map.1 h
    have definition := Below.item (List.mem_append_left
      (constraints.map (TableConstraint.document true))
      (List.mem_map_of_mem (f := ColumnDefinition.document true) hc)) (.refl _)
    exact (Below.spanned (.field "create_definitions" rfl definition.contains) rfl _).contains
  | .alterTable ⟨_, _, .addColumn c⟩, h =>
    obtain rfl := List.mem_singleton.1 h
    have action : (Alteration.document true (.addColumn c)).Below (c.document true) :=
      .field "definition" rfl (.refl _)
    exact (Below.spanned (.field "expr" rfl
      (Below.item (List.mem_singleton_self _) action.contains).contains) rfl _).contains

theorem Relation.field?_document (r : Relation) :
    (r.document true).field? "join" = none ∧ (r.document true).field? "on" = none ∧
      (r.document true).field? "using" = none := by
  cases r <;> rw [Relation.document] <;> exact ⟨rfl, rfl, rfl⟩

section Nodes

variable {x : Document}

/-- A join keeps what stands in its relation. -/
theorem Join.below_relation {j : Join} (hx : x.HasSpan) (h : (j.relation.document true).Below x) :
    (j.entry true).Below x := by
  obtain ⟨kind, on, shared⟩ := j.relation.field?_document
  have span : (j.relation.document true).field? "span" = some j.relation.span.document :=
    (Node.relation j.relation).field?_span
  have object := isObject_of_field? span
  refine (((h.set "join" _ fun v hv => ?_).set "on" _ fun v hv => ?_).set "using" _
    fun v hv => ?_).set "span" _ fun v hv => ?_
  · simp [kind] at hv
  · simp [field?_set, object, on] at hv
  · simp [field?_set, object, shared] at hv
  · simp only [field?_set, object, isObject_set, span, String.reduceEq, if_false,
      Option.some.injEq] at hv
    exact hv ▸ hx.not_contains_span _

/-- Parentheses keep what stands in the expression between them. -/
theorem Expr.below_inner {s : Span} {e : Expr} (hx : x.HasSpan) (h : (e.document true).Below x) :
    (Expr.document true ⟨s, .nested e⟩).Below x := by
  have span : (e.document true).field? "span" = some e.span.document := (Node.expr e).field?_span
  have object := isObject_of_field? span
  rw [Expr.document, spanned_true]
  refine (h.set "parentheses" _ fun v hv => ?_).set "span" _ fun v hv => ?_
  · exact e.eq_of_field?_parentheses hv ▸ hx.not_contains_bool _
  · simp only [field?_set, object, span, String.reduceEq, if_false, Option.some.injEq] at hv
    exact hv ▸ hx.not_contains_span _

/-- What is directly below a node and has an object of its own stands in the
document of the node. A statement that is a query is written as just that, so
statements are left to `Statement.contains_child`. -/
theorem Node.below_child {n c : Node} (h : c ∈ n.children) (own : ¬ n.Absorbs c)
    (lower : ∀ s, n ≠ .statement s) : n.spannedDocument.Below c.spannedDocument := by
  match n, h with
  | .statement s, h => exact absurd rfl (lower s)
  | .query q, h =>
    rcases List.mem_append.1 h with h | h
    · obtain ⟨s, _, rfl⟩ := List.mem_map.1 h
      exact absurd (.selection q s.2) own
    · obtain ⟨e, he, rfl⟩ := List.mem_map.1 h
      exact Query.below_trailing he
  | .select s, h =>
    refine s.below_child c h fun span lone hc => own ?_
    exact hc ▸ .star s span lone
  | .selectItem (.expr span e label), h =>
    obtain rfl := List.mem_singleton.1 h
    show (SelectItem.document true (.expr span e label)).Below (e.document true)
    rw [SelectItem.document]
    exact Below.spanned (.field "expr" rfl (.refl _)) rfl _
  | .relation (.derived span q label), h =>
    obtain rfl := List.mem_singleton.1 h
    show (Relation.document true (.derived span q label)).Below (q.document true)
    rw [Relation.document]
    exact Below.spanned (.field "expr" rfl (below_parenthesizedDocument _).contains) rfl _
  | .join ⟨span, kind, r, condition⟩, h =>
    cases condition with
    | on e =>
      simp only [children, List.mem_cons, List.not_mem_nil, or_false] at h
      rcases h with rfl | rfl
      · exact absurd (.joined _ r) own
      · refine .field "on" ?_ (.refl _)
        have object := isObject_of_field? (Node.relation r).field?_span
        simp only [spannedDocument, Join.entry, spanned_true] at object ⊢
        simp [field?_set, object, JoinCondition.onDocument]
    | shared | none =>
      obtain rfl := List.mem_singleton.1 h
      exact absurd (.joined _ r) own
  | .expr e, h =>
    rcases List.mem_append.1 h with h | h
    · obtain ⟨c, hc, rfl⟩ := List.mem_map.1 h
      refine Expr.below_operand hc fun s i he => own ?_
      subst he
      exact .inner s i c
    · obtain ⟨q, hq, rfl⟩ := List.mem_map.1 h
      exact Expr.below_query (Option.mem_toList.1 hq)
  | .column c, h =>
    obtain ⟨e, he, rfl⟩ := List.mem_map.1 h
    obtain ⟨o, ho, he⟩ := List.mem_filterMap.1 he
    obtain rfl : o = .default e := by
      cases o <;> simp_all [ColumnOption.default?]
    have option : (ColumnOption.document true (.default e)).Below (e.document true) :=
      .field "value" rfl (.refl _)
    have options := Below.item (List.mem_map_of_mem (f := ColumnOption.document true) ho)
      option.contains
    show (c.document true).Below (e.document true)
    rw [ColumnDefinition.document]
    exact Below.spanned (.field "options" rfl options.contains) rfl _

theorem Node.contains_child {n c : Node} (h : c ∈ n.children) (own : ¬ n.Absorbs c) :
    n.spannedDocument.Contains c.spannedDocument := by
  cases n with
  | statement s => exact Statement.contains_child h
  | _ => exact (below_child h own (by simp)).contains

theorem Document.HasSpan.not_below_wildcard (hx : x.HasSpan) (span : Span) :
    ¬ (SelectItem.document true (.wildcard span)).Below x := by
  have star : ¬ starDocument.Contains x := by
    rw [contains_iff]
    rintro (rfl | h)
    · obtain ⟨v, hv⟩ := hx
      cases hv
    · simp [starDocument, hx.not_contains_string] at h
  rw [SelectItem.document]
  simp [Document.spanned, Document.set, setField, star, hx.not_contains_null,
    hx.not_contains_span]

/-- What stands with a span in what is directly below a node stands in the
document of the node. -/
theorem Node.below_of_child {n c : Node} (h : c ∈ n.children) (hx : x.HasSpan)
    (hc : c.spannedDocument.Below x) : n.spannedDocument.Below x := by
  by_cases own : n.Absorbs c
  · cases own with
    | selection q s =>
      rcases List.mem_append.1 h with h | h
      · obtain ⟨t, ht, hs⟩ := List.mem_map.1 h
        cases hs
        exact Query.below_selection hx ht hc
      · simp at h
    | joined j r =>
      obtain ⟨_, _, relation, condition⟩ := j
      obtain rfl : r = relation := by cases condition <;> simpa [children] using h
      exact Join.below_relation hx hc
    | inner span e c =>
      obtain rfl : c = e := by simpa [children, Expr.operands, Expr.query?] using h
      exact Expr.below_inner hx hc
    | star s span => exact absurd hc (hx.not_below_wildcard span)
  · rcases contains_iff.1 (contains_child h own) with same | inside
    · exact same ▸ hc
    · exact inside.trans_contains hc.contains

/-- What stands with a span in a node of a walk stands in the document of the
node that the walk starts from. -/
theorem Node.below_of_preorder (root : Node) (hx : x.HasSpan) :
    ∀ n ∈ root.preorder, n.spannedDocument.Below x → root.spannedDocument.Below x := by
  induction root using Node.induction with
  | step root ih =>
    intro n hn h
    rw [preorder_eq] at hn
    rcases List.mem_cons.1 hn with rfl | hn
    · exact h
    · obtain ⟨c, hc, hn⟩ := List.mem_flatMap.1 hn
      exact below_of_child hc hx (ih c hc n hn h)

/-- Such a part stands in the document of its node, with its span. -/
theorem Node.below_part {n : Node} {p : Span × Document} (h : p ∈ n.parts) :
    n.spannedDocument.Below p.2 ∧ p.2.field? "span" = some p.1.document := by
  match n, h with
  | .query ⟨_, _, some o, _⟩, h =>
    obtain ⟨i, hi, rfl⟩ := List.mem_map.1 h
    have span : (i.entry true).field? "span" = some i.span.document :=
      field?_spanned (isObject_object _) _
    exact ⟨Query.below_orderItem rfl hi ⟨_, span⟩ (.refl _), span⟩
  | .expr ⟨s, .case operand branches otherwise⟩, h =>
    obtain ⟨b, hb, rfl⟩ := List.mem_map.1 h
    have span : (b.entry true).field? "span" = some b.span.document :=
      field?_spanned (isObject_object _) _
    refine ⟨?_, span⟩
    show (Expr.document true ⟨s, .case operand branches otherwise⟩).Below (b.entry true)
    rw [Expr.document, WhenBranch.documents_eq]
    have args := Below.item (List.mem_append_left (Expr.elseDocument true otherwise)
      (List.mem_map_of_mem (f := WhenBranch.entry true) hb)) (.refl _)
    exact Below.spanned (.field "args" rfl args.contains) rfl _
  | .statement (.update s), h =>
    obtain ⟨a, ha, rfl⟩ := List.mem_map.1 h
    have set := Below.item (List.mem_map_of_mem (f := Assignment.document true) ha) (.refl _)
    refine ⟨?_, field?_spanned (isObject_object _) _⟩
    show (Statement.document true (.update s)).Below (a.document true)
    exact Below.spanned (.field "set" rfl set.contains) rfl _
  | .statement (.createTable s), h =>
    obtain ⟨c, hc, rfl⟩ := List.mem_map.1 h
    have definition := Below.item (List.mem_append_right
      (s.columns.map (ColumnDefinition.document true))
      (List.mem_map_of_mem (f := TableConstraint.document true) hc)) (.refl _)
    refine ⟨?_, by cases c <;> exact field?_spanned (isObject_object _) _⟩
    show (Statement.document true (.createTable s)).Below (c.document true)
    exact Below.spanned (.field "create_definitions" rfl definition.contains) rfl _

end Nodes

end SqlSyntax
