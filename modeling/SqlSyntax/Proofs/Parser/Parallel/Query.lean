import SqlSyntax.Proofs.Parser.Parallel.Expr

/-!
# Queries in parallel

## Main results

* `select_leads`, `setOperand_leads` — a selection and a set operator with its
  right side lead on.
* `queryTail_parallel` — the clauses at the end of a query.
-/

namespace SqlSyntax.Parser

variable {f : Relocation} {R : ParserRelation} (h : Comparison f R) {m : Stage}
  {sub sub' : Nested} (hsub : NestedParallel f R sub sub')

include h

/-! ## Selected items -/

theorem qualifiedWildcard_parallel :
    R .free (SelectItem.mapSpans f.span) qualifiedWildcard qualifiedWildcard :=
  h.bind nofun (qualifiedName_parallel h) fun _ =>
    h.bind nofun (punctuation_parallel h .dot) fun _ =>
    h.bind nofun (operator_parallel h .times) fun _ =>
    h.bind nofun (h.spanFrom rfl) fun _ => pure_parallel h rfl

include hsub

theorem selectItem_parallel :
    R .free (SelectItem.mapSpans f.span) (selectItem sub) (selectItem sub') := by
  refine h.bind nofun (operator?_parallel h .times) fun o => ?_
  cases o with
  | some _ => exact pure_parallel h rfl
  | none =>
    refine h.bind nofun (h.weaken _ h.atQualifiedWildcard) fun wildcard => ?_
    cases wildcard with
    | true => exact qualifiedWildcard_parallel h
    | false =>
      exact h.bind nofun hsub.wholeExpr fun e => h.bind nofun (alias?_parallel h) fun _ =>
        h.bind nofun (h.spanFrom (e.span_mapSpans f.span).symm) fun _ => pure_parallel h rfl

/-! ## Relations -/

theorem relation_parallel :
    R .free (Relation.mapSpans f.span) (relation sub) (relation sub') := by
  refine h.bind nofun (punctuation?_parallel h .openParen) fun o => ?_
  cases o with
  | some _ =>
    exact h.bind nofun hsub.query fun _ =>
      h.bind nofun (punctuation_parallel h .closeParen) fun _ =>
      h.bind nofun (alias?_parallel h) fun _ =>
      h.bind nofun (h.spanFrom rfl) fun _ => pure_parallel h rfl
  | none =>
    exact h.bind nofun (qualifiedName_parallel h) fun _ =>
      h.bind nofun (alias?_parallel h) fun _ =>
      h.bind nofun (h.spanFrom rfl) fun _ => pure_parallel h rfl

omit hsub in
theorem joinKind?_parallel : R .free id joinKind? joinKind? := by
  have outer (kind : JoinKind) : R .free id
      (do let _ ← next; let _ ← keyword? .OUTER; return some kind)
      (do let _ ← next; let _ ← keyword? .OUTER; return some kind) :=
    h.bind nofun (h.weaken _ h.next) fun _ => h.bind nofun (keyword?_parallel h .OUTER) fun _ =>
      pure_parallel h rfl
  refine h.bind nofun (peek_parallel h) fun t => ?_
  rw [f.kind_token]
  split
  · exact pure_parallel h rfl
  · exact h.bind nofun (h.weaken _ h.next) fun _ => pure_parallel h rfl
  · exact h.bind nofun (h.weaken _ h.next) fun _ => pure_parallel h rfl
  · exact outer .left
  · exact outer .right
  · exact outer .full
  · exact h.bind nofun (h.weaken _ (h.note _)) fun _ => pure_parallel h rfl

theorem joinCondition_parallel (kind : JoinKind) :
    R .free (JoinCondition.mapSpans f.span) (joinCondition sub kind) (joinCondition sub' kind) := by
  rw [joinCondition, joinCondition]
  split
  · exact pure_parallel h rfl
  · refine h.bind nofun (keyword?_parallel h .ON) fun o => ?_
    cases o with
    | some _ => exact h.bind nofun hsub.wholeExpr fun _ => pure_parallel h rfl
    | none =>
      refine h.bind nofun (keyword?_parallel h .USING) fun o => ?_
      cases o with
      | some _ => exact h.bind nofun (columnList_parallel h) fun _ => pure_parallel h rfl
      | none => exact pure_parallel h rfl

theorem join?_parallel : R .free (Option.map (Join.mapSpans f.span)) (join? sub) (join? sub') := by
  refine h.bind nofun (peek_parallel h) fun t => h.bind nofun (joinKind?_parallel h) fun o => ?_
  cases o with
  | none => exact pure_parallel h rfl
  | some kind =>
    exact h.bind nofun (keyword_parallel h .JOIN) fun _ =>
      h.bind nofun (relation_parallel h hsub) fun _ =>
      h.bind nofun (joinCondition_parallel h hsub kind) fun _ =>
      h.bind nofun (h.spanFrom (f.span_token t).symm) fun _ => pure_parallel h rfl

theorem joinedTable_parallel :
    R .free (JoinedTable.mapSpans f.span) (joinedTable sub) (joinedTable sub') := by
  refine h.bind nofun (relation_parallel h hsub) fun r => ?_
  refine h.bind (v := List.map (Join.mapSpans f.span)) nofun
    (hsub.collect h (fun joins => ?_) fun nested => (joinStep_progressive nested).advances)
      fun joins =>
    h.bind nofun (h.spanFrom (r.span_mapSpans f.span).symm) fun _ =>
      pure_parallel h (by simp [JoinedTable.mapSpans])
  refine h.bind nofun (join?_parallel h hsub) fun o => ?_
  cases o <;> exact pure_parallel h rfl

/-! ## Clauses -/

theorem fromClause?_parallel :
    R .free (Option.map (From.mapSpans f.span)) (fromClause? sub) (fromClause? sub') := by
  refine h.bind nofun (keyword?_parallel h .FROM) fun o => ?_
  cases o with
  | none => exact pure_parallel h rfl
  | some _ =>
    refine h.bind nofun (hsub.commaSeparated h (joinedTable_parallel h hsub) joinedTable_sound)
      fun _ => ?_
    exact h.bind nofun (h.spanFrom rfl) fun _ => pure_parallel h rfl

theorem conditionAfter?_parallel (k : Keyword) :
    R .free (Option.map (Expr.mapSpans f.span)) (conditionAfter? sub k)
      (conditionAfter? sub' k) := by
  refine h.bind nofun (keyword?_parallel h k) fun o => ?_
  cases o with
  | none => exact pure_parallel h rfl
  | some _ => exact h.bind nofun hsub.wholeExpr fun _ => pure_parallel h rfl

theorem groupBy?_parallel :
    R .free (Option.map (GroupBy.mapSpans f.span)) (groupBy? sub) (groupBy? sub') := by
  refine h.bind nofun (keyword?_parallel h .GROUP) fun o => ?_
  cases o with
  | none => exact pure_parallel h rfl
  | some _ =>
    exact h.bind nofun (keyword_parallel h .BY) fun _ =>
      h.bind nofun (hsub.commaSeparated h hsub.wholeExpr (·.wholeExpr)) fun _ =>
      h.bind nofun (h.spanFrom rfl) fun _ => pure_parallel h rfl

/-- A selection leads on. -/
theorem select_leads : Leads R .start (Select.mapSpans f.span) (select sub) (select sub') := by
  refine (keyword_leads h .SELECT).bind h fun start => ?_
  have body (distinct : Bool) : R .free (Select.mapSpans f.span)
      (do
        let projection ← commaSeparated (selectItem sub)
        let source ← fromClause? sub
        let condition ← conditionAfter? sub .WHERE
        let groupBy ← groupBy? sub
        let having ← conditionAfter? sub .HAVING
        return ⟨← spanFrom start, distinct, projection, source, condition, groupBy, having⟩)
      (do
        let projection ← commaSeparated (selectItem sub')
        let source ← fromClause? sub'
        let condition ← conditionAfter? sub' .WHERE
        let groupBy ← groupBy? sub'
        let having ← conditionAfter? sub' .HAVING
        return ⟨← spanFrom (f.span start), distinct, projection, source, condition, groupBy,
          having⟩) :=
    h.bind nofun (hsub.commaSeparated h (selectItem_parallel h hsub) selectItem_sound) fun _ =>
      h.bind nofun (fromClause?_parallel h hsub) fun _ =>
      h.bind nofun (conditionAfter?_parallel h hsub .WHERE) fun _ =>
      h.bind nofun (groupBy?_parallel h hsub) fun _ =>
      h.bind nofun (conditionAfter?_parallel h hsub .HAVING) fun _ =>
      h.bind nofun (h.spanFrom rfl) fun _ => pure_parallel h (by simp [Select.mapSpans])
  refine h.bind nofun (keyword?_parallel h .DISTINCT) fun o => ?_
  cases o with
  | some _ => exact h.bind (v := id) nofun (pure_parallel h rfl) body
  | none =>
    exact h.bind nofun (keyword?_parallel h .ALL) fun _ =>
      h.bind (v := id) nofun (pure_parallel h rfl) body

omit hsub in
theorem direction_parallel : R .free id direction direction := by
  refine h.bind nofun (keyword?_parallel h .DESC) fun o => ?_
  cases o with
  | some _ => exact pure_parallel h rfl
  | none => exact h.bind nofun (keyword?_parallel h .ASC) fun _ => pure_parallel h rfl

omit hsub in
theorem nullsPlacement?_parallel : R .free id nullsPlacement? nullsPlacement? := by
  refine h.bind nofun (word?_parallel h "NULLS") fun o => ?_
  cases o with
  | none => exact pure_parallel h rfl
  | some _ =>
    refine h.bind nofun (word?_parallel h "FIRST") fun o => ?_
    cases o with
    | some _ => exact pure_parallel h rfl
    | none =>
      refine h.bind nofun (word?_parallel h "LAST") fun o => ?_
      cases o with
      | some _ => exact pure_parallel h rfl
      | none => exact unexpected_parallel h

theorem orderItem_parallel :
    R .free (OrderItem.mapSpans f.span) (orderItem sub) (orderItem sub') :=
  h.bind nofun hsub.wholeExpr fun e => h.bind nofun (direction_parallel h) fun _ =>
    h.bind nofun (nullsPlacement?_parallel h) fun _ =>
    h.bind nofun (h.spanFrom (e.span_mapSpans f.span).symm) fun _ => pure_parallel h rfl

theorem orderBy?_parallel :
    R .free (Option.map (OrderBy.mapSpans f.span)) (orderBy? sub) (orderBy? sub') := by
  refine h.bind nofun (keyword?_parallel h .ORDER) fun o => ?_
  cases o with
  | none => exact pure_parallel h rfl
  | some _ =>
    exact h.bind nofun (keyword_parallel h .BY) fun _ =>
      h.bind nofun (hsub.commaSeparated h (orderItem_parallel h hsub) orderItem_sound) fun _ =>
      h.bind nofun (h.spanFrom rfl) fun _ => pure_parallel h rfl

theorem limit?_parallel :
    R .free (Option.map (Limit.mapSpans f.span)) (limit? sub) (limit? sub') := by
  refine h.bind nofun (keyword?_parallel h .LIMIT) fun o => ?_
  cases o with
  | none => exact pure_parallel h rfl
  | some start =>
    have close (p : Expr × Option Expr) : R .free (Option.map (Limit.mapSpans f.span))
        (do return some ⟨← spanFrom start, p.1, p.2⟩)
        (do
          return some ⟨← spanFrom (f.span start), p.1.mapSpans f.span,
            p.2.map (·.mapSpans f.span)⟩) :=
      h.bind nofun (h.spanFrom rfl) fun _ => pure_parallel h rfl
    refine h.bind nofun hsub.wholeExpr fun first =>
      h.bind nofun (punctuation?_parallel h .comma) fun o => ?_
    cases o with
    | some _ =>
      exact h.bind nofun hsub.wholeExpr fun _ =>
        h.bind (v := Prod.map _ (Option.map _)) nofun (pure_parallel h rfl) close
    | none =>
      refine h.bind nofun (keyword?_parallel h .OFFSET) fun o => ?_
      cases o with
      | some _ =>
        exact h.bind nofun hsub.wholeExpr fun _ =>
          h.bind (v := Prod.map _ (Option.map _)) nofun (pure_parallel h rfl) close
      | none => exact h.bind (v := Prod.map _ (Option.map _)) nofun (pure_parallel h rfl) close

/-! ## Combining selections -/

omit hsub in
theorem setOperator?_parallel : R m id setOperator? setOperator? := by
  refine h.weaken m (h.bind nofun (peek_parallel h) fun t => ?_)
  rw [f.kind_token]
  split
  · exact h.pure rfl
  · exact h.pure rfl
  · exact h.pure rfl
  · exact h.bind nofun (h.note _) fun _ => h.pure rfl

omit hsub in
/-- A set operator that comes next is not the end of the input. -/
theorem setOperator?_parallel_bind {β : Type} {w : β → β}
    {F G : Option SetOperator → Parser β} (hm : m ≠ .inner) (absent : R m w (F none) (G none))
    (present : ∀ op, R m.ahead w (F (some op)) (G (some op))) :
    R m w (setOperator? >>= F) (setOperator? >>= G) := by
  cases m with
  | inner => exact absurd rfl hm
  | free =>
    refine h.bind hm (setOperator?_parallel h) fun o => ?_
    cases o with
    | none => exact absent
    | some op => exact present op
  | start =>
    rw [setOperator?, bind_assoc, bind_assoc]
    refine h.peek_bind fun t => ?_
    have here (op : SetOperator) : R .inner w (pure (some op) >>= F) (pure (some op) >>= G) := by
      rw [pure_bind, pure_bind]
      exact present op
    rw [f.kind_token]
    split
    · rename_i kind
      exact .inr ⟨by simp [Token.isEnd, kind], here .union⟩
    · rename_i kind
      exact .inr ⟨by simp [Token.isEnd, kind], here .intersect⟩
    · rename_i kind
      exact .inr ⟨by simp [Token.isEnd, kind], here .except⟩
    · rw [bind_assoc, bind_assoc]
      refine .inl (h.bind (by simp) (h.note _) fun _ => ?_)
      rw [pure_bind, pure_bind]
      exact absent

/-- A set operator is consumed before anything else. -/
theorem setOperand_leads (left : QueryBody) (op : SetOperator) (hm : m ≠ .start) :
    Leads R m (QueryBody.mapSpans f.span) (setOperand sub left op)
      (setOperand sub' (left.mapSpans f.span) op) :=
  (next_leads h hm).bind h fun _ => h.bind nofun (keyword?_parallel h .ALL) fun all =>
    h.bind nofun ((select_leads h hsub).parallel h) fun right => pure_parallel h <| by
      cases all <;> simp [QueryBody.mapSpans, f.span_union]

theorem queryTail_parallel (body : QueryBody) :
    R .free (Query.mapSpans f.span) (queryTail sub body)
      (queryTail sub' (body.mapSpans f.span)) :=
  h.bind nofun (orderBy?_parallel h hsub) fun _ => h.bind nofun (limit?_parallel h hsub) fun _ =>
    h.bind nofun (h.spanFrom (body.span_mapSpans f.span).symm) fun _ =>
      pure_parallel h (by simp [Query.mapSpans])

end SqlSyntax.Parser
