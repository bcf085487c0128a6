import SqlSyntax.Proofs.Parser.Parallel.Name

/-!
# Expressions in parallel

An operand consumes a token before any expression or query inside it is parsed,
and so does an infix operator with what belongs to it.

## Main results

* `operand_leads`, `foldInfix_leads` — an operand and a fold lead on.
-/

namespace SqlSyntax.Parser

open Grammar

/-- Parsers for what is nested that run in parallel. The second ones are sound,
so that the loops on them consume tokens. -/
structure NestedParallel (f : Relocation) (R : ParserRelation) (sub sub' : Nested) : Prop where
  expr : ∀ level, R .free (Expr.mapSpans f.span) (sub.expr level) (sub'.expr level)
  query : R .free (Query.mapSpans f.span) sub.query sub'.query
  sound : ∃ P, SoundNested P sub'

variable {f : Relocation} {R : ParserRelation} (h : Comparison f R) {m : Stage}

section

variable {sub sub' : Nested} (hsub : NestedParallel f R sub sub')

include hsub

theorem NestedParallel.wholeExpr :
    R .free (Expr.mapSpans f.span) sub.wholeExpr sub'.wholeExpr := hsub.expr 0

include h

theorem NestedParallel.commaSeparated {α : Type} {v : α → α} {item item' : Parser α}
    {S : Phrases → List Token → α → Prop} (hitem : R .free v item item')
    (sound : ∀ {P}, SoundNested P sub' → Sound item' (S P)) :
    R .free (List.map v) (commaSeparated item) (commaSeparated item') := by
  obtain ⟨P, nested⟩ := hsub.sound
  exact commaSeparated_parallel h hitem (sound nested)

theorem NestedParallel.collect {α : Type} {v : α → α}
    {step step' : List α → Parser (Option (List α))}
    (hstep : ∀ as, R .free (Option.map (List.map v)) (step as) (step' (as.map v)))
    (advances : ∀ {P}, SoundNested P sub' → Advances step') :
    R .free (List.map v) (iterate step []) (iterate step' []) := by
  obtain ⟨P, nested⟩ := hsub.sound
  exact collect_parallel h hstep (advances nested)

theorem queryOr_parallel {α : Type} {v : α → α} {ofQuery ofQuery' : Query → α}
    {otherwise otherwise' : Parser α} (same : ∀ q, v (ofQuery q) = ofQuery' (q.mapSpans f.span))
    (hotherwise : R .free v otherwise otherwise') :
    R .free v (sub.queryOr ofQuery otherwise) (sub'.queryOr ofQuery' otherwise') := by
  refine h.bind nofun (peek_parallel h) fun t => ?_
  rw [f.kind_token]
  split
  · exact h.bind nofun hsub.query fun q => pure_parallel h (same q)
  · exact hotherwise

/-! ## Operands -/

omit hsub in
theorem literalExpr_leads (value : Literal) :
    Leads R .inner (Expr.mapSpans f.span) (literalExpr value) (literalExpr value) :=
  (next_leads h (m := .inner) nofun).bind h fun t => pure_parallel h (by rw [f.span_token]; rfl)

theorem unaryExpr_leads (op : UnaryOperator) (level : Nat) :
    Leads R .inner (Expr.mapSpans f.span) (unaryExpr sub op level) (unaryExpr sub' op level) :=
  (next_leads h (m := .inner) nofun).bind h fun t => h.bind nofun (hsub.expr level) fun e =>
    pure_parallel h <| by
      simp [Expr.mapSpans, ExprForm.mapSpans, f.span_union, f.span_token]

theorem existsExpr_leads :
    Leads R .inner (Expr.mapSpans f.span) (existsExpr sub) (existsExpr sub') :=
  (next_leads h (m := .inner) nofun).bind h fun t =>
    h.bind nofun (parenthesized_parallel h hsub.query) fun _ =>
    h.bind nofun (h.spanFrom (f.span_token t).symm) fun _ => pure_parallel h rfl

theorem parenthesizedExpr_leads :
    Leads R .inner (Expr.mapSpans f.span) (parenthesizedExpr sub) (parenthesizedExpr sub') := by
  refine (next_leads h (m := .inner) nofun).bind h fun t => h.bind nofun
    (queryOr_parallel h hsub (v := ExprForm.mapSpans f.span) (fun _ => rfl) ?_) fun form =>
    h.bind nofun (punctuation_parallel h .closeParen) fun _ =>
    h.bind nofun (h.spanFrom (f.span_token t).symm) fun _ => pure_parallel h rfl
  exact h.bind nofun hsub.wholeExpr fun e => pure_parallel h rfl

theorem arguments_parallel :
    R .free (Prod.map id (Arguments.mapSpans f.span)) (arguments sub) (arguments sub') := by
  have close (found : Bool × Arguments) :
      R .free (Prod.map id (Arguments.mapSpans f.span))
        (do let _ ← punctuation .closeParen; return found)
        (do let _ ← punctuation .closeParen; return (found.1, found.2.mapSpans f.span)) :=
    h.bind nofun (punctuation_parallel h .closeParen) fun _ => pure_parallel h rfl
  refine h.bind nofun (operator?_parallel h .times) fun o => ?_
  cases o with
  | some _ => exact close (false, .star)
  | none =>
    refine h.bind nofun (peek_parallel h) fun t => ?_
    rw [f.kind_token]
    split
    · exact close (false, .list [])
    · refine h.bind nofun (keyword?_parallel h .DISTINCT) fun d => ?_
      refine h.bind nofun (hsub.commaSeparated h hsub.wholeExpr (·.wholeExpr)) fun es => ?_
      have found := close (d.isSome, .list es)
      rw [Arguments.mapSpans, Expr.mapSpansOfList_eq] at found
      cases d <;> exact found

theorem nameExpr_leads :
    Leads R .start (Expr.mapSpans f.span) (nameExpr sub) (nameExpr sub') := by
  refine (qualifiedName_leads h).bind h fun name => ?_
  refine h.bind nofun (punctuation?_parallel h .openParen) fun o => ?_
  cases o with
  | none => exact pure_parallel h rfl
  | some _ =>
    exact h.bind nofun (arguments_parallel h hsub) fun args =>
      h.bind nofun (h.spanFrom rfl) fun _ => pure_parallel h rfl

theorem whenBranch_parallel (start : Span) :
    R .free (WhenBranch.mapSpans f.span) (whenBranch sub start) (whenBranch sub' (f.span start)) :=
  h.bind nofun hsub.wholeExpr fun _ => h.bind nofun (keyword_parallel h .THEN) fun _ =>
    h.bind nofun hsub.wholeExpr fun _ => h.bind nofun (h.spanFrom rfl) fun _ =>
      pure_parallel h rfl

theorem caseExpr_leads :
    Leads R .start (Expr.mapSpans f.span) (caseExpr sub) (caseExpr sub') := by
  refine (keyword_leads h .CASE).bind h fun start => ?_
  -- What is behind the branches.
  have close (o : Option Expr) (branches : List WhenBranch) (e : Option Expr) :
      R .free (Expr.mapSpans f.span)
        (do let _ ← keyword .END; return ⟨← spanFrom start, .case o branches e⟩)
        (do
          let _ ← keyword .END
          return ⟨← spanFrom (f.span start), .case (o.map (·.mapSpans f.span))
            (branches.map (·.mapSpans f.span)) (e.map (·.mapSpans f.span))⟩) :=
    h.bind nofun (keyword_parallel h .END) fun _ => h.bind nofun (h.spanFrom rfl) fun _ =>
      pure_parallel h (by simp [Expr.mapSpans, ExprForm.mapSpans])
  refine h.bind nofun (peek_parallel h) fun t => ?_
  rw [f.kind_token]
  split
  case' isTrue =>
    refine h.bind (v := Option.map (Expr.mapSpans f.span)) nofun (pure_parallel h rfl) fun o => ?_
  case' isFalse =>
    refine h.bind nofun hsub.wholeExpr fun e =>
      h.bind (v := Option.map (Expr.mapSpans f.span)) nofun (pure_parallel h rfl) fun o => ?_
  -- With an operand or not, the branches are next.
  all_goals
    refine h.bind nofun (keyword_parallel h .WHEN) fun when =>
      h.bind nofun (whenBranch_parallel h hsub when) fun first => ?_
    refine h.bind (v := List.map (WhenBranch.mapSpans f.span)) nofun
      (hsub.collect h (fun branches => ?_) fun nested => (branchStep_progressive nested).advances)
      fun others => ?_
    · refine h.bind nofun (keyword?_parallel h .WHEN) fun o => ?_
      cases o with
      | none => exact pure_parallel h rfl
      | some span =>
        exact h.bind nofun (whenBranch_parallel h hsub span) fun _ => pure_parallel h rfl
    · refine h.bind nofun (keyword?_parallel h .ELSE) fun e => ?_
      have last := close o (first :: others.reverse)
      rw [List.map_cons, List.map_reverse] at last
      cases e with
      | none => exact h.bind (v := Option.map _) nofun (pure_parallel h rfl) last
      | some _ =>
        exact h.bind nofun hsub.wholeExpr fun e =>
          h.bind (v := Option.map _) nofun (pure_parallel h rfl) last

theorem castExpr_leads :
    Leads R .start (Expr.mapSpans f.span) (castExpr sub) (castExpr sub') :=
  (keyword_leads h .CAST).bind h fun _ =>
    h.bind nofun (punctuation_parallel h .openParen) fun _ =>
    h.bind nofun hsub.wholeExpr fun _ => h.bind nofun (keyword_parallel h .AS) fun _ =>
    h.bind nofun (dataType_parallel h) fun _ =>
    h.bind nofun (punctuation_parallel h .closeParen) fun _ =>
    h.bind nofun (h.spanFrom rfl) fun _ => pure_parallel h rfl

/-- An operand leads on, or there is none. -/
theorem operand_leads :
    Leads R .start (Expr.mapSpans f.span) (operand sub) (operand sub') := by
  intro β w F G hF
  rw [operand, operand, bind_assoc, bind_assoc]
  refine h.peek_bind fun t => ?_
  have absent := missing_leads h operandStarts hF
  cases kind : t.kind with
  | keyword k =>
    have inner : t.isEnd = false := by simp [Token.isEnd, kind]
    simp only [f.kind_token, kind]
    cases k with
    | NOT => exact .inr ⟨inner, unaryExpr_leads h hsub _ _ hF⟩
    | TRUE | FALSE | NULL => exact .inr ⟨inner, literalExpr_leads h _ hF⟩
    | CASE => exact .inl (caseExpr_leads h hsub hF)
    | CAST => exact .inl (castExpr_leads h hsub hF)
    | EXISTS => exact .inr ⟨inner, existsExpr_leads h hsub hF⟩
    | _ => exact .inl absent
  | identifier style =>
    simp only [f.kind_token, kind]
    exact .inl (nameExpr_leads h hsub hF)
  | number =>
    have text := f.text_token t (by simp [kind]) (by simp [kind])
    simp only [f.kind_token, kind, text]
    exact .inr ⟨by simp [Token.isEnd, kind], literalExpr_leads h _ hF⟩
  | string =>
    have value := f.value_token (t := t) (by simp [kind]) (by simp [kind])
    simp only [f.kind_token, kind, value]
    exact .inr ⟨by simp [Token.isEnd, kind], literalExpr_leads h _ hF⟩
  | operator o =>
    have inner : t.isEnd = false := by simp [Token.isEnd, kind]
    simp only [f.kind_token, kind]
    cases o with
    | minus | plus => exact .inr ⟨inner, unaryExpr_leads h hsub _ _ hF⟩
    | _ => exact .inl absent
  | punctuation p =>
    simp only [f.kind_token, kind]
    cases p with
    | openParen => exact .inr ⟨by simp [Token.isEnd, kind], parenthesizedExpr_leads h hsub hF⟩
    | _ => exact .inl absent
  | endOfInput =>
    simp only [f.kind_token, kind]
    exact .inl absent

/-! ## Infix operators -/

omit hsub in
theorem infixOperator?_parallel : R m id infixOperator? infixOperator? := by
  refine h.weaken m (h.bind nofun (peek_parallel h) fun t => ?_)
  rw [f.kind_token]
  split
  · refine h.look 1 fun u => ?_
    rw [f.kind_token]
    exact h.pure rfl
  · exact h.pure rfl

omit hsub in
/-- An infix operator that comes next is not the end of the input. -/
theorem infixOperator?_parallel_bind {β : Type} {w : β → β}
    {F G : Option InfixOperator → Parser β} (hm : m ≠ .inner) (absent : R m w (F none) (G none))
    (present : ∀ op, R m.ahead w (F (some op)) (G (some op))) :
    R m w (infixOperator? >>= F) (infixOperator? >>= G) := by
  cases m with
  | inner => exact absurd rfl hm
  | free =>
    refine h.bind hm (infixOperator?_parallel h) fun o => ?_
    cases o with
    | none => exact absent
    | some op => exact present op
  | start =>
    have either (o : Option InfixOperator) : R .inner w (F o) (G o) := by
      cases o with
      | none => exact h.weaken _ absent
      | some op => exact present op
    rw [infixOperator?, bind_assoc, bind_assoc]
    refine h.peek_bind fun t => ?_
    rw [f.kind_token]
    split
    · rename_i not
      refine .inr ⟨by simp [Token.isEnd, beq_iff_eq.1 not], ?_⟩
      rw [bind_assoc, bind_assoc]
      refine h.look 1 fun u => ?_
      rw [pure_bind, pure_bind, f.kind_token]
      exact either _
    · rw [pure_bind, pure_bind]
      cases inner : t.isEnd with
      | false => exact .inr ⟨rfl, either _⟩
      | true =>
        have kind : t.kind = .endOfInput := by simpa [Token.isEnd] using inner
        rw [kind]
        exact .inl absent

omit hsub in
theorem truthTest_parallel (left : Expr) :
    R .free (Expr.mapSpans f.span) (truthTest left) (truthTest (left.mapSpans f.span)) := by
  refine h.bind nofun (keyword?_parallel h .NOT) fun negated => ?_
  refine h.bind nofun (peek_parallel h) fun t => ?_
  have negated_map : (negated.map f.span).isSome = negated.isSome := by cases negated <;> rfl
  have finish (test : TruthTest) : R .free (Expr.mapSpans f.span)
      (do
        let _ ← next
        return ⟨← spanFrom left.span, .is left negated.isSome test⟩)
      (do
        let _ ← next
        return ⟨← spanFrom (left.mapSpans f.span).span,
          .is (left.mapSpans f.span) negated.isSome test⟩) :=
    h.bind nofun (h.weaken _ h.next) fun _ =>
      h.bind nofun (h.spanFrom (left.span_mapSpans f.span).symm) fun _ => pure_parallel h rfl
  rw [f.kind_token, negated_map]
  split
  · exact finish .null
  · exact finish .true
  · exact finish .false
  · exact missing_parallel h _

theorem predicateTail_parallel (left : Expr) (negated : Bool) (p : Predicate) :
    R .free (ExprForm.mapSpans f.span) (predicateTail sub left negated p)
      (predicateTail sub' (left.mapSpans f.span) negated p) := by
  cases p with
  | isIn =>
    refine parenthesized_parallel h (queryOr_parallel h hsub (fun _ => rfl) ?_)
    exact h.bind nofun (hsub.commaSeparated h hsub.wholeExpr (·.wholeExpr)) fun es =>
      pure_parallel h (by simp [ExprForm.mapSpans])
  | between =>
    exact h.bind nofun (hsub.expr _) fun _ => h.bind nofun (keyword_parallel h .AND) fun _ =>
      h.bind nofun (hsub.expr _) fun _ => pure_parallel h rfl
  | like => exact h.bind nofun (hsub.expr _) fun _ => pure_parallel h rfl

/-- A fold consumes its operator before anything else. -/
theorem foldInfix_leads (left : Expr) (op : InfixOperator) (hm : m ≠ .start) :
    Leads R m (Expr.mapSpans f.span) (foldInfix sub left op)
      (foldInfix sub' (left.mapSpans f.span) op) := by
  refine (next_leads h hm).bind h fun _ => ?_
  cases op with
  | binary op =>
    exact h.bind nofun (hsub.expr op.level) fun right => pure_parallel h <| by
      simp [Expr.mapSpans, ExprForm.mapSpans, f.span_union]
  | is => exact truthTest_parallel h left
  | predicate negated p =>
    have tail : R .free (Expr.mapSpans f.span)
        (do
          let form ← predicateTail sub left negated p
          return ⟨← spanFrom left.span, form⟩)
        (do
          let form ← predicateTail sub' (left.mapSpans f.span) negated p
          return ⟨← spanFrom (left.mapSpans f.span).span, form⟩) :=
      h.bind nofun (predicateTail_parallel h hsub left negated p) fun form =>
        h.bind nofun (h.spanFrom (left.span_mapSpans f.span).symm) fun _ => pure_parallel h rfl
    cases negated with
    | false => exact tail
    | true => exact h.bind nofun (h.weaken _ h.next) fun _ => tail

end

end SqlSyntax.Parser
