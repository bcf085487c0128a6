import SqlSyntax.Proofs.Parser.Infix

/-!
# Completeness of the parsers of expressions

A parser of expressions reads what the grammar reads, wherever the tokens behind
it neither go on with a name nor are an infix operator that belongs to the
expression. The choice between alternatives is the right one because of the
edges of the readings.

## Main results

* `operand_reads` — what stands before the first infix operator.
* `foldInfix_reads` — an infix operator with what belongs to it.
-/

namespace SqlSyntax.Parser

open Grammar

/-- Whether a token of a kind comes behind a query. -/
def endsQuery : TokenKind → Bool
  | .punctuation .closeParen | .punctuation .semicolon | .endOfInput => true
  | _ => false

/-- Parsers that read what is nested, wherever it can end. -/
structure ReadsNested (P : Phrases) (sub : Nested) : Prop where
  expr : ∀ {level ts e rest}, P.expr level ts e → Follows (min level e.openLevel) rest →
    Reads (sub.expr level) ts e rest
  query : ∀ {ts q rest}, P.query ts q → endsQuery (headKind rest) → Reads sub.query ts q rest
  proper : P.Proper

section

variable {P : Phrases} {sub : Nested} (hsub : ReadsNested P sub) {before rest : List Token}

include hsub

theorem ReadsNested.wholeExpr {ts : List Token} {e : Expr} (h : P.wholeExpr ts e)
    (hrest : Follows 0 rest) : ReadsAfter before sub.wholeExpr ts e rest :=
  .after (hsub.expr h (hrest.mono (Nat.zero_le _)))

/-- An expression in front of a token that ends it. -/
theorem ReadsNested.exprBefore {ts : List Token} {e : Expr} (h : P.wholeExpr ts e)
    (hrest : endsExpr (headKind rest)) : ReadsAfter before sub.wholeExpr ts e rest :=
  hsub.wholeExpr h (follows_of_endsExpr hrest 0)

theorem ReadsNested.query_before {ts : List Token} {q : Query} (h : P.query ts q)
    (hrest : endsQuery (headKind rest)) : ReadsAfter before sub.query ts q rest :=
  .after (hsub.query h hrest)

theorem exprList_reads {ts : List Token} {es : List Expr}
    (h : CommaSeparated P.wholeExpr ts es) (hrest : endsExpr (headKind rest))
    (hcomma : headKind rest ≠ .punctuation .comma) :
    ReadsAfter before (commaSeparated sub.wholeExpr) ts es rest :=
  .after (commaSeparated_reads (F := fun us => endsExpr (headKind us))
    (fun _ _ _ he hus => hsub.exprBefore he hus) (fun _ _ hc => endsExpr_head hc rfl) hrest hcomma h)

/-! ## Operands -/

theorem arguments_reads {us : List Token} {c : Token} {p : Bool × Arguments}
    (h : IsArguments P us p) (closing : c.kind = .punctuation .closeParen) :
    ReadsAfter before (arguments sub) (us ++ [c]) p rest := by
  have close : ∀ (b : List Token) (q : Bool × Arguments),
      ReadsAfter b (do let _ ← punctuation .closeParen; return q) [c] q rest := fun _ _ =>
    .bindLast (punctuation_reads closing) .pure
  cases h with
  | star star => exact .bindToken (operator?_reads star) (close ..)
  | none =>
    refine .bindNil (operator?_absent (by simp [closing])) (.bindPeek fun t ht _ => ?_)
    rw [if_pos (by simpa [closing] using ht)]
    exact close ..
  | @list ds ts distinct es mark items =>
    obtain ⟨t, us, rfl, starts⟩ := items.start hsub.proper
    have list : ∀ b : List Token, ReadsAfter b (commaSeparated sub.wholeExpr) (t :: us) es
        ([c] ++ rest) := fun _ =>
      exprList_reads hsub items (endsExpr_head closing rfl) (by simp [closing])
    cases mark with
    | absent =>
      refine .bindNil (operator?_absent (kind_ne_of_starts starts rfl))
        (.bindPeek fun u hu _ => ?_)
      rw [if_neg (by simpa [hu] using kind_ne_of_starts starts rfl)]
      exact .bindNil (keyword?_absent (kind_ne_of_starts starts rfl)) (.bind (list _) (close ..))
    | present distinct =>
      refine .bindNil (operator?_absent (by simp [distinct])) (.bindPeek fun u hu _ => ?_)
      rw [if_neg (by simp [hu, distinct])]
      exact .bindToken (keyword?_reads distinct) (.bind (list _) (close ..))

omit hsub in
theorem nameExpr_reads_column {ts : List Token} {n : QualifiedName} (name : IsName ts n)
    (hdot : headKind rest ≠ .punctuation .dot)
    (hopen : headKind rest ≠ .punctuation .openParen) :
    ReadsAfter before (nameExpr sub) ts ⟨n.span, .column n⟩ rest :=
  .bindLast (qualifiedName_reads name fun h => hdot h.1)
    (.bindLast (punctuation?_absent hopen) .pure)

theorem nameExpr_reads_call {ts us : List Token} {n : QualifiedName} {distinct : Bool}
    {as : Arguments} (name : IsName ts n)
    (arguments : Parenthesized (IsArguments P) us (distinct, as)) :
    Reads (nameExpr sub) (ts ++ us) ⟨n.span.through (ts ++ us), .call n distinct as⟩ rest := by
  obtain ⟨opening, arguments, closing⟩ := arguments
  refine .bind (qualifiedName_reads name fun h => ?_) ?_
  · simp [AtNameDot, opening] at h
  refine .bindToken (punctuation?_reads opening)
    (.bindLast (arguments_reads hsub arguments closing) ?_)
  exact .spanned (by simp) (by simp)

/-- A branch behind its `WHEN`. -/
theorem whenBranch_reads {t : Token} {ts : List Token} {b : WhenBranch}
    (h : IsBranch P (t :: ts) b) (hrest : endsExpr (headKind rest)) :
    ReadsAfter [t] (whenBranch sub t.span) ts b rest := by
  obtain ⟨kind, condition, result⟩ := h
  obtain ⟨then_, result⟩ := result
  refine .bind (hsub.exprBefore condition (endsExpr_head then_ rfl)) ?_
  exact .bindToken (keyword_reads then_) (.bindLast (hsub.exprBefore result hrest)
    (.spanned (by simp) (by simp)))

theorem branches_reads {ts : List Token} {bs : List WhenBranch} (h : Many (IsBranch P) ts bs)
    (hrest : endsExpr (headKind rest)) (hwhen : headKind rest ≠ .keyword .WHEN) :
    ReadsAfter before (iterate (fun branches => do
      match ← keyword? .WHEN with
      | some span => return some ((← whenBranch sub span) :: branches)
      | none => return none) []) ts bs.reverse rest := by
  refine .after (collect_reads (F := fun us => endsExpr (headKind us)) hrest ?_ ?_
    (fun _ => .bindNil (keyword?_absent hwhen) .pure) h)
  · rintro ts b us branch
    obtain ⟨kind, -, -⟩ := branch
    exact ⟨nofun, endsExpr_head kind rfl⟩
  · intro as ts b us branch hus
    have whole := branch
    obtain ⟨kind, -, -⟩ := branch
    exact .bindToken (keyword?_reads kind)
      (.bindLast (whenBranch_reads hsub whole hus) .pure)

theorem caseExpr_reads {t c : Token} {os bs es : List Token} {o : Option Expr}
    {branches : List WhenBranch} {e : Option Expr} (kind : t.kind = .keyword .CASE)
    (operand : Optional P.wholeExpr os o) (nonempty : branches ≠ [])
    (body : Many (IsBranch P) bs branches)
    (otherwise : Optional (Behind (.keyword .ELSE) P.wholeExpr) es e)
    (closing : c.kind = .keyword .END) :
    Reads (caseExpr sub) (t :: (os ++ (bs ++ (es ++ [c]))))
      ⟨t.span.through (t :: (os ++ (bs ++ (es ++ [c])))), .case o branches e⟩ rest := by
  cases body with
  | nil => exact absurd rfl nonempty
  | @cons fs bs b others head body =>
    obtain ⟨w, ws, rfl, when⟩ := head.start
    -- Behind the branches comes `ELSE` or `END`.
    have ends : endsExpr (headKind (es ++ [c] ++ rest)) ∧
        headKind (es ++ [c] ++ rest) ≠ .keyword .WHEN := by
      cases otherwise with
      | none => exact ⟨endsExpr_head closing rfl, by simp [closing]⟩
      | some other =>
        obtain ⟨else_, -⟩ := other
        exact ⟨endsExpr_head else_ rfl, by simp [else_]⟩
    have ends' : endsExpr (headKind (bs ++ (es ++ [c]) ++ rest)) := by
      cases body with
      | nil => exact ends.1
      | cons head =>
        obtain ⟨kind, -, -⟩ := head
        exact endsExpr_head kind rfl
    have behind : ∀ (before : List Token) (span : Span), before ≠ [] →
        t.span.through (before ++ (w :: ws ++ (bs ++ (es ++ [c])))) = span → ReadsAfter before (do
        let first ← whenBranch sub (← keyword .WHEN)
        let others ← iterate (fun branches => do
          match ← keyword? .WHEN with
          | some span => return some ((← whenBranch sub span) :: branches)
          | none => return none) []
        let otherwise ← do
          match ← keyword? .ELSE with
          | some _ => pure (some (← sub.wholeExpr))
          | none => pure none
        let _ ← keyword .END
        return (⟨← spanFrom t.span, .case o (first :: others.reverse) otherwise⟩ : Expr))
        (w :: ws ++ (bs ++ (es ++ [c]))) ⟨span, .case o (b :: others) e⟩ rest := by
      rintro before _ hbefore rfl
      refine .bindToken (keyword_reads when) (.bind (whenBranch_reads hsub head ends').append ?_)
      refine .bind (branches_reads hsub body ends.1 ends.2) ?_
      rw [List.reverse_reverse]
      cases otherwise with
      | none =>
        refine .bindNil (keyword?_absent (by simp [closing])) (.bindNil .pure ?_)
        refine .bindLast (keyword_reads closing) ?_
        exact .spanned (by simp) (by simp)
      | some other =>
        obtain ⟨else_, other⟩ := other
        refine .bindToken (keyword?_reads else_)
          (.bind (hsub.exprBefore other (endsExpr_head closing rfl)) (.bindNil .pure ?_))
        refine .bindLast (keyword_reads closing) ?_
        exact .spanned (by simp) (by simp)
    rw [List.append_assoc (w :: ws)]
    refine .bindToken (keyword_reads kind) (.bindPeek fun u hu _ => ?_)
    cases operand with
    | none =>
      rw [if_pos (by simp [hu, when])]
      exact behind [t] _ (by simp) (by simp)
    | some operand =>
      obtain ⟨u', us, rfl, starts⟩ := hsub.proper.start operand
      rw [if_neg (by simpa [hu] using kind_ne_of_starts starts rfl)]
      refine .bind (hsub.exprBefore operand (endsExpr_head when rfl)) ?_
      exact behind ([t] ++ u' :: us) _ (by simp) (by simp)

theorem castExpr_reads {t : Token} {ts : List Token} {e : Expr} {d : DataType}
    (kind : t.kind = .keyword .CAST) (body : Parenthesized (IsCast P) ts (e, d)) :
    Reads (castExpr sub) (t :: ts) ⟨t.span.through (t :: ts), .cast e d⟩ rest := by
  obtain ⟨opening, body, closing⟩ := body
  obtain ⟨operand, type⟩ := body
  obtain ⟨as, type⟩ := type
  rw [List.append_assoc]
  refine .bindToken (keyword_reads kind) (.bindToken (punctuation_reads opening) ?_)
  refine .bind (hsub.exprBefore operand (endsExpr_head as rfl)) (.bindToken (keyword_reads as) ?_)
  refine .bind (dataType_reads type ⟨by simp [closing], by simp [closing]⟩) ?_
  refine .bindLast (punctuation_reads closing) ?_
  exact .spanned (by simp) (by simp)

omit hsub in
theorem endsQuery_head {t : Token} {ts : List Token}
    (h : t.kind = .punctuation .closeParen) : endsQuery (headKind (t :: ts)) := by
  rw [headKind_cons, h]
  rfl

theorem parenthesizedQuery_reads {ts : List Token} {q : Query}
    (h : Parenthesized P.query ts q) : ReadsAfter before (parenthesized sub.query) ts q rest :=
  .after (parenthesized_reads (fun _ _ _ _ query closing =>
    hsub.query query (endsQuery_head closing)) h)

theorem existsExpr_reads {t : Token} {ts : List Token} {q : Query}
    (kind : t.kind = .keyword .EXISTS) (query : Parenthesized P.query ts q) :
    Reads (existsExpr sub) (t :: ts) ⟨t.span.through (t :: ts), .existsQuery q⟩ rest := by
  refine .bindToken (next_reads (by simp [Token.isEnd, kind])) ?_
  exact .bindLast (parenthesizedQuery_reads hsub query) (.spanned (by simp) (by simp))

theorem queryOr_reads_query {α : Type} {ofQuery : Query → α} {otherwise : Parser α}
    {ts : List Token} {q : Query} (h : P.query ts q) (hrest : endsQuery (headKind rest)) :
    ReadsAfter before (sub.queryOr ofQuery otherwise) ts (ofQuery q) rest := by
  refine .bindPeek fun u hu _ => ?_
  have read : ∀ b : List Token, ReadsAfter b sub.query ts q rest := fun _ => hsub.query_before h hrest
  obtain ⟨t, us, rfl, kind⟩ := hsub.proper.select h
  rw [if_pos (by simp [hu, kind])]
  exact .bindLast (read _) .pure

omit hsub in
theorem queryOr_reads_other {α : Type} {ofQuery : Query → α} {otherwise : Parser α}
    {ts : List Token} {a : α} (hselect : headKind (ts ++ rest) ≠ .keyword .SELECT)
    (h : ReadsAfter before otherwise ts a rest) :
    ReadsAfter before (sub.queryOr ofQuery otherwise) ts a rest := by
  refine .bindPeek fun u hu _ => ?_
  rw [if_neg (by simpa [hu] using hselect)]
  exact h

theorem parenthesizedExpr_reads_query {o c : Token} {ts : List Token} {q : Query}
    (opening : o.kind = .punctuation .openParen) (query : P.query ts q)
    (closing : c.kind = .punctuation .closeParen) :
    Reads (parenthesizedExpr sub) (o :: (ts ++ [c]))
      ⟨o.span.through (o :: (ts ++ [c])), .subquery q⟩ rest := by
  refine .bindToken (next_reads (by simp [Token.isEnd, opening])) ?_
  refine .bind (queryOr_reads_query hsub query (endsQuery_head closing)) ?_
  refine .bindLast (punctuation_reads closing) ?_
  exact .spanned (by simp) (by simp)

theorem parenthesizedExpr_reads_expr {o c : Token} {ts : List Token} {e : Expr}
    (opening : o.kind = .punctuation .openParen) (inner : P.wholeExpr ts e)
    (closing : c.kind = .punctuation .closeParen) :
    Reads (parenthesizedExpr sub) (o :: (ts ++ [c]))
      ⟨o.span.through (o :: (ts ++ [c])), .nested e⟩ rest := by
  refine .bindToken (next_reads (by simp [Token.isEnd, opening])) ?_
  have read : ∀ b : List Token, ReadsAfter b sub.wholeExpr ts e ([c] ++ rest) := fun _ =>
    hsub.exprBefore inner (endsExpr_head closing rfl)
  obtain ⟨t, us, rfl, starts⟩ := hsub.proper.start inner
  refine .bind (queryOr_reads_other (kind_ne_of_starts starts rfl)
    (.bindLast (read _) .pure)) ?_
  refine .bindLast (punctuation_reads closing) ?_
  exact .spanned (by simp) (by simp)

/-- What stands before the first infix operator, with tokens behind it that do
not go on with it. -/
theorem operand_reads {ts : List Token} {e : Expr} (h : IsOperand P ts e)
    (hrest : Follows e.openLevel rest) : Reads (operand sub) ts e rest := by
  refine .bindPeek fun u hu same => ?_
  cases h with
  | column name =>
    have read : Reads (nameExpr sub) ts _ rest :=
      nameExpr_reads_column name hrest.dot hrest.openParen
    obtain ⟨t, us, style, rfl, kind⟩ := name.start
    simp only [hu, List.cons_append, headKind_cons, kind]
    exact read
  | @call ns as n distinct args name arguments =>
    have read : Reads (nameExpr sub) (ns ++ as) _ rest := nameExpr_reads_call hsub name arguments
    obtain ⟨t, us, style, rfl, kind⟩ := name.start
    simp only [hu, List.cons_append, headKind_cons, kind]
    exact read
  | @literal _ v value =>
    obtain rfl := same _ rfl
    have read : u.isEnd = false → Reads (literalExpr v) [u] ⟨u.span, .literal v⟩ rest :=
      fun h => .bindLast (next_reads h) .pure
    unfold Literal.ofToken? at value
    split at value <;> simp only [Option.some.injEq, reduceCtorEq] at value
    all_goals
      rename_i kind
      subst value
      simp only [kind]
      exact read (by simp [Token.isEnd, kind])
  | @unary t ts op e kind operand =>
    have read : Reads (unaryExpr sub op op.operandLevel) (t :: ts)
        ⟨t.span.union e.span, .unary op e⟩ rest := by
      refine .bindToken (next_reads (by cases op <;> simp [Token.isEnd, kind, UnaryOperator.kind])) ?_
      refine .bindLast (.after (hsub.expr operand ?_)) .pure
      cases op <;> exact hrest
    simp only [hu, List.cons_append, headKind_cons, kind]
    cases op <;> exact read
  | case kind operand nonempty body otherwise closing =>
    simp only [hu, List.cons_append, headKind_cons, kind]
    exact caseExpr_reads hsub kind operand nonempty body otherwise closing
  | cast kind body =>
    simp only [hu, List.cons_append, headKind_cons, kind]
    exact castExpr_reads hsub kind body
  | existsQuery kind query =>
    simp only [hu, List.cons_append, headKind_cons, kind]
    exact existsExpr_reads hsub kind query
  | subquery opening query closing =>
    simp only [hu, List.cons_append, headKind_cons, opening]
    exact parenthesizedExpr_reads_query hsub opening query closing
  | nested opening inner closing =>
    simp only [hu, List.cons_append, headKind_cons, opening]
    exact parenthesizedExpr_reads_expr hsub opening inner closing

/-! ## Infix operators -/

omit hsub in
theorem truthTest_reads {left : Expr} {ns : List Token} {u : Token} {negated : Bool}
    {test : TruthTest} (negation : Flag .NOT ns negated)
    (word : u.kind = .keyword test.keyword) (hbefore : before ≠ []) :
    ReadsAfter before (truthTest left) (ns ++ [u])
      ⟨left.span.through (before ++ (ns ++ [u])), .is left negated test⟩ rest := by
  have read : ∀ (b : List Token) (span : Span) (o : Option Span), b ≠ [] →
      left.span.through (b ++ [u]) = span → ReadsAfter b (do
        let _ ← next
        return (⟨← spanFrom left.span, .is left o.isSome test⟩ : Expr)) [u]
        ⟨span, .is left o.isSome test⟩ rest := by
    rintro b _ o hb rfl
    exact .bindLast (next_reads (by simp [Token.isEnd, word])) (.spanned (by simp) rfl)
  cases negation with
  | absent =>
    refine .bindNil (keyword?_absent ?_) (.bindPeek fun t ht _ => ?_)
    · cases test <;> simp [word, TruthTest.keyword]
    · have kind : t.kind = .keyword test.keyword := ht.trans word
      simp only [kind]
      cases test <;> exact read before _ none hbefore rfl
  | present not =>
    refine .bindToken (keyword?_reads not) (.bindPeek fun t ht _ => ?_)
    have kind : t.kind = .keyword test.keyword := ht.trans word
    simp only [kind]
    cases test <;> exact read _ _ (some _) (by simp) (by simp)

theorem predicateTail_reads {left : Expr} {negated : Bool} {p : Predicate} {ts : List Token}
    {form : ExprForm} (h : IsPredicateTail P left negated p ts form)
    {span : Span} (hrest : Follows (Expr.openLevel ⟨span, form⟩) rest) :
    ReadsAfter before (predicateTail sub left negated p) ts form rest := by
  cases h with
  | inList items =>
    refine .after (parenthesized_reads (R := fun ts form => ∃ es,
      form = .inList left negated es ∧ CommaSeparated P.wholeExpr ts es) ?_ ?_)
    · rintro ts _ c us ⟨es, rfl, items⟩ closing
      have read : ∀ b : List Token, ReadsAfter b (commaSeparated sub.wholeExpr) ts es (c :: us) :=
        fun _ => exprList_reads hsub items (endsExpr_head closing rfl) (by simp [closing])
      obtain ⟨t, _, rfl, starts⟩ := items.start hsub.proper
      exact queryOr_reads_other (kind_ne_of_starts starts rfl) (.bindLast (read _) .pure)
    · obtain ⟨opening, items, closing⟩ := items
      exact .intro opening ⟨_, rfl, items⟩ closing
  | inQuery query =>
    refine .after (parenthesized_reads (R := fun ts form => ∃ q,
      form = .inQuery left negated q ∧ P.query ts q) ?_ ?_)
    · rintro ts _ c us ⟨q, rfl, query⟩ closing
      exact queryOr_reads_query hsub query (endsQuery_head closing)
    · obtain ⟨opening, query, closing⟩ := query
      exact .intro opening ⟨_, rfl, query⟩ closing
  | @between ls hs l h low high =>
    obtain ⟨and, high⟩ := high
    have edge := hsub.proper.openLevel low
    refine .bind (.after (hsub.expr low ⟨by simp [and], by simp [and], fun op hop => ?_⟩))
      (.bindToken (keyword_reads and) (.bindLast (.after (hsub.expr high hrest)) .pure))
    have : op = .binary .and := by
      simpa [infixAhead, and, InfixOperator.ofKind?, eq_comm] using hop
    subst this
    simp only [InfixOperator.level, BinaryOperator.level, predicateLevel, notLevel] at edge ⊢
    omega
  | like pattern => exact .bindLast (.after (hsub.expr pattern hrest)) .pure

/-- An infix operator with what belongs to it, folded onto `left`. -/
theorem foldInfix_reads {left e : Expr} {op : InfixOperator} {ts : List Token}
    (h : IsFold P left op ts e) (hrest : Follows e.openLevel rest) :
    Reads (foldInfix sub left op) ts e rest := by
  cases h with
  | @binary t ts op r kind right =>
    have inner : t.isEnd = false := by
      cases hk : t.kind <;> simp_all [Token.isEnd, InfixOperator.ofKind?, Predicate.ofKind?]
    exact .bindToken (next_reads inner) (.bindLast (.after (hsub.expr right hrest)) .pure)
  | is kind negation test =>
    exact .bindToken (next_reads (by simp [Token.isEnd, kind]))
      (truthTest_reads negation test (by simp))
  | @predicate t ns ts negated p form negation kind tail =>
    have inner : t.isEnd = false := by
      cases hk : t.kind <;> simp_all [Token.isEnd, Predicate.ofKind?]
    cases negation with
    | absent =>
      refine .bindToken (next_reads inner) (.bindLast (predicateTail_reads hsub tail hrest) ?_)
      exact .spanned (by simp) (by simp)
    | present not =>
      refine .bindToken (next_reads (by simp [Token.isEnd, not])) (.bindToken (next_reads inner) ?_)
      exact .bindLast (predicateTail_reads hsub tail hrest) (.spanned (by simp) (by simp))

end

end SqlSyntax.Parser
