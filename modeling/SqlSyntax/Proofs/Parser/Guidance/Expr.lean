import SqlSyntax.Proofs.Parser.Guidance.Name
import SqlSyntax.Proofs.Parser.Soundness.Expr

/-!
# Guidance of the parsers of expressions

The parsers guide to the readings of what they parse when the parsers for what
is nested inside do. What is noted in front of a nested phrase can stand there
because some phrase can follow it, so there has to be one.
-/

namespace SqlSyntax.Parser

open Grammar Expectation

/-- Parsers that guide to the readings of what is nested, and are sound for
them. -/
structure GuidesNested (V : Beginnings) (P : Phrases) (sub : Nested) : Prop where
  sound : SoundNested P sub
  expr : ∀ level, GuidesTo V (sub.expr level) (P.expr level)
  query : GuidesTo V sub.query P.query
  someExpr : ∀ level, ∃ ts e, P.expr level ts e
  someQuery : ∃ ts q, P.query ts q

variable {V : Beginnings} {P : Phrases} {sub : Nested} {before : List Token} {s : ParserState}

theorem GuidesNested.wholeExpr (hsub : GuidesNested V P sub) :
    GuidesTo V sub.wholeExpr P.wholeExpr :=
  hsub.expr 0

/-! ## Operands -/

section

variable (hsub : GuidesNested V P sub)

theorem literalExpr_guides {v : Literal} (ready : Ready V before s)
    (here : (ahead s).isEnd = false) : Guides V before (literalExpr v) s :=
  .bindNext ready here fun _ _ ready' => .pure ready'

include hsub

theorem unaryExpr_guides (op : UnaryOperator) (h : Fits V before (IsOperand P))
    (ready : Ready V before s) (kind : (ahead s).kind = op.kind) :
    Guides V before (unaryExpr sub op op.operandLevel) s := by
  refine .bindNext ready (by cases op <;> simp [Token.isEnd, kind, UnaryOperator.kind])
    fun s₁ _ ready₁ => ?_
  exact .map (hsub.expr _ (fun ts e he => h.part (.unary kind he) (by simp)) ready₁)

theorem existsExpr_guides (h : Fits V before (IsOperand P)) (ready : Ready V before s)
    (kind : (ahead s).kind = .keyword .EXISTS) : Guides V before (existsExpr sub) s := by
  refine .bindNext ready (by simp [Token.isEnd, kind]) fun s₁ _ ready₁ => ?_
  refine .bindSound ready₁ (parenthesized_sound hsub.sound.query)
    (parenthesized_guides hsub.sound.query hsub.query hsub.someQuery
      (fun ts q hq => h.part (.existsQuery kind hq) (by simp)) ready₁)
    fun _ _ _ _ ready₂ _ => .spanned ready₂

theorem queryOr_guides {α : Type} {ofQuery : Query → α} {otherwise : Parser α}
    {R : List Token → α → Prop} (hquery : ∀ ts q, P.query ts q → ∃ a, R ts a)
    (hother : GuidesTo V otherwise R) : GuidesTo V (sub.queryOr ofQuery otherwise) R := by
  intro before s h ready
  refine .bindPeek ready ?_
  split
  · exact .map (hsub.query (fun ts q hq => (hquery ts q hq).elim fun _ ha => h ha) ready)
  · exact hother h ready

theorem nestedForm_guides :
    GuidesTo V (sub.queryOr .subquery do return .nested (← sub.wholeExpr)) (IsNestedForm P) :=
  queryOr_guides hsub (fun _ _ hq => ⟨_, .subquery hq⟩) fun _ _ h ready =>
    .map (hsub.wholeExpr (fun _ _ he => h (.nested he)) ready)

theorem parenthesizedExpr_guides (h : Fits V before (IsOperand P)) (ready : Ready V before s)
    (kind : (ahead s).kind = .punctuation .openParen) :
    Guides V before (parenthesizedExpr sub) s := by
  -- The form between the parentheses makes an operand, whichever it is.
  have fits : ∀ {ts form c}, IsNestedForm P ts form → c.kind = .punctuation .closeParen →
      V.holds (before ++ ahead s :: (ts ++ [c])) := by
    intro ts form c hform closing
    cases hform with
    | subquery query => exact h (.subquery kind query closing)
    | nested inner => exact h (.nested kind inner closing)
  refine .bindNext ready (by simp [Token.isEnd, kind]) fun s₁ _ ready₁ => ?_
  refine .bindSound ready₁ (nestedForm_sound hsub.sound) (nestedForm_guides hsub
    (fun ts form hform => V.of_prefix (fits hform (kind_punctuation .closeParen)) (by simp)) ready₁)
    fun form s₂ ts _ ready₂ hform => ?_
  exact .punctuation ready₂ (fun c closing => V.of_prefix (fits hform closing) (by simp))
    fun _ _ _ _ ready₃ => .spanned ready₃

theorem arguments_guides (h : Fits V before fun us (p : Bool × Arguments) =>
      ∃ ts c, us = ts ++ [c] ∧ IsArguments P ts p ∧ c.kind = .punctuation .closeParen)
    (ready : Ready V before s) : Guides V before (arguments sub) s := by
  have inner : ∀ {ts p}, IsArguments P ts p → V.holds (before ++ ts) := fun hp =>
    h.part ⟨_, _, rfl, hp, (kind_punctuation .closeParen)⟩ (by simp)
  have close : ∀ {ts r} {p : Bool × Arguments}, IsArguments P ts p →
      Ready V (before ++ ts) r →
      Guides V (before ++ ts) (do let _ ← punctuation .closeParen; return p) r :=
    fun hp ready₁ => .punctuation ready₁
      (fun c closing => h.part ⟨_, _, rfl, hp, closing⟩ (by simp)) fun _ _ _ _ ready₂ => .pure ready₂
  refine .operator? ready (fun t star => inner (.star star))
    (fun t s₁ star _ ready₁ => close (.star star) ready₁) fun s₁ _ ready₁ => .bindPeek ready₁ ?_
  split
  · have none_ := close (r := s₁) (.none (P := P))
    rw [List.append_nil] at none_
    exact none_ ready₁
  · obtain ⟨xs, x, some_⟩ := hsub.someExpr 0
    refine .flag ready₁
      (fun t kind => V.of_prefix (inner (.list (.present kind) (separated_one some_))) (by simp))
      fun o ds s₂ mark _ ready₂ => ?_
    refine .bindSound ready₂ (commaSeparated_sound hsub.sound.wholeExpr)
      (commaSeparated_guides hsub.sound.wholeExpr hsub.wholeExpr
        (fun ts es hes => V.of_prefix (inner (.list mark hes)) (by simp)) ready₂)
      fun es s₃ ts _ ready₃ items => ?_
    rw [List.append_assoc] at ready₃ ⊢
    exact close (.list mark items) ready₃

theorem nameExpr_guides (h : Fits V before (IsOperand P)) (ready : Ready V before s) :
    Guides V before (nameExpr sub) s := by
  refine .bindSound ready qualifiedName_sound
    (qualifiedName_guides (fun ts n hn => h (.column hn)) ready) fun n s₁ ts _ ready₁ name => ?_
  refine .punctuation? ready₁
    (fun t opening => h.part (.call name (.intro opening .none (kind_punctuation .closeParen))) (by simp))
    (fun t s₂ opening _ ready₂ => ?_) fun _ _ ready₂ => .pure ready₂
  refine .bindSound ready₂ (arguments_sound hsub.sound) (arguments_guides hsub ?_ ready₂)
    fun _ _ _ _ ready₃ _ => .spanned ready₃
  rintro _ ⟨distinct, as⟩ ⟨us, c, rfl, arguments, closing⟩
  exact h.part (.call name (.intro opening arguments closing)) (by simp)

/-! ### Cases -/

theorem whenBranch_guides {t : Token} {start : Span} (kind : t.kind = .keyword .WHEN)
    (h : Fits V before (IsBranch P)) (ready : Ready V (before ++ [t]) s) :
    Guides V (before ++ [t]) (whenBranch sub start) s := by
  obtain ⟨xs, x, some_⟩ := hsub.someExpr 0
  have then_ := kind_keyword .THEN
  refine .bindSound ready hsub.sound.wholeExpr (hsub.wholeExpr
    (fun ts c hc => h.part (.intro kind hc (.intro then_ some_)) (by simp)) ready)
    fun c s₁ cs _ ready₁ condition => ?_
  refine .keyword ready₁ (fun u then_ => h.part (.intro kind condition (.intro then_ some_))
    (by simp)) fun u s₂ then_ _ ready₂ => ?_
  refine .bindSound ready₂ hsub.sound.wholeExpr (hsub.wholeExpr
    (fun ts r hr => h.part (.intro kind condition (.intro then_ hr)) (by simp)) ready₂)
    fun _ _ _ _ ready₃ _ => .spanned ready₃

theorem someBranch : ∃ ts b, IsBranch P ts b := by
  obtain ⟨xs, x, some_⟩ := hsub.someExpr 0
  exact ⟨_, _, .intro (kind_keyword .WHEN) some_
    (.intro (kind_keyword .THEN) some_)⟩

theorem branchStep_guides {branches : List WhenBranch} (h : Fits V before (Many (IsBranch P)))
    (ready : Ready V before s) :
    Guides V before (do
      match ← keyword? .WHEN with
      | some span => return some ((← whenBranch sub span) :: branches)
      | none => return none) s := by
  have one : Fits V before (IsBranch P) := fun ts b hb => h.part (.cons hb .nil) (by simp)
  refine .keyword? ready (fun t when => ?_) (fun t s₁ when _ ready₁ => ?_)
    fun _ _ ready₁ => .pure ready₁
  · obtain ⟨xs, x, some_⟩ := hsub.someExpr 0
    exact one.part (.intro when some_
      (.intro (kind_keyword .THEN) some_)) (by simp)
  · exact .map (whenBranch_guides hsub when one ready₁)

theorem caseExpr_guides (h : Fits V before (IsOperand P)) (ready : Ready V before s) :
    Guides V before (caseExpr sub) s := by
  obtain ⟨xs, x, some_⟩ := hsub.someExpr 0
  obtain ⟨ws, w, someBranch⟩ := someBranch hsub
  have oneBranch : Many (IsBranch P) ws [w] := by
    have one : Many (IsBranch P) (ws ++ []) [w] := .cons someBranch .nil
    rwa [List.append_nil] at one
  have end_ := kind_keyword .END
  refine .keyword ready
    (fun t kind => h.part (.case kind .none (by simp) oneBranch .none end_) (by simp))
    fun t s₁ kind _ ready₁ => ?_
  -- The branches and what is behind them, once the operand is read.
  have behind : ∀ {os r} {o : Option Expr}, Optional P.wholeExpr os o →
      Ready V (before ++ [t] ++ os) r → Guides V (before ++ [t] ++ os)
        (do
          let first ← whenBranch sub (← keyword .WHEN)
          let others ← iterate (fun branches => do
            match ← keyword? .WHEN with
            | some span => return some ((← whenBranch sub span) :: branches)
            | none => return none) []
          let otherwise ← do
            match ← keyword? .ELSE with
            | some _ => pure (some (← sub.wholeExpr))
            | none => pure none
          let _ ← keyword .END
          return (⟨← spanFrom t.span, .case o (first :: others.reverse) otherwise⟩ : Expr)) r := by
    intro os s₂ o operand ready₂
    have many : ∀ {bs branches}, Many (IsBranch P) bs branches → branches ≠ [] →
        V.holds (before ++ [t] ++ os ++ bs) := fun body nonempty =>
      h.part (.case kind operand nonempty body .none end_) (by simp)
    have fits : Fits V (before ++ [t] ++ os) (IsBranch P) := fun bs b hb =>
      V.of_prefix (many (.cons hb .nil) (by simp)) (by simp)
    refine .keyword ready₂ (fun u when => ?_) fun u s₃ when hc₃ ready₃ => ?_
    · exact fits.part (.intro when some_
        (.intro (kind_keyword .THEN) some_)) (by simp)
    refine (whenBranch_guides hsub when fits ready₃).bind
      (fun _ _ hfirst => whenBranch_sound hsub.sound when hc₃ hfirst)
      fun first s₄ bs _ ready₄ branch => ?_
    refine .bindSound ready₄ (fun _ _ _ => collect_sound (branchStep_sound hsub.sound))
      (collect_guides (branchStep_sound hsub.sound)
        (fun _ _ _ h ready => branchStep_guides hsub h ready) (fun cs others hothers => ?_) ready₄)
      fun others s₅ cs _ ready₅ hothers => ?_
    · exact V.of_prefix (many (.cons branch hothers) (by simp)) (by simp)
    have body : Many (IsBranch P) (u :: bs ++ cs) (first :: others.reverse) := .cons branch hothers
    have finish : ∀ {es r} {e : Option Expr}, Optional (Behind (.keyword .ELSE) P.wholeExpr) es e →
        Ready V (before ++ [t] ++ os ++ [u] ++ bs ++ cs ++ es) r →
        Guides V (before ++ [t] ++ os ++ [u] ++ bs ++ cs ++ es)
          (do
            let _ ← keyword .END
            return (⟨← spanFrom t.span, .case o (first :: others.reverse) e⟩ : Expr)) r :=
      fun otherwise ready₆ => .keyword ready₆
        (fun c closing => h.part (.case kind operand (by simp) body otherwise closing) (by simp))
        fun _ _ _ _ ready₇ => .spanned ready₇
    refine .keyword? ready₅ (fun v else_ => h.part (.case kind operand (by simp) body
      (.some (.intro else_ some_)) end_) (by simp)) (fun v s₆ else_ _ ready₆ => ?_)
      fun s₆ _ ready₆ => ?_
    · refine .bindSound ready₆ hsub.sound.wholeExpr (hsub.wholeExpr (fun es e he =>
        h.part (.case kind operand (by simp) body (.some (.intro else_ he)) end_) (by simp)) ready₆)
        fun e s₇ es _ ready₇ he => ?_
      rw [List.append_assoc (_ ++ cs)] at ready₇ ⊢
      exact finish (.some (.intro else_ he)) ready₇
    · have none_ := finish (r := s₆) .none
      rw [List.append_nil] at none_
      exact none_ ready₆
  refine .bindPeek ready₁ ?_
  split
  · have none_ := behind (r := s₁) .none
    rw [List.append_nil] at none_
    exact none_ ready₁
  · refine .bindSound ready₁ hsub.sound.wholeExpr (hsub.wholeExpr (fun os o ho =>
      h.part (.case kind (.some ho) (by simp) oneBranch .none end_) (by simp)) ready₁)
      fun o s₂ os _ ready₂ ho => behind (.some ho) ready₂

theorem castExpr_guides (h : Fits V before (IsOperand P)) (ready : Ready V before s) :
    Guides V before (castExpr sub) s := by
  obtain ⟨xs, x, some_⟩ := hsub.someExpr 0
  have as := kind_keyword .AS
  have opening := kind_punctuation .openParen
  have closing := kind_punctuation .closeParen
  refine .keyword ready (fun t kind => h.part (.cast kind (.intro opening
    (.intro some_ (.intro as isDataType_sample)) closing)) (by simp)) fun t s₁ kind _ ready₁ => ?_
  refine .punctuation ready₁ (fun o opening => h.part (.cast kind (.intro opening
    (.intro some_ (.intro as isDataType_sample)) closing)) (by simp)) fun o s₂ opening _ ready₂ => ?_
  refine .bindSound ready₂ hsub.sound.wholeExpr (hsub.wholeExpr (fun es e he =>
    h.part (.cast kind (.intro opening (.intro he (.intro as isDataType_sample)) closing))
      (by simp)) ready₂) fun e s₃ es _ ready₃ operand => ?_
  refine .keyword ready₃ (fun u as => h.part (.cast kind (.intro opening
    (.intro operand (.intro as isDataType_sample)) closing)) (by simp)) fun u s₄ as _ ready₄ => ?_
  refine .bindSound ready₄ dataType_sound (dataType_guides (fun ts d hd =>
    h.part (.cast kind (.intro opening (.intro operand (.intro as hd)) closing)) (by simp)) ready₄)
    fun d s₅ ts _ ready₅ type => ?_
  exact .punctuation ready₅ (fun c closing => h.part (.cast kind (.intro opening
    (.intro operand (.intro as type)) closing)) (by simp)) fun _ _ _ _ ready₆ => .spanned ready₆

/-! ### All operands -/

/-- Everything that an operand can start with starts one. -/
theorem offers_operandStarts (h : Fits V before (IsOperand P)) :
    Offers V before operandStarts := by
  obtain ⟨xs, x, some_⟩ := hsub.someExpr 0
  obtain ⟨us, u, tight⟩ := hsub.someExpr signLevel
  obtain ⟨ns, n, loose⟩ := hsub.someExpr notLevel
  obtain ⟨qs, q, someQuery⟩ := hsub.someQuery
  obtain ⟨ws, w, someBranch⟩ := someBranch hsub
  obtain ⟨name, hname⟩ := exists_isName (separated_one isIdentifier_sample)
  have closing := kind_punctuation .closeParen
  have opening := kind_punctuation .openParen
  have literal : ∀ {t : Token} (v : Literal), Literal.ofToken? t = some v →
      V.holds (before ++ [t]) := fun _ hv => h (.literal hv)
  have unary : ∀ {t : Token} (op : UnaryOperator) {ts e}, t.kind = op.kind →
      P.expr op.operandLevel ts e → V.holds (before ++ [t]) := fun _ _ _ kind he =>
    h.part (.unary kind he) (by simp)
  refine .cons trivial (h.part (.column hname) (by simp)) ?_
  refine .cons trivial (literal (.number "1") rfl) ?_
  refine .cons trivial (literal (.string Expectation.string.sample.value) rfl) ?_
  refine .cons trivial (h.part (.nested opening some_ closing) (by simp)) ?_
  refine .cons trivial (unary .minus rfl tight) ?_
  refine .cons trivial (unary .plus rfl tight) ?_
  refine .cons trivial (unary .not rfl loose) ?_
  refine .cons trivial (literal .null rfl) ?_
  refine .cons trivial (literal (.boolean true) rfl) ?_
  refine .cons trivial (literal (.boolean false) rfl) ?_
  refine .cons trivial (h.part (.case (kind_keyword .CASE) .none (by simp) (.cons someBranch .nil) .none
    (kind_keyword .END)) (by simp)) ?_
  refine .cons trivial (h.part (.cast (kind_keyword .CAST) (.intro opening (.intro some_
    (.intro (kind_keyword .AS) isDataType_sample)) closing)) (by simp)) ?_
  exact .cons trivial (h.part (.existsQuery (kind_keyword .EXISTS) (.intro opening someQuery closing)) (by simp)) .nil

theorem operand_guides : GuidesTo V (operand sub) (IsOperand P) := by
  intro before s h ready
  have absent : Guides V before (do note operandStarts; unexpected : Parser Expr) s :=
    .noteUnexpected ready (offers_operandStarts hsub h)
  refine .bindPeek ready ?_
  cases kind : (ahead s).kind with
  | keyword k =>
    have here : (ahead s).isEnd = false := by simp [Token.isEnd, kind]
    cases k with
    | NOT => exact unaryExpr_guides hsub .not h ready kind
    | TRUE | FALSE | NULL => exact literalExpr_guides ready here
    | CASE => exact caseExpr_guides hsub h ready
    | CAST => exact castExpr_guides hsub h ready
    | EXISTS => exact existsExpr_guides hsub h ready kind
    | _ => exact absent
  | identifier style => exact nameExpr_guides hsub h ready
  | number | string => exact literalExpr_guides ready (by simp [Token.isEnd, kind])
  | operator o =>
    cases o with
    | minus => exact unaryExpr_guides hsub .minus h ready kind
    | plus => exact unaryExpr_guides hsub .plus h ready kind
    | _ => exact absent
  | punctuation p =>
    cases p with
    | openParen => exact parenthesizedExpr_guides hsub h ready kind
    | _ => exact absent
  | endOfInput => exact absent

/-! ## Infix operators -/

omit hsub in
theorem infixOperator?_guides (ready : Ready V before s) :
    Guides V before infixOperator? s := by
  refine .bindPeek ready ?_
  split
  · exact .bindPeekAt ready (.pure ready)
  · exact .pure ready

omit hsub in
theorem truthTest_guides {t : Token} {left : Expr} (kind : t.kind = .keyword .IS)
    (h : Fits V before (IsFold P left .is)) (ready : Ready V (before ++ [t]) s) :
    Guides V (before ++ [t]) (truthTest left) s := by
  have null := kind_keyword TruthTest.null.keyword
  refine .flag ready (fun u not => h.part (.is kind (.present not) null) (by simp))
    fun o ns s₁ negation _ ready₁ => .bindPeek ready₁ ?_
  have test : ∀ {u : Token} (tt : TruthTest), u.kind = .keyword tt.keyword →
      V.holds (before ++ [t] ++ ns ++ [u]) := fun _ word =>
    h.part (.is kind negation word) (by simp)
  have absent : Guides V (before ++ [t] ++ ns)
      (do note [.keyword .NULL, .keyword .TRUE, .keyword .FALSE]; unexpected : Parser Expr) s₁ :=
    .noteUnexpected ready₁ (.cons trivial (test .null rfl) (.cons trivial (test .true rfl)
      (.cons trivial (test .false rfl) .nil)))
  cases word : (ahead s₁).kind with
  | keyword k =>
    have here : (ahead s₁).isEnd = false := by simp [Token.isEnd, word]
    cases k with
    | NULL | TRUE | FALSE => exact .bindNext ready₁ here fun _ _ ready₂ => .spanned ready₂
    | _ => exact absent
  | _ => exact absent

theorem elements_guides (left : Expr) (negated : Bool) :
    GuidesTo V (sub.queryOr (.inQuery left negated) do
      return .inList left negated (← commaSeparated sub.wholeExpr))
      (IsElements P left negated) :=
  queryOr_guides hsub (fun _ _ hq => ⟨_, .query hq⟩) fun _ _ h ready =>
    .map (commaSeparated_guides hsub.sound.wholeExpr hsub.wholeExpr (fun _ _ hes => h (.list hes))
      ready)

theorem predicateTail_guides (left : Expr) (negated : Bool) (p : Predicate) :
    GuidesTo V (predicateTail sub left negated p) (IsPredicateTail P left negated p) := by
  intro before s h ready
  obtain ⟨xs, x, some_⟩ := hsub.someExpr predicateLevel
  cases p with
  | isIn =>
    refine parenthesized_guides (elements_sound hsub.sound left negated)
      (elements_guides hsub left negated) ?_ (fun ts form hform => ?_) ready
    · obtain ⟨ys, y, some_⟩ := hsub.someExpr 0
      exact ⟨_, _, .list (separated_one some_)⟩
    · obtain ⟨opening, elements, closing⟩ := hform
      cases elements with
      | query query => exact h (.inQuery (.intro opening query closing))
      | list items => exact h (.inList (.intro opening items closing))
  | between =>
    have and := kind_keyword .AND
    refine .bind (hsub.expr _ (fun ls l hl => h.part (.between hl (.intro and some_)) (by simp))
      ready) (Q := fun ls l _ => P.expr predicateLevel ls l) (fun l s₁ hlow => ?_)
      fun l s₁ ls _ ready₁ low => ?_
    · obtain ⟨ls, hc, low, -⟩ := hsub.sound.expr _ ready.isEnd hlow
      exact ⟨ls, hc, low⟩
    refine .keyword ready₁ (fun t and => h.part (.between low (.intro and some_)) (by simp))
      fun t s₂ and _ ready₂ => ?_
    exact .map (hsub.expr _ (fun hs e he => h.part (.between low (.intro and he)) (by simp)) ready₂)
  | like => exact .map (hsub.expr _ (fun ts e he => h (.like he)) ready)

theorem foldInfix_guides {left : Expr} {op : InfixOperator} (hop : infixAhead s.tokens = some op)
    (h : Fits V before (IsFold P left op)) (ready : Ready V before s) :
    Guides V before (foldInfix sub left op) s := by
  have kind := kind_ahead ready.isEnd
  refine .bindNext ready (isEnd_ahead_of_infixAhead ready.isEnd hop) fun s₁ hc₁ ready₁ => ?_
  rcases infixAhead_eq_some hop with ⟨p, rfl, not, predicate⟩ | ⟨-, word⟩
  · have tokens : s.tokens.tail = s₁.tokens := by rw [hc₁.tokens]; rfl
    rw [tokens, ← kind_ahead hc₁.isEnd] at predicate
    refine .bindNext ready₁ ?_ fun s₂ _ ready₂ => ?_
    · cases hk : (ahead s₁).kind <;> simp_all [Token.isEnd, Predicate.ofKind?]
    refine .bind (predicateTail_guides hsub left true p (fun ts form tail =>
      h.part (.predicate (.present (kind.trans not)) predicate tail) (by simp)) ready₂)
      (Q := fun _ _ _ => True) (fun form s₃ hform => ?_) fun _ _ _ _ ready₃ _ => .spanned ready₃
    obtain ⟨ts, hc, -⟩ := predicateTail_sound hsub.sound ready₂.isEnd hform
    exact ⟨ts, hc, trivial⟩
  · rw [← kind] at word
    cases op with
    | binary op =>
      exact .map (hsub.expr _ (fun ts r hr => h.part (.binary word hr) (by simp)) ready₁)
    | is => exact truthTest_guides (InfixOperator.ofKind?_eq_is word) h ready₁
    | predicate negated p =>
      obtain ⟨rfl, predicate⟩ := InfixOperator.ofKind?_eq_predicate word
      refine .bind (predicateTail_guides hsub left false p (fun ts form tail =>
        h.part (.predicate .absent predicate tail) (by simp)) ready₁)
        (Q := fun _ _ _ => True) (fun form s₃ hform => ?_) fun _ _ _ _ ready₃ _ => .spanned ready₃
      obtain ⟨ts, hc, -⟩ := predicateTail_sound hsub.sound ready₁.isEnd hform
      exact ⟨ts, hc, trivial⟩

end

end SqlSyntax.Parser
