import SqlSyntax.Proofs.Parser.Infix

/-!
# Soundness of the parsers of expressions

Every success of a parser of expressions has consumed tokens that read as its
result. The readings of a fold ask how open its left operand is, so soundness
says beside it that no operator is left behind that belongs to the result.

## Main results

* `operand_sound` — what stands before the first infix operator.
* `foldInfix_sound` — an infix operator with what belongs to it.
-/

namespace SqlSyntax.Parser

open Grammar

/-! ## What is nested -/

/-- Parsers that are sound for the readings of what is nested. An expression
leaves no operator behind that belongs to it. -/
structure SoundNested (P : Phrases) (sub : Nested) : Prop where
  expr : ∀ (level : Nat) ⦃s e s'⦄, s.finish.isEnd → sub.expr level s = .ok e s' →
    ∃ ts, Consumes s ts s' ∧ P.expr level ts e ∧ StopsAt (min level e.openLevel) s'.tokens
  query : Sound sub.query P.query
  proper : P.Proper
  comma : P.comma

theorem SoundNested.wholeExpr {P : Phrases} {sub : Nested} (h : SoundNested P sub) :
    Sound sub.wholeExpr P.wholeExpr := by
  intro s e s' hend hs
  obtain ⟨ts, hc, he, -⟩ := h.expr 0 hend hs
  exact ⟨ts, hc, he⟩

/-! ## Soundness of operands -/

section

variable {P : Phrases} {sub : Nested} (hsub : SoundNested P sub) {s s' : ParserState}
  (hend : s.finish.isEnd)

include hend in
theorem literalExpr_sound {v : Literal} {e : Expr} (h : literalExpr v s = .ok e s')
    (hv : Literal.ofToken? (ahead s) = some v) :
    ∃ ts, Consumes s ts s' ∧ IsOperand P ts e ∧ StopsAt e.openLevel s'.tokens := by
  have kind : (ahead s).isEnd = false := by
    cases hk : (ahead s).kind <;> simp_all [Literal.ofToken?, Token.isEnd]
  obtain ⟨t, s₁, hn, h⟩ := bind_eq_ok.1 h
  obtain ⟨rfl, hc⟩ := next_eq_ok hend hn kind
  obtain ⟨rfl, rfl⟩ := pure_eq_ok.1 h
  exact ⟨_, hc, .literal hv, stopsAt_signLevel _⟩

include hsub

include hend in
theorem unaryExpr_sound (op : UnaryOperator) {e : Expr}
    (h : unaryExpr sub op op.operandLevel s = .ok e s') (kind : (ahead s).kind = op.kind) :
    ∃ ts, Consumes s ts s' ∧ IsOperand P ts e ∧ StopsAt e.openLevel s'.tokens := by
  obtain ⟨t, s₁, hn, h⟩ := bind_eq_ok.1 h
  obtain ⟨rfl, hc⟩ := next_eq_ok hend hn (by cases op <;> simp [Token.isEnd, kind, UnaryOperator.kind])
  obtain ⟨x, s₂, hx, h⟩ := bind_eq_ok.1 h
  obtain ⟨ts, hc', hoperand, hstops⟩ := hsub.expr op.operandLevel hc.isEnd hx
  obtain ⟨rfl, rfl⟩ := pure_eq_ok.1 h
  refine ⟨_, hc.trans hc', .unary kind hoperand, ?_⟩
  cases op <;> exact hstops

theorem arguments_sound : Sound (arguments sub) fun ts p =>
    ∃ us c, ts = us ++ [c] ∧ IsArguments P us p ∧ c.kind = .punctuation .closeParen := by
  intro s p s' hend h
  -- The three forms of arguments differ in what comes before the parenthesis.
  have close : ∀ {ts s₁} {q : Bool × Arguments}, Consumes s ts s₁ → IsArguments P ts q →
      (do let _ ← punctuation .closeParen; return q) s₁ = .ok p s' →
      ∃ ts, Consumes s ts s' ∧ ∃ us c, ts = us ++ [c] ∧ IsArguments P us p ∧
        c.kind = .punctuation .closeParen := by
    intro ts s₁ q hc hq h
    obtain ⟨_, s₂, hclose, h⟩ := bind_eq_ok.1 h
    obtain ⟨c, closing, -, hc'⟩ := punctuation_eq_ok hc.isEnd hclose
    obtain ⟨rfl, rfl⟩ := pure_eq_ok.1 h
    exact ⟨_, hc.trans hc', ts, c, rfl, hq, closing⟩
  obtain ⟨o, s₁, hstar, h⟩ := bind_eq_ok.1 h
  rcases operator?_eq_ok hend hstar with ⟨rfl, hc⟩ | ⟨t, star, rfl, hc⟩
  · obtain ⟨t, s₂, hp, h⟩ := bind_eq_ok.1 h
    obtain ⟨rfl, -⟩ := peek_eq_ok hp
    split at h
    · exact close hc .none h
    · obtain ⟨o, s₃, hdistinct, h⟩ := bind_eq_ok.1 h
      rcases keyword?_eq_ok hc.isEnd hdistinct with ⟨rfl, hc'⟩ | ⟨t, kind, rfl, hc'⟩
      · obtain ⟨es, s₄, hlist, h⟩ := bind_eq_ok.1 h
        obtain ⟨ts, hc'', hes⟩ := commaSeparated_sound hsub.wholeExpr hc'.isEnd hlist
        exact close (hc.trans (hc'.trans hc'')) (.list .absent hes) h
      · obtain ⟨es, s₄, hlist, h⟩ := bind_eq_ok.1 h
        obtain ⟨ts, hc'', hes⟩ := commaSeparated_sound hsub.wholeExpr hc'.isEnd hlist
        have hc₁ : Consumes s ([t] ++ ts) s₄ := hc.trans (hc'.trans hc'')
        exact close hc₁ (.list (.present kind) hes) h
  · exact close hc (.star star) h

include hend in
theorem nameExpr_sound {e : Expr} (h : nameExpr sub s = .ok e s') :
    ∃ ts, Consumes s ts s' ∧ IsOperand P ts e ∧ StopsAt e.openLevel s'.tokens := by
  obtain ⟨n, s₁, hname, h⟩ := bind_eq_ok.1 h
  obtain ⟨ts, hc, name⟩ := qualifiedName_sound hend hname
  obtain ⟨o, s₂, hopen, h⟩ := bind_eq_ok.1 h
  rcases punctuation?_eq_ok hc.isEnd hopen with ⟨rfl, hc'⟩ | ⟨t, opening, rfl, hc'⟩
  · obtain ⟨rfl, rfl⟩ := pure_eq_ok.1 h
    rw [← List.append_nil ts] at name
    exact ⟨_, hc.trans hc', .column name, stopsAt_signLevel _⟩
  · obtain ⟨⟨distinct, as⟩, s₃, harguments, h⟩ := bind_eq_ok.1 h
    obtain ⟨_, hc'', us, c, rfl, arguments, closing⟩ := arguments_sound hsub hc'.isEnd harguments
    obtain ⟨span, s₄, hspan, h⟩ := bind_eq_ok.1 h
    have consumed := hc.trans (hc'.trans hc'')
    obtain ⟨rfl, rfl⟩ := spanFrom_eq_ok hspan (by simp) consumed
    obtain ⟨rfl, rfl⟩ := pure_eq_ok.1 h
    exact ⟨_, consumed, .call name (.intro opening arguments closing), stopsAt_signLevel _⟩

theorem whenBranch_sound {t : Token} {s₀ : ParserState} {b : WhenBranch}
    (kind : t.kind = .keyword .WHEN) (hc : Consumes s₀ [t] s)
    (h : whenBranch sub t.span s = .ok b s') :
    ∃ ts, Consumes s ts s' ∧ IsBranch P (t :: ts) b := by
  obtain ⟨c, s₁, hcondition, h⟩ := bind_eq_ok.1 h
  obtain ⟨cs, hc₁, condition⟩ := hsub.wholeExpr hc.isEnd hcondition
  obtain ⟨_, s₂, hthen, h⟩ := bind_eq_ok.1 h
  obtain ⟨u, then_, -, hc₂⟩ := keyword_eq_ok hc₁.isEnd hthen
  obtain ⟨r, s₃, hresult, h⟩ := bind_eq_ok.1 h
  obtain ⟨rs, hc₃, result⟩ := hsub.wholeExpr hc₂.isEnd hresult
  obtain ⟨span, s₄, hspan, h⟩ := bind_eq_ok.1 h
  have consumed : Consumes s₀ (t :: (cs ++ u :: rs)) s₃ := hc.trans (hc₁.trans (hc₂.trans hc₃))
  obtain ⟨rfl, rfl⟩ := spanFrom_eq_ok hspan (by simp) consumed
  obtain ⟨rfl, rfl⟩ := pure_eq_ok.1 h
  exact ⟨_, hc₁.trans (hc₂.trans hc₃), .intro kind condition (.intro then_ result)⟩

theorem branchStep_sound : SoundStep (fun branches => do
    match ← keyword? .WHEN with
    | some span => return some ((← whenBranch sub span) :: branches)
    | none => return none) fun as ts bs => ∃ a, bs = a :: as ∧ IsBranch P ts a := by
  intro as s o s' hend h
  obtain ⟨o, s₁, hwhen, h⟩ := bind_eq_ok.1 h
  rcases keyword?_eq_ok hend hwhen with ⟨rfl, hc⟩ | ⟨w, when, rfl, hc⟩
  · obtain ⟨rfl, rfl⟩ := pure_eq_ok.1 h
    exact .inl ⟨rfl, hc⟩
  · obtain ⟨b, s₂, hbranch, h⟩ := bind_eq_ok.1 h
    obtain ⟨rfl, rfl⟩ := pure_eq_ok.1 h
    obtain ⟨ts, hc', branch⟩ := whenBranch_sound hsub when hc hbranch
    exact .inr ⟨_, _, rfl, hc.trans hc', b, rfl, branch⟩

include hend in
theorem caseExpr_sound {e : Expr} (h : caseExpr sub s = .ok e s') :
    ∃ ts, Consumes s ts s' ∧ IsOperand P ts e ∧ StopsAt e.openLevel s'.tokens := by
  obtain ⟨start, s₁, hcase, h⟩ := bind_eq_ok.1 h
  obtain ⟨t, kind, rfl, hc₁⟩ := keyword_eq_ok hend hcase
  -- The branches and what is behind them, once the operand is read.
  have behind : ∀ {os s₂} {o : Option Expr}, Consumes s₁ os s₂ → Optional P.wholeExpr os o →
      (do
        let first ← whenBranch sub (← keyword .WHEN)
        let others ← iterate (fun branches => do
          match ← keyword? .WHEN with
          | some span => return some ((← whenBranch sub span) :: branches)
          | none => return none) []
        let otherwise ← do
          match ← keyword? .ELSE with
          | some _ => pure (some (← sub.wholeExpr))
          | none => pure none
        let _ ← keyword .END
        return (⟨← spanFrom t.span, .case o (first :: others.reverse) otherwise⟩ : Expr)) s₂
        = .ok e s' →
      ∃ ts, Consumes s ts s' ∧ IsOperand P ts e ∧ StopsAt e.openLevel s'.tokens := by
    intro os s₂ o hc₂ operand h
    obtain ⟨_, s₃, hwhen, h⟩ := bind_eq_ok.1 h
    obtain ⟨w, when, rfl, hc₃⟩ := keyword_eq_ok hc₂.isEnd hwhen
    obtain ⟨first, s₄, hfirst, h⟩ := bind_eq_ok.1 h
    obtain ⟨bs, hc₄, branch⟩ := whenBranch_sound hsub when hc₃ hfirst
    obtain ⟨others, s₅, hloop, h⟩ := bind_eq_ok.1 h
    obtain ⟨bs', hc₅, branches⟩ := collect_sound (branchStep_sound hsub) hc₄.isEnd hloop
    have body : Many (IsBranch P) (w :: bs ++ bs') (first :: others.reverse) :=
      .cons branch branches
    have finish : ∀ {es s₆} {x : Option Expr}, Consumes s₅ es s₆ →
        Optional (Behind (.keyword .ELSE) P.wholeExpr) es x →
        (do
          let _ ← keyword .END
          return (⟨← spanFrom t.span, .case o (first :: others.reverse) x⟩ : Expr)) s₆
          = .ok e s' →
        ∃ ts, Consumes s ts s' ∧ IsOperand P ts e ∧ StopsAt e.openLevel s'.tokens := by
      intro es s₆ x hc₆ otherwise h
      obtain ⟨_, s₇, hend', h⟩ := bind_eq_ok.1 h
      obtain ⟨c, closing, -, hc₇⟩ := keyword_eq_ok hc₆.isEnd hend'
      obtain ⟨span, s₈, hspan, h⟩ := bind_eq_ok.1 h
      have consumed : Consumes s (t :: (os ++ (w :: bs ++ bs' ++ (es ++ [c])))) s₇ :=
        hc₁.trans (hc₂.trans (((hc₃.trans hc₄).trans hc₅).trans (hc₆.trans hc₇)))
      obtain ⟨rfl, rfl⟩ := spanFrom_eq_ok hspan (by simp) consumed
      obtain ⟨rfl, rfl⟩ := pure_eq_ok.1 h
      exact ⟨_, consumed, .case kind operand (by simp) body otherwise closing,
        stopsAt_signLevel _⟩
    obtain ⟨o', s₆, helse, h⟩ := bind_eq_ok.1 h
    rcases keyword?_eq_ok hc₅.isEnd helse with ⟨rfl, hc₆⟩ | ⟨u, else_, rfl, hc₆⟩
    · exact finish hc₆ .none h
    · obtain ⟨x, s₇, hx, h⟩ := bind_eq_ok.1 h
      obtain ⟨xs, hc₇, other⟩ := hsub.wholeExpr hc₆.isEnd hx
      exact finish (hc₆.trans hc₇) (.some (.intro else_ other)) h
  obtain ⟨u, s₂, hp, h⟩ := bind_eq_ok.1 h
  obtain ⟨rfl, -⟩ := peek_eq_ok hp
  split at h
  · exact behind (.refl hc₁.isEnd) .none h
  · obtain ⟨x, s₃, hx, h⟩ := bind_eq_ok.1 h
    obtain ⟨os, hc₂, operand⟩ := hsub.wholeExpr hc₁.isEnd hx
    exact behind hc₂ (.some operand) h

include hend in
theorem castExpr_sound {e : Expr} (h : castExpr sub s = .ok e s') :
    ∃ ts, Consumes s ts s' ∧ IsOperand P ts e ∧ StopsAt e.openLevel s'.tokens := by
  obtain ⟨start, s₁, hcast, h⟩ := bind_eq_ok.1 h
  obtain ⟨t, kind, rfl, hc₁⟩ := keyword_eq_ok hend hcast
  obtain ⟨_, s₂, hopen, h⟩ := bind_eq_ok.1 h
  obtain ⟨o, opening, -, hc₂⟩ := punctuation_eq_ok hc₁.isEnd hopen
  obtain ⟨x, s₃, hx, h⟩ := bind_eq_ok.1 h
  obtain ⟨xs, hc₃, operand⟩ := hsub.wholeExpr hc₂.isEnd hx
  obtain ⟨_, s₄, has, h⟩ := bind_eq_ok.1 h
  obtain ⟨u, as, -, hc₄⟩ := keyword_eq_ok hc₃.isEnd has
  obtain ⟨type, s₅, htype, h⟩ := bind_eq_ok.1 h
  obtain ⟨ts, hc₅, type'⟩ := dataType_sound hc₄.isEnd htype
  obtain ⟨_, s₆, hclose, h⟩ := bind_eq_ok.1 h
  obtain ⟨c, closing, -, hc₆⟩ := punctuation_eq_ok hc₅.isEnd hclose
  obtain ⟨span, s₇, hspan, h⟩ := bind_eq_ok.1 h
  have body := hc₃.trans (hc₄.trans hc₅)
  have consumed : Consumes s (t :: o :: (xs ++ u :: ts ++ [c])) s₆ :=
    hc₁.trans (hc₂.trans (body.trans hc₆))
  obtain ⟨rfl, rfl⟩ := spanFrom_eq_ok hspan (by simp) consumed
  obtain ⟨rfl, rfl⟩ := pure_eq_ok.1 h
  exact ⟨_, consumed, .cast kind (.intro opening (.intro operand (.intro as type')) closing),
    stopsAt_signLevel _⟩

include hend in
theorem existsExpr_sound {e : Expr} (h : existsExpr sub s = .ok e s')
    (kind : (ahead s).kind = .keyword .EXISTS) :
    ∃ ts, Consumes s ts s' ∧ IsOperand P ts e ∧ StopsAt e.openLevel s'.tokens := by
  obtain ⟨t, s₁, hn, h⟩ := bind_eq_ok.1 h
  obtain ⟨rfl, hc₁⟩ := next_eq_ok hend hn (by simp [Token.isEnd, kind])
  obtain ⟨q, s₂, hq, h⟩ := bind_eq_ok.1 h
  obtain ⟨qs, hc₂, query⟩ := parenthesized_sound hsub.query hc₁.isEnd hq
  obtain ⟨span, s₃, hspan, h⟩ := bind_eq_ok.1 h
  have consumed : Consumes s (ahead s :: qs) s₂ := hc₁.trans hc₂
  obtain ⟨rfl, rfl⟩ := spanFrom_eq_ok hspan (by simp) consumed
  obtain ⟨rfl, rfl⟩ := pure_eq_ok.1 h
  exact ⟨_, consumed, .existsQuery kind query, stopsAt_signLevel _⟩

theorem queryOr_sound {α : Type} {ofQuery : Query → α} {otherwise : Parser α}
    {R : List Token → α → Prop} (hquery : ∀ ts q, P.query ts q → R ts (ofQuery q))
    (hother : Sound otherwise R) : Sound (sub.queryOr ofQuery otherwise) R := by
  intro s a s' hend h
  obtain ⟨t, s₁, hp, h⟩ := bind_eq_ok.1 h
  obtain ⟨rfl, -⟩ := peek_eq_ok hp
  split at h
  · obtain ⟨q, s₂, hq, h⟩ := bind_eq_ok.1 h
    obtain ⟨rfl, rfl⟩ := pure_eq_ok.1 h
    obtain ⟨ts, hc, query⟩ := hsub.query hend hq
    exact ⟨ts, hc, hquery ts q query⟩
  · exact hother hend h

/-- A query or an expression, as what stands in parentheses. -/
inductive IsNestedForm (P : Phrases) : List Token → ExprForm → Prop where
  | subquery {ts : List Token} {q : Query} (query : P.query ts q) : IsNestedForm P ts (.subquery q)
  | nested {ts : List Token} {e : Expr} (inner : P.wholeExpr ts e) : IsNestedForm P ts (.nested e)

theorem nestedForm_sound :
    Sound (sub.queryOr .subquery do return .nested (← sub.wholeExpr)) (IsNestedForm P) := by
  refine queryOr_sound hsub (fun _ _ => .subquery) fun s form s' hend h => ?_
  obtain ⟨x, s₁, hx, h⟩ := bind_eq_ok.1 h
  obtain ⟨rfl, rfl⟩ := pure_eq_ok.1 h
  obtain ⟨ts, hc, inner⟩ := hsub.wholeExpr hend hx
  exact ⟨ts, hc, .nested inner⟩

include hend in
theorem parenthesizedExpr_sound {e : Expr} (h : parenthesizedExpr sub s = .ok e s')
    (kind : (ahead s).kind = .punctuation .openParen) :
    ∃ ts, Consumes s ts s' ∧ IsOperand P ts e ∧ StopsAt e.openLevel s'.tokens := by
  obtain ⟨t, s₁, hn, h⟩ := bind_eq_ok.1 h
  obtain ⟨rfl, hc₁⟩ := next_eq_ok hend hn (by simp [Token.isEnd, kind])
  obtain ⟨form, s₂, hform, h⟩ := bind_eq_ok.1 h
  obtain ⟨ts, hc₂, inner⟩ := nestedForm_sound hsub hc₁.isEnd hform
  obtain ⟨_, s₃, hclose, h⟩ := bind_eq_ok.1 h
  obtain ⟨c, closing, -, hc₃⟩ := punctuation_eq_ok hc₂.isEnd hclose
  obtain ⟨span, s₄, hspan, h⟩ := bind_eq_ok.1 h
  have consumed : Consumes s (ahead s :: (ts ++ [c])) s₃ := hc₁.trans (hc₂.trans hc₃)
  obtain ⟨rfl, rfl⟩ := spanFrom_eq_ok hspan (by simp) consumed
  obtain ⟨rfl, rfl⟩ := pure_eq_ok.1 h
  cases inner with
  | subquery query => exact ⟨_, consumed, .subquery kind query closing, stopsAt_signLevel _⟩
  | nested inner => exact ⟨_, consumed, .nested kind inner closing, stopsAt_signLevel _⟩

include hend in
theorem operand_sound {e : Expr} (h : operand sub s = .ok e s') :
    ∃ ts, Consumes s ts s' ∧ IsOperand P ts e ∧ StopsAt e.openLevel s'.tokens := by
  obtain ⟨t, s₁, hp, h⟩ := bind_eq_ok.1 h
  obtain ⟨rfl, rfl⟩ := peek_eq_ok hp
  cases kind : (ahead s).kind with
  | keyword k =>
    simp only [kind] at h
    cases k with
    | NOT => exact unaryExpr_sound hsub hend .not h kind
    | TRUE | FALSE | NULL => exact literalExpr_sound hend h (by simp [Literal.ofToken?, kind])
    | CASE => exact caseExpr_sound hsub hend h
    | CAST => exact castExpr_sound hsub hend h
    | EXISTS => exact existsExpr_sound hsub hend h kind
    | _ =>
      obtain ⟨_, s₁, -, h⟩ := bind_eq_ok.1 h
      exact absurd h unexpected_ne_ok
  | identifier style =>
    simp only [kind] at h
    exact nameExpr_sound hsub hend h
  | number | string =>
    simp only [kind] at h
    exact literalExpr_sound hend h (by simp [Literal.ofToken?, kind])
  | operator o =>
    simp only [kind] at h
    cases o with
    | minus => exact unaryExpr_sound hsub hend .minus h kind
    | plus => exact unaryExpr_sound hsub hend .plus h kind
    | _ =>
      obtain ⟨_, s₁, -, h⟩ := bind_eq_ok.1 h
      exact absurd h unexpected_ne_ok
  | punctuation p =>
    simp only [kind] at h
    cases p with
    | openParen => exact parenthesizedExpr_sound hsub hend h kind
    | _ =>
      obtain ⟨_, s₁, -, h⟩ := bind_eq_ok.1 h
      exact absurd h unexpected_ne_ok
  | endOfInput =>
    simp only [kind] at h
    obtain ⟨_, s₁, -, h⟩ := bind_eq_ok.1 h
    exact absurd h unexpected_ne_ok

/-! ## Soundness of infix operators -/

omit hsub in
include hend in
theorem truthTest_sound {s₀ : ParserState} {t : Token} {left e : Expr}
    (kind : t.kind = .keyword .IS) (hc₀ : Consumes s₀ [t] s) (h : truthTest left s = .ok e s') :
    ∃ ts, Consumes s₀ ts s' ∧ IsFold P left .is ts e ∧ StopsAt e.openLevel s'.tokens := by
  obtain ⟨negated, s₁, hnot, h⟩ := bind_eq_ok.1 h
  obtain ⟨ns, hc₁, negation⟩ := flag_sound hend hnot
  obtain ⟨u, s₂, hp, h⟩ := bind_eq_ok.1 h
  obtain ⟨rfl, rfl⟩ := peek_eq_ok hp
  have finish : ∀ test : TruthTest, (ahead s₁).kind = .keyword test.keyword →
      (do
        let _ ← next
        return (⟨← spanFrom left.span, .is left negated.isSome test⟩ : Expr)) s₁ = .ok e s' →
      ∃ ts, Consumes s₀ ts s' ∧ IsFold P left .is ts e ∧ StopsAt e.openLevel s'.tokens := by
    intro test word h
    obtain ⟨u, s₂, hn, h⟩ := bind_eq_ok.1 h
    obtain ⟨rfl, hc₂⟩ := next_eq_ok hc₁.isEnd hn (by simp [Token.isEnd, word])
    obtain ⟨span, s₃, hspan, h⟩ := bind_eq_ok.1 h
    have consumed : Consumes s₀ (t :: (ns ++ [ahead s₁])) s₂ := hc₀.trans (hc₁.trans hc₂)
    obtain ⟨rfl, rfl⟩ := spanFrom_eq_ok hspan (by simp) consumed
    obtain ⟨rfl, rfl⟩ := pure_eq_ok.1 h
    exact ⟨_, consumed, .is kind negation word, stopsAt_signLevel _⟩
  cases word : (ahead s₁).kind with
  | keyword k =>
    simp only [word] at h
    cases k with
    | NULL => exact finish .null word h
    | TRUE => exact finish .true word h
    | FALSE => exact finish .false word h
    | _ =>
      obtain ⟨_, s₂, -, h⟩ := bind_eq_ok.1 h
      exact absurd h unexpected_ne_ok
  | _ =>
    simp only [word] at h
    obtain ⟨_, s₂, -, h⟩ := bind_eq_ok.1 h
    exact absurd h unexpected_ne_ok

/-- What `IN` looks through: a query or a list of expressions. -/
inductive IsElements (P : Phrases) (left : Expr) (negated : Bool) :
    List Token → ExprForm → Prop where
  | query {ts : List Token} {q : Query} (query : P.query ts q) :
      IsElements P left negated ts (.inQuery left negated q)
  | list {ts : List Token} {es : List Expr} (items : CommaSeparated P.wholeExpr ts es) :
      IsElements P left negated ts (.inList left negated es)

theorem elements_sound (left : Expr) (negated : Bool) :
    Sound (sub.queryOr (.inQuery left negated) do
      return .inList left negated (← commaSeparated sub.wholeExpr))
      (IsElements P left negated) := by
  refine queryOr_sound hsub (fun _ _ => .query) fun s form s' hend h => ?_
  obtain ⟨es, s₁, hes, h⟩ := bind_eq_ok.1 h
  obtain ⟨rfl, rfl⟩ := pure_eq_ok.1 h
  obtain ⟨ts, hc, items⟩ := commaSeparated_sound hsub.wholeExpr hend hes
  exact ⟨ts, hc, .list items⟩

include hend in
theorem predicateTail_sound {left : Expr} {negated : Bool} {p : Predicate} {form : ExprForm}
    (h : predicateTail sub left negated p s = .ok form s') :
    ∃ ts, Consumes s ts s' ∧ IsPredicateTail P left negated p ts form ∧
      ∀ span, StopsAt (Expr.openLevel ⟨span, form⟩) s'.tokens := by
  cases p with
  | isIn =>
    obtain ⟨ts, hc, elements⟩ := parenthesized_sound (elements_sound hsub left negated) hend h
    obtain ⟨opening, elements, closing⟩ := elements
    cases elements with
    | query query =>
      exact ⟨_, hc, .inQuery (.intro opening query closing), fun _ => stopsAt_signLevel _⟩
    | list items =>
      exact ⟨_, hc, .inList (.intro opening items closing), fun _ => stopsAt_signLevel _⟩
  | between =>
    obtain ⟨low, s₁, hlow, h⟩ := bind_eq_ok.1 h
    obtain ⟨ls, hc₁, low', -⟩ := hsub.expr _ hend hlow
    obtain ⟨_, s₂, hand, h⟩ := bind_eq_ok.1 h
    obtain ⟨t, and, -, hc₂⟩ := keyword_eq_ok hc₁.isEnd hand
    obtain ⟨high, s₃, hhigh, h⟩ := bind_eq_ok.1 h
    obtain ⟨hs, hc₃, high', hstops⟩ := hsub.expr _ hc₂.isEnd hhigh
    obtain ⟨rfl, rfl⟩ := pure_eq_ok.1 h
    exact ⟨_, hc₁.trans (hc₂.trans hc₃), .between low' (.intro and high'), fun _ => hstops⟩
  | like =>
    obtain ⟨e, s₁, he, h⟩ := bind_eq_ok.1 h
    obtain ⟨ts, hc, pattern, hstops⟩ := hsub.expr _ hend he
    obtain ⟨rfl, rfl⟩ := pure_eq_ok.1 h
    exact ⟨_, hc, .like pattern, fun _ => hstops⟩

include hend in
/-- What folds the infix operator that comes next. -/
theorem foldInfix_sound {left e : Expr} {op : InfixOperator}
    (hop : infixAhead s.tokens = some op) (h : foldInfix sub left op s = .ok e s') :
    ∃ ts, Consumes s ts s' ∧ IsFold P left op ts e ∧ StopsAt e.openLevel s'.tokens := by
  obtain ⟨t, s₁, hn, h⟩ := bind_eq_ok.1 h
  have kind := kind_ahead hend
  have here := isEnd_ahead_of_infixAhead hend hop
  obtain ⟨rfl, hc₁⟩ := next_eq_ok hend hn here
  rcases infixAhead_eq_some hop with ⟨p, rfl, not, predicate⟩ | ⟨-, word⟩
  · obtain ⟨u, s₂, hn, h⟩ := bind_eq_ok.1 h
    have tokens : s.tokens.tail = s₁.tokens := by rw [hc₁.tokens]; rfl
    rw [tokens, ← kind_ahead hc₁.isEnd] at predicate
    obtain ⟨rfl, hc₂⟩ := next_eq_ok hc₁.isEnd hn (by
      cases hk : (ahead s₁).kind <;> simp_all [Token.isEnd, Predicate.ofKind?])
    obtain ⟨form, s₃, hform, h⟩ := bind_eq_ok.1 h
    obtain ⟨ts, hc₃, tail, hstops⟩ := predicateTail_sound hsub hc₂.isEnd hform
    obtain ⟨span, s₄, hspan, h⟩ := bind_eq_ok.1 h
    have consumed : Consumes s ([ahead s] ++ ahead s₁ :: ts) s₃ := hc₁.trans (hc₂.trans hc₃)
    obtain ⟨rfl, rfl⟩ := spanFrom_eq_ok hspan (by simp) consumed
    obtain ⟨rfl, rfl⟩ := pure_eq_ok.1 h
    exact ⟨_, consumed, .predicate (.present (kind.trans not)) predicate tail, hstops _⟩
  · rw [← kind] at word
    cases op with
    | binary op =>
      obtain ⟨r, s₂, hr, h⟩ := bind_eq_ok.1 h
      obtain ⟨ts, hc₂, right, hstops⟩ := hsub.expr _ hc₁.isEnd hr
      obtain ⟨rfl, rfl⟩ := pure_eq_ok.1 h
      exact ⟨_, hc₁.trans hc₂, .binary word right, hstops⟩
    | is => exact truthTest_sound hc₁.isEnd (InfixOperator.ofKind?_eq_is word) hc₁ h
    | predicate negated p =>
      obtain ⟨rfl, predicate⟩ := InfixOperator.ofKind?_eq_predicate word
      obtain ⟨form, s₂, hform, h⟩ := bind_eq_ok.1 h
      obtain ⟨ts, hc₂, tail, hstops⟩ := predicateTail_sound hsub hc₁.isEnd hform
      obtain ⟨span, s₃, hspan, h⟩ := bind_eq_ok.1 h
      have consumed : Consumes s ([] ++ ahead s :: ts) s₂ := hc₁.trans hc₂
      obtain ⟨rfl, rfl⟩ := spanFrom_eq_ok hspan (by simp) consumed
      obtain ⟨rfl, rfl⟩ := pure_eq_ok.1 h
      exact ⟨_, consumed, .predicate .absent predicate tail, hstops _⟩

end

end SqlSyntax.Parser
