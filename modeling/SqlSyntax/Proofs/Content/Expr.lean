import SqlSyntax.Proofs.Content.Name
import SqlSyntax.Proofs.Grammar.Expr

/-!
# Content of expressions

What stands before the first infix operator yields the content of its tree, and
an infix operator with what belongs to it yields what it adds to that of its left
operand.

## Main results

* `IsOperand.yields`, `IsFold.yields`
-/

namespace SqlSyntax

/-- The keyword of a predicate. -/
def Predicate.keyword : Predicate → Keyword
  | .isIn => .IN
  | .between => .BETWEEN
  | .like => .LIKE

theorem Predicate.ofKind?_eq_some {k : TokenKind} {p : Predicate} (h : ofKind? k = some p) :
    k = .keyword p.keyword := by
  unfold ofKind? at h
  split at h <;> cases h <;> rfl

namespace Grammar

open Content

/-- Whether an expression can end with a token of a kind. -/
abbrev Done : TokenKind → Prop := fun k => endsOperand k

/-- Whether the readings of what is nested yield the content of their trees. A
limit with a comma may be noticed. -/
structure Phrases.Yielding (P : Phrases) : Prop where
  expr : ∀ {R f o K level ts e}, (P.comma → R true) → f ≠ .table → (∀ k, K k → Opens k) →
    P.expr level ts e → Yields (Calm R f o K) (Calm R f o Done) ts e.content
  query : ∀ {R o K ts q}, (P.comma → R true) → P.query ts q →
    Yields (Calm R .plain o K) (Ends R o) ts q.content

section

variable {P : Phrases} (hP : P.Yielding) {R : Bool → Prop} (hR : P.comma → R true) {f : Frame}
  {o : List Frame} {K : TokenKind → Prop} {ts : List Token}

include hP hR

/-! ## Operands -/

theorem expr_behind (hf : f ≠ .table) {k : Keyword} {level : Nat} {e : Expr}
    (h : Behind (.keyword k) (P.expr level) ts e) (plain : isPlain k) (opens : Opens (.keyword k)) :
    Yields (Calm R f o K) (Calm R f o Done) ts (.keyword k :: e.content) :=
  h.yields plain rfl fun _ part => hP.expr hR hf (fun _ h => h ▸ opens) part

/-- Expressions with commas between them, outside a limit and a new table. -/
theorem exprs_yields (hf : f ≠ .table) (hf' : f ≠ .limited) (hf'' : f ≠ .columns) {es : List Expr}
    (h : CommaSeparated P.wholeExpr ts es) (hK : ∀ k, K k → Opens k) :
    Yields (Calm R f o K) (Calm R f o Done) ts (es.flatMap Expr.content) := by
  have list : Yields (Calm R f o Opens) (Calm R f o Done) ts (es.flatMap Expr.content) :=
    h.yields (fun _ _ part => hP.expr hR hf (fun _ => id) part)
      fun _ kind => yields_comma kind hf' hf'' ⟨nofun, rfl⟩
  exact list.mono (fun _ hm => hm.imp hK) fun _ => id

/-- Expressions with commas between them in parentheses. -/
theorem row_yields (hf : f ≠ .table) (hK : ∀ k, K k → k ≠ .keyword .CAST) {es : List Expr}
    (h : Parenthesized (CommaSeparated P.wholeExpr) ts es) :
    Yields (Calm R f o K) (Calm R f o Done) ts (es.flatMap Expr.content) :=
  h.yields hf hK rfl fun _ list =>
    (exprs_yields hP hR (f := .plain) (K := (· = .punctuation .openParen)) nofun nofun nofun list
      fun _ h => h ▸ ⟨nofun, rfl⟩).mono (fun _ => id) fun _ => At.ends

theorem IsArguments.yields {distinct : Bool} {as : Arguments}
    (h : IsArguments P ts (distinct, as)) :
    Yields (Calm R .plain o (· = .punctuation .openParen)) (Ends R o) ts
      (flag .DISTINCT distinct ++ as.content) := by
  cases h with
  | star kind =>
    exact (yields_operator (L := Anything) kind trivial).mono (fun _ => id) fun _ => At.ends
  | none => exact yields_nil fun _ => At.ends
  | list mark items =>
    have marked := mark.yields (R := R) (f := .plain) (o := o)
      (K := (· = .punctuation .openParen)) (L := Opens) rfl (fun _ h => h ▸ ⟨nofun, rfl⟩)
      ⟨nofun, rfl⟩
    have list := exprs_yields hP hR (f := .plain) (o := o) nofun nofun nofun items fun _ => id
    exact ((marked.append list).mono (fun _ => id) fun _ => At.ends).congr
      (by simp [Arguments.content])

theorem IsBranch.yields (hf : f ≠ .table) {b : WhenBranch} (h : IsBranch P ts b) :
    Yields (Calm R f o Anything) (Calm R f o Anything) ts b.content := by
  obtain ⟨kind, condition, result⟩ := h
  have condition := hP.expr (K := Opens) (o := o) hR hf (fun _ => id) condition
  have result := expr_behind hP hR (K := Done) (o := o) hf result rfl ⟨nofun, rfl⟩
  exact .keyword kind rfl (condition.append result.forget) ⟨nofun, rfl⟩

theorem IsCast.yields {e : Expr} {d : DataType} (h : IsCast P ts (e, d)) :
    YieldsBefore Parser.FollowsType (Calm R .cast o Opens) (Ends R o) ts
      (e.content ++ [.type d]) := by
  obtain ⟨operand, ⟨kind, type⟩⟩ := h
  have operand := hP.expr (f := .cast) (K := Opens) (o := o) hR nofun (fun _ => id) operand
  have type := yields_dataType (R := R) (f := .cast) (o := o) (K := Anything) type
  have behind := Yields.append (yields_asType (K := Done) kind) type
  exact (Yields.append operand behind).mono (fun _ => id) fun _ => At.ends

omit hP hR in
theorem literal_yields {t : Token} {v : Literal} (h : Literal.ofToken? t = some v) :
    Yields (Calm R f o K) (Calm R f o Done) [t] v.piece.content := by
  unfold Literal.ofToken? at h
  split at h
  case h_1 kind =>
    obtain rfl := Option.some.inj h
    exact yields_number kind rfl
  case h_2 kind =>
    obtain rfl := Option.some.inj h
    exact yields_string kind rfl
  case h_6 => exact nomatch h
  all_goals
    obtain rfl := Option.some.inj h
    exact yields_keyword ‹_› rfl nofun rfl

omit hP hR in
theorem UnaryOperator.yields {t : Token} {op : UnaryOperator} (h : t.kind = op.kind) :
    Yields (Calm R f o K) (Calm R f o Opens) [t] op.piece.content := by
  cases op with
  | not => exact yields_keyword h rfl nofun ⟨nofun, rfl⟩
  | minus | plus => exact yields_operator h ⟨nofun, rfl⟩

/-- What stands before the first infix operator yields the content of its
tree. -/
theorem IsOperand.yields (hf : f ≠ .table) (hK : ∀ k, K k → Opens k) {e : Expr}
    (h : IsOperand P ts e) : Yields (Calm R f o K) (Calm R f o Done) ts e.content := by
  have closes : Done (.punctuation .closeParen) := rfl
  cases h with
  | column name =>
    exact (name.yields fun k h => (hK k h).names).mono (fun _ => id) fun _ hm =>
      hm.imp fun _ => Named.endsOperand
  | call name arguments =>
    have name := name.yields (R := R) (f := f) (o := o) fun k h => (hK k h).names
    exact name.append (arguments.yields hf (fun _ => Named.ne_cast) closes
      fun _ inner => inner.yields hP hR)
  | literal value => exact literal_yields value
  | unary kind operand =>
    exact Yields.append (UnaryOperator.yields kind) (hP.expr hR hf (fun _ => id) operand)
  | case kind operand nonempty body otherwise closing =>
    have operand := operand.yields (A := Calm R f o (· = .keyword .CASE)) (B := Calm R f o Anything)
      (fun _ hm => hm.imp fun _ _ => trivial)
      fun _ _ part => (hP.expr (K := (· = .keyword .CASE)) hR hf
        (fun _ h => h ▸ ⟨by simp, rfl⟩) part).forget
    have body := body.yields fun _ _ part => part.yields hP hR (o := o) hf
    have otherwise := otherwise.yields (A := Calm R f o Anything) (fun _ => id)
      fun _ _ part => (expr_behind hP hR hf part rfl ⟨by simp, rfl⟩).forget
    have closing := yields_keyword (R := R) (f := f) (o := o) (x := .nothing) (K := Anything)
      (L := Done) closing rfl (by simp) rfl
    exact (YieldsBefore.keyword kind rfl (operand.append (body.append (otherwise.append closing)))
      rfl).congr (by simp [Expr.content, ExprForm.content])
  | cast kind body =>
    obtain ⟨opening, body, closing⟩ := body
    have opened := yields_openCast (R := R) (f := f) (o := o) (L := Opens) opening hf ⟨by simp, rfl⟩
    have closed := yields_close (R := R) (f := f) (o := o) (L := Done) closing closes
    have inner := (body.yields hP hR (o := f :: o)).append closed fun rest _ => by
      simp [Parser.FollowsType, closing]
    exact (YieldsBefore.keyword kind rfl (opened.append inner) rfl).congr
      (by simp [Expr.content, ExprForm.content])
  | existsQuery kind query =>
    have inner := query.yields (R := R) (f := f) (o := o) (K := (· = .keyword .EXISTS)) hf
      (fun _ h => h ▸ by simp) closes fun _ inner => hP.query hR inner
    exact .keyword kind rfl inner rfl
  | subquery opening query closing =>
    exact (Parenthesized.intro opening query closing).yields hf (fun _ h => (hK _ h).1) closes
      fun _ inner => hP.query hR inner
  | nested opening inner closing =>
    exact (Parenthesized.intro opening inner closing).yields hf (fun _ h => (hK _ h).1) closes
      fun _ inner => (hP.expr (f := .plain) (K := (· = .punctuation .openParen)) hR (by simp)
        (fun _ h => h ▸ ⟨by simp, rfl⟩) inner).mono (fun _ => id) fun _ => At.ends

/-! ## Infix operators -/

omit hP hR in
theorem BinaryOperator.yields {t : Token} {op : BinaryOperator}
    (h : InfixOperator.ofKind? t.kind = some (.binary op)) :
    Yields (Calm R f o K) (Calm R f o Opens) [t] op.piece.content := by
  unfold InfixOperator.ofKind? at h
  split at h
  case h_1 kind =>
    obtain rfl := InfixOperator.binary.inj (Option.some.inj h)
    exact yields_keyword kind rfl nofun ⟨nofun, rfl⟩
  case h_2 kind =>
    obtain rfl := InfixOperator.binary.inj (Option.some.inj h)
    exact yields_keyword kind rfl nofun ⟨nofun, rfl⟩
  case h_3 => exact nomatch Option.some.inj h
  case h_4 p kind =>
    obtain rfl := InfixOperator.binary.inj (Option.some.inj h)
    have piece : (BinaryOperator.ofOperator p).piece.content = [.operator p] := by cases p <;> rfl
    exact (yields_operator kind ⟨nofun, rfl⟩).congr piece.symm
  case h_5 =>
    obtain ⟨p, -, h⟩ := Option.map_eq_some_iff.1 h
    exact nomatch h

/-- What follows the keyword of a predicate. -/
theorem IsPredicateTail.yields (hf : f ≠ .table) {left : Expr} {negated : Bool} {p : Predicate}
    {form : ExprForm} (h : IsPredicateTail P left negated p ts form) :
    ∃ c, form.content = left.content ++ (flag .NOT negated ++ .keyword p.keyword :: c) ∧
      Yields (Calm R f o (· = .keyword p.keyword)) (Calm R f o Done) ts c := by
  have opens : ∀ k, k = .keyword p.keyword → Opens k := by
    rintro _ rfl
    cases p <;> exact ⟨nofun, rfl⟩
  cases h with
  | inList items =>
    refine ⟨_, rfl, YieldsBefore.congr ?_ (Expr.contentOfList_eq _).symm⟩
    exact row_yields hP hR hf (fun k h => (opens k h).1) items
  | inQuery query =>
    exact ⟨_, rfl, query.yields hf (fun k h => (opens k h).1) rfl
      fun _ inner => hP.query hR inner⟩
  | between low high =>
    have low := hP.expr (R := R) (f := f) (o := o) hR hf opens low
    exact ⟨_, rfl, low.append (expr_behind hP hR hf high rfl ⟨nofun, rfl⟩)⟩
  | like pattern => exact ⟨_, rfl, hP.expr hR hf opens pattern⟩

/-- An infix operator with what belongs to it yields what it adds to the content
of its left operand. -/
theorem IsFold.yields (hf : f ≠ .table) {left : Expr} {op : InfixOperator} {e : Expr}
    (h : IsFold P left op ts e) :
    ∃ c, e.content = left.content ++ c ∧ Yields (Calm R f o Done) (Calm R f o Done) ts c := by
  cases h with
  | binary kind right =>
    exact ⟨_, rfl, Yields.append (BinaryOperator.yields kind) (hP.expr hR hf (fun _ => id) right)⟩
  | @is t u ns negated tt kind negation test =>
    have negation := negation.yields (R := R) (f := f) (o := o) (K := Anything) (L := Anything) rfl
      (fun _ => id) trivial
    have test : Yields (Calm R f o Anything) (Calm R f o Done) [u] [.keyword tt.keyword] := by
      cases tt <;> exact yields_keyword test rfl nofun rfl
    exact ⟨_, rfl, .keyword kind rfl (negation.append test) trivial⟩
  | @predicate t ns ts negated p form negation kind tail =>
    have negation := negation.yields (R := R) (f := f) (o := o) (K := Done) (L := Anything) rfl
      (fun _ _ => trivial) trivial
    obtain ⟨c, content, behind⟩ := tail.yields hP hR (o := o) hf
    have plain : isPlain p.keyword := by cases p <;> rfl
    exact ⟨_, content, negation.append (.keyword (Predicate.ofKind?_eq_some kind) plain behind rfl)⟩

end

end Grammar

end SqlSyntax
