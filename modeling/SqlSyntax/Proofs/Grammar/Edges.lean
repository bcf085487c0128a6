import SqlSyntax.Proofs.Grammar.Nesting

/-!
# Edges of readings

What the first tokens of a phrase can be, and how open an expression is at its
right edge. Parsers choose between alternatives by looking at a token or two;
these are the facts that make the choice the right one.

## Main results

* `phrases_proper` — the readings of every depth have these edges.
-/

namespace SqlSyntax.Grammar

/-- Whether an expression can start with a token of a kind. -/
def startsExpr : TokenKind → Bool
  | .keyword .NOT | .keyword .TRUE | .keyword .FALSE | .keyword .NULL | .keyword .CASE
  | .keyword .CAST | .keyword .EXISTS | .operator .minus | .operator .plus | .number | .string
  | .punctuation .openParen | .identifier _ => true
  | _ => false

/-- Readings with the edges that parsers rely on. -/
structure Phrases.Proper (P : Phrases) : Prop where
  start : ∀ {level ts e}, P.expr level ts e → ∃ t us, ts = t :: us ∧ startsExpr t.kind
  /-- No expression is taken for a qualified wildcard. -/
  wildcard : ∀ {level ts e rest}, P.expr level ts e → headKind rest ≠ .punctuation .dot →
    Parser.startsQualifiedWildcard? (ts ++ rest) ≠ some true
  /-- Only `NOT` leaves a right edge less open than the level of the whole. -/
  openLevel : ∀ {level ts e}, P.expr level ts e → min level notLevel ≤ e.openLevel
  select : ∀ {ts q}, P.query ts q → ∃ t us, ts = t :: us ∧ t.kind = .keyword .SELECT

theorem kind_ne_of_starts {t : Token} {k : TokenKind} (starts : startsExpr t.kind)
    (hk : startsExpr k = false) : t.kind ≠ k := by
  rintro rfl
  simp [starts] at hk

/-- A list of expressions starts like its first. -/
theorem Separated.start {P : Phrases} (hP : P.Proper) {k : TokenKind} {ts : List Token}
    {es : List Expr} {level : Nat} (h : Separated k (P.expr level) ts es) :
    ∃ t us, ts = t :: us ∧ startsExpr t.kind := by
  obtain ⟨first, others⟩ := h
  obtain ⟨t, us, rfl, starts⟩ := hP.start first
  exact ⟨t, _, rfl, starts⟩

/-! ## Names -/

theorem startsQualifiedWildcard?_name {ts rest : List Token} {n : QualifiedName}
    (h : IsName ts n) (hrest : headKind rest ≠ .punctuation .dot) :
    Parser.startsQualifiedWildcard? (ts ++ rest) ≠ some true := by
  have key : ∀ {us : List Token} {is : List Identifier},
      Many (Behind (.punctuation .dot) IsIdentifier) us is → ∀ t : Token,
      Parser.startsQualifiedWildcard? (t :: (us ++ rest)) ≠ some true := by
    intro us is h
    induction h with
    | nil =>
      intro t
      rcases rest with _ | ⟨u, _ | ⟨v, rest⟩⟩
      · show Parser.startsQualifiedWildcard? [t] ≠ some true
        simp [Parser.startsQualifiedWildcard?]
      · have : u.kind ≠ .punctuation .dot := hrest
        simp [Parser.startsQualifiedWildcard?, this]
      · have : u.kind ≠ .punctuation .dot := hrest
        simp [Parser.startsQualifiedWildcard?, this]
    | cons head _ ih =>
      intro t
      obtain @⟨d, _, i, _, part⟩ := head
      obtain @⟨u, style, kind⟩ := part
      have next := ih u
      simp only [List.cons_append, List.nil_append, Parser.startsQualifiedWildcard?]
      split
      · rw [if_neg (by simp [kind])]
        exact next
      · simp
  obtain ⟨parts, -⟩ := h
  generalize n.parts = l at parts
  obtain ⟨first, others⟩ := parts
  obtain @⟨t, _, _⟩ := first
  exact key others t

theorem IsName.start {ts : List Token} {n : QualifiedName} (h : IsName ts n) :
    ∃ t us style, ts = t :: us ∧ t.kind = .identifier style := by
  obtain ⟨parts, -⟩ := h
  generalize n.parts = l at parts
  obtain ⟨first, others⟩ := parts
  obtain @⟨t, style, kind⟩ := first
  exact ⟨t, _, style, rfl, kind⟩

theorem IsRelation.start {P : Phrases} {ts : List Token} {r : Relation} (h : IsRelation P ts r) :
    ∃ t us, ts = t :: us := by
  cases h with
  | table name =>
    obtain ⟨t, us, -, rfl, -⟩ := name.start
    exact ⟨t, _, rfl⟩
  | derived => exact ⟨_, _, rfl⟩

/-! ## Expressions -/

theorem notLevel_le_signLevel : notLevel ≤ signLevel := by decide

section

variable {P : Phrases}

theorem IsOperand.start {ts : List Token} {e : Expr} (h : IsOperand P ts e) :
    ∃ t us, ts = t :: us ∧ startsExpr t.kind := by
  cases h with
  | column name =>
    obtain ⟨t, us, style, rfl, kind⟩ := name.start
    exact ⟨t, us, rfl, by simp [kind, startsExpr]⟩
  | call name arguments =>
    obtain ⟨t, us, style, rfl, kind⟩ := name.start
    exact ⟨t, _, rfl, by simp [kind, startsExpr]⟩
  | @literal t v value =>
    refine ⟨t, [], rfl, ?_⟩
    unfold Literal.ofToken? at value
    split at value <;> simp_all [startsExpr]
  | @unary t ts op e kind operand =>
    refine ⟨t, ts, rfl, ?_⟩
    rw [kind]
    cases op <;> rfl
  | case kind | cast kind | existsQuery kind | subquery kind | nested kind =>
    exact ⟨_, _, rfl, by rw [kind]; rfl⟩

theorem IsBranch.start {ts : List Token} {b : WhenBranch} (h : IsBranch P ts b) :
    ∃ t us, ts = t :: us ∧ t.kind = .keyword .WHEN := by
  obtain ⟨kind, -, -⟩ := h
  exact ⟨_, _, rfl, kind⟩

theorem startsQualifiedWildcard?_wildcard {ts rest : List Token} {n : QualifiedName} {d w : Token}
    (name : IsName ts n) (dot : d.kind = .punctuation .dot) (star : w.kind = .operator .times) :
    Parser.startsQualifiedWildcard? (ts ++ d :: w :: rest) = some true := by
  have key : ∀ {us : List Token} {is : List Identifier},
      Many (Behind (.punctuation .dot) IsIdentifier) us is → ∀ t : Token, t.isIdentifier →
      Parser.startsQualifiedWildcard? (t :: (us ++ d :: w :: rest)) = some true := by
    intro us is h
    induction h with
    | nil =>
      intro t ht
      simp [Parser.startsQualifiedWildcard?, ht, dot, star]
    | cons head _ ih =>
      intro t ht
      obtain @⟨e, _, i, separator, part⟩ := head
      obtain @⟨u, style, kind⟩ := part
      have next := ih u (by simp [Token.isIdentifier, kind])
      simp only [List.cons_append, List.nil_append, Parser.startsQualifiedWildcard?]
      rw [if_pos (by simp [ht, separator]), if_neg (by simp [kind])]
      exact next
  obtain ⟨parts, -⟩ := name
  generalize n.parts = l at parts
  obtain ⟨first, others⟩ := parts
  obtain @⟨t, style, kind⟩ := first
  exact key others t (by simp [Token.isIdentifier, kind])

/-- A token that is no identifier starts no wildcard. -/
theorem startsQualifiedWildcard?_cons {t : Token} {ts : List Token} (h : ¬ t.isIdentifier) :
    Parser.startsQualifiedWildcard? (t :: ts) ≠ some true := by
  rcases ts with _ | ⟨u, _ | ⟨v, ts⟩⟩ <;> simp [Parser.startsQualifiedWildcard?, h]

theorem IsOperand.wildcard {ts rest : List Token} {e : Expr} (h : IsOperand P ts e)
    (hrest : headKind rest ≠ .punctuation .dot) :
    Parser.startsQualifiedWildcard? (ts ++ rest) ≠ some true := by
  cases h with
  | column name => exact startsQualifiedWildcard?_name name hrest
  | call name arguments =>
    obtain ⟨opening, _, _⟩ := arguments
    rw [List.append_assoc]
    exact startsQualifiedWildcard?_name name (by simp [opening])
  | @literal t v value =>
    refine startsQualifiedWildcard?_cons ?_
    unfold Literal.ofToken? at value
    split at value <;> simp_all [Token.isIdentifier]
  | @unary t ts op e kind operand =>
    refine startsQualifiedWildcard?_cons ?_
    cases op <;> simp [Token.isIdentifier, kind, UnaryOperator.kind]
  | case kind | cast kind | existsQuery kind | subquery kind | nested kind =>
    exact startsQualifiedWildcard?_cons (by simp [Token.isIdentifier, kind])

theorem IsOperand.notLevel_le_openLevel (hP : P.Proper) {ts : List Token} {e : Expr}
    (h : IsOperand P ts e) : notLevel ≤ e.openLevel := by
  cases h with
  | @unary t ts op e kind operand =>
    have := hP.openLevel operand
    cases op <;> simp_all [Expr.openLevel, UnaryOperator.operandLevel, notLevel, signLevel]
  | _ => exact notLevel_le_signLevel

/-- An infix operator starts with its keyword or symbol, or with `NOT`. -/
theorem IsFold.start {left e : Expr} {op : InfixOperator} {ts : List Token}
    (h : IsFold P left op ts e) :
    ∃ t us, ts = t :: us ∧ (t.kind = .keyword .NOT ∨ (InfixOperator.ofKind? t.kind).isSome) := by
  cases h with
  | @binary t ts op r kind => exact ⟨t, _, rfl, .inr (by simp [kind])⟩
  | @is t u ns negated test kind =>
    exact ⟨t, _, rfl, .inr (by simp [kind, InfixOperator.ofKind?])⟩
  | @predicate t ns ts negated p form negation kind =>
    cases negation with
    | absent =>
      refine ⟨t, _, rfl, .inr ?_⟩
      unfold Predicate.ofKind? at kind
      split at kind <;> simp_all [InfixOperator.ofKind?, Predicate.ofKind?]
    | present not => exact ⟨_, _, rfl, .inl not⟩

theorem IsFold.openLevel (hP : P.Proper) {left e : Expr} {op : InfixOperator} {ts : List Token}
    (h : IsFold P left op ts e) : min op.level notLevel ≤ e.openLevel := by
  cases h with
  | @binary t ts op r kind right =>
    have := hP.openLevel right
    simp only [Expr.openLevel, InfixOperator.level]
    omega
  | is => exact Nat.le_trans (Nat.min_le_right ..) notLevel_le_signLevel
  | @predicate t ns ts negated p form negation kind tail =>
    refine Nat.le_trans (Nat.min_le_right ..) ?_
    cases tail with
    | inList | inQuery => exact notLevel_le_signLevel
    | between low high =>
      obtain ⟨-, high⟩ := high
      have := hP.openLevel high
      simp only [Expr.openLevel, predicateLevel, notLevel] at this ⊢
      omega
    | like pattern =>
      have := hP.openLevel pattern
      simp only [Expr.openLevel, predicateLevel, notLevel] at this ⊢
      omega

end

/-! ## Every depth -/

theorem folds_head {comma : Prop} {depth level : Nat} {left e : Expr} {ts : List Token}
    (h : folds comma depth level left ts e) :
    ts = [] ∨ ∃ t us, ts = t :: us ∧
      (t.kind = .keyword .NOT ∨ (InfixOperator.ofKind? t.kind).isSome) := by
  cases depth with
  | zero => exact .inl h.1
  | succ depth =>
    rcases (folds_succ ..).1 h with ⟨rfl, -⟩ | ⟨op, us, vs, m, rfl, -, -, fold, -⟩
    · exact .inl rfl
    · obtain ⟨t, us, rfl, ht⟩ := fold.start
      exact .inr ⟨t, _, rfl, ht⟩

theorem folds_openLevel {comma : Prop} {depth : Nat}
    (hP : ∀ d < depth, (phrases comma d).Proper) {level : Nat} {left e : Expr} {ts : List Token}
    (h : folds comma depth level left ts e)
    (hleft : min level notLevel ≤ left.openLevel) : min level notLevel ≤ e.openLevel := by
  induction depth generalizing left ts with
  | zero =>
    obtain ⟨-, rfl⟩ := h
    exact hleft
  | succ depth ih =>
    rcases (folds_succ ..).1 h with ⟨-, rfl⟩ | ⟨op, us, vs, m, rfl, hlevel, -, fold, go⟩
    · exact hleft
    · have := fold.openLevel (hP depth (Nat.lt_succ_self _))
      exact ih (fun d hd => hP d (Nat.lt_succ_of_lt hd)) go (by omega)

/-- The readings of every depth have the edges that parsers rely on. -/
theorem phrases_proper (comma : Prop) (depth : Nat) : (phrases comma depth).Proper := by
  induction depth using Nat.strongRecOn with
  | ind depth ih =>
    cases depth with
    | zero => exact ⟨nofun, nofun, nofun, nofun⟩
    | succ depth =>
      have hP := ih depth (Nat.lt_succ_self _)
      constructor
      · rintro level ts e ⟨us, vs, o, rfl, operand, -⟩
        obtain ⟨t, us, rfl, ht⟩ := operand.start
        exact ⟨t, _, rfl, ht⟩
      · rintro level ts e rest ⟨us, vs, o, rfl, operand, fold⟩ hrest
        rw [List.append_assoc]
        refine operand.wildcard ?_
        rcases folds_head fold with rfl | ⟨t, us, rfl, ht⟩
        · exact hrest
        · intro dot
          have kind : t.kind = .punctuation .dot := dot
          simp [kind, InfixOperator.ofKind?, Predicate.ofKind?] at ht
      · rintro level ts e ⟨us, vs, o, rfl, operand, fold⟩
        have := operand.notLevel_le_openLevel hP
        exact folds_openLevel (fun d hd => ih d (Nat.lt_succ_of_lt hd)) fold (by omega)
      · rintro ts q ⟨us, vs, s, rfl, select, -⟩
        obtain ⟨kind⟩ := select
        exact ⟨_, _, rfl, kind⟩

end SqlSyntax.Grammar
