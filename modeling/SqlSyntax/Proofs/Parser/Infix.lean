import SqlSyntax.Proofs.Grammar.Edges
import SqlSyntax.Proofs.Parser.Name

/-!
# The next infix operator

An expression ends where no infix operator comes next that its own operators
would draw in, and none that binds above the level it is parsed at. `StopsAt`
and `Follows` say so about the tokens behind it: a parser leaves such tokens
behind, and it relies on them to stop.
-/

namespace SqlSyntax.Parser

open Grammar

/-- The infix operator that given tokens start with. -/
def infixAhead (ts : List Token) : Option InfixOperator :=
  if headKind ts = .keyword .NOT then
    (Predicate.ofKind? (headKind ts.tail)).map (.predicate true)
  else InfixOperator.ofKind? (headKind ts)

theorem InfixOperator.ofKind?_eq_is {k : TokenKind} (h : InfixOperator.ofKind? k = some .is) :
    k = .keyword .IS := by
  unfold InfixOperator.ofKind? at h
  split at h <;> simp_all

theorem InfixOperator.ofKind?_eq_predicate {k : TokenKind} {negated : Bool} {p : Predicate}
    (h : InfixOperator.ofKind? k = some (.predicate negated p)) :
    negated = false ∧ Predicate.ofKind? k = some p := by
  unfold InfixOperator.ofKind? at h
  split at h <;> simp_all

theorem infixAhead_eq_some {ts : List Token} {op : InfixOperator} (h : infixAhead ts = some op) :
    (∃ p, op = .predicate true p ∧ headKind ts = .keyword .NOT ∧
      Predicate.ofKind? (headKind ts.tail) = some p) ∨
    (headKind ts ≠ .keyword .NOT ∧ InfixOperator.ofKind? (headKind ts) = some op) := by
  unfold infixAhead at h
  split at h
  · rename_i not
    obtain ⟨p, hp, rfl⟩ := Option.map_eq_some_iff.1 h
    exact .inl ⟨p, rfl, not, hp⟩
  · rename_i not
    exact .inr ⟨not, h⟩

/-- Whether no infix operator above a level comes next. -/
def StopsAt (level : Nat) (rest : List Token) : Prop := ∀ op ∈ infixAhead rest, op.level ≤ level

theorem InfixOperator.level_le_signLevel (op : InfixOperator) : op.level ≤ signLevel := by
  cases op with
  | binary op => cases op <;> decide
  | is | predicate => exact Nat.le_of_ble_eq_true rfl

theorem stopsAt_signLevel (rest : List Token) : StopsAt signLevel rest :=
  fun op _ => InfixOperator.level_le_signLevel op

theorem StopsAt.mono {level level' : Nat} {rest : List Token} (h : StopsAt level rest)
    (hle : level ≤ level') : StopsAt level' rest :=
  fun op hop => Nat.le_trans (h op hop) hle

theorem StopsAt.min {level level' : Nat} {rest : List Token} (h : StopsAt level rest)
    (h' : StopsAt level' rest) : StopsAt (min level level') rest :=
  fun op hop => Nat.le_min.2 ⟨h op hop, h' op hop⟩

theorem kind_ahead {s : ParserState} (hend : s.finish.isEnd) :
    (ahead s).kind = headKind s.tokens := by
  unfold ahead
  cases s.tokens with
  | nil => simpa [Token.isEnd] using hend
  | cons => rfl

theorem infixOperator?_eq_ok {s s' : ParserState} {o : Option InfixOperator}
    (hend : s.finish.isEnd) (h : infixOperator? s = .ok o s') :
    s = s' ∧ infixAhead s.tokens = o := by
  obtain ⟨t, s₁, hp, h⟩ := bind_eq_ok.1 h
  obtain ⟨rfl, rfl⟩ := peek_eq_ok hp
  rw [kind_ahead hend] at h
  unfold infixAhead
  split at h
  · rename_i hnot
    obtain ⟨u, s₂, hu, h⟩ := bind_eq_ok.1 h
    obtain ⟨rfl, rfl⟩ := peekAt_eq_ok hu
    obtain ⟨rfl, rfl⟩ := pure_eq_ok.1 h
    have kind : (s.tokens[1]?.getD s.finish).kind = headKind s.tokens.tail := by
      rcases s.tokens with _ | ⟨t, _ | ⟨u, us⟩⟩
      · simpa [Token.isEnd] using hend
      · simpa [Token.isEnd] using hend
      · rfl
    exact ⟨rfl, by rw [if_pos (by simpa using hnot), kind]⟩
  · rename_i hnot
    obtain ⟨rfl, rfl⟩ := pure_eq_ok.1 h
    exact ⟨rfl, by rw [if_neg (by simpa using hnot)]⟩

theorem infixOperator?_bind {α : Type} {f : Option InfixOperator → Parser α}
    {before us rest : List Token} {a : α}
    (h : ReadsAfter before (f (infixAhead (us ++ rest))) us a rest) :
    ReadsAfter before (infixOperator? >>= f) us a rest := by
  rw [infixOperator?, bind_assoc]
  refine .bindPeek fun t ht _ => ?_
  unfold infixAhead at h
  by_cases hnot : headKind (us ++ rest) = .keyword .NOT
  · rw [if_pos hnot] at h
    rw [if_pos (by simp [ht, hnot]), bind_assoc]
    refine .bindPeekAt fun u hu => ?_
    rw [List.drop_one] at hu
    rwa [pure_bind, hu]
  · rw [if_neg hnot] at h
    rw [if_neg (by simp [ht, hnot]), pure_bind, ht]
    exact h

/-- What can stand behind an expression that is open up to a level. -/
structure Follows (level : Nat) (rest : List Token) : Prop where
  dot : headKind rest ≠ .punctuation .dot
  openParen : headKind rest ≠ .punctuation .openParen
  stops : StopsAt level rest

theorem Follows.mono {level level' : Nat} {rest : List Token} (h : Follows level rest)
    (hle : level ≤ level') : Follows level' rest :=
  ⟨h.dot, h.openParen, h.stops.mono hle⟩

/-- Whether a token of a kind ends every expression before it. -/
def endsExpr (k : TokenKind) : Bool :=
  k != .punctuation .dot && k != .punctuation .openParen && k != .keyword .NOT &&
    (InfixOperator.ofKind? k).isNone

theorem endsExpr_head {t : Token} {ts : List Token} {k : TokenKind} (h : t.kind = k)
    (hk : endsExpr k) : endsExpr (headKind (t :: ts)) := by
  rwa [headKind_cons, h]

theorem follows_of_endsExpr {rest : List Token} (h : endsExpr (headKind rest)) (level : Nat) :
    Follows level rest := by
  simp only [endsExpr, Bool.and_eq_true, bne_iff_ne, ne_eq, Option.isNone_iff_eq_none] at h
  obtain ⟨⟨⟨dot, openParen⟩, not⟩, none⟩ := h
  refine ⟨dot, openParen, fun op hop => ?_⟩
  rw [infixAhead, if_neg not, none] at hop
  exact nomatch hop

theorem isEnd_ahead_of_infixAhead {s : ParserState} {op : InfixOperator} (hend : s.finish.isEnd)
    (h : infixAhead s.tokens = some op) : (ahead s).isEnd = false := by
  rw [Token.isEnd, kind_ahead hend]
  cases hk : headKind s.tokens <;> simp_all [infixAhead, InfixOperator.ofKind?, Predicate.ofKind?]

/-- The infix operator of a reading is the one that comes next. -/
theorem infixAhead_of_isFold {P : Phrases} {left e : Expr} {op : InfixOperator}
    {ts rest : List Token} (h : IsFold P left op ts e) : infixAhead (ts ++ rest) = some op := by
  cases h with
  | @binary t ts op r kind =>
    have not : t.kind ≠ .keyword .NOT := by
      intro not
      rw [not] at kind
      exact nomatch kind
    simp [infixAhead, not, kind]
  | is kind => simp [infixAhead, kind, InfixOperator.ofKind?]
  | @predicate t ns ts negated p form negation kind =>
    cases negation with
    | absent =>
      unfold Predicate.ofKind? at kind
      split at kind <;> simp_all [infixAhead, InfixOperator.ofKind?, Predicate.ofKind?]
    | present not => simp [infixAhead, not, kind]

theorem follows_of_isFold {P : Phrases} {left e : Expr} {op : InfixOperator} {level : Nat}
    {ts rest : List Token} (h : IsFold P left op ts e) (hle : op.level ≤ level) :
    Follows level (ts ++ rest) := by
  have stops : StopsAt level (ts ++ rest) := by
    intro op' hop'
    rw [infixAhead_of_isFold h] at hop'
    obtain rfl := Option.some.inj hop'
    exact hle
  obtain ⟨t, us, rfl, ht⟩ := h.start
  refine ⟨?_, ?_, stops⟩ <;>
  · intro (kind : t.kind = _)
    simp [kind, InfixOperator.ofKind?, Predicate.ofKind?] at ht

end SqlSyntax.Parser
