import SqlSyntax.Proofs.Parser.Mirror

/-!
# How tokens end

A parser pulls its tokens one by one, so it can meet the error that stopped the
lexer long before it is done, or be done before the error is met. What it makes
of the tokens in front does not depend on what is behind them. Two runs are
compared here: one on tokens with the end of the input or the error of the lexer
behind them, and one on the tokens by themselves, where the end of the input is
put in by the parser.

Behind tokens that end with the end of the input the second run has one token
less, so its loops have smaller budgets; since their steps consume tokens, that
makes no difference.

## Main results

* `ending_comparison` — the two runs agree until the first one meets the error.
* `wholeStatement_agrees` — the same for a statement.
-/

namespace SqlSyntax

namespace Parser

variable {α β : Type}

/-- Two states on the same tokens, up to a relocation. In the first one, what is
behind them is the end of the input or, if there is one, the error `lex`. The
second one has nothing behind them and makes up the end of the input. -/
structure Ends (f : Relocation) (lex : Option LexError) (s t : ParserState) : Prop where
  tokens : ∃ ts : List Token, t.tokens = ts.map f.token ∧
    s.tokens = ts ++ if lex.isSome then [] else [s.finish]
  failure : s.failure = lex
  failure' : t.failure = none
  isEnd : s.finish.isEnd
  isEnd' : t.finish.isEnd
  finish : lex = none → t.finish = f.token s.finish
  last : t.last = s.last.map f.span
  expected : t.expected = s.expected

/-- Whether two runs agree: they have the same result, or fail in the same way,
or the first one fails with the error that is behind its tokens. -/
inductive Agrees (f : Relocation) (lex : Option LexError) (v : α → α) :
    EStateM.Result Error ParserState α → EStateM.Result Error ParserState α → Prop
  | ok (a : α) (s t : ParserState) (h : Ends f lex s t) : Agrees f lex v (.ok a s) (.ok (v a) t)
  | error (e e' : Error) (s t : ParserState) (h : e.Mirrored f none e') :
    Agrees f lex v (.error e s) (.error e' t)
  | lex (e : LexError) (s : ParserState) (r : EStateM.Result Error ParserState α)
    (h : lex = some e) : Agrees f lex v (.error (.lex e) s) r

theorem Agrees.of_ok {f : Relocation} {lex : Option LexError} {v : α → α} {a : α}
    {s : ParserState} {r : EStateM.Result Error ParserState α}
    (h : Agrees f lex v (.ok a s) r) : ∃ t, r = .ok (v a) t := by
  cases h
  exact ⟨_, rfl⟩

theorem Agrees.of_error {f : Relocation} {lex : Option LexError} {v : α → α} {e : Error}
    {s : ParserState} {r : EStateM.Result Error ParserState α}
    (h : Agrees f lex v (.error e s) r) :
    (∃ l, lex = some l ∧ e = .lex l) ∨ ∃ e' t, r = .error e' t ∧ e.Mirrored f none e' := by
  cases h with
  | error e e' s t h => exact .inr ⟨e', t, rfl, h⟩
  | lex e s r h => exact .inl ⟨e, h, rfl⟩

/-- Agreement from all states that end so, at every stage. -/
def ending (f : Relocation) (lex : Option LexError) : ParserRelation := fun _ _ v p q =>
  ∀ ⦃s t⦄, Ends f lex s t → Agrees f lex v (p s) (q t)

variable {f : Relocation} {lex : Option LexError}

theorem Agrees.bind {v : α → α} {w : β → β} {p q : Parser α} {F G : α → Parser β}
    {s t : ParserState} (h : Agrees f lex v (p s) (q t))
    (hF : ∀ a s' t', q t = .ok (v a) t' → Ends f lex s' t' → Agrees f lex w (F a s') (G (v a) t')) :
    Agrees f lex w ((p >>= F) s) ((q >>= G) t) := by
  show Agrees f lex w (EStateM.bind p F s) (EStateM.bind q G t)
  unfold EStateM.bind
  cases hp : p s with
  | ok a s' =>
    cases hq : q t with
    | ok b t' =>
      rw [hp, hq] at h
      cases h with
      | ok _ _ _ ends => exact hF a s' t' hq ends
    | error e t' =>
      rw [hp, hq] at h
      cases h
  | error e s' =>
    cases hq : q t with
    | ok b t' =>
      rw [hp, hq] at h
      cases h with
      | lex e _ _ h => exact .lex e s' _ h
    | error e' t' =>
      rw [hp, hq] at h
      cases h with
      | error _ _ _ _ mirrored => exact .error e e' s' t' mirrored
      | lex e _ _ h => exact .lex e s' _ h

theorem Ends.peekAt {s t : ParserState} (h : Ends f lex s t) (n : Nat) :
    Agrees f lex f.token (Parser.peekAt n s) (Parser.peekAt n t) := by
  obtain ⟨ts, tokens', tokens⟩ := h.tokens
  have image : t.tokens[n]? = ts[n]?.map f.token := by rw [tokens', List.getElem?_map]
  unfold Parser.peekAt
  rw [image, tokens]
  cases here : ts[n]? with
  | some u =>
    rw [List.getElem?_append_left (List.getElem?_eq_some_iff.1 here).1, here]
    exact .ok u s t h
  | none =>
    cases hlex : lex with
    | some e =>
      subst hlex
      simp only [Option.isSome_some, if_true, List.append_nil, here, h.failure]
      exact .lex e _ _ rfl
    | none =>
      -- Behind the tokens is their last one, or there is nothing.
      have found : (ts ++ [s.finish])[n]? = none ∨ (ts ++ [s.finish])[n]? = some s.finish := by
        rw [List.getElem?_append_right (List.getElem?_eq_none_iff.1 here)]
        rcases n - ts.length with _ | k
        · exact .inr rfl
        · exact .inl rfl
      subst hlex
      simp only [Option.isSome_none, Bool.false_eq_true, if_false, h.failure, h.failure',
        Option.map_none, h.finish rfl]
      rcases found with found | found <;> rw [found] <;> exact .ok _ s t h

theorem Ends.next {s t : ParserState} (h : Ends f lex s t) :
    Agrees f lex f.token (Parser.next s) (Parser.next t) := by
  refine (h.peekAt 0).bind fun u s' t' looked ends => ?_
  obtain ⟨rfl, ahead⟩ := peek_eq_ok looked
  rw [f.isEnd_token]
  split
  · exact .ok u s' t ends
  · rename_i inner
    obtain ⟨ts, tokens', tokens⟩ := ends.tokens
    -- The end of the input is not consumed, so there is a token to be.
    cases ts with
    | nil =>
      rw [Parser.ahead, tokens'] at ahead
      have isEnd : (f.token u).isEnd := ahead ▸ ends.isEnd'
      exact absurd (f.isEnd_token u ▸ isEnd) inner
    | cons v ts =>
      refine .ok u _ _ { ends with
        tokens := ⟨ts, by simp [tokens'], by simp [tokens]⟩
        last := by simp [f.span_token]
        expected := rfl }

theorem Ends.spanFrom {s t : ParserState} (h : Ends f lex s t) {start start' : Span}
    (same : f.span start = start') :
    Agrees f lex f.span (Parser.spanFrom start s) (Parser.spanFrom start' t) := by
  subst same
  have last := h.last
  unfold Parser.spanFrom
  cases consumed : s.last with
  | none =>
    rw [consumed] at last
    simp only [last, Option.map_none]
    exact .ok start s t h
  | some l =>
    rw [consumed] at last
    have span : (⟨(f.span start).start, max (f.span l).stop (f.span start).stop⟩ : Span) =
        f.span ⟨start.start, max l.stop start.stop⟩ := by
      simp [Relocation.span, f.stop_max]
    simp only [last, Option.map_some, span]
    exact .ok _ s t h

/-- The end of the input does not make a qualified wildcard of the tokens before
it. -/
theorem startsQualifiedWildcard?_end {e : Token} (isEnd : e.isEnd) (ts : List Token) :
    startsQualifiedWildcard? (ts ++ [e]) = some ((startsQualifiedWildcard? ts).getD false) := by
  have kind := (Token.isEnd_iff e).1 isEnd
  have identifier : e.isIdentifier = false := by simp [Token.isIdentifier, kind]
  fun_induction startsQualifiedWildcard? ts with
  | case1 => simp [startsQualifiedWildcard?, identifier]
  | case2 t h => simp [startsQualifiedWildcard?, kind]
  | case3 t h => simp [startsQualifiedWildcard?, h]
  | case4 t dot h => simp_all [startsQualifiedWildcard?]
  | case5 t dot h => simp_all [startsQualifiedWildcard?]
  | case6 t dot u rest h star => simp_all [startsQualifiedWildcard?]
  | case7 t dot u rest h star ih => simp_all [startsQualifiedWildcard?]
  | case8 t dot u rest h => simp_all [startsQualifiedWildcard?]

theorem atQualifiedWildcard_eq (s : ParserState) : Parser.atQualifiedWildcard s =
    match startsQualifiedWildcard? s.tokens with
    | some answer => .ok answer s
    | none =>
      match s.failure with
      | some e => .error (.lex e) { s with failure := none }
      | none => .ok false s := by
  unfold Parser.atQualifiedWildcard
  show (match startsQualifiedWildcard? s.tokens with
    | some answer => pure answer
    | none => raiseFailure >>= fun _ => pure false : Parser Bool) s = _
  cases startsQualifiedWildcard? s.tokens with
  | some answer => rfl
  | none =>
    show EStateM.bind raiseFailure _ s = _
    unfold EStateM.bind raiseFailure
    cases s.failure <;> rfl

theorem Ends.atQualifiedWildcard {s t : ParserState} (h : Ends f lex s t) :
    Agrees f lex id (Parser.atQualifiedWildcard s) (Parser.atQualifiedWildcard t) := by
  obtain ⟨ts, tokens', tokens⟩ := h.tokens
  rw [atQualifiedWildcard_eq, atQualifiedWildcard_eq, tokens', tokens, startsQualifiedWildcard?_map,
    h.failure, h.failure']
  cases hlex : lex with
  | none =>
    subst hlex
    simp only [Option.isSome_none, Bool.false_eq_true, if_false,
      startsQualifiedWildcard?_end h.isEnd]
    cases startsQualifiedWildcard? ts with
    | some answer => exact .ok answer s t h
    | none => exact .ok false s t h
  | some e =>
    subst hlex
    simp only [Option.isSome_some, if_true, List.append_nil]
    cases startsQualifiedWildcard? ts with
    | some answer => exact .ok answer s t h
    | none => exact .lex e _ _ rfl

theorem Ends.pure {s t : ParserState} (h : Ends f lex s t) {v : α → α} {a b : α} (hab : v a = b) :
    Agrees f lex v ((Pure.pure a : Parser α) s) ((Pure.pure b : Parser α) t) := by
  subst hab
  exact .ok a s t h

/-- A loop that takes more steps than there are tokens is done before its budget
is. -/
theorem agrees_iterateWithin {v : α → α} {step step' : α → Parser (Option α)}
    (hstep : ∀ a, ending f lex .free (Option.map v) (step a) (step' (v a)))
    (advances : Advances step') (budget' budget : List Token) (a : α) {s t : ParserState}
    (h : Ends f lex s t) (enough : t.tokens.length ≤ budget'.length)
    (more : budget'.length ≤ budget.length) :
    Agrees f lex v (iterateWithin step budget a s) (iterateWithin step' budget' (v a) t) := by
  induction budget' generalizing budget a s t with
  | nil =>
    have last : ∀ (o : Option α) (t' : ParserState),
        step' (v a) t = .ok (Option.map v o) t' → o = none := by
      intro o t' stepped
      cases o with
      | none => rfl
      | some b =>
        have fewer := (advances h.isEnd' stepped).2
        simp only [List.length_nil] at enough
        omega
    cases budget with
    | nil =>
      refine (hstep a h).bind fun o s' t' stepped ends => ?_
      obtain rfl := last o t' stepped
      exact ends.pure rfl
    | cons u budget =>
      refine (hstep a h).bind fun o s' t' stepped ends => ?_
      obtain rfl := last o t' stepped
      exact ends.pure rfl
  | cons u' budget' ih =>
    cases budget with
    | nil =>
      simp only [List.length_cons, List.length_nil] at more
      omega
    | cons u budget =>
      simp only [List.length_cons] at enough more
      refine (hstep a h).bind fun o s' t' stepped ends => ?_
      cases o with
      | none => exact ends.pure rfl
      | some b =>
        have fewer := (advances h.isEnd' stepped).2
        exact ih budget b ends (by omega) (by omega)

theorem Ends.iterate {v : α → α} {step step' : α → Parser (Option α)} {a b : α}
    (hstep : ∀ a, ending f lex .free (Option.map v) (step a) (step' (v a)))
    (advances : Advances step') (hab : v a = b) {s t : ParserState} (h : Ends f lex s t) :
    Agrees f lex v (Parser.iterate step a s) (Parser.iterate step' b t) := by
  subst hab
  obtain ⟨ts, tokens', tokens⟩ := h.tokens
  refine agrees_iterateWithin hstep advances t.tokens s.tokens a h (Nat.le_refl _) ?_
  rw [tokens', tokens, List.length_map, List.length_append]
  omega

/-- The two runs agree until the first one meets the error that stopped the
lexer. -/
theorem ending_comparison (f : Relocation) (lex : Option LexError) :
    Comparison f (ending f lex) where
  weaken _ h := h
  pure hab _ _ h := h.pure hab
  bind _ hp hF _ _ h := (hp h).bind fun a _ _ _ ends => hF a ends
  look n hF _ _ h := (h.peekAt n).bind fun t _ _ _ ends => hF t ends
  peek_bind hF _ _ h := (h.peekAt 0).bind fun t _ _ _ ends => (hF t).elim (· ends) (·.2 ends)
  next _ _ h := h.next
  next_bind hF _ _ h := h.next.bind fun t _ _ _ ends => hF t ends
  note es _ _ h := .ok () _ _ { h with expected := congrArg (es.reverse ++ ·) h.expected }
  failAt fault t s s' h := by
    show Agrees f lex _ (.error _ _) (.error _ _)
    rw [h.expected]
    exact .error _ _ _ _ (.parse fault t _)
  spanFrom same _ _ h := h.spanFrom same
  atQualifiedWildcard _ _ h := h.atQualifiedWildcard
  iterate _ hstep advances hab _ _ h := h.iterate hstep advances hab

theorem tooDeep_agrees (max : Nat) {v : α → α} :
    ending f lex .start v (tooDeep max) (tooDeep max) := fun _ _ h =>
  (h.peekAt 0).bind fun t _ _ _ _ => .error _ _ _ _ (.nestingTooDeep max t)

/-- The two runs agree on a statement until the first one meets the error that
stopped the lexer. -/
theorem wholeStatement_agrees (f : Relocation) (lex : Option LexError) (max : Nat) :
    ending f lex .start (Statement.mapSpans f.span) (wholeStatement max) (wholeStatement max) :=
  wholeStatement_of_levels (ending_comparison f lex)
    (levels_parallel (ending_comparison f lex) max max (tooDeep_agrees max ·))

end Parser

end SqlSyntax
