import SqlSyntax.Proofs.Grammar.Basic

/-!
# Parsers and readings

Two statements tie a parser to a relation between tokens and trees. A parser is
*sound* for the relation when a success has consumed tokens that read as the
result. It *reads* given tokens as a result, before given others, when it
succeeds on them wherever they come up and consumes just those.

Spans need more than the tokens of a phrase: the end of a span is the end of
the token that was consumed last. `ReadsAfter` is told which tokens of the
phrase were consumed before.

## Main results

* `bind_eq_ok` — a success of two parsers in a row is a success of each.
* `iterate_sound`, `iterate_reads` — a loop reads what its steps read.
* `commaSeparated_sound`, `commaSeparated_reads`, `parenthesized_sound`,
  `parenthesized_reads` — the combinators read what the grammar says.
-/

namespace SqlSyntax

theorem Token.isEnd_iff (t : Token) : t.isEnd ↔ t.kind = .endOfInput := by
  simp [isEnd]

theorem Token.isEnd_endOf (ts : List Token) : (Token.endOf ts).isEnd := by
  unfold endOf
  split
  · unfold endAfter
    split
    · assumption
    · rfl
  · rfl

namespace Parser

open Grammar

variable {α β : Type}

/-! ## States -/

/-- From one state to another by consuming tokens, none of which is the end of
the input. What is past the tokens is the end of the input and stays so. -/
structure Consumes (s : ParserState) (ts : List Token) (s' : ParserState) : Prop where
  tokens : s.tokens = ts ++ s'.tokens
  failure : s'.failure = s.failure
  last : s'.last = (ts.getLast?.map Token.span).or s.last
  isEnd : s'.finish.isEnd
  inner : ∀ t ∈ ts, t.isEnd = false

namespace Consumes

theorem refl {s : ParserState} (hend : s.finish.isEnd) : Consumes s [] s :=
  ⟨rfl, rfl, rfl, hend, nofun⟩

theorem trans {s s' s'' : ParserState} {ts us : List Token} (h : Consumes s ts s')
    (h' : Consumes s' us s'') : Consumes s (ts ++ us) s'' where
  tokens := by rw [h.tokens, h'.tokens, List.append_assoc]
  failure := h'.failure.trans h.failure
  last := by
    rw [h'.last, h.last]
    cases hu : us.getLast? with
    | none => simp [List.getLast?_eq_none_iff.1 hu]
    | some u => simp [List.getLast?_append, hu]
  isEnd := h'.isEnd
  inner := List.forall_mem_append.2 ⟨h.inner, h'.inner⟩

end Consumes

/-- The next token of a state, the end of the input past the last one. -/
def ahead (s : ParserState) : Token := s.tokens.head?.getD s.finish

/-! ## Sequencing -/

theorem bind_eq_ok {p : Parser α} {f : α → Parser β} {s s' : ParserState} {b : β} :
    (p >>= f) s = .ok b s' ↔ ∃ a s₁, p s = .ok a s₁ ∧ f a s₁ = .ok b s' := by
  show EStateM.bind p f s = .ok b s' ↔ _
  unfold EStateM.bind
  cases p s with
  | ok a s₁ => exact ⟨fun h => ⟨a, s₁, rfl, h⟩, fun ⟨_, _, hp, h⟩ => by cases hp; exact h⟩
  | error => simp

section

variable {ε σ : Type} {p : EStateM ε σ α} {f : α → EStateM ε σ β} {s s' : σ}

theorem bind_of_ok {a : α} (h : p s = .ok a s') : (p >>= f) s = f a s' := by
  show EStateM.bind p f s = _
  rw [EStateM.bind, h]

theorem bind_of_error {e : ε} (h : p s = .error e s') : (p >>= f) s = .error e s' := by
  show EStateM.bind p f s = _
  rw [EStateM.bind, h]

theorem bind_congr_of_ok {g : α → EStateM ε σ β}
    (h : ∀ a s', p s = .ok a s' → f a s' = g a s') : (p >>= f) s = (p >>= g) s := by
  show EStateM.bind p f s = EStateM.bind p g s
  unfold EStateM.bind
  cases run : p s with
  | ok a s' => exact h a s' run
  | error => rfl

end

theorem pure_eq_ok {a b : α} {s s' : ParserState} :
    (pure a : Parser α) s = .ok b s' ↔ a = b ∧ s = s' := by
  show EStateM.Result.ok a s = .ok b s' ↔ _
  simp

/-! ## Looking and consuming -/

theorem peekAt_eq_ok {n : Nat} {s s' : ParserState} {t : Token} (h : peekAt n s = .ok t s') :
    s = s' ∧ s.tokens[n]?.getD s.finish = t := by
  unfold peekAt at h
  split at h
  · rename_i ht
    obtain ⟨rfl, rfl⟩ := EStateM.Result.ok.inj h
    exact ⟨rfl, by rw [ht]; rfl⟩
  · rename_i ht
    split at h
    · exact nomatch h
    · obtain ⟨rfl, rfl⟩ := EStateM.Result.ok.inj h
      exact ⟨rfl, by rw [ht]; rfl⟩

theorem peek_eq_ok {s s' : ParserState} {t : Token} (h : peek s = .ok t s') :
    s = s' ∧ ahead s = t := by
  obtain ⟨hs, ht⟩ := peekAt_eq_ok h
  exact ⟨hs, by rw [← ht, ahead, List.head?_eq_getElem?]⟩

theorem next_eq_ok {s s' : ParserState} {t : Token} (hend : s.finish.isEnd)
    (h : next s = .ok t s') (ht : (ahead s).isEnd = false) : ahead s = t ∧ Consumes s [t] s' := by
  unfold next at h
  obtain ⟨u, s₁, hp, h⟩ := bind_eq_ok.1 h
  obtain ⟨rfl, rfl⟩ := peek_eq_ok hp
  rw [if_neg (by simp [ht])] at h
  obtain ⟨_, s₂, hm, h⟩ := bind_eq_ok.1 h
  obtain ⟨rfl, rfl⟩ := pure_eq_ok.1 h
  obtain rfl := (EStateM.Result.ok.inj hm).2
  refine ⟨rfl, ?_, rfl, rfl, hend, by simpa using ht⟩
  unfold ahead at ht ⊢
  cases hs : s.tokens with
  | nil => simp [hs, hend] at ht
  | cons u us => simp [hs]

theorem spanFrom_eq_ok {s₀ s s' : ParserState} {ts : List Token} {start span : Span}
    (h : spanFrom start s = .ok span s') (hts : ts ≠ []) (hc : Consumes s₀ ts s) :
    s = s' ∧ start.through ts = span := by
  unfold spanFrom at h
  have last := hc.last
  have ht := List.getLast?_eq_some_getLast hts
  rw [ht] at last
  simp only [Option.map_some, Option.some_or] at last
  rw [last] at h
  obtain ⟨rfl, rfl⟩ := EStateM.Result.ok.inj h
  exact ⟨rfl, by simp [Span.through, ht]⟩

/-! ## Probing -/

theorem probe_eq_ok {accepts : Token → Bool} {e : Expectation} {s s' : ParserState}
    {o : Option Span} (hend : s.finish.isEnd) (h : probe accepts e s = .ok o s')
    (hacc : ∀ t, accepts t → t.isEnd = false) :
    (o = none ∧ Consumes s [] s') ∨
      ∃ t, accepts t ∧ ahead s = t ∧ o = some t.span ∧ Consumes s [t] s' := by
  unfold probe at h
  obtain ⟨t, s₁, hp, h⟩ := bind_eq_ok.1 h
  obtain ⟨rfl, rfl⟩ := peek_eq_ok hp
  split at h
  · rename_i ht
    obtain ⟨t, s₂, hn, h⟩ := bind_eq_ok.1 h
    obtain ⟨rfl, hc⟩ := next_eq_ok hend hn (hacc _ ht)
    obtain ⟨rfl, rfl⟩ := pure_eq_ok.1 h
    exact .inr ⟨_, ht, rfl, rfl, hc⟩
  · obtain ⟨_, s₂, hm, h⟩ := bind_eq_ok.1 h
    obtain ⟨rfl, rfl⟩ := pure_eq_ok.1 h
    obtain rfl := (EStateM.Result.ok.inj hm).2
    exact .inl ⟨rfl, rfl, rfl, rfl, hend, nofun⟩

/-- A probe for tokens of a kind. -/
theorem probe_kind_eq_ok {k : TokenKind} {e : Expectation} {s s' : ParserState} {o : Option Span}
    (hk : k ≠ .endOfInput) (hend : s.finish.isEnd)
    (h : probe (fun t => t.kind == k) e s = .ok o s') :
    (o = none ∧ Consumes s [] s') ∨ ∃ t, t.kind = k ∧ o = some t.span ∧ Consumes s [t] s' := by
  have hacc : ∀ t : Token, (t.kind == k) → t.isEnd = false := fun t ht => by
    rw [Token.isEnd, beq_iff_eq.1 ht]
    simpa using hk
  rcases probe_eq_ok hend h hacc with h | ⟨t, ht, -, ho, hc⟩
  · exact .inl h
  · exact .inr ⟨t, beq_iff_eq.1 ht, ho, hc⟩

section

variable {s s' : ParserState} {o : Option Span} {span : Span} (hend : s.finish.isEnd)

include hend

theorem keyword?_eq_ok {k : Keyword} (h : keyword? k s = .ok o s') :
    (o = none ∧ Consumes s [] s') ∨
      ∃ t, t.kind = .keyword k ∧ o = some t.span ∧ Consumes s [t] s' :=
  probe_kind_eq_ok nofun hend h

theorem operator?_eq_ok {k : Operator} (h : operator? k s = .ok o s') :
    (o = none ∧ Consumes s [] s') ∨
      ∃ t, t.kind = .operator k ∧ o = some t.span ∧ Consumes s [t] s' :=
  probe_kind_eq_ok nofun hend h

theorem punctuation?_eq_ok {k : Punctuation} (h : punctuation? k s = .ok o s') :
    (o = none ∧ Consumes s [] s') ∨
      ∃ t, t.kind = .punctuation k ∧ o = some t.span ∧ Consumes s [t] s' :=
  probe_kind_eq_ok nofun hend h

theorem word?_eq_ok {text : String} (h : word? text s = .ok o s') :
    (o = none ∧ Consumes s [] s') ∨
      ∃ t, t.kind = .identifier .bare ∧ capitals t.text = text ∧ o = some t.span ∧
        Consumes s [t] s' := by
  have hacc : ∀ t : Token, (t.kind == .identifier .bare && capitals t.text == text) →
      t.isEnd = false := fun t ht => by
    simp only [Bool.and_eq_true, beq_iff_eq] at ht
    simp [Token.isEnd, ht.1]
  rcases probe_eq_ok hend h hacc with h | ⟨t, ht, -, ho, hc⟩
  · exact .inl h
  · simp only [Bool.and_eq_true, beq_iff_eq] at ht
    exact .inr ⟨t, ht.1, ht.2, ho, hc⟩

omit hend in
theorem failAt_ne_ok {α : Type} {fault : ParseFault} {t : Token} {a : α} :
    failAt fault t s ≠ .ok a s' := nofun

omit hend in
theorem unexpected_ne_ok {α : Type} {a : α} : (unexpected : Parser α) s ≠ .ok a s' := by
  intro h
  obtain ⟨t, s₁, -, h⟩ := bind_eq_ok.1 h
  exact failAt_ne_ok h

omit hend in
theorem require_eq_ok {p : Parser (Option Span)} (h : require p s = .ok span s') :
    p s = .ok (some span) s' := by
  obtain ⟨o, s₁, hp, h⟩ := bind_eq_ok.1 h
  cases o with
  | none => exact absurd h unexpected_ne_ok
  | some _ =>
    obtain ⟨rfl, rfl⟩ := pure_eq_ok.1 h
    exact hp

omit hend in
/-- What a probe for a token accepts when it has to find one. -/
theorem require_probe_eq_ok {p : Parser (Option Span)} {P : Token → Prop}
    (h : require p s = .ok span s')
    (hp : ∀ {o}, p s = .ok o s' → (o = none ∧ Consumes s [] s') ∨
      ∃ t, P t ∧ o = some t.span ∧ Consumes s [t] s') :
    ∃ t, P t ∧ span = t.span ∧ Consumes s [t] s' := by
  rcases hp (require_eq_ok h) with ⟨ho, -⟩ | ⟨t, ht, ho, hc⟩
  · exact nomatch ho
  · exact ⟨t, ht, Option.some.inj ho, hc⟩

theorem keyword_eq_ok {k : Keyword} (h : keyword k s = .ok span s') :
    ∃ t, t.kind = .keyword k ∧ span = t.span ∧ Consumes s [t] s' :=
  require_probe_eq_ok h (keyword?_eq_ok hend)

theorem operator_eq_ok {k : Operator} (h : operator k s = .ok span s') :
    ∃ t, t.kind = .operator k ∧ span = t.span ∧ Consumes s [t] s' :=
  require_probe_eq_ok h (operator?_eq_ok hend)

theorem punctuation_eq_ok {k : Punctuation} (h : punctuation k s = .ok span s') :
    ∃ t, t.kind = .punctuation k ∧ span = t.span ∧ Consumes s [t] s' :=
  require_probe_eq_ok h (punctuation?_eq_ok hend)

end

/-! ## Soundness -/

/-- Whether every success of a parser has consumed tokens that read as its
result. -/
def Sound (p : Parser α) (R : List Token → α → Prop) : Prop :=
  ∀ ⦃s a s'⦄, s.finish.isEnd → p s = .ok a s' → ∃ ts, Consumes s ts s' ∧ R ts a

theorem note_eq_ok {es : List Expectation} {s s' : ParserState} {u : Unit}
    (hend : s.finish.isEnd) (h : note es s = .ok u s') : Consumes s [] s' := by
  obtain rfl := (EStateM.Result.ok.inj h).2
  exact ⟨rfl, rfl, rfl, hend, nofun⟩

/-- A probe for a keyword whose presence means something. -/
theorem flag_sound {k : Keyword} {s s' : ParserState} {o : Option Span} (hend : s.finish.isEnd)
    (h : keyword? k s = .ok o s') : ∃ ts, Consumes s ts s' ∧ Flag k ts o.isSome := by
  rcases keyword?_eq_ok hend h with ⟨rfl, hc⟩ | ⟨t, kind, rfl, hc⟩
  · exact ⟨_, hc, .absent⟩
  · exact ⟨_, hc, .present kind⟩

/-- A probe for a keyword whose presence means nothing. -/
theorem noise_sound {k : Keyword} {s s' : ParserState} {o : Option Span} (hend : s.finish.isEnd)
    (h : keyword? k s = .ok o s') : ∃ ts, Consumes s ts s' ∧ Noise k ts := by
  rcases keyword?_eq_ok hend h with ⟨-, hc⟩ | ⟨t, kind, -, hc⟩
  · exact ⟨_, hc, .absent⟩
  · exact ⟨_, hc, .present kind⟩

/-- Steps in a row, each from the result of the last. -/
inductive Chain (R : α → List Token → α → Prop) : α → List Token → α → Prop where
  | done (a : α) : Chain R a [] a
  | step {a b c : α} {ts us : List Token} (head : R a ts b) (tail : Chain R b us c) :
      Chain R a (ts ++ us) c

/-- Steps that put what they read in front of a list read as many parts as
they are. -/
theorem Chain.many {R : List Token → α → Prop} {ts : List Token} {as bs : List α}
    (h : Chain (fun as ts bs => ∃ a, bs = a :: as ∧ R ts a) as ts bs) :
    ∃ cs, bs = cs.reverse ++ as ∧ Many R ts cs := by
  induction h with
  | done as => exact ⟨[], rfl, .nil⟩
  | step head _ ih =>
    obtain ⟨a, rfl, ha⟩ := head
    obtain ⟨cs, rfl, hcs⟩ := ih
    exact ⟨a :: cs, by simp, .cons ha hcs⟩

/-- The successes of one step of a loop. -/
def SoundStep (step : α → Parser (Option α)) (R : α → List Token → α → Prop) : Prop :=
  ∀ ⦃a s o s'⦄, s.finish.isEnd → step a s = .ok o s' →
    (o = none ∧ Consumes s [] s') ∨ ∃ b ts, o = some b ∧ Consumes s ts s' ∧ R a ts b

theorem iterateWithin_sound {step : α → Parser (Option α)} {R : α → List Token → α → Prop}
    (hstep : SoundStep step R) (budget : List Token) {a b : α} {s s' : ParserState}
    (hend : s.finish.isEnd) (h : iterateWithin step budget a s = .ok b s') :
    ∃ ts, Consumes s ts s' ∧ Chain R a ts b := by
  induction budget generalizing a s with
  | nil =>
    obtain ⟨o, s₁, hs, h⟩ := bind_eq_ok.1 h
    rcases hstep hend hs with ⟨rfl, hc⟩ | ⟨c, ts, rfl, hc, hr⟩
    · obtain ⟨rfl, rfl⟩ := pure_eq_ok.1 h
      exact ⟨[], hc, .done a⟩
    · obtain ⟨rfl, rfl⟩ := pure_eq_ok.1 h
      exact ⟨ts ++ [], hc.trans (.refl hc.isEnd), .step hr (.done _)⟩
  | cons t budget ih =>
    obtain ⟨o, s₁, hs, h⟩ := bind_eq_ok.1 h
    rcases hstep hend hs with ⟨rfl, hc⟩ | ⟨c, ts, rfl, hc, hr⟩
    · obtain ⟨rfl, rfl⟩ := pure_eq_ok.1 h
      exact ⟨[], hc, .done a⟩
    · obtain ⟨us, hc', hchain⟩ := ih hc.isEnd h
      exact ⟨ts ++ us, hc.trans hc', .step hr hchain⟩

theorem iterate_sound {step : α → Parser (Option α)} {R : α → List Token → α → Prop}
    (hstep : SoundStep step R) {a b : α} {s s' : ParserState} (hend : s.finish.isEnd)
    (h : iterate step a s = .ok b s') : ∃ ts, Consumes s ts s' ∧ Chain R a ts b :=
  iterateWithin_sound hstep s.tokens hend h

/-- A loop that collects parts in front of each other. -/
theorem collect_sound {step : List α → Parser (Option (List α))} {R : List Token → α → Prop}
    (hstep : SoundStep step fun as ts bs => ∃ a, bs = a :: as ∧ R ts a) {as : List α}
    {s s' : ParserState} (hend : s.finish.isEnd) (h : iterate step [] s = .ok as s') :
    ∃ ts, Consumes s ts s' ∧ Many R ts as.reverse := by
  obtain ⟨ts, hc, hchain⟩ := iterate_sound hstep hend h
  obtain ⟨cs, rfl, hcs⟩ := hchain.many
  exact ⟨ts, hc, by simpa using hcs⟩

/-- A step that collects what a parser finds, as long as it finds something. -/
theorem optionalStep_sound {p : Parser (Option α)} {R : List Token → α → Prop}
    {go : List α → Option α → Parser (Option (List α))}
    (h : Sound p fun ts o => (o = none ∧ ts = []) ∨ ∃ a, o = some a ∧ R ts a)
    (hnone : ∀ as, go as none = pure none) (hsome : ∀ as a, go as (some a) = pure (some (a :: as))) :
    SoundStep (fun as => p >>= go as) fun as ts bs => ∃ a, bs = a :: as ∧ R ts a := by
  intro as s o s' hend hs
  obtain ⟨o, s₁, hp, hs⟩ := bind_eq_ok.1 hs
  obtain ⟨ts, hc, ⟨rfl, rfl⟩ | ⟨a, rfl, ha⟩⟩ := h hend hp
  · rw [hnone] at hs
    obtain ⟨rfl, rfl⟩ := pure_eq_ok.1 hs
    exact .inl ⟨rfl, hc⟩
  · rw [hsome] at hs
    obtain ⟨rfl, rfl⟩ := pure_eq_ok.1 hs
    exact .inr ⟨_, _, rfl, hc, a, rfl, ha⟩

theorem commaStep_sound {item : Parser α} {R : List Token → α → Prop} (hitem : Sound item R) :
    SoundStep (fun items => do
      match ← punctuation? .comma with
      | some _ => return some ((← item) :: items)
      | none => return none) fun as ts bs => ∃ a, bs = a :: as ∧
        Behind (.punctuation .comma) R ts a := by
  intro as s o s' hend h
  obtain ⟨c, s₁, hcomma, h⟩ := bind_eq_ok.1 h
  rcases punctuation?_eq_ok hend hcomma with ⟨rfl, hc⟩ | ⟨t, ht, rfl, hc⟩
  · obtain ⟨rfl, rfl⟩ := pure_eq_ok.1 h
    exact .inl ⟨rfl, hc⟩
  · obtain ⟨a, s₂, hitem', h⟩ := bind_eq_ok.1 h
    obtain ⟨rfl, rfl⟩ := pure_eq_ok.1 h
    obtain ⟨us, hc', ha⟩ := hitem hc.isEnd hitem'
    exact .inr ⟨_, _, rfl, hc.trans hc', a, rfl, .intro ht ha⟩

theorem commaSeparated_sound {item : Parser α} {R : List Token → α → Prop} (hitem : Sound item R) :
    Sound (commaSeparated item) (CommaSeparated R) := by
  intro s as s' hend h
  obtain ⟨a, s₁, hfirst, h⟩ := bind_eq_ok.1 h
  obtain ⟨ts, hc, ha⟩ := hitem hend hfirst
  obtain ⟨others, s₂, hloop, h⟩ := bind_eq_ok.1 h
  obtain ⟨rfl, rfl⟩ := pure_eq_ok.1 h
  obtain ⟨us, hc', hus⟩ := collect_sound (commaStep_sound hitem) hc.isEnd hloop
  exact ⟨ts ++ us, hc.trans hc', .intro ha hus⟩

theorem parenthesized_sound {inner : Parser α} {R : List Token → α → Prop} (h : Sound inner R) :
    Sound (parenthesized inner) (Parenthesized R) := by
  intro s a s' hend hp
  obtain ⟨_, s₁, hopen, hp⟩ := bind_eq_ok.1 hp
  obtain ⟨o, ho, -, hc₁⟩ := punctuation_eq_ok hend hopen
  obtain ⟨b, s₂, hinner, hp⟩ := bind_eq_ok.1 hp
  obtain ⟨ts, hc₂, hb⟩ := h hc₁.isEnd hinner
  obtain ⟨_, s₃, hclose, hp⟩ := bind_eq_ok.1 hp
  obtain ⟨c, hc, -, hc₃⟩ := punctuation_eq_ok hc₂.isEnd hclose
  obtain ⟨rfl, rfl⟩ := pure_eq_ok.1 hp
  exact ⟨_, hc₁.trans (hc₂.trans hc₃), .intro ho hb hc⟩

/-! ## Reading given tokens -/

/-- Whether a parser reads `ts` as `a` before `rest`, when `before` was consumed
right before. -/
def ReadsAfter (before : List Token) (p : Parser α) (ts : List Token) (a : α)
    (rest : List Token) : Prop :=
  ∀ ⦃s⦄, s.tokens = ts ++ rest → s.failure = none → s.finish.isEnd →
    (∀ t, before.getLast? = some t → s.last = some t.span) →
    ∃ s', p s = .ok a s' ∧ Consumes s ts s'

/-- Whether a parser reads `ts` as `a` before `rest`. -/
abbrev Reads (p : Parser α) (ts : List Token) (a : α) (rest : List Token) : Prop :=
  ReadsAfter [] p ts a rest

theorem Consumes.tokens_eq {s s' : ParserState} {ts rest : List Token} (h : Consumes s ts s')
    (hs : s.tokens = ts ++ rest) : s'.tokens = rest :=
  List.append_cancel_left (h.tokens.symm.trans hs)

theorem Consumes.last_eq {before ts : List Token} {s s' : ParserState} (h : Consumes s ts s')
    (hlast : ∀ t, before.getLast? = some t → s.last = some t.span) :
    ∀ t, (before ++ ts).getLast? = some t → s'.last = some t.span := by
  intro t ht
  rw [h.last]
  cases hu : ts.getLast? with
  | none =>
    rw [List.getLast?_eq_none_iff.1 hu, List.append_nil] at ht
    simpa using hlast t ht
  | some u =>
    rw [List.getLast?_append, hu] at ht
    simp at ht
    simp [ht]

namespace ReadsAfter

variable {before : List Token} {p : Parser α} {f : α → Parser β} {ts us rest : List Token}
  {a : α} {b : β} {t : Token}

theorem after (h : Reads p ts a rest) : ReadsAfter before p ts a rest :=
  fun _ htokens hfailure hend _ => h htokens hfailure hend nofun

/-- Only what was consumed last matters. -/
theorem append {front : List Token} (h : ReadsAfter before p ts a rest) :
    ReadsAfter (front ++ before) p ts a rest := by
  intro s htokens hfailure hend hlast
  refine h htokens hfailure hend fun t ht => hlast t ?_
  rw [List.getLast?_append, ht]
  rfl

theorem pure : ReadsAfter before (pure a : Parser α) [] a rest :=
  fun s _ _ hend _ => ⟨s, rfl, .refl hend⟩

theorem bind (hp : ReadsAfter before p ts a (us ++ rest))
    (hf : ReadsAfter (before ++ ts) (f a) us b rest) :
    ReadsAfter before (p >>= f) (ts ++ us) b rest := by
  intro s htokens hfailure hend hlast
  rw [List.append_assoc] at htokens
  obtain ⟨s₁, hs₁, hc₁⟩ := hp htokens hfailure hend hlast
  obtain ⟨s₂, hs₂, hc₂⟩ := hf (hc₁.tokens_eq htokens) (hc₁.failure.trans hfailure) hc₁.isEnd
    (hc₁.last_eq hlast)
  exact ⟨s₂, bind_eq_ok.2 ⟨a, s₁, hs₁, hs₂⟩, hc₁.trans hc₂⟩

/-- Behind a parser that consumes one token. -/
theorem bindToken (hp : ReadsAfter before p [t] a (us ++ rest))
    (hf : ReadsAfter (before ++ [t]) (f a) us b rest) :
    ReadsAfter before (p >>= f) (t :: us) b rest :=
  bind hp hf

/-- Behind a parser that consumes nothing. -/
theorem bindNil (hp : ReadsAfter before p [] a (us ++ rest))
    (hf : ReadsAfter before (f a) us b rest) : ReadsAfter before (p >>= f) us b rest :=
  bind hp (by rwa [List.append_nil])

/-- Before a parser that consumes nothing. -/
theorem bindLast (hp : ReadsAfter before p ts a rest)
    (hf : ReadsAfter (before ++ ts) (f a) [] b rest) : ReadsAfter before (p >>= f) ts b rest := by
  have h : ReadsAfter before (p >>= f) (ts ++ []) b rest := bind hp hf
  rwa [List.append_nil] at h

/-- Behind a look further ahead. -/
theorem bindPeekAt {n : Nat} {f : Token → Parser β}
    (hf : ∀ t, t.kind = headKind ((us ++ rest).drop n) → ReadsAfter before (f t) us b rest) :
    ReadsAfter before (peekAt n >>= f) us b rest := by
  intro s htokens hfailure hend hlast
  obtain ⟨t, looked, kind⟩ : ∃ t, peekAt n s = .ok t s ∧
      t.kind = headKind ((us ++ rest).drop n) := by
    unfold peekAt
    rw [← htokens, ← List.head?_drop]
    cases s.tokens.drop n with
    | nil => exact ⟨s.finish, by simp [hfailure], by simpa [Token.isEnd] using hend⟩
    | cons t => exact ⟨t, rfl, rfl⟩
  obtain ⟨s', hs', hc⟩ := hf t kind htokens hfailure hend hlast
  exact ⟨s', bind_eq_ok.2 ⟨_, s, looked, hs'⟩, hc⟩

/-- Behind a look at the next token. -/
theorem bindPeek {f : Token → Parser β}
    (hf : ∀ t, t.kind = headKind (us ++ rest) → (∀ u ∈ (us ++ rest).head?, t = u) →
      ReadsAfter before (f t) us b rest) : ReadsAfter before (peek >>= f) us b rest := by
  intro s htokens hfailure hend hlast
  have looked : peek s = .ok (ahead s) s := by
    show peekAt 0 s = _
    unfold peekAt ahead
    rw [List.head?_eq_getElem?]
    cases s.tokens[0]? <;> simp [hfailure]
  have kind : (ahead s).kind = headKind (us ++ rest) := by
    rw [← htokens, ahead]
    cases s.tokens with
    | nil => simpa [Token.isEnd] using hend
    | cons => rfl
  have same : ∀ u ∈ (us ++ rest).head?, ahead s = u := by
    intro u hu
    rw [← htokens] at hu
    simp [ahead, Option.mem_def.1 hu]
  obtain ⟨s', hs', hc⟩ := hf _ kind same htokens hfailure hend hlast
  exact ⟨s', bind_eq_ok.2 ⟨_, s, looked, hs'⟩, hc⟩

/-- A span that ends with what was consumed last. -/
theorem spanned {g : Span → β} {start : Span} (hne : before ≠ [])
    (h : g (start.through before) = b) :
    ReadsAfter before (spanFrom start >>= fun span => Pure.pure (g span)) [] b rest := by
  intro s _ _ hend hlast
  have hb := List.getLast?_eq_some_getLast hne
  have span : spanFrom start s = .ok (start.through before) s := by
    unfold spanFrom Span.through
    rw [hlast _ hb, hb]
  exact ⟨s, bind_eq_ok.2 ⟨_, s, span, by rw [h]; rfl⟩, .refl hend⟩

end ReadsAfter

section

variable {before rest : List Token} {t : Token}

theorem next_reads (ht : t.isEnd = false) : ReadsAfter before next [t] t rest := by
  intro s htokens _ hend _
  have looked : peek s = .ok t s := by
    show peekAt 0 s = _
    simp [peekAt, htokens]
  refine ⟨{ s with tokens := rest, last := some t.span, expected := [] },
    bind_eq_ok.2 ⟨t, s, looked, ?_⟩, htokens, rfl, rfl, hend, by simpa using ht⟩
  rw [if_neg (by simp [ht])]
  refine bind_eq_ok.2 ⟨(), _, rfl, pure_eq_ok.2 ⟨rfl, ?_⟩⟩
  simp [htokens]

theorem note_reads {es : List Expectation} : ReadsAfter before (note es) [] () rest :=
  fun _ _ _ hend _ => ⟨_, rfl, rfl, rfl, rfl, hend, nofun⟩

theorem probe_reads {accepts : Token → Bool} {e : Expectation} (ht : accepts t)
    (hend : t.isEnd = false) : ReadsAfter before (probe accepts e) [t] (some t.span) rest := by
  refine .bindPeek fun u _ hu => ?_
  obtain rfl := hu t rfl
  rw [if_pos ht]
  exact .bindLast (next_reads hend) .pure

theorem probe_absent {accepts : Token → Bool} {e : Expectation}
    (h : ∀ t, t.kind = headKind rest → (∀ u ∈ rest.head?, t = u) → accepts t = false) :
    ReadsAfter before (probe accepts e) [] none rest := by
  refine .bindPeek fun t ht hu => ?_
  rw [if_neg (by simp [h t ht hu])]
  exact .bindNil note_reads .pure

theorem probe_kind_reads {k : TokenKind} {e : Expectation} (hk : k ≠ .endOfInput)
    (ht : t.kind = k) :
    ReadsAfter before (probe (fun t => t.kind == k) e) [t] (some t.span) rest :=
  probe_reads (beq_iff_eq.2 ht) (by rw [Token.isEnd, ht]; simpa using hk)

theorem probe_kind_absent {k : TokenKind} {e : Expectation} (h : headKind rest ≠ k) :
    ReadsAfter before (probe (fun t => t.kind == k) e) [] none rest :=
  probe_absent fun t ht _ => by simpa [ht] using h

theorem keyword?_reads {k : Keyword} (ht : t.kind = .keyword k) :
    ReadsAfter before (keyword? k) [t] (some t.span) rest :=
  probe_kind_reads nofun ht

theorem keyword?_absent {k : Keyword} (h : headKind rest ≠ .keyword k) :
    ReadsAfter before (keyword? k) [] none rest :=
  probe_kind_absent h

theorem operator?_reads {o : Operator} (ht : t.kind = .operator o) :
    ReadsAfter before (operator? o) [t] (some t.span) rest :=
  probe_kind_reads nofun ht

theorem operator?_absent {o : Operator} (h : headKind rest ≠ .operator o) :
    ReadsAfter before (operator? o) [] none rest :=
  probe_kind_absent h

theorem punctuation?_reads {p : Punctuation} (ht : t.kind = .punctuation p) :
    ReadsAfter before (punctuation? p) [t] (some t.span) rest :=
  probe_kind_reads nofun ht

theorem punctuation?_absent {p : Punctuation} (h : headKind rest ≠ .punctuation p) :
    ReadsAfter before (punctuation? p) [] none rest :=
  probe_kind_absent h

theorem word?_reads {text : String} (ht : t.kind = .identifier .bare)
    (htext : capitals t.text = text) :
    ReadsAfter before (word? text) [t] (some t.span) rest :=
  probe_reads (by simp [ht, htext]) (by simp [Token.isEnd, ht])

theorem word?_absent {text : String} (h : headKind rest ≠ .identifier .bare) :
    ReadsAfter before (word? text) [] none rest :=
  probe_absent fun t ht _ => by simp [ht, h]

/-- Another word is no reading of a word. -/
theorem word?_other {text : String} (h : capitals t.text ≠ text) :
    ReadsAfter before (word? text) [] none (t :: rest) :=
  probe_absent fun u _ hu => by
    obtain rfl := hu t rfl
    simp [h]

theorem require_reads {p : Parser (Option Span)} {ts : List Token} {span : Span}
    (h : ReadsAfter before p ts (some span) rest) :
    ReadsAfter before (require p) ts span rest :=
  .bindLast h .pure

theorem keyword_reads {k : Keyword} (ht : t.kind = .keyword k) :
    ReadsAfter before (keyword k) [t] t.span rest :=
  require_reads (keyword?_reads ht)

theorem operator_reads {o : Operator} (ht : t.kind = .operator o) :
    ReadsAfter before (operator o) [t] t.span rest :=
  require_reads (operator?_reads ht)

theorem punctuation_reads {p : Punctuation} (ht : t.kind = .punctuation p) :
    ReadsAfter before (punctuation p) [t] t.span rest :=
  require_reads (punctuation?_reads ht)

end

/-! ### Loops -/

/-- A loop reads a chain of steps. What may follow a step is told by `F`:
another step or the tokens behind the loop. -/
theorem iterateWithin_reads {step : α → Parser (Option α)} {R : α → List Token → α → Prop}
    {F : List Token → Prop} {rest : List Token} (hrest : F rest)
    (hmore : ∀ a ts b us, R a ts b → ts ≠ [] ∧ F (ts ++ us))
    (hstep : ∀ a ts b us, R a ts b → F us → Reads (step a) ts (some b) us)
    (hstop : ∀ a, Reads (step a) [] none rest) {a b : α} {ts : List Token} (h : Chain R a ts b)
    (budget : List Token) (hbudget : ts.length ≤ budget.length) :
    Reads (iterateWithin step budget a) ts b rest := by
  induction h generalizing budget with
  | done a =>
    cases budget with
    | nil => exact .bindNil (hstop a) .pure
    | cons => exact .bindNil (hstop a) .pure
  | @step a b c ts us head tail ih =>
    have hne := (hmore a ts b [] head).1
    have follow : F (us ++ rest) := by
      cases tail with
      | done => exact hrest
      | step head' =>
        rw [List.append_assoc]
        exact (hmore _ _ _ _ head').2
    have read := hstep a ts b (us ++ rest) head follow
    rw [List.length_append] at hbudget
    have := List.length_pos_iff.2 hne
    cases budget with
    | nil => simp only [List.length_nil] at hbudget; omega
    | cons t budget =>
      refine .bind read (.after (ih budget ?_))
      simp only [List.length_cons] at hbudget
      omega

theorem iterate_reads {step : α → Parser (Option α)} {R : α → List Token → α → Prop}
    {F : List Token → Prop} {rest : List Token} (hrest : F rest)
    (hmore : ∀ a ts b us, R a ts b → ts ≠ [] ∧ F (ts ++ us))
    (hstep : ∀ a ts b us, R a ts b → F us → Reads (step a) ts (some b) us)
    (hstop : ∀ a, Reads (step a) [] none rest) {a b : α} {ts : List Token} (h : Chain R a ts b) :
    Reads (iterate step a) ts b rest := by
  intro s htokens hfailure hend hlast
  refine iterateWithin_reads hrest hmore hstep hstop h s.tokens ?_ htokens hfailure hend hlast
  rw [htokens, List.length_append]
  omega

/-- Parts in a row are read by steps that put them in front of each other. -/
theorem Chain.of_many {R : List Token → α → Prop} {ts : List Token} {cs : List α}
    (h : Many R ts cs) (as : List α) :
    Chain (fun as ts bs => ∃ a, bs = a :: as ∧ R ts a) as ts (cs.reverse ++ as) := by
  induction h generalizing as with
  | nil => exact .done as
  | @cons ts us a cs head _ ih =>
    rw [List.reverse_cons, List.append_assoc]
    exact .step ⟨a, rfl, head⟩ (ih (a :: as))

theorem collect_reads {step : List α → Parser (Option (List α))} {R : List Token → α → Prop}
    {F : List Token → Prop} {rest : List Token} (hrest : F rest)
    (hmore : ∀ ts a us, R ts a → ts ≠ [] ∧ F (ts ++ us))
    (hstep : ∀ as ts a us, R ts a → F us → Reads (step as) ts (some (a :: as)) us)
    (hstop : ∀ as, Reads (step as) [] none rest) {as : List α} {ts : List Token}
    (h : Many R ts as) : Reads (iterate step []) ts as.reverse rest := by
  have chain := Chain.of_many h []
  rw [List.append_nil] at chain
  refine iterate_reads hrest (fun _ ts _ us hr => ?_) (fun as ts _ us hr hus => ?_) hstop chain
  · obtain ⟨a, -, ha⟩ := hr
    exact hmore ts a us ha
  · obtain ⟨a, rfl, ha⟩ := hr
    exact hstep as ts a us ha hus

theorem commaSeparated_reads {item : Parser α} {R : List Token → α → Prop}
    {F : List Token → Prop} {rest : List Token}
    (hitem : ∀ ts a us, R ts a → F us → Reads item ts a us)
    (hcomma : ∀ c us, c.kind = .punctuation .comma → F (c :: us)) (hrest : F rest)
    (hhead : headKind rest ≠ .punctuation .comma) {ts : List Token} {as : List α}
    (h : CommaSeparated R ts as) : Reads (commaSeparated item) ts as rest := by
  obtain @⟨ts, us, a, as, first, others⟩ := h
  have follow : F (us ++ rest) := by
    cases others with
    | nil => exact hrest
    | cons head =>
      obtain ⟨kind, _⟩ := head
      exact hcomma _ _ kind
  refine .bind (hitem ts a _ first follow) (.bindLast (.after (collect_reads hrest ?_ ?_ ?_ others))
    ?_)
  · intro ts a us h
    obtain ⟨kind, _⟩ := h
    exact ⟨nofun, hcomma _ _ kind⟩
  · intro as ts a us h hus
    obtain ⟨kind, part⟩ := h
    exact .bindToken (punctuation?_reads kind) (.bindLast (.after (hitem _ _ _ part hus)) .pure)
  · exact fun as => .bindNil (punctuation?_absent hhead) .pure
  · rw [List.reverse_reverse]
    exact .pure

theorem parenthesized_reads {inner : Parser α} {R : List Token → α → Prop} {rest : List Token}
    (hinner : ∀ ts a c us, R ts a → c.kind = .punctuation .closeParen →
      Reads inner ts a (c :: us)) {ts : List Token} {a : α} (h : Parenthesized R ts a) :
    Reads (parenthesized inner) ts a rest := by
  obtain ⟨opening, part, closing⟩ := h
  exact .bindToken (punctuation_reads opening) (.bind (.after (hinner _ _ _ _ part closing))
    (.bindLast (punctuation_reads closing) .pure))

end Parser

end SqlSyntax
