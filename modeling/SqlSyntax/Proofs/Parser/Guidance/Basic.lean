import SqlSyntax.Proofs.Parser.Expectation
import SqlSyntax.Proofs.Parser.Name

/-!
# What is expected, and what can go on

A syntax error lists what a parser has probed for since it consumed a token.
The list is right when each entry can stand behind the tokens consumed so far,
in some longer list of tokens that is accepted. Acceptance is a set of
*beginnings*: the lists of tokens that something accepted starts with.

A parser *guides* through the beginnings when it keeps this of its notes, and
has it of the error that it fails with. It does so wherever the phrase it
stands for *fits*: every reading of the phrase, put behind what is consumed,
begins something accepted.

## Main results

* `Guides.bind` — parsers in a row guide, each from where the one before ends.
* `Guides.probe`, `Guides.found` — what a probe notes has to fit.
* `iterate_guides`, `commaSeparated_guides`, `parenthesized_guides` — loops and
  combinators guide where their parts do.
-/

namespace SqlSyntax

namespace Grammar

/-- Lists of tokens that can be gone on with. -/
structure Beginnings where
  holds : List Token → Prop
  closed : ∀ {ts us : List Token}, holds (ts ++ us) → holds ts

theorem Beginnings.of_prefix (V : Beginnings) {ts us : List Token} (h : V.holds us)
    (hle : ts <+: us) : V.holds ts := by
  obtain ⟨vs, rfl⟩ := hle
  exact V.closed h

/-- Whether every reading begins something accepted behind given tokens. -/
def Fits {α : Type} (V : Beginnings) (before : List Token) (R : List Token → α → Prop) : Prop :=
  ∀ ⦃ts a⦄, R ts a → V.holds (before ++ ts)

theorem Fits.part {α : Type} {V : Beginnings} {before ts us : List Token}
    {R : List Token → α → Prop} {a : α} (h : Fits V before R) (reading : R ts a)
    (hle : us <+: before ++ ts) : V.holds us :=
  V.of_prefix (h reading) hle

/-- Each expectation has a token that can stand behind given tokens. -/
def Offers (V : Beginnings) (before : List Token) (es : List Expectation) : Prop :=
  ∀ e ∈ es, ∃ t, e.Accepts t ∧ V.holds (before ++ [t])

theorem Offers.nil {V : Beginnings} {before : List Token} : Offers V before [] := nofun

end Grammar

section

variable {V : Grammar.Beginnings} {before : List Token} {e : Expectation} {es : List Expectation}

theorem Grammar.Offers.consToken {t : Token} (accepts : e.Accepts t)
    (holds : V.holds (before ++ [t])) (rest : Grammar.Offers V before es) :
    Grammar.Offers V before (e :: es) := by
  intro e' he'
  rcases List.mem_cons.1 he' with rfl | he'
  · exact ⟨t, accepts, holds⟩
  · exact rest e' he'

theorem Grammar.Offers.cons (known : e.Known) (holds : V.holds (before ++ [e.sample]))
    (rest : Grammar.Offers V before es) : Grammar.Offers V before (e :: es) :=
  .consToken (Expectation.accepts_sample known) holds rest

end

namespace Parser

open Grammar

variable {α β : Type} {V : Beginnings} {before : List Token} {s : ParserState}

/-! ## Guidance -/

/-- A state whose notes are right, when `before` is consumed. -/
structure Ready (V : Beginnings) (before : List Token) (s : ParserState) : Prop where
  isEnd : s.finish.isEnd
  notes : Offers V before s.expected

/-- An error at the next token that lists what is right, when `before` is
consumed. -/
structure Lists (V : Beginnings) (before : List Token) (s : ParserState) (e : ParseError) :
    Prop where
  position : e.position = (ahead s).position
  found : e.found = (ahead s).describe
  expected : ∀ text ∈ e.expected, ∃ t, Describes text t ∧ V.holds (before ++ [t])

/-- Whether the notes are right after a success, and the error is after a
failure, if `before` was consumed in the state that led to it. -/
def Guided (V : Beginnings) (before : List Token) (s : ParserState) :
    EStateM.Result Error ParserState α → Prop
  | .ok _ s' => ∃ ts, Consumes s ts s' ∧ Ready V (before ++ ts) s'
  | .error (.parse e) s' => ∃ ts, s.tokens = ts ++ s'.tokens ∧ Lists V (before ++ ts) s' e
  | .error _ _ => True

theorem Guided.of_error {e : Error} {s' : ParserState}
    (h : Guided V before s (.error e s' : EStateM.Result Error ParserState α)) :
    Guided V before s (.error e s' : EStateM.Result Error ParserState β) := by
  cases e <;> exact h

/-- Whether a parser guides from a state in which `before` is consumed. -/
def Guides (V : Beginnings) (before : List Token) (p : Parser α) (s : ParserState) : Prop :=
  Guided V before s (p s)

theorem Guides.of_ok {p : Parser α} {a : α} {s' : ParserState} {ts : List Token}
    (h : p s = .ok a s') (hc : Consumes s ts s') (ready : Ready V (before ++ ts) s') :
    Guides V before p s := by
  unfold Guides
  rw [h]
  exact ⟨ts, hc, ready⟩

theorem Guides.of_ok_nil {p : Parser α} {a : α} {s' : ParserState} (h : p s = .ok a s')
    (hc : Consumes s [] s') (ready : Ready V before s') : Guides V before p s :=
  .of_ok h hc (by rwa [List.append_nil])

theorem Guides.ready_of_ok {p : Parser α} (h : Guides V before p s) {a : α} {s' : ParserState}
    {ts : List Token} (hp : p s = .ok a s') (hc : Consumes s ts s') :
    Ready V (before ++ ts) s' := by
  unfold Guides at h
  rw [hp] at h
  obtain ⟨us, hc', ready⟩ := h
  obtain rfl : ts = us := List.append_cancel_right (hc.tokens.symm.trans hc'.tokens)
  exact ready

namespace Guides

variable {p : Parser α} {f : α → Parser β}

theorem pure {a : α} (ready : Ready V before s) : Guides V before (pure a : Parser α) s :=
  .of_ok_nil rfl (.refl ready.isEnd) ready

/-- Parsers in a row, the first with what is known of its successes. -/
theorem bind {Q : List Token → α → ParserState → Prop} (hp : Guides V before p s)
    (sound : ∀ a s', p s = .ok a s' → ∃ ts, Consumes s ts s' ∧ Q ts a s')
    (hf : ∀ a s' ts, Consumes s ts s' → Ready V (before ++ ts) s' → Q ts a s' →
      Guides V (before ++ ts) (f a) s') : Guides V before (p >>= f) s := by
  show Guided V before s (EStateM.bind p f s)
  unfold EStateM.bind
  cases hps : p s with
  | ok a s₁ =>
    obtain ⟨ts, hc, hq⟩ := sound a s₁ hps
    have go := hf a s₁ ts hc (hp.ready_of_ok hps hc) hq
    unfold Guides at go
    simp only
    cases hfs : f a s₁ with
    | ok b s₂ =>
      rw [hfs] at go
      obtain ⟨us, hc', ready⟩ := go
      exact ⟨ts ++ us, hc.trans hc', by rwa [← List.append_assoc]⟩
    | error e s₂ =>
      rw [hfs] at go
      cases e with
      | parse e =>
        obtain ⟨us, tokens, lists⟩ := go
        exact ⟨ts ++ us, by rw [hc.tokens, tokens, List.append_assoc],
          by rwa [← List.append_assoc]⟩
      | _ => trivial
  | error e s₁ =>
    unfold Guides at hp
    rw [hps] at hp
    exact hp.of_error

/-- A parser with readings in front of another. -/
theorem bindSound {R : List Token → α → Prop} (ready : Ready V before s) (sound : Sound p R)
    (hp : Guides V before p s)
    (hf : ∀ a s' ts, Consumes s ts s' → Ready V (before ++ ts) s' → R ts a →
      Guides V (before ++ ts) (f a) s') : Guides V before (p >>= f) s :=
  hp.bind (fun _ _ h => sound ready.isEnd h) hf

/-- A parser at the end of another, with its result in some form. -/
theorem map {g : α → β} (hp : Guides V before p s) :
    Guides V before (p >>= fun a => Pure.pure (g a)) s := by
  unfold Guides at hp
  show Guided V before s (EStateM.bind p _ s)
  unfold EStateM.bind
  cases hps : p s with
  | ok a s₁ =>
    rw [hps] at hp
    exact hp
  | error e s₁ =>
    rw [hps] at hp
    exact hp.of_error

/-- A parser that only looks, in front of another. -/
theorem bindLook {Q : α → Prop} (ready : Ready V before s) (hp : Guides V before p s)
    (looks : ∀ a s', p s = .ok a s' → s = s' ∧ Q a)
    (hf : ∀ a, Q a → Guides V before (f a) s) : Guides V before (p >>= f) s := by
  refine hp.bind (Q := fun ts a s' => ts = [] ∧ s = s' ∧ Q a) (fun a s' h => ?_) ?_
  · obtain ⟨rfl, ha⟩ := looks a s' h
    exact ⟨[], .refl ready.isEnd, rfl, rfl, ha⟩
  · rintro a s' ts - - ⟨rfl, rfl, ha⟩
    rw [List.append_nil]
    exact hf a ha

/-! ### Looking and consuming -/

theorem peekAt (ready : Ready V before s) (n : Nat) : Guides V before (peekAt n) s := by
  unfold Guides Parser.peekAt
  cases s.tokens[n]? with
  | some t => exact ⟨[], .refl ready.isEnd, by rwa [List.append_nil]⟩
  | none =>
    cases s.failure with
    | some e => trivial
    | none => exact ⟨[], .refl ready.isEnd, by rwa [List.append_nil]⟩

theorem bindPeekAt {n : Nat} {f : Token → Parser β} (ready : Ready V before s)
    (hf : Guides V before (f (s.tokens[n]?.getD s.finish)) s) :
    Guides V before (Parser.peekAt n >>= f) s :=
  .bindLook ready (.peekAt ready n) (fun _ _ h => peekAt_eq_ok h) fun _ ht => ht ▸ hf

theorem bindPeek {f : Token → Parser β} (ready : Ready V before s)
    (hf : Guides V before (f (ahead s)) s) : Guides V before (peek >>= f) s :=
  .bindLook ready (.peekAt ready 0) (fun _ _ h => peek_eq_ok h) fun _ ht => ht ▸ hf

theorem bindNext {f : Token → Parser β} (ready : Ready V before s)
    (here : (ahead s).isEnd = false)
    (hf : ∀ s', Consumes s [ahead s] s' → Ready V (before ++ [ahead s]) s' →
      Guides V (before ++ [ahead s]) (f (ahead s)) s') : Guides V before (next >>= f) s := by
  have hnext : Guides V before next s := by
    unfold next
    refine .bindPeek ready ?_
    rw [if_neg (by simp [here])]
    have hc : Consumes s [ahead s]
        { s with tokens := s.tokens.tail, last := some (ahead s).span, expected := [] } := by
      refine ⟨?_, rfl, rfl, ready.isEnd, by simpa using here⟩
      unfold ahead at here ⊢
      cases hs : s.tokens with
      | nil => simp [hs, ready.isEnd] at here
      | cons => rfl
    exact .of_ok (bind_eq_ok.2 ⟨(), _, rfl, rfl⟩) hc ⟨ready.isEnd, .nil⟩
  refine hnext.bind (Q := fun ts t _ => ts = [ahead s] ∧ t = ahead s) (fun t s' h => ?_) ?_
  · obtain ⟨rfl, hc⟩ := next_eq_ok ready.isEnd h here
    exact ⟨_, hc, rfl, rfl⟩
  · rintro t s' ts hc ready' ⟨rfl, rfl⟩
    exact hf s' hc ready'

theorem ready_note {es : List Expectation} (ready : Ready V before s)
    (offers : Offers V before es) :
    Ready V before { s with expected := es.reverse ++ s.expected } := by
  refine ⟨ready.isEnd, fun e he => ?_⟩
  rcases List.mem_append.1 he with he | he
  · exact offers e (List.mem_reverse.1 he)
  · exact ready.notes e he

theorem note {es : List Expectation} (ready : Ready V before s) (offers : Offers V before es) :
    Guides V before (note es) s :=
  .of_ok_nil rfl ⟨rfl, rfl, rfl, ready.isEnd, nofun⟩ (ready_note ready offers)

theorem bindNote {es : List Expectation} {f : Unit → Parser β} (ready : Ready V before s)
    (offers : Offers V before es)
    (hf : ∀ s', Consumes s [] s' → Ready V before s' → Guides V before (f ()) s') :
    Guides V before (Parser.note es >>= f) s := by
  refine (Guides.note ready offers).bind (Q := fun ts _ _ => ts = [])
    (fun _ _ h => ⟨[], note_eq_ok ready.isEnd h, rfl⟩) ?_
  rintro - s' ts hc ready' rfl
  rw [List.append_nil] at ready' ⊢
  exact hf s' hc ready'

theorem spanned {start : Span} {g : Span → β} (ready : Ready V before s) :
    Guides V before (spanFrom start >>= fun span => Pure.pure (g span)) s := by
  refine map ?_
  unfold Guides spanFrom
  cases s.last <;> exact ⟨[], .refl ready.isEnd, by rwa [List.append_nil]⟩

/-! ### Failing -/

theorem failAt {fault : ParseFault} (ready : Ready V before s) :
    Guides V before (failAt fault (ahead s) : Parser α) s := by
  refine ⟨[], rfl, rfl, rfl, fun text htext => ?_⟩
  obtain ⟨e, he, rfl⟩ := List.mem_map.1 (ParseError.mem_expected_of.1 htext)
  obtain ⟨t, ht, holds⟩ := ready.notes e (List.mem_reverse.1 he)
  exact ⟨t, ⟨e, rfl, ht⟩, by rwa [List.append_nil]⟩

theorem unexpected (ready : Ready V before s) :
    Guides V before (unexpected : Parser α) s :=
  .bindPeek ready (.failAt ready)

theorem noteUnexpected {es : List Expectation} (ready : Ready V before s)
    (offers : Offers V before es) :
    Guides V before (do Parser.note es; Parser.unexpected : Parser α) s :=
  .bindNote ready offers fun _ _ ready' => .unexpected ready'

theorem noteFailAt {fault : ParseFault} {es : List Expectation} (ready : Ready V before s)
    (offers : Offers V before es) :
    Guides V before (do Parser.note es; Parser.failAt fault (ahead s) : Parser α) s :=
  Guides.failAt (α := α) (s := { s with expected := es.reverse ++ s.expected })
    (ready_note ready offers)

/-! ### Probing -/

theorem probe {accepts : Token → Bool} {e : Expectation} {f : Option Span → Parser β}
    (ready : Ready V before s) (hacc : ∀ t, accepts t → t.isEnd = false) (known : e.Known)
    (offers : ∀ t, e.Accepts t → V.holds (before ++ [t]))
    (present : ∀ t s', accepts t → Consumes s [t] s' → Ready V (before ++ [t]) s' →
      Guides V (before ++ [t]) (f (some t.span)) s')
    (absent : ∀ s', Consumes s [] s' → Ready V before s' → Guides V before (f none) s') :
    Guides V before (probe accepts e >>= f) s := by
  rw [Parser.probe, bind_assoc]
  refine .bindPeek ready ?_
  split
  · rename_i ht
    rw [bind_assoc]
    refine .bindNext ready (hacc _ ht) fun s' hc ready' => ?_
    rw [pure_bind]
    exact present _ s' ht hc ready'
  · rw [bind_assoc]
    have offered : Offers V before [e] := fun e' he' => by
      obtain rfl := List.mem_singleton.1 he'
      exact ⟨_, Expectation.accepts_sample known, offers _ (Expectation.accepts_sample known)⟩
    refine .bindNote ready offered fun s' hc ready' => ?_
    rw [pure_bind]
    exact absent s' hc ready'

/-- A probe for tokens of a kind. -/
theorem probeKind {k : TokenKind} {e : Expectation} {f : Option Span → Parser β}
    (ready : Ready V before s) (hk : k ≠ .endOfInput)
    (he : ∀ t, e.Accepts t ↔ t.kind = k) (known : e.Known)
    (offers : ∀ t : Token, t.kind = k → V.holds (before ++ [t]))
    (present : ∀ (t : Token) s', t.kind = k → Consumes s [t] s' → Ready V (before ++ [t]) s' →
      Guides V (before ++ [t]) (f (some t.span)) s')
    (absent : ∀ s', Consumes s [] s' → Ready V before s' → Guides V before (f none) s') :
    Guides V before (Parser.probe (fun t => t.kind == k) e >>= f) s := by
  refine .probe ready (fun t ht => ?_) known (fun t ht => offers t ((he t).1 ht))
    (fun t s' ht => present t s' (beq_iff_eq.1 ht)) absent
  rw [Token.isEnd, beq_iff_eq.1 ht]
  simpa using hk

theorem keyword? {k : Keyword} {f : Option Span → Parser β} (ready : Ready V before s)
    (offers : ∀ t : Token, t.kind = .keyword k → V.holds (before ++ [t]))
    (present : ∀ (t : Token) s', t.kind = .keyword k → Consumes s [t] s' →
      Ready V (before ++ [t]) s' → Guides V (before ++ [t]) (f (some t.span)) s')
    (absent : ∀ s', Consumes s [] s' → Ready V before s' → Guides V before (f none) s') :
    Guides V before (Parser.keyword? k >>= f) s :=
  .probeKind ready nofun (fun _ => Iff.rfl) trivial offers present absent

/-- A keyword that is there or not, in front of what is parsed either way. -/
theorem flag {k : Keyword} {f : Option Span → Parser β} (ready : Ready V before s)
    (offers : ∀ t : Token, t.kind = .keyword k → V.holds (before ++ [t]))
    (hf : ∀ o ts s', Flag k ts o.isSome → Consumes s ts s' → Ready V (before ++ ts) s' →
      Guides V (before ++ ts) (f o) s') : Guides V before (Parser.keyword? k >>= f) s := by
  refine .keyword? ready offers (fun t s' kind hc ready' => hf _ _ _ (.present kind) hc ready')
    fun s' hc ready' => ?_
  have go := hf none [] s' .absent hc
  rw [List.append_nil] at go
  exact go ready'

/-- A keyword that means nothing, in front of what is parsed either way. -/
theorem noise {k : Keyword} {f : Option Span → Parser β} (ready : Ready V before s)
    (offers : ∀ t : Token, t.kind = .keyword k → V.holds (before ++ [t]))
    (hf : ∀ o ts s', Noise k ts → Consumes s ts s' → Ready V (before ++ ts) s' →
      Guides V (before ++ ts) (f o) s') : Guides V before (Parser.keyword? k >>= f) s := by
  refine .flag ready offers fun o ts s' mark hc ready' => hf o ts s' ?_ hc ready'
  generalize o.isSome = b at mark
  cases mark with
  | absent => exact .absent
  | present kind => exact .present kind

theorem operator? {o : Operator} {f : Option Span → Parser β} (ready : Ready V before s)
    (offers : ∀ t : Token, t.kind = .operator o → V.holds (before ++ [t]))
    (present : ∀ (t : Token) s', t.kind = .operator o → Consumes s [t] s' →
      Ready V (before ++ [t]) s' → Guides V (before ++ [t]) (f (some t.span)) s')
    (absent : ∀ s', Consumes s [] s' → Ready V before s' → Guides V before (f none) s') :
    Guides V before (Parser.operator? o >>= f) s :=
  .probeKind ready nofun (fun _ => Iff.rfl) trivial offers present absent

theorem punctuation? {p : Punctuation} {f : Option Span → Parser β} (ready : Ready V before s)
    (offers : ∀ t : Token, t.kind = .punctuation p → V.holds (before ++ [t]))
    (present : ∀ (t : Token) s', t.kind = .punctuation p → Consumes s [t] s' →
      Ready V (before ++ [t]) s' → Guides V (before ++ [t]) (f (some t.span)) s')
    (absent : ∀ s', Consumes s [] s' → Ready V before s' → Guides V before (f none) s') :
    Guides V before (Parser.punctuation? p >>= f) s :=
  .probeKind ready nofun (fun _ => Iff.rfl) trivial offers present absent

theorem word? {text : String} {f : Option Span → Parser β} (ready : Ready V before s)
    (known : text ∈ contextualWords)
    (offers : ∀ t : Token, t.kind = .identifier .bare → capitals t.text = text →
      V.holds (before ++ [t]))
    (present : ∀ (t : Token) s', t.kind = .identifier .bare → capitals t.text = text →
      Consumes s [t] s' → Ready V (before ++ [t]) s' →
      Guides V (before ++ [t]) (f (some t.span)) s')
    (absent : ∀ s', Consumes s [] s' → Ready V before s' → Guides V before (f none) s') :
    Guides V before (Parser.word? text >>= f) s := by
  refine .probe ready (fun t ht => ?_) known (fun t ht => offers t ht.2.1 ht.2.2)
    (fun t s' ht => ?_) absent
  · simp only [Bool.and_eq_true, beq_iff_eq] at ht
    simp [Token.isEnd, ht.1]
  · simp only [Bool.and_eq_true, beq_iff_eq] at ht
    exact present t s' ht.1 ht.2

theorem require {p : Parser (Option Span)} {f : Span → Parser β}
    (hp : Guides V before (p >>= fun o => match o with
      | some span => f span
      | none => Parser.unexpected) s) : Guides V before (Parser.require p >>= f) s := by
  have same : Parser.require p >>= f = p >>= fun o => match o with
      | some span => f span
      | none => Parser.unexpected := by
    rw [Parser.require, bind_assoc]
    congr 1
    funext o
    cases o with
    | none =>
      show (peek >>= _) >>= f = _
      rw [bind_assoc]
      rfl
    | some => rfl
  rwa [same]

theorem keyword {k : Keyword} {f : Span → Parser β} (ready : Ready V before s)
    (offers : ∀ t : Token, t.kind = .keyword k → V.holds (before ++ [t]))
    (hf : ∀ (t : Token) s', t.kind = .keyword k → Consumes s [t] s' →
      Ready V (before ++ [t]) s' → Guides V (before ++ [t]) (f t.span) s') :
    Guides V before (Parser.keyword k >>= f) s :=
  .require (.keyword? ready offers hf fun _ _ ready' => .unexpected ready')

theorem operator {o : Operator} {f : Span → Parser β} (ready : Ready V before s)
    (offers : ∀ t : Token, t.kind = .operator o → V.holds (before ++ [t]))
    (hf : ∀ (t : Token) s', t.kind = .operator o → Consumes s [t] s' →
      Ready V (before ++ [t]) s' → Guides V (before ++ [t]) (f t.span) s') :
    Guides V before (Parser.operator o >>= f) s :=
  .require (.operator? ready offers hf fun _ _ ready' => .unexpected ready')

theorem punctuation {p : Punctuation} {f : Span → Parser β} (ready : Ready V before s)
    (offers : ∀ t : Token, t.kind = .punctuation p → V.holds (before ++ [t]))
    (hf : ∀ (t : Token) s', t.kind = .punctuation p → Consumes s [t] s' →
      Ready V (before ++ [t]) s' → Guides V (before ++ [t]) (f t.span) s') :
    Guides V before (Parser.punctuation p >>= f) s :=
  .require (.punctuation? ready offers hf fun _ _ ready' => .unexpected ready')

end Guides

/-! ## Repeating -/

/-- A loop guides when its steps do, under what each step keeps. -/
theorem iterateWithin_guides {step : α → Parser (Option α)} {R : α → List Token → α → Prop}
    {I : List Token → α → Prop} (sound : SoundStep step R)
    (keep : ∀ before a ts b, I before a → R a ts b → I (before ++ ts) b)
    (guides : ∀ before a s, I before a → Ready V before s → Guides V before (step a) s)
    (budget : List Token) {a : α} (h : I before a) (ready : Ready V before s) :
    Guides V before (iterateWithin step budget a) s := by
  have steps : ∀ {before a s o s'}, I before a → Ready V before s → step a s = .ok o s' →
      ∃ ts, Consumes s ts s' ∧ ∀ b, o = some b → I (before ++ ts) b := by
    intro before a s o s' h ready hs
    rcases sound ready.isEnd hs with ⟨rfl, hc⟩ | ⟨b, ts, rfl, hc, hr⟩
    · exact ⟨[], hc, nofun⟩
    · refine ⟨ts, hc, fun b' hb => ?_⟩
      obtain rfl := Option.some.inj hb
      exact keep _ _ _ _ h hr
  induction budget generalizing before a s with
  | nil =>
    refine (guides _ _ _ h ready).bind (Q := fun _ _ _ => True)
      (fun o s' hs => ?_) fun o s' ts hc ready' _ => ?_
    · obtain ⟨ts, hc, -⟩ := steps h ready hs
      exact ⟨ts, hc, trivial⟩
    · cases o <;> exact .pure ready'
  | cons t budget ih =>
    refine (guides _ _ _ h ready).bind (fun o s' hs => steps h ready hs)
      fun o s' ts hc ready' keeps => ?_
    cases o with
    | none => exact .pure ready'
    | some b => exact ih (keeps b rfl) ready'

theorem iterate_guides {step : α → Parser (Option α)} {R : α → List Token → α → Prop}
    {I : List Token → α → Prop} (sound : SoundStep step R)
    (keep : ∀ before a ts b, I before a → R a ts b → I (before ++ ts) b)
    (guides : ∀ before a s, I before a → Ready V before s → Guides V before (step a) s)
    {a : α} (h : I before a) (ready : Ready V before s) : Guides V before (iterate step a) s :=
  iterateWithin_guides sound keep guides s.tokens h ready

/-- Behind each part of a loop, others fit. -/
theorem collect_guides {step : List α → Parser (Option (List α))} {R : List Token → α → Prop}
    (sound : SoundStep step fun as ts bs => ∃ a, bs = a :: as ∧ R ts a)
    (guides : ∀ before as s, Fits V before (Many R) → Ready V before s →
      Guides V before (step as) s)
    (h : Fits V before (Many R)) (ready : Ready V before s) :
    Guides V before (iterate step []) s := by
  refine iterate_guides (I := fun before _ => Fits V before (Many R)) sound ?_ guides h ready
  rintro before as ts _ h ⟨a, rfl, ha⟩ us bs hbs
  rw [List.append_assoc]
  exact h (.cons ha hbs)

/-- What is done with the outcome of a parser without looking further. -/
theorem Guides.bindPure {p : Parser α} {f : α → Parser β} (hp : Guides V before p s)
    (hf : ∀ a, ∃ b, f a = Pure.pure b) : Guides V before (p >>= f) s := by
  have same : f = fun a => Pure.pure (hf a).choose := funext fun a => (hf a).choose_spec
  rw [same]
  exact .map hp

/-- The parser of a phrase, wherever the phrase fits. -/
def GuidesTo (V : Beginnings) (p : Parser α) (R : List Token → α → Prop) : Prop :=
  ∀ ⦃before s⦄, Fits V before R → Ready V before s → Guides V before p s

theorem commaSeparated_guides {item : Parser α} {R : List Token → α → Prop}
    (sound : Sound item R) (guides : GuidesTo V item R) :
    GuidesTo V (commaSeparated item) (CommaSeparated R) := by
  intro before s h ready
  refine .bindSound ready sound (guides (fun ts a ha => h.part (.intro ha .nil) (by simp)) ready)
    fun first s₁ ts hc₁ ready₁ hfirst => ?_
  refine .bindSound ready₁ (fun _ _ _ => collect_sound (commaStep_sound sound))
    (collect_guides (commaStep_sound sound) (fun before as s h ready => ?_)
      (fun us as hus => h.part (.intro hfirst hus) (by simp)) ready₁)
    fun _ _ _ _ ready₂ _ => .pure ready₂
  refine .punctuation? ready (fun t kind => h.part (.cons (.intro kind hfirst) .nil) (by simp))
    (fun t s₁ kind hc₁ ready₁ => ?_) fun s₁ _ ready₁ => .pure ready₁
  exact .map (guides (fun us a ha => h.part (.cons (.intro kind ha) .nil) (by simp)) ready₁)

theorem parenthesized_guides {inner : Parser α} {R : List Token → α → Prop}
    (sound : Sound inner R) (guides : GuidesTo V inner R) (some_ : ∃ ts a, R ts a) :
    GuidesTo V (parenthesized inner) (Parenthesized R) := by
  intro before s h ready
  have closing := Expectation.kind_punctuation .closeParen
  obtain ⟨us, b, hb⟩ := some_
  refine .punctuation ready (fun t kind => h.part (.intro kind hb closing) (by simp))
    fun t s₁ kind hc₁ ready₁ => ?_
  refine .bindSound ready₁ sound
    (guides (fun ts a ha => h.part (.intro kind ha closing) (by simp)) ready₁)
    fun a s₂ ts hc₂ ready₂ ha => ?_
  exact .punctuation ready₂ (fun c hc => h.part (.intro kind ha hc) (by simp))
    fun _ _ _ _ ready₃ => .pure ready₃

end Parser

end SqlSyntax
