import Mathlib.Order.MinMax
import SqlSyntax.Proofs.Parser.Progress
import SqlSyntax.Proofs.Tree.Moves

/-!
# Parsers in parallel

Several facts about the parsers compare two runs: with more levels of nesting
or fewer, on the tokens of a text and on those of the same text elsewhere. What
such a comparison has to know about a parser is how it is put together.

A *comparison* is a relation between parsers that the ways of putting parsers
together respect. It is told how the second run sees the tokens of the first,
a `Relocation`, and for each result how the second run gives it.

The steps of loops can be taken to consume tokens. That matters to a comparison
whose two runs start on tokens of different number, since these are the budgets
of their loops.

A comparison may ask for more as long as nothing is consumed. `Stage` says how
far a parser has come: what is nested inside a construct is parsed, and the
span of a construct is taken, only when a token has been consumed.

## Main results

* `Comparison.probe_bind`, `Comparison.identifier` — the steps that lead from
  one stage to the next.
* `Comparison.commaSeparated`, `Comparison.parenthesized` — the combinators.
-/

namespace SqlSyntax

/-- A change of tokens that leaves alone what they mean: they may stand
elsewhere, and keywords and operators may be spelled in another way. No span is
made of the start of one and the end of another in exchange, so the two ends of
spans may be moved differently. -/
structure Relocation where
  token : Token → Token
  start : Nat → Nat
  stop : Nat → Nat
  start_mono : Monotone start
  stop_mono : Monotone stop
  kind_token : ∀ t, (token t).kind = t.kind
  map_token : ∀ t, (token t).span = ⟨start t.span.start, stop t.span.stop⟩
  text_token : ∀ t, (∀ k, t.kind ≠ .keyword k) → (∀ o, t.kind ≠ .operator o) →
    (token t).text = t.text

namespace Relocation

variable (f : Relocation)

def span (s : Span) : Span := ⟨f.start s.start, f.stop s.stop⟩

theorem span_token (t : Token) : (f.token t).span = f.span t.span := f.map_token t

theorem stop_max (a b : Nat) : f.stop (max a b) = max (f.stop a) (f.stop b) :=
  f.stop_mono.map_max

theorem span_union (a b : Span) : f.span (a.union b) = (f.span a).union (f.span b) := by
  simp only [span, Span.union, f.start_mono.map_min, f.stop_max]

@[simp] theorem isEnd_token (t : Token) : (f.token t).isEnd = t.isEnd := by
  rw [Token.isEnd, f.kind_token, Token.isEnd]

@[simp] theorem isIdentifier_token (t : Token) : (f.token t).isIdentifier = t.isIdentifier := by
  rw [Token.isIdentifier, f.kind_token, Token.isIdentifier]

theorem text_token_of_identifier {t : Token} {style : QuoteStyle}
    (kind : t.kind = .identifier style) : (f.token t).text = t.text :=
  f.text_token t (by simp [kind]) (by simp [kind])

theorem value_token {t : Token} (hk : ∀ k, t.kind ≠ .keyword k) (ho : ∀ o, t.kind ≠ .operator o) :
    (f.token t).value = t.value := by
  have text := f.text_token t hk ho
  rw [Token.value, Token.value, Token.body, Token.body, f.kind_token, text]

/-- Nothing is changed. -/
def none : Relocation where
  token t := t
  start n := n
  stop n := n
  start_mono := monotone_id
  stop_mono := monotone_id
  kind_token _ := rfl
  map_token _ := rfl
  text_token _ _ _ := rfl

end Relocation

namespace Parser

/-- How far a parser has come. -/
inductive Stage where
  /-- Perhaps nothing is consumed so far. -/
  | start
  /-- Perhaps nothing is consumed so far, and the next token is not the end of
  the input. -/
  | inner
  /-- A token is consumed. -/
  | free

/-- The stage once the next token is known not to be the end of the input. -/
def Stage.ahead : Stage → Stage
  | .start | .inner => .inner
  | .free => .free

/-- A relation between a parser, one that runs in parallel, and the function
that leads from the results of the former to those of the latter. -/
abbrev ParserRelation := Stage → ∀ {α : Type}, (α → α) → Parser α → Parser α → Prop

variable {α β : Type}

/-- A relation that parsers are in when their parts are, up to a relocation. -/
structure Comparison (f : Relocation) (R : ParserRelation) : Prop where
  weaken : ∀ {α : Type} {v : α → α} {p q : Parser α} (m : Stage), R .start v p q → R m v p q
  pure : ∀ {α : Type} {v : α → α} {a b : α}, v a = b → R .start v (pure a) (pure b)
  bind : ∀ {α β : Type} {m : Stage} {v : α → α} {w : β → β} {p q : Parser α}
    {F G : α → Parser β}, m ≠ .inner → R m v p q → (∀ a, R m w (F a) (G (v a))) →
    R m w (p >>= F) (q >>= G)
  look : ∀ {β : Type} {m : Stage} {w : β → β} {F G : Token → Parser β} (n : Nat),
    (∀ t, R m w (F t) (G (f.token t))) → R m w (peekAt n >>= F) (peekAt n >>= G)
  peek_bind : ∀ {β : Type} {w : β → β} {F G : Token → Parser β},
    (∀ t, R .start w (F t) (G (f.token t)) ∨
      t.isEnd = false ∧ R .inner w (F t) (G (f.token t))) →
    R .start w (peek >>= F) (peek >>= G)
  next : R .start f.token Parser.next Parser.next
  next_bind : ∀ {β : Type} {w : β → β} {F G : Token → Parser β},
    (∀ t, R .free w (F t) (G (f.token t))) → R .inner w (Parser.next >>= F) (Parser.next >>= G)
  note : ∀ es, R .start id (Parser.note es) (Parser.note es)
  failAt : ∀ {α : Type} {v : α → α} (fault : ParseFault) (t : Token),
    R .start v (Parser.failAt fault t) (Parser.failAt fault (f.token t))
  spanFrom : ∀ {s s'}, f.span s = s' → R .free f.span (Parser.spanFrom s) (Parser.spanFrom s')
  atQualifiedWildcard : R .start id Parser.atQualifiedWildcard Parser.atQualifiedWildcard
  iterate : ∀ {α : Type} {m : Stage} {v : α → α} {step step' : α → Parser (Option α)} {a b : α},
    m ≠ .inner → (∀ a, R m (Option.map v) (step a) (step' (v a))) → Advances step' → v a = b →
    R m v (Parser.iterate step a) (Parser.iterate step' b)

/-- A relation between parsers that consume a token before what follows
them, so that this may be anything that is related once a token is consumed. -/
def Leads (R : ParserRelation) (m : Stage) (v : α → α) (p q : Parser α) : Prop :=
  ∀ ⦃β : Type⦄ ⦃w : β → β⦄ ⦃F G : α → Parser β⦄, (∀ a, R .free w (F a) (G (v a))) →
    R m w (p >>= F) (q >>= G)

section

variable {f : Relocation} {R : ParserRelation} (h : Comparison f R) {m : Stage}

include h

theorem pure_parallel {v : α → α} {a b : α} (hab : v a = b) : R m v (pure a) (pure b) :=
  h.weaken m (h.pure hab)

theorem Leads.whole {v : α → α} {p q : Parser α} (lead : Leads R m v p q) : R m v p q := by
  have whole := lead (w := v) (F := pure) (G := pure) fun a => pure_parallel h rfl
  rwa [bind_pure, bind_pure] at whole

theorem Leads.parallel {v : α → α} {p q : Parser α} (lead : Leads R .start v p q) :
    R m v p q :=
  h.weaken m (lead.whole h)

theorem Leads.bind {v : α → α} {w : β → β} {p q : Parser α} {F G : α → Parser β}
    (lead : Leads R m v p q) (hF : ∀ a, R .free w (F a) (G (v a))) :
    Leads R m w (p >>= F) (q >>= G) := by
  intro γ u H K hH
  rw [bind_assoc, bind_assoc]
  exact lead fun a => h.bind nofun (hF a) hH

/-! ## Looking, failing and probing -/

theorem peek_parallel : R m f.token peek peek := by
  have looked := h.look (F := pure) (G := pure) 0 fun t => h.pure (v := f.token) rfl
  rw [bind_pure] at looked
  exact h.weaken m looked

theorem unexpected_parallel {v : α → α} : R m v unexpected unexpected :=
  h.weaken m (h.bind nofun (peek_parallel h) fun t => h.failAt _ t)

omit h in
theorem unexpected_bind (F : α → Parser β) : (unexpected >>= F) = unexpected := by
  rw [unexpected, bind_assoc]
  rfl

theorem missing_leads {v : α → α} (es : List Expectation) :
    Leads R .start v (do note es; unexpected) (do note es; unexpected) := by
  intro β w F G _
  rw [bind_assoc, bind_assoc]
  refine h.bind nofun (h.note es) fun _ => ?_
  rw [unexpected_bind, unexpected_bind]
  exact unexpected_parallel h

/-- A failure for want of what is noted. -/
theorem missing_parallel {v : α → α} (es : List Expectation) :
    R m v (do note es; unexpected) (do note es; unexpected) :=
  (missing_leads h es).parallel h

theorem next_leads (hm : m ≠ .start) : Leads R m f.token next next := by
  intro β w F G hF
  cases m with
  | start => exact absurd rfl hm
  | inner => exact h.next_bind hF
  | free => exact h.bind nofun (h.weaken _ h.next) hF

/-- A probe leads on when it finds something. -/
theorem probe_bind {accepts : Token → Bool} {e : Expectation} {w : β → β}
    {F G : Option Span → Parser β} (inner : ∀ t, accepts t → t.isEnd = false)
    (same : ∀ t, accepts (f.token t) = accepts t) (absent : R .start w (F none) (G none))
    (present : ∀ s, R .free w (F (some s)) (G (some (f.span s)))) :
    R .start w (probe accepts e >>= F) (probe accepts e >>= G) := by
  rw [probe, bind_assoc, bind_assoc]
  refine h.peek_bind fun t => ?_
  rw [same]
  split
  · rename_i found
    refine .inr ⟨inner t found, ?_⟩
    rw [bind_assoc, bind_assoc]
    refine h.next_bind fun t => ?_
    rw [pure_bind, pure_bind, f.span_token]
    exact present t.span
  · rw [bind_assoc, bind_assoc]
    refine .inl (h.bind nofun (h.note _) fun _ => ?_)
    rw [pure_bind, pure_bind]
    exact absent

theorem probe_parallel {accepts : Token → Bool} {e : Expectation}
    (inner : ∀ t, accepts t → t.isEnd = false) (same : ∀ t, accepts (f.token t) = accepts t) :
    R m (Option.map f.span) (probe accepts e) (probe accepts e) := by
  have found := probe_bind h (e := e) (w := Option.map f.span) (F := pure) (G := pure) inner same
    (h.pure rfl) fun s => pure_parallel h rfl
  rw [bind_pure] at found
  exact h.weaken m found

theorem require_probe_leads {accepts : Token → Bool} {e : Expectation}
    (inner : ∀ t, accepts t → t.isEnd = false) (same : ∀ t, accepts (f.token t) = accepts t) :
    Leads R .start f.span (require (probe accepts e)) (require (probe accepts e)) := by
  intro β w F G hF
  rw [require, bind_assoc, bind_assoc]
  refine probe_bind h inner same ?_ fun s => ?_
  · show R .start w (unexpected >>= F) (unexpected >>= G)
    rw [unexpected_bind, unexpected_bind]
    exact unexpected_parallel h
  · show R .free w (pure s >>= F) (pure (f.span s) >>= G)
    rw [pure_bind, pure_bind]
    exact hF s

omit h in
theorem isEnd_of_kind_beq {k : TokenKind} (hk : k ≠ .endOfInput) (t : Token) (ht : t.kind == k) :
    t.isEnd = false := by
  rw [Token.isEnd, beq_iff_eq.1 ht]
  simpa using hk

omit h in
theorem kind_beq_token (k : TokenKind) (t : Token) : ((f.token t).kind == k) = (t.kind == k) := by
  rw [f.kind_token]

theorem keyword?_parallel (k : Keyword) : R m (Option.map f.span) (keyword? k) (keyword? k) :=
  probe_parallel h (isEnd_of_kind_beq nofun) (kind_beq_token _)

theorem operator?_parallel (o : Operator) : R m (Option.map f.span) (operator? o) (operator? o) :=
  probe_parallel h (isEnd_of_kind_beq nofun) (kind_beq_token _)

theorem punctuation?_parallel (p : Punctuation) :
    R m (Option.map f.span) (punctuation? p) (punctuation? p) :=
  probe_parallel h (isEnd_of_kind_beq nofun) (kind_beq_token _)

theorem word?_parallel (text : String) : R m (Option.map f.span) (word? text) (word? text) := by
  refine probe_parallel h (fun t ht => ?_) fun t => ?_
  · exact isEnd_of_kind_beq (k := .identifier .bare) nofun t (Bool.and_eq_true_iff.1 ht).1
  · rw [f.kind_token]
    by_cases kind : t.kind = .identifier .bare
    · rw [f.text_token_of_identifier kind]
    · rw [beq_eq_false_iff_ne.2 kind, Bool.false_and, Bool.false_and]

theorem keyword_leads (k : Keyword) : Leads R .start f.span (keyword k) (keyword k) :=
  require_probe_leads h (isEnd_of_kind_beq nofun) (kind_beq_token _)

theorem keyword_parallel (k : Keyword) : R m f.span (keyword k) (keyword k) :=
  (keyword_leads h k).parallel h

theorem operator_parallel (o : Operator) : R m f.span (operator o) (operator o) :=
  Leads.parallel h <| require_probe_leads h (isEnd_of_kind_beq (k := .operator o) nofun)
    (kind_beq_token _)

theorem punctuation_parallel (p : Punctuation) : R m f.span (punctuation p) (punctuation p) :=
  Leads.parallel h <| require_probe_leads h (isEnd_of_kind_beq (k := .punctuation p) nofun)
    (kind_beq_token _)

theorem endOfInput_parallel : R m id endOfInput endOfInput := by
  refine h.weaken m (h.bind nofun (peek_parallel h) fun t => ?_)
  rw [f.isEnd_token]
  split
  · exact h.pure rfl
  · exact h.bind nofun (h.note _) fun _ => h.failAt _ t

/-! ## Repeating -/

/-- A loop that collects parts in front of each other. -/
theorem collect_parallel {v : α → α} {step step' : List α → Parser (Option (List α))}
    (hstep : ∀ as, R .free (Option.map (List.map v)) (step as) (step' (as.map v)))
    (advances : Advances step') :
    R .free (List.map v) (iterate step []) (iterate step' []) :=
  h.iterate nofun hstep advances rfl

theorem commaSeparated_parallel {v : α → α} {item item' : Parser α}
    {S : List Token → α → Prop} (hitem : R .free v item item') (sound : Sound item' S) :
    R .free (List.map v) (commaSeparated item) (commaSeparated item') := by
  refine h.bind nofun hitem fun a => h.bind (v := List.map v) nofun
    (collect_parallel h (fun as => ?_) (commaStep_progressive sound).advances) fun as =>
    pure_parallel h (by simp)
  refine h.bind nofun (punctuation?_parallel h .comma) fun o => ?_
  cases o with
  | none => exact pure_parallel h rfl
  | some _ => exact h.bind nofun hitem fun b => pure_parallel h rfl

theorem parenthesized_parallel {v : α → α} {inner inner' : Parser α}
    (hinner : R .free v inner inner') :
    R .free v (parenthesized inner) (parenthesized inner') :=
  h.bind nofun (punctuation_parallel h .openParen) fun _ => h.bind nofun hinner fun _ =>
    h.bind nofun (punctuation_parallel h .closeParen) fun _ => pure_parallel h rfl

end

end Parser

end SqlSyntax
