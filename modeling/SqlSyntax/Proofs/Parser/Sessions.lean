import SqlSyntax.Proofs.Parser.Buffer
import SqlSyntax.Proofs.Parser.Reuse

/-!
# Sessions on a buffer

A program on a buffer *implements* a parser if it is put together in the same way, with looks
into the queue of the buffer in place of looks at the tokens. Such a program ends as the
parser does, on every buffer that shows the state of the parser: a look that comes from deep
inside an expression, long after its tokens were counted, is still one at an index that exists.

The state that a failure leaves is shown as well, so this goes on through any number of
calls, whether the earlier ones succeeded or failed.

## Main results

* `Buffered.Implements.run` — a program ends as the parser that it implements.
* `Buffered.exists_implements_call` — the calls on a parser have such programs.
* `Buffered.session_eq` — a session on a buffer has the outcomes of the session on a parser.
-/

namespace SqlSyntax

open SqlSyntax.Parser (Advances Call Comparison Parsed ParserRelation Relocates)

namespace Buffered

variable {α β : Type} {limit : Nat}

/-- Whether a program on a buffer is put together as a parser is. A loop has steps that
consume tokens. -/
inductive Implements (limit : Nat) : ∀ {α : Type}, Buffered α → Parser α → Prop
  | pure {α : Type} (a : α) : Implements limit (pure a) (pure a)
  | bind {α β : Type} {c : Buffered α} {C : α → Buffered β} {p : Parser α} {P : α → Parser β}
    (first : Implements limit c p) (second : ∀ a, Implements limit (C a) (P a)) :
    Implements limit (c >>= C) (p >>= P)
  | peekAt (n : Nat) : Implements limit (peekAt n) (Parser.peekAt n)
  | next : Implements limit next Parser.next
  | note (es : List Expectation) : Implements limit (note es) (Parser.note es)
  | spanFrom (start : Span) : Implements limit (spanFrom start) (Parser.spanFrom start)
  | fail {α : Type} (e : Error) : Implements limit (fail e : Buffered α) (throw e)
  | failAt {α : Type} (fault : ParseFault) (t : Token) :
    Implements limit (failAt fault t : Buffered α) (Parser.failAt fault t)
  | atQualifiedWildcard : Implements limit (wildcardFrom limit 0) Parser.atQualifiedWildcard
  | iterate {α : Type} {step : α → Buffered (Option α)} {step' : α → Parser (Option α)}
    (each : ∀ a, Implements limit (step a) (step' a)) (advances : Advances step') (a : α) :
    Implements limit (iterate step limit a) (Parser.iterate step' a)

/-- A program on a buffer ends as the parser that it implements, without a crash. -/
theorem Implements.run {c : Buffered α} {p : Parser α} (h : Implements limit c p) {b : Buffer}
    {s : ParserState} (shows : Shows limit b s) : Matches limit (c b) (p s) := by
  induction h generalizing b s with
  | pure a => exact .ok shows
  | bind first second ih ihs => exact (ih shows).bind fun a _ _ _ shows' => ihs a shows'
  | peekAt n => exact peekAt_matches shows n
  | next => exact next_matches shows
  | note es => exact note_matches shows es
  | spanFrom start => exact spanFrom_matches shows start
  | fail e => exact fail_matches shows e
  | failAt fault t => exact failAt_matches shows fault t
  | atQualifiedWildcard => exact atQualifiedWildcard_matches shows
  | iterate each advances a ih =>
    exact iterate_matches (fun a _ _ shows' => ih a shows') advances limit a shows shows.bounded

end Buffered

/-! ## What a run leaves -/

/-- Whether a state is what is left of another: its last tokens, and the same end of the
input. -/
structure ParserState.IsLeftOf (s' s : ParserState) : Prop where
  tokens : s'.tokens <:+ s.tokens
  finish : s'.finish = s.finish

theorem ParserState.IsLeftOf.refl (s : ParserState) : s.IsLeftOf s := ⟨List.suffix_refl _, rfl⟩

theorem ParserState.IsLeftOf.trans {s s' s'' : ParserState} (h : s''.IsLeftOf s')
    (h' : s'.IsLeftOf s) : s''.IsLeftOf s :=
  ⟨h.tokens.trans h'.tokens, h.finish.trans h'.finish⟩

namespace Parser

variable {α β : Type} {p : Parser α} {s s' : ParserState}

theorem outcome_of_ok {a : α} (run : p s = .ok a s') : outcome p s = (.ok a, s') := by
  rw [outcome, EStateM.run, run]

theorem outcome_of_error {e : Error} (run : p s = .error e s') :
    outcome p s = (.error e, s') := by
  rw [outcome, EStateM.run, run]

theorem bind_leaves {P : α → Parser β} (first : (outcome p s).2.IsLeftOf s)
    (second : ∀ a s', (outcome (P a) s').2.IsLeftOf s') : (outcome (p >>= P) s).2.IsLeftOf s := by
  cases run : p s with
  | ok a s' =>
    rw [outcome_of_ok run] at first
    have rest : outcome (p >>= P) s = outcome (P a) s' := by
      rw [outcome, outcome, EStateM.run, EStateM.run, bind_of_ok run]
    rw [rest]
    exact (second a s').trans first
  | error e s' =>
    rw [outcome_of_error run] at first
    rw [outcome_of_error (bind_of_error run)]
    exact first

theorem peekAt_leaves (n : Nat) (s : ParserState) : (outcome (peekAt n) s).2.IsLeftOf s := by
  unfold outcome EStateM.run peekAt
  cases s.tokens[n]? with
  | some t => exact .refl s
  | none => cases s.failure <;> exact ⟨List.suffix_refl _, rfl⟩

theorem next_leaves (s : ParserState) : (outcome next s).2.IsLeftOf s := by
  refine bind_leaves (peekAt_leaves 0 s) fun t s' => ?_
  split
  · exact .refl s'
  · exact ⟨List.tail_suffix _, rfl⟩

theorem iterate_leaves {step : α → Parser (Option α)}
    (each : ∀ a s, (outcome (step a) s).2.IsLeftOf s) (a : α) (s : ParserState) :
    (outcome (iterate step a) s).2.IsLeftOf s := by
  have loop (budget : List Token) (a : α) (s : ParserState) :
      (outcome (iterateWithin step budget a) s).2.IsLeftOf s := by
    induction budget generalizing a s with
    | nil =>
      refine bind_leaves (each a s) fun o s' => ?_
      cases o <;> exact .refl s'
    | cons t budget ih =>
      refine bind_leaves (each a s) fun o s' => ?_
      cases o with
      | none => exact .refl s'
      | some b => exact ih b s'
  exact loop s.tokens a s

end Parser

namespace Buffered

variable {α β : Type} {limit : Nat}

/-- Parsers that have programs take tokens from the front only, and do not change the end of
the input. -/
theorem Implements.leaves {c : Buffered α} {p : Parser α} (h : Implements limit c p)
    (s : ParserState) : (Parser.outcome p s).2.IsLeftOf s := by
  induction h generalizing s with
  | pure a => exact .refl s
  | bind first second ih ihs => exact Parser.bind_leaves (ih s) ihs
  | peekAt n => exact Parser.peekAt_leaves n s
  | next => exact Parser.next_leaves s
  | note es => exact ⟨List.suffix_refl _, rfl⟩
  | spanFrom start =>
    unfold Parser.outcome EStateM.run Parser.spanFrom
    cases s.last <;> exact .refl s
  | fail e => exact .refl s
  | failAt fault t => exact ⟨List.suffix_refl _, rfl⟩
  | atQualifiedWildcard =>
    unfold Parser.outcome EStateM.run
    rw [Parser.atQualifiedWildcard_eq]
    cases Parser.startsQualifiedWildcard? s.tokens with
    | some answer => exact .refl s
    | none => cases s.failure <;> exact ⟨List.suffix_refl _, rfl⟩
  | iterate each advances a ih => exact Parser.iterate_leaves ih a s

/-! ## Programs for the parsers -/

/-- Whether a parser has a program, in a comparison of the parser with itself. -/
def implementing (limit : Nat) : ParserRelation := fun _ _ v p q =>
  Relocates .none v p q ∧ ∃ c, Implements limit c p

theorem exists_implements_bind {p : Parser α} {P : α → Parser β}
    (first : ∃ c, Implements limit c p) (second : ∀ a, ∃ c, Implements limit c (P a)) :
    ∃ c, Implements limit c (p >>= P) := by
  obtain ⟨c, first⟩ := first
  choose C second using second
  exact ⟨c >>= C, first.bind second⟩

/-- Steps consume tokens if they do in the comparison. -/
theorem advances_of_relocates {v : α → α} {step step' : α → Parser (Option α)}
    (same : ∀ a, Relocates .none (Option.map v) (step a) (step' (v a)))
    (advances : Advances step') : Advances step := by
  intro a b s s' isEnd stepped
  have fewer := advances (s := Relocation.none.state s) isEnd (same a stepped)
  simpa [Relocation.state] using fewer

/-- All parsers have programs. -/
theorem implementing_comparison (limit : Nat) : Comparison .none (implementing limit) where
  weaken _ h := h
  pure hab := ⟨Parser.relocates_pure hab, _, .pure _⟩
  bind _ h hF := ⟨h.1.bind fun a => (hF a).1, exists_implements_bind h.2 fun a => (hF a).2⟩
  look n hF := ⟨(Parser.relocates_peekAt n).bind fun t => (hF t).1,
    exists_implements_bind ⟨_, .peekAt n⟩ fun t => (hF t).2⟩
  peek_bind hF := ⟨(Parser.relocates_peekAt 0).bind fun t => (hF t).elim And.left (·.2.1),
    exists_implements_bind ⟨_, .peekAt 0⟩ fun t => (hF t).elim And.right (·.2.2)⟩
  next := ⟨Parser.relocates_next, _, .next⟩
  next_bind hF := ⟨Parser.relocates_next.bind fun t => (hF t).1,
    exists_implements_bind ⟨_, .next⟩ fun t => (hF t).2⟩
  note es := ⟨Parser.relocates_note es, _, .note es⟩
  failAt fault t := ⟨(Parser.relocated_comparison .none).failAt fault t, _, .failAt fault t⟩
  spanFrom h := ⟨Parser.relocates_spanFrom h, _, .spanFrom _⟩
  atQualifiedWildcard := ⟨Parser.relocates_atQualifiedWildcard, _, .atQualifiedWildcard⟩
  iterate hm hstep advances hab := by
    choose program each using fun a => (hstep a).2
    exact ⟨(Parser.relocated_comparison .none).iterate hm (fun a => (hstep a).1) advances hab, _,
      .iterate each (advances_of_relocates (fun a => (hstep a).1) advances) _⟩

theorem implementing_tooDeep (max : Nat) {v : α → α} :
    implementing limit .start v (Parser.tooDeep max) (Parser.tooDeep max) :=
  ⟨(Parser.mirrors_tooDeep max).ok, exists_implements_bind ⟨_, .peekAt 0⟩ fun _ => ⟨_, .fail _⟩⟩

/-- Each call on a parser has a program. -/
theorem exists_implements_call (limit max : Nat) (call : Call) :
    ∃ c, Implements limit c (call.parser max) := by
  have h := implementing_comparison limit
  have levels := Parser.levels_parallel h max max fun {_ _} => implementing_tooDeep max
  cases call with
  | statement =>
    exact exists_implements_bind (Parser.wholeStatement_of_levels h levels).2 fun _ => ⟨_, .pure _⟩
  | script =>
    exact exists_implements_bind (Parser.script_of_levels h levels).2 fun _ => ⟨_, .pure _⟩

end Buffered

/-! ## Calls in a row -/

/-- What calls on a parser return, one after the other. -/
def Parser.outcomes (max : Nat) : List Call → ParserState → List (Except Error Parsed)
  | [], _ => []
  | call :: calls, s =>
    (outcome (call.parser max) s).1 :: outcomes max calls (outcome (call.parser max) s).2

namespace Buffered

/-- What calls on a buffer return, one after the other; none if one of them crashes. -/
def session (program : Call → Buffered Parsed) :
    List Call → Buffer → Option (List (Except Error Parsed))
  | [], _ => some []
  | call :: calls, b =>
    match program call b with
    | .ok a b' => (session program calls b').map (.ok a :: ·)
    | .error (some e) b' => (session program calls b').map (.error e :: ·)
    | .error none _ => none

variable {limit max : Nat} {program : Call → Buffered Parsed}

/-- A session on a buffer does not crash, and has the outcomes of the session on the parser. -/
theorem session_eq (h : ∀ call, Implements limit (program call) (call.parser max))
    (calls : List Call) {b : Buffer} {s : ParserState} (shows : Shows limit b s) :
    session program calls b = some (Parser.outcomes max calls s) := by
  induction calls generalizing b s with
  | nil => rfl
  | cons call calls ih =>
    have ended := (h call).run shows
    rw [session, Parser.outcomes]
    cases hc : program call b <;> cases hp : call.parser max s <;> rw [hc, hp] at ended
    · cases ended with
      | ok shows' =>
        dsimp only
        rw [ih shows', Parser.outcome_of_ok hp, Option.map_some]
    · cases ended
    · cases ended
    · cases ended with
      | error shows' =>
        dsimp only
        rw [ih shows', Parser.outcome_of_error hp, Option.map_some]

end Buffered

end SqlSyntax
