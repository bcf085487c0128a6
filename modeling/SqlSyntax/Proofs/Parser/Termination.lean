import SqlSyntax.Proofs.Parser.Unbounded

/-!
# Parsers return

A program without limits *performs* a parser if it is put together in the same way, with the
looks, the consuming and the loops of `Unbounded`. It ends on every journal as the parser does
on the state that the journal belongs to: every loop in it has steps that consume tokens.

## Main results

* `Unbounded.Performs.run` — a program ends as the parser that it performs.
* `Unbounded.Performs.consumed` — what it consumes comes behind what was consumed before.
* `Unbounded.exists_performs_call` — the calls on a parser have such programs.
* `Unbounded.session_ends` — any number of calls returns, one after the other.
* `Parser.makesProgress` — progress and termination in one.
-/

namespace SqlSyntax

variable {α β : Type}

namespace Parser

/-! ## What a success consumes -/

/-- Whether all that a success of a parser does to the tokens is to consume some of them. -/
def Takes (p : Parser α) : Prop :=
  ∀ ⦃s a s'⦄, s.finish.isEnd → p s = .ok a s' → ∃ ts, Consumes s ts s'

theorem Takes.bind {p : Parser α} {P : α → Parser β} (first : Takes p)
    (second : ∀ a, Takes (P a)) : Takes (p >>= P) := by
  intro s b s' isEnd run
  obtain ⟨a, s₁, run₁, run₂⟩ := bind_eq_ok.1 run
  obtain ⟨ts, consumes⟩ := first isEnd run₁
  obtain ⟨us, consumes'⟩ := second a consumes.isEnd run₂
  exact ⟨ts ++ us, consumes.trans consumes'⟩

theorem takes_pure (a : α) : Takes (pure a : Parser α) := by
  intro s b s' isEnd run
  obtain ⟨-, rfl⟩ := pure_eq_ok.1 run
  exact ⟨[], .refl isEnd⟩

theorem takes_next : Takes next := by
  intro s t s' isEnd run
  cases inner : (ahead s).isEnd with
  | false => exact ⟨[t], (next_eq_ok isEnd run inner).2⟩
  | true =>
    -- The end of the input is seen and stays.
    obtain ⟨u, s₁, looked, rest⟩ := bind_eq_ok.1 run
    obtain ⟨rfl, rfl⟩ := peek_eq_ok looked
    rw [if_pos inner] at rest
    obtain ⟨-, rfl⟩ := pure_eq_ok.1 rest
    exact ⟨[], .refl isEnd⟩

theorem takes_iterate {step : α → Parser (Option α)} (each : ∀ a, Takes (step a)) (a : α) :
    Takes (iterate step a) := by
  have loop (budget : List Token) (a : α) : Takes (iterateWithin step budget a) := by
    induction budget generalizing a with
    | nil =>
      apply (each a).bind
      intro o
      cases o <;> exact takes_pure _
    | cons t budget ih =>
      apply (each a).bind
      intro o
      cases o with
      | none => exact takes_pure _
      | some b => exact ih b
  intro s b s' isEnd run
  exact loop s.tokens a isEnd run

/-- A step that leaves fewer tokens has consumed some. -/
theorem Advances.progressive {step : α → Parser (Option α)} (advances : Advances step)
    (takes : ∀ a, Takes (step a)) : Progressive step := by
  intro a b s s' isEnd run
  obtain ⟨ts, consumes⟩ := takes a isEnd run
  refine ⟨ts, ?_, consumes⟩
  rintro rfl
  have fewer := (advances isEnd run).2
  rw [consumes.tokens, List.nil_append] at fewer
  exact Nat.lt_irrefl _ fewer

end Parser

namespace Unbounded

open SqlSyntax.Parser (Call Consumes Parsed Progressive afterCalls)
open Buffered (Implements)

/-! ## Programs -/

/-- Whether a program with unbounded loops is put together as a parser is. The steps of its
loops consume tokens. -/
inductive Performs : ∀ {α : Type}, Unbounded α → Parser α → Prop
  | pure {α : Type} (a : α) : Performs (pure a) (pure a)
  | bind {α β : Type} {m : Unbounded α} {M : α → Unbounded β} {p : Parser α}
    {P : α → Parser β} (first : Performs m p) (second : ∀ a, Performs (M a) (P a)) :
    Performs (m >>= M) (p >>= P)
  | peekAt (n : Nat) : Performs (peekAt n) (Parser.peekAt n)
  | next : Performs next Parser.next
  | note (es : List Expectation) : Performs (ofBuffered (Buffered.note es)) (Parser.note es)
  | spanFrom (start : Span) :
    Performs (ofBuffered (Buffered.spanFrom start)) (Parser.spanFrom start)
  | fail {α : Type} (e : Error) : Performs (ofBuffered (Buffered.fail e) : Unbounded α) (throw e)
  | failAt {α : Type} (fault : ParseFault) (t : Token) :
    Performs (ofBuffered (Buffered.failAt fault t) : Unbounded α) (Parser.failAt fault t)
  | atQualifiedWildcard : Performs (loop wildcardStep 0) Parser.atQualifiedWildcard
  | iterate {α : Type} {step : α → Unbounded (Option α)} {step' : α → Parser (Option α)}
    (each : ∀ a, Performs (step a) (step' a)) (progressive : Progressive step') (a : α) :
    Performs (iterate step a) (Parser.iterate step' a)

theorem Performs.takes {m : Unbounded α} {p : Parser α} (h : Performs m p) : Parser.Takes p := by
  induction h with
  | pure a => exact Parser.takes_pure a
  | bind first second ih ihs => exact ih.bind ihs
  | peekAt n =>
    intro s t s' isEnd run
    obtain ⟨rfl, -⟩ := Parser.peekAt_eq_ok run
    exact ⟨[], .refl isEnd⟩
  | next => exact Parser.takes_next
  | note es =>
    intro s u s' isEnd run
    exact ⟨[], Parser.note_eq_ok isEnd run⟩
  | spanFrom start =>
    intro s span s' isEnd run
    unfold Parser.spanFrom at run
    cases last : s.last <;> rw [last] at run <;> cases run <;> exact ⟨[], .refl isEnd⟩
  | fail e =>
    intro s a s' isEnd run
    cases run
  | failAt fault t =>
    intro s a s' isEnd run
    cases run
  | atQualifiedWildcard =>
    intro s answer s' isEnd run
    obtain rfl := Parser.atQualifiedWildcard_eq_ok run
    exact ⟨[], .refl isEnd⟩
  | iterate each progressive a ih => exact Parser.takes_iterate ih a

variable {source : List Token} {j : Journal} {s : ParserState}

/-- A program ends as the parser that it performs. -/
theorem Performs.run {m : Unbounded α} {p : Parser α} (h : Performs m p)
    (keeps : Keeps source j s) : Ends source (m j) (p s) := by
  induction h generalizing j s with
  | pure a => exact .of_ok keeps
  | bind first second ih ihs => exact (ih keeps).bind fun a _ _ _ keeps' => ihs a keeps'
  | peekAt n => exact ends_peekAt keeps n
  | next => exact ends_next keeps
  | note es => exact .of_matches keeps (Buffered.note_matches keeps.shows es) rfl
  | spanFrom start =>
    apply Ends.of_matches keeps (Buffered.spanFrom_matches keeps.shows start)
    unfold Parser.outcome EStateM.run Parser.spanFrom
    cases s.last <;> rfl
  | fail e => exact .of_matches keeps (Buffered.fail_matches keeps.shows e) rfl
  | failAt fault t => exact .of_matches keeps (Buffered.failAt_matches keeps.shows fault t) rfl
  | atQualifiedWildcard =>
    rw [← Buffered.wildcardAt_zero]
    exact ends_wildcard 0 keeps
  | iterate each progressive a ih =>
    exact ends_iterate (fun a _ _ keeps' => ih a keeps') progressive a keeps

/-- What has a program on a buffer, with limits, has one without limits. -/
theorem exists_performs {limit : Nat} {c : Buffered α} {p : Parser α} (h : Implements limit c p) :
    ∃ m, Performs m p := by
  induction h with
  | pure a => exact ⟨_, .pure a⟩
  | bind first second ih ihs =>
    obtain ⟨m, performs⟩ := ih
    choose M performs' using ihs
    exact ⟨m >>= M, performs.bind performs'⟩
  | peekAt n => exact ⟨_, .peekAt n⟩
  | next => exact ⟨_, .next⟩
  | note es => exact ⟨_, .note es⟩
  | spanFrom start => exact ⟨_, .spanFrom start⟩
  | fail e => exact ⟨_, .fail e⟩
  | failAt fault t => exact ⟨_, .failAt fault t⟩
  | atQualifiedWildcard => exact ⟨_, .atQualifiedWildcard⟩
  | iterate each advances a ih =>
    choose step performs using ih
    have progressive := advances.progressive fun a => (performs a).takes
    exact ⟨_, .iterate performs progressive a⟩

/-- What a success consumes comes behind what was consumed before. -/
theorem Performs.consumed {m : Unbounded α} {p : Parser α} (h : Performs m p) {a : α}
    {j' : Journal} (keeps : Keeps source j s) (run : m j = .some (.ok a, j')) :
    ∃ s' ts, p s = .ok a s' ∧ Keeps source j' s' ∧ Consumes s ts s' ∧
      j'.consumed = j.consumed ++ ts := by
  obtain ⟨o, run', accords⟩ := h.run keeps
  obtain rfl : (.ok a, j') = o := Part.some_injective (run.symm.trans run')
  generalize hp : p s = r at accords
  cases accords with
  | @ok _ _ s' keeps' =>
    obtain ⟨ts, consumes⟩ := h.takes keeps.shows.isEnd hp
    have whole : j'.consumed ++ s'.tokens = j.consumed ++ ts ++ s'.tokens := by
      rw [keeps'.consumed, List.append_assoc, ← consumes.tokens, keeps.consumed]
    exact ⟨s', ts, rfl, keeps', consumes, List.append_cancel_right whole⟩

theorem exists_performs_call (max : Nat) (call : Call) : ∃ m, Performs m (call.parser max) := by
  obtain ⟨c, implements⟩ := Buffered.exists_implements_call 0 max call
  exact exists_performs implements

/-! ## Calls in a row -/

/-- What calls on a journal return, one after the other, and the journal after them; it has no
value if one of them goes on for ever. -/
def session (program : Call → Unbounded Parsed) :
    List Call → Journal → Part (List (Except (Option Error) Parsed) × Journal)
  | [], j => .some ([], j)
  | call :: calls, j =>
    (program call j).bind fun r => (session program calls r.2).map fun rs => (r.1 :: rs.1, rs.2)

variable {max : Nat} {program : Call → Unbounded Parsed}

/-- What a run that ends returns, and what it leaves. -/
theorem Ends.returns {p : Parser α} {r : Part (Except (Option Error) α × Journal)}
    (h : Ends source r (p s)) :
    ∃ j', r = .some ((Parser.outcome p s).1.mapError some, j') ∧
      Keeps source j' (Parser.outcome p s).2 := by
  obtain ⟨o, rfl, accords⟩ := h
  generalize run : p s = q at accords
  cases accords with
  | ok keeps =>
    rw [Parser.outcome_of_ok run]
    exact ⟨_, rfl, keeps⟩
  | error keeps =>
    rw [Parser.outcome_of_error run]
    exact ⟨_, rfl, keeps⟩

/-- A session ends, with the outcomes of the session on a parser. -/
theorem session_ends (h : ∀ call, Performs (program call) (call.parser max))
    (calls : List Call) (keeps : Keeps source j s) :
    ∃ j', session program calls j =
        .some ((Parser.outcomes max calls s).map (·.mapError some), j') ∧
      Keeps source j' (afterCalls max calls s) := by
  induction calls generalizing j s with
  | nil => exact ⟨j, rfl, keeps⟩
  | cons call calls ih =>
    obtain ⟨j₁, first, keeps₁⟩ := ((h call).run keeps).returns
    obtain ⟨j', rest, keeps'⟩ := ih keeps₁
    refine ⟨j', ?_, keeps'⟩
    rw [session, first, Part.bind_some, rest, Part.map_some]
    rfl

end Unbounded

/-! ## Progress -/

/-- A parser for a stream of which nothing is looked at so far. -/
def Journal.ofStream (stream : TokenStream) : Journal where
  toBuffer := .ofStream stream
  consumed := []

theorem Unbounded.Keeps.ofStream (stream : TokenStream) :
    Keeps stream.tokens (.ofStream stream) (.ofStream stream) where
  shows := .ofStream stream (Nat.lt_succ_self _)
  consumed := rfl
  inner := by
    intro t ht
    cases ht

namespace Parser

open Unbounded (Keeps Performs)

theorem length_le_of_runOn_script {max : Nat} {stream : TokenStream} {ss : List Statement}
    (h : (script max).runOn stream = .ok ss) : ss.length ≤ stream.tokens.length := by
  unfold runOn EStateM.run at h
  cases run : script max (.ofStream stream) with
  | error e s' =>
    rw [run] at h
    cases h
  | ok ss' s' =>
    rw [run] at h
    obtain rfl : ss' = ss := Except.ok.inj h
    obtain ⟨ts, enough, consumes⟩ := script_length_le (Token.isEnd_endOf _) run
    have tokens : stream.tokens = ts ++ s'.tokens := consumes.tokens
    rw [tokens, List.length_append]
    omega

/-- Whether parsers with `max` levels of nesting consume tokens in all that they repeat, and
return for that reason. -/
structure MakesProgress (max : Nat) : Prop where
  /-- A statement consumes tokens, whatever came before it. -/
  statement : ∀ {s s' : ParserState} {x : Statement}, s.finish.isEnd →
    statement max s = .ok x s' → ∃ ts, ts ≠ [] ∧ Consumes s ts s'
  /-- So does each round of a loop that is not the last one. -/
  rounds : ∀ {α : Type} {step : α → Parser (Option α)}, LoopStep max step → Progressive step
  /-- Operators are folded by such a loop. -/
  folding : ∀ (depth level : Nat) (left : Expr) {s : ParserState}, s.finish.isEnd →
    foldAbove max depth level left s = (do
      return (← iterate (foldingStep max level) (depth, left)).2 : Parser Expr) s
  /-- Selections are combined by such a loop. -/
  combining : ∀ (depth : Nat) (left : QueryBody) {s : ParserState}, s.finish.isEnd →
    combine max depth left s = (do
      let (depth, body) ← iterate (combiningStep max) (depth, left)
      queryTail (nested max depth) body : Parser Query) s
  /-- What a program consumes comes behind what was consumed before it. -/
  once : ∀ {α : Type} {m : Unbounded α} {p : Parser α}, Performs m p →
    ∀ {source : List Token} {j j' : Journal} {s : ParserState} {a : α}, Keeps source j s →
      m j = .some (.ok a, j') → ∃ s' ts, p s = .ok a s' ∧ Keeps source j' s' ∧
        Consumes s ts s' ∧ j'.consumed = j.consumed ++ ts
  /-- The lookahead through a dotted name ends. -/
  lookahead : ∀ {source : List Token} {j : Journal} {s : ParserState}, Keeps source j s →
    Unbounded.Ends source (Unbounded.loop Unbounded.wildcardStep 0 j) (atQualifiedWildcard s)
  /-- The calls have programs without limits. -/
  programs : ∃ program : Call → Unbounded Parsed,
    ∀ call, Performs (program call) (call.parser max)
  /-- Such programs return on all streams, however often they are called. -/
  calls : ∀ {program : Call → Unbounded Parsed},
    (∀ call, Performs (program call) (call.parser max)) →
    ∀ (stream : TokenStream) (calls : List Call), ∃ j,
      Unbounded.session program calls (.ofStream stream) =
        .some ((outcomes max calls (.ofStream stream)).map (·.mapError some), j) ∧
      Keeps stream.tokens j (afterCalls max calls (.ofStream stream))
  /-- A script consumes a token for each of its statements. -/
  script : ∀ {s s' : ParserState} {ss : List Statement}, s.finish.isEnd →
    script max s = .ok ss s' → ∃ ts, ss.length ≤ ts.length ∧ Consumes s ts s'
  /-- It has no more statements than there are tokens. -/
  yields : ∀ {stream : TokenStream} {ss : List Statement},
    (Parser.script max).runOn stream = .ok ss → ss.length ≤ stream.tokens.length

/-- With every number of levels, parsers make progress and return. -/
theorem makesProgress (max : Nat) : MakesProgress max where
  statement := statement_consumes
  rounds := LoopStep.progressive
  folding := foldAbove_eq max
  combining := combine_eq_iterate max
  once h _ _ _ _ _ keeps run := h.consumed keeps run
  lookahead keeps := by
    rw [← Buffered.wildcardAt_zero]
    exact Unbounded.ends_wildcard 0 keeps
  programs := by
    choose program performs using Unbounded.exists_performs_call max
    exact ⟨program, performs⟩
  calls h stream calls := Unbounded.session_ends h calls (.ofStream stream)
  script := script_length_le
  yields := length_le_of_runOn_script

end Parser
end SqlSyntax
