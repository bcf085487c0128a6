import Mathlib.Data.PFun
import SqlSyntax.Proofs.Parser.Loops
import SqlSyntax.Proofs.Parser.Sessions

/-!
# Loops without limits

A loop of `Buffered` has a limit, and crashes behind it. Here a loop goes on for as long as its
step says so, and a run that goes on for ever has no outcome. That the loops of a parser end is
then a fact about their steps: something gets smaller with each round. It is the number of
tokens that are left, or, where nothing is consumed, the number of those ahead of the lookahead.

A *journal* is a buffer with the tokens that were consumed so far. These and the tokens that
are left are those of the source at all times, so that none of them is consumed twice.

## Main results

* `loop_eq_none` — a loop that goes on after every step has no outcome.
* `peekAt_eq` — the queue is filled by a loop that ends.
* `Keeps.tail` — what is consumed is the first of the tokens that are left.
* `ends_loop` — a loop ends if something gets smaller with each round.
* `ends_wildcard`, `ends_iterate` — so the loops of a parser do.
-/

namespace SqlSyntax

/-- What a parser holds, and the tokens that it has consumed. -/
structure Journal extends Buffer where
  consumed : List Token

/-- A parser on a journal, with loops that nothing bounds. A run that goes on for ever has no
outcome. It fails with an error, and crashes without one. -/
abbrev Unbounded := ExceptT (Option Error) (StateT Journal Part)

namespace Unbounded

open SqlSyntax.Parser (Progressive)
open Buffered (Shows Matches)

variable {α β : Type}

/-! ## Operations -/

/-- What is still to be done after a step, or else the outcome. -/
def afterStep : Except (Option Error) (α ⊕ β) × Journal →
    (Except (Option Error) β × Journal) ⊕ (α × Journal)
  | (.ok (.inl a), j) => .inr (a, j)
  | (.ok (.inr b), j) => .inl (.ok b, j)
  | (.error e, j) => .inl (.error e, j)

/-- Repeats a step, each time on what the last one leaves to be done, until there is a result. -/
def loop (step : α → Unbounded (α ⊕ β)) (a : α) : Unbounded β := fun j =>
  PFun.fix (fun p : α × Journal => (step p.1 p.2).map afterStep) (a, j)

/-- An operation that consumes nothing. -/
def ofBuffered (c : Buffered α) : Unbounded α := fun j =>
  match c j.toBuffer with
  | .ok a b => .some (.ok a, { j with toBuffer := b })
  | .error e b => .some (.error e, { j with toBuffer := b })

/-- Puts tokens into the queue as long as it has no token number `n`. -/
def fillTo (n : Nat) : Unbounded Unit :=
  loop (fun (_ : Unit) => do
    if (← get).queue.length ≤ n then
      ofBuffered Buffered.pull
      return .inl ()
    else return .inr ()) ()

/-- The token number `n` among those not consumed. -/
def peekAt (n : Nat) : Unbounded Token := do
  fillTo n
  match (← get).queue[n]? with
  | some t => return t
  | none => throw none

/-- Consumes the next token, unless it is the end of the input. -/
def next : Unbounded Token := do
  let t ← peekAt 0
  unless t.isEnd do
    modify fun j => { j with
      queue := j.queue.tail
      last := some t
      expected := []
      consumed := j.consumed ++ [t] }
  return t

/-- Looks for `name.name...*` behind the first `n` tokens, a name and a dot at a time. -/
def wildcardStep (n : Nat) : Unbounded (Nat ⊕ Bool) := do
  if (← peekAt n).isIdentifier then
    if (← peekAt (n + 1)).kind == .punctuation .dot then
      if (← peekAt (n + 2)).kind == .operator .times then return .inr true
      else return .inl (n + 2)
    else return .inr false
  else return .inr false

def iterateStep (step : α → Unbounded (Option α)) (a : α) : Unbounded (α ⊕ α) := do
  match ← step a with
  | none => return .inr a
  | some b => return .inl b

/-- Repeats a step, each time on the result of the last, until it has none. -/
def iterate (step : α → Unbounded (Option α)) : α → Unbounded α := loop (iterateStep step)

/-! ## One round of a loop -/

variable {j j' : Journal}

theorem bind_eq (m : Unbounded α) (M : α → Unbounded β) (j : Journal) :
    (m >>= M) j = (m j).bind fun o => ExceptT.bindCont M o.1 o.2 := rfl

theorem bind_of_ok {m : Unbounded α} {M : α → Unbounded β} {a : α}
    (h : m j = .some (.ok a, j')) : (m >>= M) j = M a j' := by
  rw [bind_eq, h, Part.bind_some]
  rfl

theorem bind_of_error {m : Unbounded α} {M : α → Unbounded β} {e : Option Error}
    (h : m j = .some (.error e, j')) : (m >>= M) j = .some (.error e, j') := by
  rw [bind_eq, h, Part.bind_some]
  rfl

theorem get_eq (j : Journal) : (get : Unbounded Journal) j = .some (.ok j, j) := by
  show Part.bind (.some (j, j)) (fun p => .some ((.ok p.1 : Except (Option Error) _), p.2)) = _
  rw [Part.bind_some]

theorem modify_eq (f : Journal → Journal) (j : Journal) :
    (modify f : Unbounded Unit) j = .some (.ok (), f j) := by
  show Part.bind (.some ((), f j)) (fun p => .some ((.ok p.1 : Except (Option Error) _), p.2)) = _
  rw [Part.bind_some]

section

variable {step : α → Unbounded (α ⊕ β)} {a : α}

theorem mem_map_afterStep {o : Except (Option Error) (α ⊕ β) × Journal}
    (h : step a j = .some o) : afterStep o ∈ (step a j).map afterStep := by
  rw [h, Part.map_some]
  exact Part.mem_some _

theorem loop_of_inl {a' : α} (h : step a j = .some (.ok (.inl a'), j')) :
    loop step a j = loop step a' j' :=
  PFun.fix_fwd_eq (mem_map_afterStep h)

theorem loop_of_inr {b : β} (h : step a j = .some (.ok (.inr b), j')) :
    loop step a j = .some (.ok b, j') :=
  Part.eq_some_iff.2 (PFun.fix_stop (mem_map_afterStep h))

theorem loop_of_error {e : Option Error} (h : step a j = .some (.error e, j')) :
    loop step a j = .some (.error e, j') :=
  Part.eq_some_iff.2 (PFun.fix_stop (mem_map_afterStep h))

/-- A loop that goes on after every step has no outcome. -/
theorem loop_eq_none (endless : ∀ a j, ∃ a' j', step a j = .some (.ok (.inl a'), j'))
    (a : α) (j : Journal) : loop step a j = .none := by
  rw [Part.eq_none_iff]
  intro o outcome
  refine PFun.fixInduction (C := fun _ => False) outcome ?_
  rintro ⟨a, j⟩ - next
  obtain ⟨a', j', stepped⟩ := endless a j
  exact next (a', j') (mem_map_afterStep stepped)

end

/-! ## Operations that consume nothing -/

theorem ofBuffered_of_ok {c : Buffered α} {a : α} {b : Buffer} (h : c j.toBuffer = .ok a b) :
    ofBuffered c j = .some (.ok a, { j with toBuffer := b }) := by
  rw [ofBuffered, h]

theorem ofBuffered_of_error {c : Buffered α} {e : Option Error} {b : Buffer}
    (h : c j.toBuffer = .error e b) :
    ofBuffered c j = .some (.error e, { j with toBuffer := b }) := by
  rw [ofBuffered, h]

theorem length_of_pull {b b' : Buffer} (h : Buffered.pull b = .ok () b') :
    b'.queue.length = b.queue.length + 1 := by
  unfold Buffered.pull at h
  split at h
  · obtain rfl := (EStateM.Result.ok.inj h).2
    exact List.length_append
  · obtain rfl := (EStateM.Result.ok.inj h).2
    exact List.length_append
  · cases h

/-- Tokens are put into the queue until there are enough of them. -/
theorem fillTo_eq (n : Nat) (j : Journal) :
    fillTo n j = ofBuffered (Buffered.fill (n + 1 - j.queue.length)) j := by
  -- The induction is on how many tokens are missing.
  generalize missing : n + 1 - j.queue.length = k
  induction k generalizing j with
  | zero =>
    apply loop_of_inr
    rw [bind_of_ok (get_eq j), if_neg (by omega)]
    rfl
  | succ k ih =>
    have short : j.queue.length ≤ n := by omega
    cases pulled : Buffered.pull j.toBuffer with
    | ok u b =>
      have length := length_of_pull pulled
      have round : fillTo n j = fillTo n { j with toBuffer := b } := by
        apply loop_of_inl
        rw [bind_of_ok (get_eq j), if_pos short, bind_of_ok (ofBuffered_of_ok pulled)]
        rfl
      rw [round, ih _ (by dsimp only; omega), ofBuffered, ofBuffered, Buffered.fill,
        Parser.bind_of_ok pulled]
    | error e b =>
      have round : fillTo n j = .some (.error e, { j with toBuffer := b }) := by
        apply loop_of_error
        rw [bind_of_ok (get_eq j), if_pos short, bind_of_error (ofBuffered_of_error pulled)]
      rw [round, ofBuffered, Buffered.fill, Parser.bind_of_error pulled]

theorem peekAt_eq (n : Nat) (j : Journal) : peekAt n j = ofBuffered (Buffered.peekAt n) j := by
  have start : (get : Buffered Buffer) j.toBuffer = .ok j.toBuffer j.toBuffer := rfl
  rw [ofBuffered, Buffered.peekAt, Parser.bind_of_ok start, peekAt]
  cases filled : Buffered.fill (n + 1 - j.queue.length) j.toBuffer with
  | ok u b =>
    have full : (get : Buffered Buffer) b = .ok b b := rfl
    rw [bind_of_ok ((fillTo_eq n j).trans (ofBuffered_of_ok filled)), Parser.bind_of_ok filled,
      bind_of_ok (get_eq _), Parser.bind_of_ok full]
    dsimp only
    cases b.queue[n]? <;> rfl
  | error e b =>
    rw [bind_of_error ((fillTo_eq n j).trans (ofBuffered_of_error filled)),
      Parser.bind_of_error filled]

/-! ## What a journal keeps -/

/-- Whether a journal belongs to a state of a parser that started on `source`: the tokens that
are consumed, each of them once, and those that the state has still are the source. -/
structure Keeps (source : List Token) (j : Journal) (s : ParserState) : Prop where
  shows : Shows (source.length + 1) j.toBuffer s
  consumed : j.consumed ++ s.tokens = source
  /-- The end of the input is not among them. -/
  inner : ∀ t ∈ j.consumed, t.isEnd = false

/-- Whether an outcome is that of a parser. -/
inductive Accords (source : List Token) : Except (Option Error) α × Journal →
    EStateM.Result Error ParserState α → Prop
  | ok {a : α} {j : Journal} {s : ParserState} (keeps : Keeps source j s) :
    Accords source (.ok a, j) (.ok a s)
  | error {e : Error} {j : Journal} {s : ParserState} (keeps : Keeps source j s) :
    Accords source (.error (some e), j) (.error e s)

/-- Whether a run ends, and as the run of a parser does. -/
def Ends (source : List Token) (r : Part (Except (Option Error) α × Journal))
    (q : EStateM.Result Error ParserState α) : Prop :=
  ∃ o, r = .some o ∧ Accords source o q

variable {source : List Token} {s : ParserState}

theorem Keeps.of_shows (keeps : Keeps source j s) {b : Buffer} {s' : ParserState}
    (shows : Shows (source.length + 1) b s') (tokens : s'.tokens = s.tokens) :
    Keeps source { j with toBuffer := b } s' where
  shows := shows
  consumed := by
    rw [tokens]
    exact keeps.consumed
  inner := keeps.inner

theorem Ends.of_ok {a : α} (keeps : Keeps source j s) :
    Ends source (.some (.ok a, j)) (.ok a s) :=
  ⟨_, rfl, .ok keeps⟩

theorem Ends.of_error {e : Error} (keeps : Keeps source j s) :
    Ends source (.some (.error (some e), j)) (.error e s : EStateM.Result Error ParserState α) :=
  ⟨_, rfl, .error keeps⟩

theorem Ends.bind {m : Unbounded α} {M : α → Unbounded β} {p : Parser α} {P : α → Parser β}
    (first : Ends source (m j) (p s))
    (second : ∀ a j' s', p s = .ok a s' → Keeps source j' s' → Ends source (M a j') (P a s')) :
    Ends source ((m >>= M) j) ((p >>= P) s) := by
  obtain ⟨o, hm, accords⟩ := first
  generalize hp : p s = q at accords
  cases accords with
  | ok keeps =>
    rw [bind_of_ok hm, Parser.bind_of_ok hp]
    exact second _ _ _ hp keeps
  | error keeps =>
    rw [bind_of_error hm, Parser.bind_of_error hp]
    exact .of_error keeps

/-- An operation on a buffer ends as one on a parser that takes no tokens. -/
theorem Ends.of_matches {c : Buffered α} {p : Parser α} (keeps : Keeps source j s)
    (same : Matches (source.length + 1) (c j.toBuffer) (p s))
    (tokens : (Parser.outcome p s).2.tokens = s.tokens) :
    Ends source (ofBuffered c j) (p s) := by
  generalize hc : c j.toBuffer = r at same
  generalize hp : p s = q at same
  cases same with
  | ok shows =>
    rw [Parser.outcome_of_ok hp] at tokens
    rw [ofBuffered_of_ok hc]
    exact .of_ok (keeps.of_shows shows tokens)
  | error shows =>
    rw [Parser.outcome_of_error hp] at tokens
    rw [ofBuffered_of_error hc]
    exact .of_error (keeps.of_shows shows tokens)

theorem tokens_of_peekAt (n : Nat) (s : ParserState) :
    (Parser.outcome (Parser.peekAt n) s).2.tokens = s.tokens := by
  unfold Parser.outcome EStateM.run Parser.peekAt
  cases s.tokens[n]? with
  | some t => rfl
  | none => cases s.failure <;> rfl

theorem ends_peekAt (keeps : Keeps source j s) (n : Nat) :
    Ends source (peekAt n j) (Parser.peekAt n s) := by
  rw [peekAt_eq]
  exact .of_matches keeps (Buffered.peekAt_matches keeps.shows n) (tokens_of_peekAt n s)

/-- A token that is seen, and is not the end of the input, is the first of those left. -/
theorem tokens_of_peek {s' : ParserState} {t : Token} (isEnd : s.finish.isEnd)
    (run : Parser.peekAt 0 s = .ok t s') (inner : t.isEnd = false) :
    s.tokens = t :: s.tokens.tail := by
  obtain ⟨-, seen⟩ := Parser.peekAt_eq_ok run
  cases tokens : s.tokens with
  | nil =>
    obtain rfl : s.finish = t := by simpa [tokens] using seen
    rw [isEnd] at inner
    cases inner
  | cons u us =>
    obtain rfl : u = t := by simpa [tokens] using seen
    rfl

/-- What is consumed is the first of the tokens that are not consumed yet. -/
theorem Keeps.tail (keeps : Keeps source j s) {s' : ParserState} {t : Token}
    (head : j.queue[0]? = some t) (run : Parser.peekAt 0 s = .ok t s') (inner : t.isEnd = false) :
    Keeps source
      { j with
        queue := j.queue.tail
        last := some t
        expected := []
        consumed := j.consumed ++ [t] }
      { s with tokens := s.tokens.tail, last := some t.span, expected := [] } where
  shows := keeps.shows.tail head inner
  consumed := by
    have rest := tokens_of_peek keeps.shows.isEnd run inner
    rw [List.append_assoc, List.singleton_append, ← rest]
    exact keeps.consumed
  inner u hu := by
    rcases List.mem_append.1 hu with earlier | now
    · exact keeps.inner u earlier
    · rw [List.mem_singleton.1 now]
      exact inner

theorem ends_next (keeps : Keeps source j s) : Ends source (next j) (Parser.next s) := by
  rw [next, Parser.next]
  rcases Buffered.peekAt_spec keeps.shows 0 with
    ⟨t, b, run, run', shows, head⟩ | ⟨e, b, run, run', shows⟩
  · have looked : Keeps source { j with toBuffer := b } s := keeps.of_shows shows rfl
    rw [bind_of_ok ((peekAt_eq 0 j).trans (ofBuffered_of_ok run)),
      Parser.bind_of_ok (p := Parser.peek) run']
    cases inner : t.isEnd with
    | true => exact .of_ok looked
    | false =>
      rw [if_neg Bool.false_ne_true, bind_of_ok (modify_eq _ _)]
      exact .of_ok (looked.tail head run' inner)
  · rw [bind_of_error ((peekAt_eq 0 j).trans (ofBuffered_of_error run)),
      Parser.bind_of_error (p := Parser.peek) run']
    exact .of_error (keeps.of_shows shows rfl)

/-! ## Loops -/

/-- A loop ends if its rounds end and something gets smaller with each of them. -/
theorem ends_loop {step : α → Unbounded (α ⊕ β)} {step' : α → Parser (α ⊕ β)}
    {q : α → Parser β} (size : α → ParserState → Nat)
    (each : ∀ a {j s}, Keeps source j s → Ends source (step a j) (step' a s))
    (round : ∀ a {s}, s.finish.isEnd → q a s = (step' a >>= Sum.elim q pure) s)
    (smaller : ∀ ⦃a a' s s'⦄, s.finish.isEnd → step' a s = .ok (.inl a') s' →
      size a' s' < size a s) (a : α) (keeps : Keeps source j s) :
    Ends source (loop step a j) (q a s) := by
  -- All that is known of the next round is that it is one of a smaller size.
  generalize left : size a s = k
  induction k using Nat.strongRecOn generalizing a j s with
  | ind k ih =>
    subst left
    rw [round a keeps.shows.isEnd]
    obtain ⟨o, stepped, accords⟩ := each a keeps
    generalize ran : step' a s = r at accords
    cases accords with
    | @ok next j' s' keeps' =>
      rw [Parser.bind_of_ok ran]
      cases next with
      | inl a' =>
        rw [loop_of_inl stepped]
        exact ih _ (smaller keeps.shows.isEnd ran) a' keeps' rfl
      | inr b =>
        rw [loop_of_inr stepped]
        exact .of_ok keeps'
    | error keeps' =>
      rw [loop_of_error stepped, Parser.bind_of_error ran]
      exact .of_error keeps'

/-- What `wildcardStep` is on a parser. -/
def wildcardRound (n : Nat) : Parser (Nat ⊕ Bool) := do
  if (← Parser.peekAt n).isIdentifier then
    if (← Parser.peekAt (n + 1)).kind == .punctuation .dot then
      if (← Parser.peekAt (n + 2)).kind == .operator .times then return .inr true
      else return .inl (n + 2)
    else return .inr false
  else return .inr false

theorem ends_wildcardStep (n : Nat) (keeps : Keeps source j s) :
    Ends source (wildcardStep n j) (wildcardRound n s) := by
  apply (ends_peekAt keeps n).bind
  intro t j₁ s₁ _ keeps₁
  split
  · apply (ends_peekAt keeps₁ (n + 1)).bind
    intro dot j₂ s₂ _ keeps₂
    split
    · apply (ends_peekAt keeps₂ (n + 2)).bind
      intro u j₃ s₃ _ keeps₃
      split
      · exact .of_ok keeps₃
      · exact .of_ok keeps₃
    · exact .of_ok keeps₂
  · exact .of_ok keeps₁

theorem wildcardAt_eq_round (n : Nat) (isEnd : s.finish.isEnd) :
    Buffered.wildcardAt n s = (wildcardRound n >>= Sum.elim Buffered.wildcardAt pure) s := by
  rw [Buffered.wildcardAt_eq n isEnd, wildcardRound, bind_assoc]
  apply Parser.bind_congr_of_ok
  intro t s₁ _
  split
  · rw [bind_assoc]
    apply Parser.bind_congr_of_ok
    intro dot s₂ _
    split
    · rw [bind_assoc]
      apply Parser.bind_congr_of_ok
      intro u s₃ _
      split <;> rfl
    · rfl
  · rfl

/-- A dot is not the end of the input, so the lookahead is among the tokens when it goes on. -/
theorem among_of_wildcardRound {n n' : Nat} {s' : ParserState} (isEnd : s.finish.isEnd)
    (ran : wildcardRound n s = .ok (.inl n') s') :
    s = s' ∧ n' = n + 2 ∧ n + 1 < s.tokens.length := by
  obtain ⟨t, s₁, looked, ran⟩ := Parser.bind_eq_ok.1 ran
  obtain ⟨rfl, -⟩ := Parser.peekAt_eq_ok looked
  split at ran
  case isFalse => cases (Parser.pure_eq_ok.1 ran).1
  obtain ⟨dot, s₂, looked, ran⟩ := Parser.bind_eq_ok.1 ran
  obtain ⟨rfl, seen⟩ := Parser.peekAt_eq_ok looked
  split at ran
  case isFalse => cases (Parser.pure_eq_ok.1 ran).1
  rename_i isDot
  obtain ⟨u, s₃, looked, ran⟩ := Parser.bind_eq_ok.1 ran
  obtain ⟨rfl, -⟩ := Parser.peekAt_eq_ok looked
  split at ran
  · cases (Parser.pure_eq_ok.1 ran).1
  · obtain ⟨next, rfl⟩ := Parser.pure_eq_ok.1 ran
    refine ⟨rfl, (Sum.inl.inj next).symm, ?_⟩
    by_contra outside
    rw [List.getElem?_eq_none (by omega)] at seen
    obtain rfl : s.finish = dot := seen
    rw [(Token.isEnd_iff _).1 isEnd] at isDot
    cases isDot

/-- The lookahead through a dotted name stops: with each round, fewer tokens are ahead of it. -/
theorem ends_wildcard (n : Nat) (keeps : Keeps source j s) :
    Ends source (loop wildcardStep n j) (Buffered.wildcardAt n s) := by
  refine ends_loop (fun n s => s.tokens.length - n) (fun n _ _ => ends_wildcardStep n)
    (fun n _ => wildcardAt_eq_round n) ?_ n keeps
  intro n n' s s' isEnd ran
  obtain ⟨rfl, rfl, among⟩ := among_of_wildcardRound isEnd ran
  omega

/-- What `iterateStep` is on a parser. -/
def iterateRound (step : α → Parser (Option α)) (a : α) : Parser (α ⊕ α) := do
  match ← step a with
  | none => return .inr a
  | some b => return .inl b

section

variable {step : α → Unbounded (Option α)} {step' : α → Parser (Option α)}

theorem ends_iterateStep (each : ∀ a {j s}, Keeps source j s → Ends source (step a j) (step' a s))
    (a : α) (keeps : Keeps source j s) :
    Ends source (iterateStep step a j) (iterateRound step' a s) := by
  apply (each a keeps).bind
  intro o j' s' _ keeps'
  cases o with
  | none => exact .of_ok keeps'
  | some b => exact .of_ok keeps'

theorem iterate_eq_round (progressive : Progressive step') (a : α) (isEnd : s.finish.isEnd) :
    Parser.iterate step' a s =
      (iterateRound step' a >>= Sum.elim (Parser.iterate step') pure) s := by
  rw [Parser.iterate_eq progressive.advances a isEnd, iterateRound, bind_assoc]
  apply Parser.bind_congr_of_ok
  intro o s' _
  cases o <;> rfl

theorem length_lt_of_iterateRound (progressive : Progressive step') {a b : α} {s' : ParserState}
    (isEnd : s.finish.isEnd) (ran : iterateRound step' a s = .ok (.inl b) s') :
    s'.tokens.length < s.tokens.length := by
  obtain ⟨o, s₁, stepped, next⟩ := Parser.bind_eq_ok.1 ran
  cases o with
  | none => cases (Parser.pure_eq_ok.1 next).1
  | some c =>
    obtain ⟨-, rfl⟩ := Parser.pure_eq_ok.1 next
    exact (progressive.advances isEnd stepped).2

/-- A loop whose steps consume tokens ends. -/
theorem ends_iterate (each : ∀ a {j s}, Keeps source j s → Ends source (step a j) (step' a s))
    (progressive : Progressive step') (a : α) (keeps : Keeps source j s) :
    Ends source (iterate step a j) (Parser.iterate step' a s) :=
  ends_loop (fun _ s => s.tokens.length) (fun a _ _ => ends_iterateStep each a)
    (fun a _ => iterate_eq_round progressive a)
    (fun _ _ _ _ => length_lt_of_iterateRound progressive) a keeps

end

end Unbounded
end SqlSyntax
