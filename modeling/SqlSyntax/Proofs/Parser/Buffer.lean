import SqlSyntax.Proofs.Parser.Ending
import SqlSyntax.Proofs.Token.Tiling

/-!
# Looking ahead in a buffer

The tokens that a parser looks at are pulled out of the lexer one by one, and are held in a
queue until they are consumed. To look at token number `n` is to pull until the queue has
more than `n` tokens, and to take the one with this index. When the lexer has no more to give,
ends of the input are put into the queue instead, each behind the token before it.

An index without a token is a crash here, and so is a loop with more rounds than its limit.
What a buffer *shows* is a state of `Parser`, with the queue and what the lexer still has as
one list. Looking, consuming and the other operations do on a buffer what they do on the
state that it shows, and they never crash.

## Main results

* `Buffered.peekAt_spec` — looking ahead, at any distance.
* `Buffered.next_matches` — consuming.
* `Buffered.atQualifiedWildcard_matches` — looking through a dotted name.
* `Buffered.iterate_matches` — loops whose steps consume tokens.
-/

namespace SqlSyntax

/-- What a parser holds. -/
structure Buffer where
  /-- Tokens that were looked at and are not consumed. -/
  queue : List Token
  /-- What the lexer has still to give. -/
  source : List (Except LexError Token)
  /-- The token that was consumed last. -/
  last : Option Token
  /-- What was probed for since then, latest first. -/
  expected : List Expectation

namespace Buffer

/-- Nothing is looked at so far. -/
def ofStream (s : TokenStream) : Buffer := ⟨[], s.items, none, []⟩

/-- The end of the input behind the last token of the queue, or else behind the one that was
consumed last. -/
def endOfTokens (b : Buffer) : Token := Token.endOf (b.queue.getLast?.or b.last).toList

end Buffer

/-- A parser on a buffer. It fails with an error, and crashes without one. -/
abbrev Buffered := EStateM (Option Error) Buffer

namespace Buffered

open SqlSyntax.Parser (bind_of_ok bind_of_error)

variable {α β : Type}

/-! ## Operations -/

def crash : Buffered α := throw none

/-- Puts one more token into the queue. -/
def pull : Buffered Unit := fun b =>
  match b.source with
  | [] => .ok () { b with queue := b.queue ++ [b.endOfTokens] }
  | .ok t :: source => .ok () { b with queue := b.queue ++ [t], source := source }
  | .error e :: source => .error (some (.lex e)) { b with source := source }

/-- Puts a number of tokens into the queue. -/
def fill : Nat → Buffered Unit
  | 0 => return ()
  | n + 1 => do
    pull
    fill n

/-- The token number `n` among those not consumed. -/
def peekAt (n : Nat) : Buffered Token := do
  fill (n + 1 - (← get).queue.length)
  match (← get).queue[n]? with
  | some t => return t
  | none => crash

/-- Consumes the next token, unless it is the end of the input. -/
def next : Buffered Token := do
  let t ← peekAt 0
  unless t.isEnd do
    modify fun b => { b with queue := b.queue.tail, last := some t, expected := [] }
  return t

def note (es : List Expectation) : Buffered Unit :=
  modify fun b => { b with expected := es.reverse ++ b.expected }

def spanFrom (start : Span) : Buffered Span := fun b =>
  match b.last with
  | some last => .ok ⟨start.start, max last.span.stop start.stop⟩ b
  | none => .ok start b

def fail (e : Error) : Buffered α := throw (some e)

def failAt (fault : ParseFault) (t : Token) : Buffered α := fun b =>
  .error (some (.parse (.of fault t.position t.describe
    (b.expected.reverse.map Expectation.describe)))) { b with expected := [] }

/-- Whether `name.name...*` comes behind the first `n` tokens, in a number of rounds. -/
def wildcardFrom : Nat → Nat → Buffered Bool
  | 0, _ => crash
  | limit + 1, n => do
    if (← peekAt n).isIdentifier then
      if (← peekAt (n + 1)).kind == .punctuation .dot then
        if (← peekAt (n + 2)).kind == .operator .times then return true
        else wildcardFrom limit (n + 2)
      else return false
    else return false

/-- Repeats a step, each time on the result of the last, until it has none, in a number of
rounds. -/
def iterate (step : α → Buffered (Option α)) : Nat → α → Buffered α
  | 0, _ => crash
  | limit + 1, a => do
    match ← step a with
    | none => return a
    | some b => iterate step limit b

/-! ## What a buffer shows -/

/-- Whether a buffer shows a state with less than `limit` tokens. -/
structure Shows (limit : Nat) (b : Buffer) (s : ParserState) : Prop where
  /-- The tokens are those of the queue and those of the lexer. Ends of the input are put
  behind those of the queue only when the lexer has nothing left. -/
  tokens : ∃ front behind k, s.tokens = front ++ behind ∧
    b.queue = front ++ List.replicate k s.finish ∧
    b.source = (⟨behind, s.failure⟩ : TokenStream).items ∧
    (k ≠ 0 → behind = [] ∧ s.failure = none)
  endOf : Token.endOf (b.last.toList ++ s.tokens) = s.finish
  isEnd : s.finish.isEnd
  last : b.last.map Token.span = s.last
  expected : b.expected = s.expected
  bounded : s.tokens.length < limit

/-- Whether a run on a buffer ends as the run on the state that it shows, without a crash. -/
inductive Matches (limit : Nat) : EStateM.Result (Option Error) Buffer α →
    EStateM.Result Error ParserState α → Prop
  | ok {a : α} {b : Buffer} {s : ParserState} (shows : Shows limit b s) :
    Matches limit (.ok a b) (.ok a s)
  | error {e : Error} {b : Buffer} {s : ParserState} (shows : Shows limit b s) :
    Matches limit (.error (some e) b) (.error e s)

variable {limit : Nat} {b : Buffer} {s : ParserState}

theorem Shows.ofStream (stream : TokenStream) (bounded : stream.tokens.length < limit) :
    Shows limit (.ofStream stream) (.ofStream stream) where
  tokens := ⟨[], stream.tokens, 0, rfl, rfl, rfl, absurd rfl⟩
  endOf := rfl
  isEnd := Token.isEnd_endOf _
  last := rfl
  expected := rfl
  bounded := bounded

theorem Matches.bind {c : Buffered α} {C : α → Buffered β} {p : Parser α} {P : α → Parser β}
    (first : Matches limit (c b) (p s))
    (second : ∀ a b' s', p s = .ok a s' → Shows limit b' s' →
      Matches limit (C a b') (P a s')) :
    Matches limit ((c >>= C) b) ((p >>= P) s) := by
  show Matches limit (EStateM.bind c C b) (EStateM.bind p P s)
  unfold EStateM.bind
  cases hc : c b <;> cases hp : p s <;> rw [hc, hp] at first
  · cases first with | ok shows => exact second _ _ _ hp shows
  · cases first
  · cases first
  · cases first with | error shows => exact .error shows

/-! ## Looking -/

/-- The end of the input behind tokens depends on the last of them only. -/
theorem endOf_congr {ts us : List Token} (h : ts.getLast? = us.getLast?) :
    Token.endOf ts = Token.endOf us := by
  rw [Token.endOf, Token.endOf, h]

theorem endOf_toList (o : Option Token) {ts : List Token} (h : ts.getLast? = o) :
    Token.endOf o.toList = Token.endOf ts := by
  refine endOf_congr ?_
  cases o <;> exact h.symm

/-- What is put into the queue behind all tokens is the end of the input. -/
theorem Shows.endOfTokens_eq (shows : Shows limit b s) {k : Nat}
    (queue : b.queue = s.tokens ++ List.replicate k s.finish) : b.endOfTokens = s.finish := by
  cases k with
  | zero =>
    rw [Buffer.endOfTokens, queue, List.replicate_zero, List.append_nil, ← shows.endOf]
    refine endOf_toList _ ?_
    rw [List.getLast?_append]
    cases b.last <;> rfl
  | succ k =>
    rw [List.replicate_succ', ← List.append_assoc] at queue
    rw [Buffer.endOfTokens, queue, List.getLast?_concat, Option.some_or]
    exact if_pos shows.isEnd

/-- One more token comes into the queue, or the lexer fails and is out of tokens. -/
theorem Shows.pull (shows : Shows limit b s) :
    (∃ b', pull b = .ok () b' ∧ Shows limit b' s ∧ b'.queue.length = b.queue.length + 1) ∨
    (∃ e b', s.failure = some e ∧ s.tokens.length = b.queue.length ∧
      Buffered.pull b = .error (some (.lex e)) b' ∧ Shows limit b' { s with failure := none }) := by
  obtain ⟨front, behind, k, tokens, queue, source, dry⟩ := shows.tokens
  unfold Buffered.pull
  rw [source]
  cases behind with
  | cons t behind =>
    obtain rfl : k = 0 := by
      by_contra positive
      cases (dry positive).1
    refine .inl ⟨_, rfl, { shows with
      tokens := ⟨front ++ [t], behind, 0, ?_, ?_, rfl, absurd rfl⟩ }, List.length_append⟩
    · rw [tokens, List.append_assoc, List.singleton_append]
    · simp [queue]
  | nil =>
    rw [List.append_nil] at tokens
    subst tokens
    have ended := shows.endOfTokens_eq queue
    cases failure : s.failure with
    | none =>
      refine .inl ⟨_, rfl, { shows with tokens := ⟨s.tokens, [], k + 1, ?_, ?_, ?_, ?_⟩ },
        List.length_append⟩
      · rw [List.append_nil]
      · rw [List.replicate_succ', ← List.append_assoc, ← queue, ended]
      · rw [failure]
      · exact fun _ => ⟨rfl, failure⟩
    | some e =>
      obtain rfl : k = 0 := by
        by_contra positive
        rw [failure] at dry
        cases (dry positive).2
      rw [List.replicate_zero, List.append_nil] at queue
      refine .inr ⟨e, _, rfl, by rw [queue], rfl,
        { shows with tokens := ⟨s.tokens, [], 0, ?_, ?_, rfl, absurd rfl⟩ }⟩
      · rw [List.append_nil]
      · rw [queue, List.replicate_zero, List.append_nil]

theorem Shows.fill (shows : Shows limit b s) (n : Nat) :
    (∃ b', fill n b = .ok () b' ∧ Shows limit b' s ∧ b'.queue.length = b.queue.length + n) ∨
    (∃ e b', 0 < n ∧ s.failure = some e ∧ s.tokens.length < b.queue.length + n ∧
      Buffered.fill n b = .error (some (.lex e)) b' ∧
      Shows limit b' { s with failure := none }) := by
  induction n generalizing b with
  | zero => exact .inl ⟨b, rfl, shows, rfl⟩
  | succ n ih =>
    rw [Buffered.fill]
    rcases shows.pull with ⟨b₁, pulled, shows₁, length⟩ | ⟨e, b₁, failure, length, pulled, shows₁⟩
    · rw [bind_of_ok pulled]
      rcases ih shows₁ with
        ⟨b₂, filled, shows₂, length'⟩ | ⟨e, b₂, -, failure, length', filled, shows₂⟩
      · exact .inl ⟨b₂, filled, shows₂, by omega⟩
      · exact .inr ⟨e, b₂, n.succ_pos, failure, by omega, filled, shows₂⟩
    · rw [bind_of_error pulled]
      exact .inr ⟨e, b₁, n.succ_pos, failure, by omega, rfl, shows₁⟩

/-- What is at an index of the queue. -/
theorem Shows.getElem? (shows : Shows limit b s) {n : Nat} (h : n < b.queue.length) :
    (∃ t, s.tokens[n]? = some t ∧ b.queue[n]? = some t) ∨
    (s.tokens[n]? = none ∧ s.failure = none ∧ b.queue[n]? = some s.finish) := by
  obtain ⟨front, behind, k, tokens, queue, -, dry⟩ := shows.tokens
  by_cases among : n < front.length
  · refine .inl ⟨front[n], ?_, ?_⟩
    · rw [tokens, List.getElem?_append_left among, List.getElem?_eq_getElem]
    · rw [queue, List.getElem?_append_left among, List.getElem?_eq_getElem]
  · rw [queue, List.length_append, List.length_replicate] at h
    obtain ⟨rfl, failure⟩ := dry (by omega)
    refine .inr ⟨?_, failure, ?_⟩
    · rw [tokens, List.append_nil, List.getElem?_eq_none (by omega)]
    · rw [queue, List.getElem?_append_right (by omega), List.getElem?_replicate, if_pos (by omega)]

/-- Every index that is looked at exists. -/
theorem peekAt_spec (shows : Shows limit b s) (n : Nat) :
    (∃ t b', peekAt n b = .ok t b' ∧ Parser.peekAt n s = .ok t s ∧ Shows limit b' s ∧
      b'.queue[n]? = some t) ∨
    (∃ e b', peekAt n b = .error (some (.lex e)) b' ∧
      Parser.peekAt n s = .error (.lex e) { s with failure := none } ∧
      Shows limit b' { s with failure := none }) := by
  have start : (get : Buffered Buffer) b = .ok b b := rfl
  rw [peekAt, bind_of_ok start, Parser.peekAt]
  rcases shows.fill (n + 1 - b.queue.length) with
    ⟨b', filled, shows', length⟩ | ⟨e, b', positive, failure, length, filled, shows'⟩
  · have full : (get : Buffered Buffer) b' = .ok b' b' := rfl
    rw [bind_of_ok filled, bind_of_ok full]
    rcases shows'.getElem? (n := n) (by omega) with ⟨t, token, index⟩ | ⟨token, failure, index⟩
    · rw [token, index]
      exact .inl ⟨t, b', rfl, rfl, shows', index⟩
    · rw [token, failure, index]
      exact .inl ⟨s.finish, b', rfl, rfl, shows', index⟩
  · rw [bind_of_error filled, List.getElem?_eq_none (by omega), failure]
    exact .inr ⟨e, b', rfl, rfl, shows'⟩

theorem peekAt_matches (shows : Shows limit b s) (n : Nat) :
    Matches limit (peekAt n b) (Parser.peekAt n s) := by
  rcases peekAt_spec shows n with ⟨t, b', run, run', shows', -⟩ | ⟨e, b', run, run', shows'⟩
  · rw [run, run']
    exact .ok shows'
  · rw [run, run']
    exact .error shows'

/-- The token that is consumed is the first one of the queue. -/
theorem Shows.tail (shows : Shows limit b s) {t : Token} (head : b.queue[0]? = some t)
    (inner : t.isEnd = false) :
    Shows limit { b with queue := b.queue.tail, last := some t, expected := [] }
      { s with tokens := s.tokens.tail, last := some t.span, expected := [] } := by
  obtain ⟨front, behind, k, tokens, queue, source, dry⟩ := shows.tokens
  have isEnd := shows.isEnd
  cases front with
  | nil =>
    rw [queue, List.nil_append, List.getElem?_replicate] at head
    split at head
    · rw [Option.some.inj head, inner] at isEnd
      cases isEnd
    · cases head
  | cons u front =>
    obtain rfl : u = t := by simpa [queue] using head
    have rest : s.tokens = u :: (front ++ behind) := tokens
    have bounded := shows.bounded
    have endOf := shows.endOf
    rw [rest] at bounded endOf
    refine ⟨⟨front, behind, k, ?_, ?_, source, dry⟩, ?_, isEnd, rfl, rfl, ?_⟩
    · rw [rest]
      rfl
    · rw [queue]
      rfl
    · rw [rest, ← endOf]
      refine endOf_congr ?_
      show (u :: (front ++ behind)).getLast? = _
      rw [List.getLast?_append, List.getLast?_cons, Option.some_or]
    · rw [rest]
      exact Nat.lt_of_succ_lt bounded

theorem next_matches (shows : Shows limit b s) : Matches limit (next b) (Parser.next s) := by
  rw [next, Parser.next]
  rcases peekAt_spec shows 0 with ⟨t, b', run, run', shows', head⟩ | ⟨e, b', run, run', shows'⟩
  · rw [bind_of_ok run, bind_of_ok (p := Parser.peek) run']
    cases inner : t.isEnd with
    | true => exact .ok shows'
    | false => exact .ok (shows'.tail head inner)
  · rw [bind_of_error run, bind_of_error (p := Parser.peek) run']
    exact .error shows'

theorem note_matches (shows : Shows limit b s) (es : List Expectation) :
    Matches limit (note es b) (Parser.note es s) := by
  refine .ok { shows with expected := ?_ }
  exact congrArg (es.reverse ++ ·) shows.expected

theorem spanFrom_matches (shows : Shows limit b s) (start : Span) :
    Matches limit (spanFrom start b) (Parser.spanFrom start s) := by
  unfold spanFrom Parser.spanFrom
  rw [← shows.last]
  cases b.last <;> exact .ok shows

theorem failAt_matches (shows : Shows limit b s) (fault : ParseFault) (t : Token) :
    Matches limit (failAt fault t b : EStateM.Result _ _ α) (Parser.failAt fault t s) := by
  unfold failAt Parser.failAt
  rw [shows.expected]
  exact .error { shows with expected := rfl }

theorem fail_matches (shows : Shows limit b s) (e : Error) :
    Matches limit (fail e b : EStateM.Result _ _ α) ((throw e : Parser α) s) :=
  .error shows

/-! ## Repeating -/

/-- Whether `name.name...*` comes behind the first `n` tokens. -/
def wildcardAt (n : Nat) : Parser Bool := fun s =>
  match Parser.startsQualifiedWildcard? (s.tokens.drop n) with
  | some answer => .ok answer s
  | none =>
    match s.failure with
    | some e => .error (.lex e) { s with failure := none }
    | none => .ok false s

theorem wildcardAt_zero (s : ParserState) : wildcardAt 0 s = Parser.atQualifiedWildcard s :=
  (Parser.atQualifiedWildcard_eq s).symm

theorem wildcardAt_answer {n : Nat} {answer : Bool}
    (h : Parser.startsQualifiedWildcard? (s.tokens.drop n) = some answer) :
    wildcardAt n s = .ok answer s := by
  rw [wildcardAt, h]

/-- Tokens that end before the answer is clear are followed by the error of the lexer, or by the
end of the input, which decides it. -/
theorem wildcardAt_past {n k : Nat} {next : Token → Parser Bool}
    (h : Parser.startsQualifiedWildcard? (s.tokens.drop n) = none) (absent : s.tokens[k]? = none)
    (decided : s.failure = none → next s.finish s = .ok false s) :
    wildcardAt n s = (Parser.peekAt k >>= next) s := by
  rw [wildcardAt, h]
  cases failure : s.failure with
  | some e =>
    have looked : Parser.peekAt k s = .error (.lex e) { s with failure := none } := by
      rw [Parser.peekAt, absent, failure]
    rw [bind_of_error looked]
  | none =>
    have looked : Parser.peekAt k s = .ok s.finish s := by rw [Parser.peekAt, absent, failure]
    rw [bind_of_ok looked, decided failure]

theorem look_token {n : Nat} {t : Token} (present : s.tokens[n]? = some t) :
    Parser.peekAt n s = .ok t s := by
  rw [Parser.peekAt, present]

theorem starts_of_not_name {t : Token} {ts : List Token} (h : t.isIdentifier = false) :
    Parser.startsQualifiedWildcard? (t :: ts) = some false := by
  rcases ts with _ | ⟨dot, _ | ⟨u, ts⟩⟩ <;> simp [Parser.startsQualifiedWildcard?, h]

theorem starts_of_not_dot {t dot : Token} {ts : List Token}
    (h : (dot.kind == .punctuation .dot) = false) :
    Parser.startsQualifiedWildcard? (t :: dot :: ts) = some false := by
  cases ts <;> simp [Parser.startsQualifiedWildcard?, h]

theorem getElem?_of_drop {n : Nat} {ts : List Token} (shape : s.tokens.drop n = ts) (k : Nat) :
    s.tokens[n + k]? = ts[k]? := by
  rw [← shape, List.getElem?_drop]

/-- Behind a name and a dot the answer depends on what follows. -/
theorem wildcardAt_dot {n : Nat} {t dot : Token} {ts : List Token} (isEnd : s.finish.isEnd)
    (shape : s.tokens.drop n = t :: dot :: ts) (name : t.isIdentifier)
    (isDot : dot.kind == .punctuation .dot) : wildcardAt n s = (do
      if (← Parser.peekAt (n + 2)).kind == .operator .times then return true
      else wildcardAt (n + 2) : Parser Bool) s := by
  have behind : s.tokens.drop (n + 2) = ts := by
    rw [← List.drop_drop, shape]
    rfl
  have both : (t.isIdentifier && dot.kind == .punctuation .dot) = true :=
    Bool.and_eq_true_iff.2 ⟨name, isDot⟩
  cases ts with
  | nil =>
    refine wildcardAt_past ?_ (getElem?_of_drop shape 2) fun failure => ?_
    · rw [shape, Parser.startsQualifiedWildcard?, if_pos both]
    · have ended : wildcardAt (n + 2) s = .ok false s := by
        rw [wildcardAt, behind, failure]
        rfl
      rw [(Token.isEnd_iff _).1 isEnd]
      exact ended
  | cons u ts =>
    have starts : Parser.startsQualifiedWildcard? (s.tokens.drop n) =
        if u.kind == .operator .times then some true
        else Parser.startsQualifiedWildcard? (s.tokens.drop (n + 2)) := by
      rw [shape, behind, Parser.startsQualifiedWildcard?, if_pos both]
    rw [bind_of_ok (look_token (getElem?_of_drop shape 2))]
    by_cases star : u.kind == .operator .times
    · rw [if_pos star] at starts ⊢
      exact wildcardAt_answer starts
    · rw [if_neg star] at starts ⊢
      unfold wildcardAt
      rw [starts]

/-- Behind a name the answer depends on whether a dot follows. -/
theorem wildcardAt_name {n : Nat} {t : Token} {ts : List Token} (isEnd : s.finish.isEnd)
    (shape : s.tokens.drop n = t :: ts) (name : t.isIdentifier) : wildcardAt n s = (do
      if (← Parser.peekAt (n + 1)).kind == .punctuation .dot then
        if (← Parser.peekAt (n + 2)).kind == .operator .times then return true
        else wildcardAt (n + 2)
      else return false : Parser Bool) s := by
  cases ts with
  | nil =>
    refine wildcardAt_past ?_ (getElem?_of_drop shape 1) fun _ => ?_
    · rw [shape, Parser.startsQualifiedWildcard?, if_pos name]
    · rw [(Token.isEnd_iff _).1 isEnd]
      rfl
  | cons dot ts =>
    rw [bind_of_ok (look_token (getElem?_of_drop shape 1))]
    by_cases isDot : dot.kind == .punctuation .dot
    · rw [if_pos isDot]
      exact wildcardAt_dot isEnd shape name isDot
    · rw [if_neg isDot]
      refine wildcardAt_answer ?_
      rw [shape, starts_of_not_dot (Bool.eq_false_iff.2 isDot)]

/-- The answer depends on the next three tokens, or else on those behind a name and a dot. -/
theorem wildcardAt_eq (n : Nat) (isEnd : s.finish.isEnd) : wildcardAt n s = (do
    if (← Parser.peekAt n).isIdentifier then
      if (← Parser.peekAt (n + 1)).kind == .punctuation .dot then
        if (← Parser.peekAt (n + 2)).kind == .operator .times then return true
        else wildcardAt (n + 2)
      else return false
    else return false : Parser Bool) s := by
  cases shape : s.tokens.drop n with
  | nil =>
    refine wildcardAt_past ?_ (getElem?_of_drop shape 0) fun _ => ?_
    · rw [shape, Parser.startsQualifiedWildcard?]
    · rw [Token.isIdentifier, (Token.isEnd_iff _).1 isEnd]
      rfl
  | cons t ts =>
    have first : s.tokens[n]? = some t := getElem?_of_drop shape 0
    rw [bind_of_ok (look_token first)]
    by_cases name : t.isIdentifier
    · rw [if_pos name]
      exact wildcardAt_name isEnd shape name
    · rw [if_neg name]
      refine wildcardAt_answer ?_
      rw [shape, starts_of_not_name (Bool.eq_false_iff.2 name)]

/-- A lookahead through a dotted name stops among the tokens or right behind them. -/
theorem wildcardFrom_matches (rounds n : Nat) (shows : Shows limit b s)
    (among : n ≤ s.tokens.length) (enough : s.tokens.length < n + rounds) :
    Matches limit (wildcardFrom rounds n b) (wildcardAt n s) := by
  induction rounds generalizing n b s with
  | zero => omega
  | succ rounds ih =>
    rw [wildcardAt_eq n shows.isEnd, wildcardFrom]
    refine (peekAt_matches shows n).bind fun t b₁ s₁ looked shows₁ => ?_
    obtain ⟨rfl, -⟩ := Parser.peekAt_eq_ok looked
    split
    case isFalse => exact .ok shows₁
    refine (peekAt_matches shows₁ (n + 1)).bind fun dot b₂ s₂ looked' shows₂ => ?_
    obtain ⟨rfl, found⟩ := Parser.peekAt_eq_ok looked'
    split
    case isFalse => exact .ok shows₂
    rename_i isDot
    -- The dot is not the end of the input, so it is one of the tokens.
    have inside : n + 1 < s.tokens.length := by
      by_contra outside
      rw [List.getElem?_eq_none (by omega)] at found
      have isEnd := (Token.isEnd_iff _).1 shows.isEnd
      obtain rfl : s.finish = dot := found
      rw [isEnd] at isDot
      cases isDot
    refine (peekAt_matches shows₂ (n + 2)).bind fun u b₃ s₃ looked'' shows₃ => ?_
    obtain ⟨rfl, -⟩ := Parser.peekAt_eq_ok looked''
    split
    · exact .ok shows₃
    · exact ih (n + 2) shows₃ (by omega) (by omega)

theorem atQualifiedWildcard_matches (shows : Shows limit b s) :
    Matches limit (wildcardFrom limit 0 b) (Parser.atQualifiedWildcard s) := by
  rw [← wildcardAt_zero]
  exact wildcardFrom_matches limit 0 shows (Nat.zero_le _) (by simpa using shows.bounded)

/-- A loop whose steps consume tokens has fewer rounds than its limit. -/
theorem iterate_matches {step : α → Buffered (Option α)} {step' : α → Parser (Option α)}
    (hstep : ∀ a {b s}, Shows limit b s → Matches limit (step a b) (step' a s))
    (advances : Parser.Advances step') (rounds : Nat) (a : α) (shows : Shows limit b s)
    (enough : s.tokens.length < rounds) :
    Matches limit (iterate step rounds a b) (Parser.iterate step' a s) := by
  induction rounds generalizing a b s with
  | zero => omega
  | succ rounds ih =>
    rw [Parser.iterate_eq advances a shows.isEnd, iterate]
    refine (hstep a shows).bind fun o b' s' stepped shows' => ?_
    cases o with
    | none => exact .ok shows'
    | some a' =>
      have fewer := (advances shows.isEnd stepped).2
      exact ih a' shows' (by omega)

end Buffered

end SqlSyntax
