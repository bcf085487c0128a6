import SqlSyntax.Error
import SqlSyntax.Token.Stream

/-!
# Parsers

A parser works on a stream of tokens that it looks at and consumes one by one.
Its state outlives a failure, so that a caller can go on after one.

* The end of the input is never consumed: once it is reached, every look sees
  it. A stream that does not end with such a token gets one, placed right
  behind its last token.
* The error that stopped the lexer is raised by the first look past the last
  token, and by no later one.
* Whatever a parser probes for without finding it is noted as expected, until
  a token is consumed. A syntax error takes the notes away with it.

`iterate` is the only loop. Its steps consume tokens, and the tokens at hand
when it starts bound their number, so it ends on every input.
-/

namespace SqlSyntax

/-- What can be accepted at a place. -/
inductive Expectation where
  | keyword (keyword : Keyword)
  | operator (operator : Operator)
  | punctuation (punctuation : Punctuation)
  /-- A word that has a meaning at this place only. -/
  | word (text : String)
  | identifier
  | number
  | string
  | dataType
  | endOfInput
deriving DecidableEq, Repr

def Expectation.describe : Expectation → String
  | .keyword k => k.text
  | .operator o => "'" ++ o.symbol ++ "'"
  | .punctuation p => "'" ++ p.symbol ++ "'"
  | .word text => text
  | .identifier => "identifier"
  | .number => "number"
  | .string => "string"
  | .dataType => "data type"
  | .endOfInput => "end of input"

/-- The end of the input right behind a token, or the token itself if it is
one. -/
def Token.endAfter (t : Token) : Token :=
  if t.isEnd then t
  else
    ⟨.endOfInput, "", ⟨t.span.stop, t.span.stop⟩,
      ⟨t.position.line, t.position.column + t.text.length, t.span.stop⟩⟩

/-- The end of the input that follows the given tokens. -/
def Token.endOf (tokens : List Token) : Token :=
  match tokens.getLast? with
  | some t => t.endAfter
  | none => ⟨.endOfInput, "", ⟨0, 0⟩, .origin⟩

/-- Where a parser stands. -/
structure ParserState where
  /-- Tokens that are not consumed. -/
  tokens : List Token
  /-- Error to be raised by the first look past them. -/
  failure : Option LexError
  /-- What every later look past them sees. -/
  finish : Token
  /-- The token that was consumed last. -/
  last : Option Span
  /-- What was probed for since then, latest first. -/
  expected : List Expectation

def ParserState.ofStream (s : TokenStream) : ParserState :=
  ⟨s.tokens, s.failure, Token.endOf s.tokens, none, []⟩

abbrev Parser := EStateM Error ParserState

namespace Parser

/-! ## Looking and consuming -/

/-- The token number `n` among those not consumed. -/
def peekAt (n : Nat) : Parser Token := fun s =>
  match s.tokens[n]? with
  | some t => .ok t s
  | none =>
    match s.failure with
    | some e => .error (.lex e) { s with failure := none }
    | none => .ok s.finish s

/-- The next token. -/
def peek : Parser Token := peekAt 0

/-- Consumes the next token, unless it is the end of the input. -/
def next : Parser Token := do
  let t ← peek
  unless t.isEnd do
    modify fun s => { s with tokens := s.tokens.tail, last := some t.span, expected := [] }
  return t

/-- Notes what would be accepted here. -/
def note (es : List Expectation) : Parser Unit :=
  modify fun s => { s with expected := es.reverse ++ s.expected }

/-- From the start of `start` to the end of the token that was consumed last. -/
def spanFrom (start : Span) : Parser Span := fun s =>
  match s.last with
  | some last => .ok ⟨start.start, max last.stop start.stop⟩ s
  | none => .ok start s

/-! ## Failing -/

/-- Fails at a token, listing what is noted. -/
def failAt {α : Type} (fault : ParseFault) (t : Token) : Parser α := fun s =>
  .error (.parse (.of fault t.position t.describe (s.expected.reverse.map Expectation.describe)))
    { s with expected := [] }

/-- Fails at the next token. -/
def unexpected {α : Type} : Parser α := do
  failAt .unexpectedToken (← peek)

/-- Fails at the next token because `max` levels of nesting are used up. -/
def tooDeep {α : Type} (max : Nat) : Parser α := do
  let t ← peek
  throw (.nestingTooDeep max t.position)

/-! ## Probing -/

/-- Consumes the next token if it is what is accepted here, and else notes
what is. -/
def probe (accepts : Token → Bool) (e : Expectation) : Parser (Option Span) := do
  let t ← peek
  if accepts t then
    return some (← next).span
  else
    note [e]
    return none

def keyword? (k : Keyword) : Parser (Option Span) :=
  probe (fun t => t.kind == .keyword k) (.keyword k)

def operator? (o : Operator) : Parser (Option Span) :=
  probe (fun t => t.kind == .operator o) (.operator o)

def punctuation? (p : Punctuation) : Parser (Option Span) :=
  probe (fun t => t.kind == .punctuation p) (.punctuation p)

/-- A bare identifier that spells `text`, the case of ASCII letters aside.
The text itself is in capitals. -/
def word? (text : String) : Parser (Option Span) :=
  probe (fun t => t.kind == .identifier .bare && capitals t.text == text) (.word text)

/-- What a probe found, or a failure at the next token. -/
def require (probe : Parser (Option Span)) : Parser Span := do
  match ← probe with
  | some span => return span
  | none => unexpected

def keyword (k : Keyword) : Parser Span := require (keyword? k)

def operator (o : Operator) : Parser Span := require (operator? o)

def punctuation (p : Punctuation) : Parser Span := require (punctuation? p)

/-- Accepts the end of the input only. -/
def endOfInput : Parser Unit := do
  let t ← peek
  unless t.isEnd do
    note [.endOfInput]
    failAt .expectedEndOfInput t

/-! ## Repeating -/

/-- Repeats a step, each time on the result of the last, until it has none;
`budget` holds a token for each step after the first. -/
def iterateWithin {α : Type} (step : α → Parser (Option α)) : List Token → α → Parser α
  | [], a => do
    match ← step a with
    | none => return a
    | some b => return b
  | _ :: budget, a => do
    match ← step a with
    | none => return a
    | some b => iterateWithin step budget b

/-- Repeats a step, each time on the result of the last, until it has none. A
step consumes a token, so there are no more of them than there are tokens. -/
def iterate {α : Type} (step : α → Parser (Option α)) (a : α) : Parser α := fun s =>
  iterateWithin step s.tokens a s

/-- One or more items with commas between them. -/
def commaSeparated {α : Type} (item : Parser α) : Parser (List α) := do
  let first ← item
  let others ← iterate (fun items => do
    match ← punctuation? .comma with
    | some _ => return some ((← item) :: items)
    | none => return none) []
  return first :: others.reverse

/-- What stands between parentheses. -/
def parenthesized {α : Type} (inner : Parser α) : Parser α := do
  let _ ← punctuation .openParen
  let a ← inner
  let _ ← punctuation .closeParen
  return a

end Parser

end SqlSyntax
