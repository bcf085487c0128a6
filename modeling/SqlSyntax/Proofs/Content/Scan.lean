import SqlSyntax.Parser.Name

/-!
# What tokens say

The *content* of a list of tokens is what is left of them when everything is
dropped that could be written otherwise without saying anything else:
punctuation, keywords that only please the eye, the spelling of data types and
the case of `NULLS FIRST`.

Content is read off the tokens from the left to the right, with no tree and no
grammar but for data types. What a token says depends on where it stands, and
that is known from the parentheses around it, the token before it and a word or
two further back; a `Mode` has all of it.

Two things are written in one order and read in another: `LIMIT offset, count`
and the elements of a new table. A mode also knows whether one of them has been
met.
-/

namespace SqlSyntax.Content

/-- What one token says, or the tokens of one data type. -/
inductive Item where
  | keyword (keyword : Keyword)
  | operator (operator : Operator)
  | identifier (value : String)
  | number (text : String)
  | string (value : String)
  /-- `NULLS`, `FIRST` or `LAST` in capitals. -/
  | word (text : String)
  | type (type : DataType)
deriving DecidableEq, Repr

/-! ## Modes -/

/-- What is around a token. -/
inductive Frame where
  | plain
  /-- The parentheses of a `CAST`. -/
  | cast
  /-- What follows `CREATE TABLE`. -/
  | table
  /-- The parentheses after the name of a new table. -/
  | columns
  /-- What follows `ORDER`. -/
  | ordered
  /-- What follows `LIMIT`. -/
  | limited
deriving DecidableEq, Repr

/-- What has to come next. -/
inductive Expects where
  | nothing
  /-- A column with its data type, if it is not a constraint. -/
  | column
  | type
deriving DecidableEq, Repr

/-- What is known of the place of a token. -/
structure Mode where
  frame : Frame
  /-- The frames around the parentheses that are open, innermost first. -/
  outer : List Frame
  /-- The token right before. -/
  before : TokenKind
  expects : Expects
  /-- How many tokens still belong to a data type. -/
  skip : Nat
  /-- Whether a limit with a comma or the creation of a table was met. -/
  reordered : Bool
deriving DecidableEq, Repr

/-- At the start of a text. -/
def Mode.start : Mode := ⟨.plain, [], .endOfInput, .nothing, 0, false⟩

/-- Whether an expression of an `ORDER BY`, its direction included, can end with
a token of a kind. -/
def endsOperand : TokenKind → Bool
  | .identifier _ | .number | .string | .punctuation .closeParen | .keyword .NULL
  | .keyword .TRUE | .keyword .FALSE | .keyword .END | .keyword .ASC | .keyword .DESC => true
  | _ => false

/-- Keywords that can be left out, or written, without saying anything else. -/
def isNoise (before : TokenKind) : Keyword → Bool
  | .AS | .ASC | .INNER | .OUTER | .COLUMN | .OFFSET => true
  | .ALL => before == .keyword .SELECT
  | _ => false

/-- The words that can follow an expression of an `ORDER BY`. -/
def placementWords : List String := ["NULLS", "FIRST", "LAST"]

namespace Mode

/-- Whether a token is `NULLS`, `FIRST` or `LAST` after an expression of an
`ORDER BY`. -/
def isPlacement (m : Mode) (t : Token) : Bool :=
  m.frame == .ordered && endsOperand m.before && t.kind == .identifier .bare &&
    placementWords.contains (capitals t.text)

/-- What a token says that is not of a data type. -/
def items (m : Mode) (t : Token) : List Item :=
  match t.kind with
  | .keyword k => if isNoise m.before k then [] else [.keyword k]
  | .identifier _ =>
    if m.isPlacement t then [.word (capitals t.text)] else [.identifier t.value]
  | .number => [.number t.text]
  | .string => [.string t.value]
  | .operator o => [.operator o]
  | .punctuation _ | .endOfInput => []

/-- The frame of what stands in the parentheses that open here. -/
def inside (m : Mode) : Frame :=
  if m.frame = .table then .columns
  else if m.before = .keyword .CAST then .cast
  else .plain

/-- What is known after a token that is not of a data type. -/
def next (m : Mode) (t : Token) : Mode :=
  let now : Mode := { m with before := t.kind, expects := .nothing }
  match t.kind with
  | .keyword .ORDER => { now with frame := .ordered }
  | .keyword .LIMIT => { now with frame := .limited }
  | .keyword .TABLE =>
    if m.before = .keyword .CREATE then { now with frame := .table, reordered := true } else now
  | .keyword .ADD => { now with expects := .column }
  | .keyword .COLUMN => { now with expects := m.expects }
  | .keyword .AS => if m.frame = .cast then { now with expects := .type } else now
  | .identifier _ => if m.expects = .column then { now with expects := .type } else now
  | .punctuation .openParen =>
    { now with
      frame := m.inside, outer := m.frame :: m.outer
      expects := if m.frame = .table then .column else .nothing }
  | .punctuation .closeParen =>
    match m.outer with
    | f :: outer => { now with frame := f, outer := outer }
    | [] => now
  | .punctuation .comma =>
    match m.frame with
    | .limited => { now with reordered := true }
    | .columns => { now with expects := .column }
    | _ => now
  | _ => now

/-- The data type that starts here, if one is expected, and the number of its
tokens. -/
def dataType? (m : Mode) (tokens : List Token) : Option (DataType × Nat) :=
  if m.expects = .type then
    match Parser.dataType (.ofStream ⟨tokens, none⟩) with
    | .ok type s => some (type, tokens.length - s.tokens.length)
    | .error .. => none
  else none

end Mode

/-! ## Scanning -/

/-- What tokens say, and what is known after them. -/
def scan (m : Mode) : List Token → List Item × Mode
  | [] => ([], m)
  | t :: ts =>
    match m.skip, m.dataType? (t :: ts) with
    | n + 1, _ => scan { m with before := t.kind, skip := n } ts
    | 0, some (type, n) =>
      let r := scan { m with before := t.kind, expects := .nothing, skip := n - 1 } ts
      (.type type :: r.1, r.2)
    | 0, none =>
      let r := scan (m.next t) ts
      (m.items t ++ r.1, r.2)

end SqlSyntax.Content

namespace SqlSyntax

/-- What the tokens of a text say. -/
def contentTokens (tokens : List Token) : List Content.Item :=
  (Content.scan .start tokens).1

/-- Whether tokens have a limit with a comma or create a table. -/
def reorders (tokens : List Token) : Bool :=
  (Content.scan .start tokens).2.reordered

end SqlSyntax
