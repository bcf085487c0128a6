import SqlSyntax.Error
import SqlSyntax.Token
import SqlSyntax.Unicode.WhiteSpace
import SqlSyntax.Word

/-!
# Lexemes and gaps

How long the next token is. Every function here looks at the characters ahead
and answers with a *number of characters*: what is read is then `take` of that
number and what is left is `drop` of it, so that nothing can be lost or read
twice. Positions play no part.

A text is a sequence of gaps and lexemes. A gap is a run of white space, a
line comment or a block comment; `gapLength` and `scan` are told the first
character apart from the rest and count the characters after it, so a gap or
a lexeme is never empty.

Block comments do not nest. A backslash in a string literal hides the
character after it, and a doubled quote does not end the token it stands in.
-/

namespace SqlSyntax.Lexeme

/-! ## Gaps -/

/-- Characters of a line comment from here to its end, the line feed included
if there is one. -/
def lineLength (cs : List Char) : Nat :=
  let n := (cs.takeWhile (· ≠ '\n')).length
  match cs.drop n with
  | [] => n
  | _ :: _ => n + 1

/-- Characters of a block comment through its end, when `n` are read and the
given ones follow. -/
def commentLength (n : Nat) : List Char → Option Nat
  | [] => none
  | '*' :: '/' :: _ => some (n + 2)
  | _ :: r => commentLength (n + 1) r

/-- The gap that starts with `c`, as the number of its characters among those
that follow, if one starts there. -/
def gapLength (c : Char) (r : List Char) : Except LexFault (Option Nat) :=
  if Unicode.isWhiteSpace c then .ok (some (r.takeWhile Unicode.isWhiteSpace).length)
  else
    match c, r with
    | '-', '-' :: r => .ok (some (1 + lineLength r))
    | '/', '*' :: r =>
      match commentLength 1 r with
      | some n => .ok (some n)
      | none => .error .unterminatedComment
    | _, _ => .ok none

/-! ## Quoted tokens -/

/-- Characters of a string literal through its closing quote, when `n` are
read and the given ones follow. -/
def stringLength (n : Nat) : List Char → Option Nat
  | [] => none
  | '\'' :: '\'' :: r => stringLength (n + 2) r
  | '\'' :: _ => some (n + 1)
  | ['\\'] => none
  | '\\' :: _ :: r => stringLength (n + 2) r
  | _ :: r => stringLength (n + 1) r

/-- Characters of an identifier in quotes `q` through its closing quote, when
`n` are read and the given ones follow. -/
def quotedLength (q : Char) (n : Nat) : List Char → Option Nat
  | [] => none
  | [c] => if c = q then some (n + 1) else none
  | c :: d :: r =>
    if c = q then
      if d = q then quotedLength q (n + 2) r else some (n + 1)
    else quotedLength q (n + 1) (d :: r)

/-! ## Numbers -/

/-- Length of the run of ASCII digits. -/
def digitsLength (cs : List Char) : Nat := (cs.takeWhile Char.isDigit).length

/-- Length of a point and the digits after it. -/
def fractionLength : List Char → Nat
  | '.' :: r => 1 + digitsLength r
  | _ => 0

/-- Length of an exponent. Its letter counts only together with a digit,
which a sign may precede. -/
def exponentLength : List Char → Nat
  | [] => 0
  | c :: r =>
    if c = 'e' ∨ c = 'E' then
      let sign := match r with
        | '+' :: _ | '-' :: _ => 1
        | _ => 0
      match digitsLength (r.drop sign) with
      | 0 => 0
      | digits => 1 + sign + digits
    else 0

/-- Length of the longest number: digits with an optional point among or
around them, and an optional exponent. -/
def numberLength (cs : List Char) : Nat :=
  let whole := digitsLength cs
  let mantissa := whole + fractionLength (cs.drop whole)
  mantissa + exponentLength (cs.drop mantissa)

/-- Whether a number starts here. -/
def startsNumber (c : Char) (r : List Char) : Bool :=
  c.isDigit || c == '.' && r.head?.any Char.isDigit

/-- A number is refused when a word runs on right behind it. -/
def scanNumber (c : Char) (r : List Char) : Except LexFault (TokenKind × Nat) :=
  let n := numberLength (c :: r)
  let run := (((c :: r).drop n).takeWhile isWordChar).length
  if run = 0 then .ok (.number, n - 1)
  else .error (.invalidNumber (String.ofList ((c :: r).take (n + run))))

/-! ## Words and symbols -/

/-- A keyword or an identifier without quotes. -/
def scanWord (c : Char) (r : List Char) : TokenKind × Nat :=
  let tail := r.takeWhile isWordChar
  match Keyword.ofText? (String.ofList (c :: tail)) with
  | some keyword => (.keyword keyword, tail.length)
  | none => (.identifier .bare, tail.length)

/-- An operator or a punctuation mark, the longest that fits. -/
def scanSymbol (c : Char) (r : List Char) : Option (TokenKind × Nat) :=
  match c, r.head? with
  | '(', _ => some (.punctuation .openParen, 0)
  | ')', _ => some (.punctuation .closeParen, 0)
  | ',', _ => some (.punctuation .comma, 0)
  | ';', _ => some (.punctuation .semicolon, 0)
  | '.', _ => some (.punctuation .dot, 0)
  | '=', _ => some (.operator .equal, 0)
  | '<', some '=' => some (.operator .lessEqual, 1)
  | '<', some '>' => some (.operator .notEqual, 1)
  | '<', _ => some (.operator .less, 0)
  | '>', some '=' => some (.operator .greaterEqual, 1)
  | '>', _ => some (.operator .greater, 0)
  | '!', some '=' => some (.operator .notEqual, 1)
  | '|', some '|' => some (.operator .concat, 1)
  | '+', _ => some (.operator .plus, 0)
  | '-', _ => some (.operator .minus, 0)
  | '*', _ => some (.operator .times, 0)
  | '/', _ => some (.operator .divide, 0)
  | '%', _ => some (.operator .modulo, 0)
  | _, _ => none

/-! ## The next lexeme -/

/-- Kind of the lexeme that starts with `c`, and the number of its characters
among those that follow. -/
def scan (c : Char) (r : List Char) : Except LexFault (TokenKind × Nat) :=
  if c = '\'' then
    match stringLength 0 r with
    | some n => .ok (.string, n)
    | none => .error .unterminatedString
  else if c = '"' then
    match quotedLength c 0 r with
    | some n => .ok (.identifier .double, n)
    | none => .error .unterminatedQuotedIdentifier
  else if c = '\x60' then
    match quotedLength c 0 r with
    | some n => .ok (.identifier .backquote, n)
    | none => .error .unterminatedQuotedIdentifier
  else if startsNumber c r then scanNumber c r
  else if isWordStart c then .ok (scanWord c r)
  else
    match scanSymbol c r with
    | some found => .ok found
    | none => .error (.unexpectedCharacter c)

example : numberLength "1.e5x".toList = 4 ∧ numberLength "1e+".toList = 1
    ∧ numberLength ".5.".toList = 2 := by decide

end SqlSyntax.Lexeme
