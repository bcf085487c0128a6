import SqlSyntax.Source

/-!
# Limits and errors

What can go wrong with a text: a token cannot be read (`LexError`), a token
stands where the grammar has no use for it (`ParseError`), or a limit on the
size of the input or on the nesting of its structure is exceeded.

Each error carries its cause as data; `Error.message` is its wording.

## Main results

* `ParseError.mem_expected_of` — the alternatives that an error lists are those
  it was given, sorted and without repetition.
* `Limits.checkInput_eq_ok_iff` — an input is let in exactly when it is not
  longer than the limit.
-/

namespace SqlSyntax

/-! ## Lexical errors -/

/-- Why no token can be read. -/
inductive LexFault where
  | unexpectedCharacter (c : Char)
  /-- A number that runs straight into a word; the text holds both. -/
  | invalidNumber (text : String)
  | unterminatedString
  | unterminatedQuotedIdentifier
  | unterminatedComment
deriving DecidableEq, Repr

def LexFault.describe : LexFault → String
  | .unexpectedCharacter c => "Unexpected character '" ++ String.singleton c ++ "'"
  | .invalidNumber text => "Invalid numeric literal '" ++ text ++ "'"
  | .unterminatedString => "String literal not closed"
  | .unterminatedQuotedIdentifier => "Quoted identifier not closed"
  | .unterminatedComment => "Block comment not closed"

/-- A fault, and where the token or comment starts that has it. -/
structure LexError where
  fault : LexFault
  position : Position
deriving DecidableEq, Repr

def LexError.message (e : LexError) : String :=
  e.fault.describe ++ " at " ++ e.position.describe

/-! ## Syntax errors -/

inductive ParseFault where
  | unexpectedToken
  | expectedEndOfInput
  | invalidLiteral
deriving DecidableEq, Repr

def ParseFault.describe : ParseFault → String
  | .unexpectedToken => "Unexpected token"
  | .expectedEndOfInput => "Unexpected trailing token"
  | .invalidLiteral => "Invalid literal"

/-- A token that does not fit. -/
structure ParseError where
  fault : ParseFault
  position : Position
  /-- The token as it was written. -/
  found : String
  /-- What would have been accepted in its place, sorted and without
  repetition. -/
  expected : List String
deriving DecidableEq, Repr

namespace ParseError

/-- Leaves one of each run of equal neighbours. -/
def dropRepeats : List String → List String
  | [] => []
  | [a] => [a]
  | a :: b :: r => if a = b then dropRepeats (b :: r) else a :: dropRepeats (b :: r)

/-- Sorts the alternatives by code point and leaves one of each. -/
def sortExpected (expected : List String) : List String :=
  dropRepeats (expected.mergeSort fun a b => decide (a ≤ b))

theorem mem_dropRepeats {x : String} {l : List String} : x ∈ dropRepeats l ↔ x ∈ l := by
  fun_induction dropRepeats l with
  | case1 => rfl
  | case2 => rfl
  | case3 b r ih => simp [ih]
  | case4 a b r _ ih => simp [ih]

/-- An error with the alternatives in order. -/
def of (fault : ParseFault) (position : Position) (found : String)
    (expected : List String) : ParseError :=
  ⟨fault, position, found, sortExpected expected⟩

theorem mem_expected_of {x : String} {fault : ParseFault} {position : Position}
    {found : String} {expected : List String} :
    x ∈ (of fault position found expected).expected ↔ x ∈ expected :=
  mem_dropRepeats.trans List.mem_mergeSort

/-- The alternatives as the end of a sentence. -/
def describeExpected : List String → String
  | [] => ""
  | [only] => ". Expected " ++ only
  | several =>
    ". Expected one of " ++ ", ".intercalate several.dropLast
      ++ ", or " ++ several.getLast?.getD ""

def message (e : ParseError) : String :=
  e.fault.describe ++ " " ++ e.found ++ " at " ++ e.position.describe
    ++ describeExpected e.expected

end ParseError

/-! ## Errors -/

inductive Error where
  | lex (error : LexError)
  | parse (error : ParseError)
  /-- The input has `size` bytes where at most `max` are allowed. -/
  | inputTooLarge (size max : Nat)
  /-- The structure at `position` nests deeper than `max` levels. -/
  | nestingTooDeep (max : Nat) (position : Position)
deriving DecidableEq, Repr

namespace Error

/-- Stable name of the class that an error belongs to. -/
def kind : Error → String
  | .lex _ => "LexError"
  | .parse _ => "ParseError"
  | .inputTooLarge .. | .nestingTooDeep .. => "ResourceLimitExceeded"

/-- An input that is too large is refused before any character is read. -/
def position? : Error → Option Position
  | .lex e => some e.position
  | .parse e => some e.position
  | .inputTooLarge .. => none
  | .nestingTooDeep _ p => some p

/-- What would have been accepted at the place of the error. -/
def expected : Error → List String
  | .parse e => e.expected
  | _ => []

def message : Error → String
  | .lex e => e.message
  | .parse e => e.message
  | .inputTooLarge size max =>
    "Resource limit exceeded. Input is " ++ toString size ++ " bytes, maximum is "
      ++ toString max ++ "."
  | .nestingTooDeep max p =>
    "Resource limit exceeded. Nesting deeper than " ++ toString max ++ " levels at "
      ++ p.describe ++ "."

end Error

/-! ## Limits -/

/-- Bounds on what is parsed. -/
structure Limits where
  /-- Most bytes that an input may have. -/
  maxInputBytes : Nat := 1048576
  /-- Most levels of nested expressions and queries. -/
  maxDepth : Nat := 64
deriving DecidableEq, Repr

/-- Refuses an input over the size limit. -/
def Limits.checkInput (limits : Limits) (input : String) : Except Error Unit :=
  if limits.maxInputBytes < input.utf8ByteSize then
    .error (.inputTooLarge input.utf8ByteSize limits.maxInputBytes)
  else .ok ()

theorem Limits.checkInput_eq_ok_iff {limits : Limits} {input : String} :
    limits.checkInput input = .ok () ↔ input.utf8ByteSize ≤ limits.maxInputBytes := by
  unfold checkInput
  split <;> simp <;> omega

end SqlSyntax
