import SqlSyntax.Token
import SqlSyntax.Tree.Name
import SqlSyntax.Word

/-!
# Pieces of canonical SQL

Canonical SQL is a sequence of pieces: a single space, or what one token is
made of. The printers produce pieces and `render` joins their texts, so what
is printed can be compared with tokens as well as with characters.

Keywords are in capitals. An identifier has double quotes only where the bare
text would not be read as the same identifier, and a string escapes quotes and
backslashes and nothing else.
-/

namespace SqlSyntax

inductive Piece where
  | space
  | keyword (keyword : Keyword)
  /-- A word with a meaning in one position only, such as the name of a type. -/
  | word (text : String)
  | identifier (value : String)
  | number (text : String)
  | string (value : String)
  | operator (operator : Operator)
  | punctuation (punctuation : Punctuation)
deriving DecidableEq, Repr

/-- An identifier as it is written. -/
def quoteIdentifier (value : String) : String :=
  if needsQuotes value then
    String.ofList ('"' :: Quoted.double '"' value.toList ++ ['"'])
  else value

/-- A string literal as it is written. -/
def quoteString (value : String) : String :=
  String.ofList ('\'' :: Quoted.escape value.toList ++ ['\''])

def Piece.text : Piece → String
  | .space => " "
  | .keyword k => k.text
  | .word text => text
  | .identifier value => quoteIdentifier value
  | .number text => text
  | .string value => quoteString value
  | .operator o => o.symbol
  | .punctuation p => p.symbol

/-- The text that a sequence of pieces makes. -/
def render (pieces : List Piece) : String := String.join (pieces.map Piece.text)

namespace Piece

/-- Joins lists of pieces with a separator between neighbours. -/
def separated (separator : List Piece) (items : List (List Piece)) : List Piece :=
  (items.intersperse separator).flatten

def commaSeparated (items : List (List Piece)) : List Piece :=
  separated [.punctuation .comma, .space] items

def spaceSeparated (items : List (List Piece)) : List Piece := separated [.space] items

/-- Pieces between parentheses. -/
def parenthesized (inner : List Piece) : List Piece :=
  .punctuation .openParen :: inner ++ [.punctuation .closeParen]

/-- Keywords with a space between neighbours. -/
def keywords (ks : List Keyword) : List Piece :=
  spaceSeparated (ks.map fun k => [.keyword k])

end Piece

/-! ## Leaves of the syntax tree -/

def Identifier.pieces (i : Identifier) : List Piece := [.identifier i.value]

def QualifiedName.pieces (n : QualifiedName) : List Piece :=
  Piece.separated [.punctuation .dot] (n.parts.map Identifier.pieces)

/-- Columns in parentheses. -/
def columnPieces (columns : List Identifier) : List Piece :=
  Piece.parenthesized (Piece.commaSeparated (columns.map Identifier.pieces))

/-- `AS alias` behind a space, if there is an alias. -/
def aliasPieces : Option Identifier → List Piece
  | none => []
  | some a => [.space, .keyword .AS, .space] ++ a.pieces

def Literal.piece : Literal → Piece
  | .number text => .number text
  | .string value => .string value
  | .boolean true => .keyword .TRUE
  | .boolean false => .keyword .FALSE
  | .null => .keyword .NULL

def UnaryOperator.piece : UnaryOperator → Piece
  | .not => .keyword .NOT
  | .minus => .operator .minus
  | .plus => .operator .plus

def BinaryOperator.piece : BinaryOperator → Piece
  | .or => .keyword .OR
  | .and => .keyword .AND
  | .equal => .operator .equal
  | .notEqual => .operator .notEqual
  | .less => .operator .less
  | .lessEqual => .operator .lessEqual
  | .greater => .operator .greater
  | .greaterEqual => .operator .greaterEqual
  | .plus => .operator .plus
  | .minus => .operator .minus
  | .concat => .operator .concat
  | .times => .operator .times
  | .divide => .operator .divide
  | .modulo => .operator .modulo

def TruthTest.keyword : TruthTest → Keyword
  | .null => .NULL
  | .true => .TRUE
  | .false => .FALSE

def SetOperator.keyword : SetOperator → Keyword
  | .union => .UNION
  | .intersect => .INTERSECT
  | .except => .EXCEPT

def JoinKind.keyword : JoinKind → Keyword
  | .inner => .INNER
  | .left => .LEFT
  | .right => .RIGHT
  | .full => .FULL
  | .cross => .CROSS

def Direction.keyword : Direction → Keyword
  | .ascending => .ASC
  | .descending => .DESC

/-- The word after `NULLS`. -/
def NullsPlacement.word : NullsPlacement → String
  | .first => "FIRST"
  | .last => "LAST"

def ObjectKind.keyword : ObjectKind → Keyword
  | .table => .TABLE
  | .index => .INDEX
  | .database => .DATABASE

/-- A length in parentheses. -/
def lengthPieces : Option Nat → List Piece
  | none => []
  | some n => Piece.parenthesized [.number (toString n)]

def DataType.pieces : DataType → List Piece
  | .int => [.word "INT"]
  | .bigInt => [.word "BIGINT"]
  | .smallInt => [.word "SMALLINT"]
  | .float => [.word "FLOAT"]
  | .double => [.word "DOUBLE"]
  | .decimal => [.word "DECIMAL"]
  | .decimalOf precision none => .word "DECIMAL" :: lengthPieces (some precision)
  | .decimalOf precision (some scale) =>
    .word "DECIMAL" :: Piece.parenthesized
      (Piece.commaSeparated [[.number (toString precision)], [.number (toString scale)]])
  | .char length => .word "CHAR" :: lengthPieces length
  | .varchar length => .word "VARCHAR" :: lengthPieces length
  | .text => [.word "TEXT"]
  | .boolean => [.word "BOOLEAN"]
  | .date => [.word "DATE"]
  | .time => [.word "TIME"]
  | .timestamp => [.word "TIMESTAMP"]

end SqlSyntax
