import SqlSyntax.Keyword
import SqlSyntax.Source
import SqlSyntax.Text.Quoted

/-!
# Tokens

A token is a piece of SQL text with a meaning: its kind, the text as it was
written, the bytes that it covers and the position of its first character.
White space and comments belong to no token. The end of the input is a token
too, with an empty text, so that an error there has a place.

`Token.value` is what a string literal or an identifier stands for, once its
quotes and escapes are resolved.
-/

namespace SqlSyntax

/-- Symbols that stand between or before operands. -/
inductive Operator where
  | equal | notEqual | less | lessEqual | greater | greaterEqual
  | plus | minus | times | divide | modulo | concat
deriving DecidableEq, Repr

/-- The symbol in its canonical spelling; `<>` has a second one, `!=`. -/
def Operator.symbol : Operator → String
  | .equal => "="
  | .notEqual => "<>"
  | .less => "<"
  | .lessEqual => "<="
  | .greater => ">"
  | .greaterEqual => ">="
  | .plus => "+"
  | .minus => "-"
  | .times => "*"
  | .divide => "/"
  | .modulo => "%"
  | .concat => "||"

/-- Symbols that group and separate. -/
inductive Punctuation where
  | openParen | closeParen | comma | semicolon | dot
deriving DecidableEq, Repr

def Punctuation.symbol : Punctuation → String
  | .openParen => "("
  | .closeParen => ")"
  | .comma => ","
  | .semicolon => ";"
  | .dot => "."

/-- How an identifier was written. -/
inductive QuoteStyle where
  /-- A word without quotes. -/
  | bare
  /-- In double quotes. -/
  | double
  /-- In backquotes. -/
  | backquote
deriving DecidableEq, Repr

/-- The character that opens and closes an identifier of this style. -/
def QuoteStyle.quote? : QuoteStyle → Option Char
  | .bare => none
  | .double => some '"'
  | .backquote => some '\x60'

inductive TokenKind where
  | keyword (keyword : Keyword)
  | identifier (style : QuoteStyle)
  | number
  | string
  | operator (operator : Operator)
  | punctuation (punctuation : Punctuation)
  | endOfInput
deriving DecidableEq, Repr

structure Token where
  kind : TokenKind
  /-- The text as written, quotes included. -/
  text : String
  span : Span
  /-- Where the first character stands. -/
  position : Position
deriving DecidableEq, Repr

namespace Token

/-- What stands between the quotes of a quoted token. -/
def body (t : Token) : List Char := (t.text.toList.drop 1).dropLast

/-- The text that a token stands for: that of a string literal or a quoted
identifier without quotes and escapes, that of any other token as written. -/
def value (t : Token) : String :=
  match t.kind with
  | .string => String.ofList (Quoted.unescape t.body)
  | .identifier style =>
    match style.quote? with
    | some q => String.ofList (Quoted.undouble q t.body)
    | none => t.text
  | _ => t.text

/-- How a token is named in messages. -/
def describe (t : Token) : String :=
  match t.kind with
  | .endOfInput => "end of input"
  | _ => t.text

def isEnd (t : Token) : Bool := t.kind == .endOfInput

/-- Whether a token is an identifier, quoted or not. -/
def isIdentifier (t : Token) : Bool :=
  match t.kind with
  | .identifier _ => true
  | _ => false

end Token

end SqlSyntax
