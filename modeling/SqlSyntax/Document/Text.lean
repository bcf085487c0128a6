import SqlSyntax.Document.Basic
import SqlSyntax.Number.Shortest

/-!
# The text of a document

Documents are written as JSON, either without any blanks or with one field or
item to a line, each level indented by two spaces.

In a string the quote and the backslash are escaped by a backslash, the
control characters by their letter where they have one and else by four
hexadecimal digits; everything else stands for itself.

A floating point number is written with the fewest digits that read back. It
is positional, with a digit on both sides of the point, as long as the first
digit has an exponent from -5 to 15, and scientific beyond that, with a sign
in the exponent and a point only where digits follow it.
-/

namespace SqlSyntax

/-! ## Strings -/

/-- A hexadecimal digit in lower case. -/
def hexDigit (n : Nat) : Char := if n < 10 then Char.ofNat (48 + n) else Char.ofNat (87 + n)

/-- A character inside a string. -/
def escapeChar (c : Char) : List Char :=
  if c = '"' then ['\\', '"']
  else if c = '\\' then ['\\', '\\']
  else if c.toNat = 8 then ['\\', 'b']
  else if c.toNat = 9 then ['\\', 't']
  else if c.toNat = 10 then ['\\', 'n']
  else if c.toNat = 12 then ['\\', 'f']
  else if c.toNat = 13 then ['\\', 'r']
  else if c.toNat < 0x20 then
    ['\\', 'u', '0', '0', hexDigit (c.toNat / 16), hexDigit (c.toNat % 16)]
  else [c]

/-- A string in quotes. -/
def jsonString (s : String) : String :=
  String.ofList ('"' :: s.toList.flatMap escapeChar ++ ['"'])

/-! ## Numbers -/

/-- Zeros to put before or after digits. -/
def zeros (n : Nat) : List Char := List.replicate n '0'

/-- The digits of a number without the zeros at its end. -/
def significantDigits (n : Nat) : List Char :=
  ((Nat.repr n).toList.reverse.dropWhile (· == '0')).reverse

/-- Digits with a point behind the first `n`, where `n` is positive. -/
def withPoint (ds : List Char) (n : Nat) : List Char :=
  let fraction := ds.drop n
  ds.take n ++ zeros (n - ds.length) ++ '.' :: (if fraction.isEmpty then ['0'] else fraction)

/-- A decimal whose first digit has the exponent `order`. -/
def positional (ds : List Char) (order : Int) : List Char :=
  if 0 ≤ order then withPoint ds (order.toNat + 1)
  else '0' :: '.' :: zeros ((-order).toNat - 1) ++ ds

/-- A decimal in scientific notation. -/
def scientific (ds : List Char) (order : Int) : List Char :=
  let mantissa := match ds with
    | first :: c :: rest => first :: '.' :: c :: rest
    | _ => ds
  let sign := if 0 ≤ order then '+' else '-'
  mantissa ++ 'e' :: sign :: (Nat.repr order.natAbs).toList

/-- A floating point number. -/
def Binary64.text (b : Binary64) : String :=
  if b.significand = 0 then "0.0"
  else
    let d := b.shortest
    let ds := significantDigits d.digits
    let order : Int := d.exponent + digitCount d.digits - 1
    String.ofList
      (if -5 ≤ order ∧ order ≤ 15 then positional ds order else scientific ds order)

/-! ## Documents -/

namespace Document

mutual

/-- The text without blanks. -/
def compact : Document → String
  | null => "null"
  | bool true => "true"
  | bool false => "false"
  | int n => toString n
  | double b => b.text
  | string s => jsonString s
  | array items => "[" ++ ",".intercalate (compactItems items) ++ "]"
  | object fields => "\x7b" ++ ",".intercalate (compactFields fields) ++ "\x7d"

def compactItems : List Document → List String
  | [] => []
  | d :: ds => d.compact :: compactItems ds

def compactFields : List (String × Document) → List String
  | [] => []
  | (k, d) :: fields => (jsonString k ++ ":" ++ d.compact) :: compactFields fields

end

/-- A new line with `level` steps of indentation. -/
def newLine (level : Nat) : String := "\n" ++ String.ofList (List.replicate (2 * level) ' ')

/-- What stands between two brackets, each entry on a line of its own. -/
def block (level : Nat) (opening closing : String) (entries : List String) : String :=
  if entries.isEmpty then opening ++ closing
  else
    opening ++ newLine (level + 1) ++ ("," ++ newLine (level + 1)).intercalate entries
      ++ newLine level ++ closing

mutual

/-- The text with one field or item to a line, for a document that starts at
the given level of indentation. -/
def prettyAt (level : Nat) : Document → String
  | null => "null"
  | bool true => "true"
  | bool false => "false"
  | int n => toString n
  | double b => b.text
  | string s => jsonString s
  | array items => block level "[" "]" (prettyItems (level + 1) items)
  | object fields => block level "\x7b" "\x7d" (prettyFields (level + 1) fields)

def prettyItems (level : Nat) : List Document → List String
  | [] => []
  | d :: ds => d.prettyAt level :: prettyItems level ds

def prettyFields (level : Nat) : List (String × Document) → List String
  | [] => []
  | (k, d) :: fields => (jsonString k ++ ": " ++ d.prettyAt level) :: prettyFields level fields

end

/-- The text with one field or item to a line. -/
def pretty (d : Document) : String := d.prettyAt 0

end Document

end SqlSyntax
