import SqlSyntax.Number.Power
import SqlSyntax.Parser.Basic
import SqlSyntax.Text.Digits
import SqlSyntax.Tree.Name

/-!
# Parsing names and data types

The parts of the grammar that hold no expression.
-/

namespace SqlSyntax.Parser

/-! ## Names -/

def identifier : Parser Identifier := do
  let t ← peek
  if t.isIdentifier then
    let _ ← next
    return ⟨t.span, t.value⟩
  else
    note [.identifier]
    unexpected

/-- Whether a dot comes next that is not that of a `.*`. -/
def atNameDot : Parser Bool := do
  if (← peek).kind == .punctuation .dot then
    return (← peekAt 1).kind != .operator .times
  else
    return false

/-- `name.name...`, stopping before a `.*`. -/
def qualifiedName : Parser QualifiedName := do
  let first ← identifier
  let (before, base) ← iterate (fun (before, base) => do
    if ← atNameDot then
      let _ ← next
      return some (base :: before, ← identifier)
    else
      return none) ([], first)
  return ⟨first.span.union base.span, before.reverse, base⟩

/-- `(name, ...)` -/
def columnList : Parser (List Identifier) := parenthesized (commaSeparated identifier)

/-- `[AS] alias`. Without `AS` only an identifier is taken, so that the
keywords that can follow are left alone. -/
def alias? : Parser (Option Identifier) := do
  match ← keyword? .AS with
  | some _ => return some (← identifier)
  | none =>
    if (← peek).isIdentifier then
      return some (← identifier)
    else
      note [.identifier]
      return none

/-! ## Data types -/

/-- Largest length, precision or scale of a data type. -/
def maxLength : Nat := twoPow 32 - 1

/-- A length, precision or scale. -/
def length : Parser Nat := do
  let t ← peek
  if t.kind == .number then
    match Digits.valueUpTo maxLength t.text with
    | some n =>
      let _ ← next
      return n
    | none => failAt .invalidLiteral t
  else
    note [.number]
    unexpected

/-- What can follow the name of a data type. -/
inductive TypeForm where
  /-- Nothing. -/
  | plain (type : DataType)
  /-- The word `PRECISION`. -/
  | double
  /-- A precision, and perhaps a scale. -/
  | decimal
  /-- A length. -/
  | sized (type : Option Nat → DataType)

/-- The data type with the given name in capitals. -/
def typeNamed? : String → Option TypeForm
  | "INT" | "INTEGER" => some (.plain .int)
  | "BIGINT" => some (.plain .bigInt)
  | "SMALLINT" => some (.plain .smallInt)
  | "FLOAT" | "REAL" => some (.plain .float)
  | "DOUBLE" => some .double
  | "DECIMAL" | "NUMERIC" => some .decimal
  | "CHAR" | "CHARACTER" => some (.sized .char)
  | "VARCHAR" => some (.sized .varchar)
  | "TEXT" => some (.plain .text)
  | "BOOLEAN" | "BOOL" => some (.plain .boolean)
  | "DATE" => some (.plain .date)
  | "TIME" => some (.plain .time)
  | "TIMESTAMP" => some (.plain .timestamp)
  | _ => none

/-- What follows the name of a data type. -/
def typeTail : TypeForm → Parser DataType
  | .plain type => return type
  | .double => do
    let _ ← word? "PRECISION"
    return .double
  | .decimal => do
    match ← punctuation? .openParen with
    | none => return .decimal
    | some _ =>
      let precision ← length
      let scale ← do
        match ← punctuation? .comma with
        | some _ => pure (some (← length))
        | none => pure none
      let _ ← punctuation .closeParen
      return .decimalOf precision scale
  | .sized type => do
    match ← punctuation? .openParen with
    | none => return type none
    | some _ =>
      let n ← length
      let _ ← punctuation .closeParen
      return type (some n)

def dataType : Parser DataType := do
  let t ← peek
  let form? := if t.kind == .identifier .bare then typeNamed? (capitals t.text) else none
  match form? with
  | some form =>
    let _ ← next
    typeTail form
  | none =>
    note [.dataType]
    unexpected

end SqlSyntax.Parser
