import SqlSyntax.Parser.Nesting
import SqlSyntax.Tree.Statement

/-!
# Parsing statements and scripts

A text holds a single statement, with a semicolon after it or not, or a script
of statements with semicolons between them.

## Main definitions

* `parseStatement`, `parseScript` — from a text, within limits.
* `parseTokens` — from tokens that were read before.
* `Parser.wholeStatement`, `Parser.script` — on a parser that may have been
  used already.
-/

namespace SqlSyntax

namespace Parser

/-! ## Changes of the data -/

/-- Whether a query in parentheses comes next. -/
def atParenthesizedQuery : Parser Bool := do
  if (← peek).kind == .punctuation .openParen then
    return (← peekAt 1).kind == .keyword .SELECT
  else
    return false

/-- `(expr, ...)` -/
def row (sub : Nested) : Parser (List Expr) := parenthesized (commaSeparated sub.wholeExpr)

/-- Rows of values or a query without parentheses. -/
def insertSource (sub : Nested) : Parser InsertSource := do
  match ← keyword? .VALUES with
  | some _ => return .values (← commaSeparated (row sub))
  | none => sub.queryOr .query do
    note [.keyword .VALUES, .keyword .SELECT]
    unexpected

/-- The columns of an insertion, if they are listed. -/
def insertColumns : Parser (List Identifier) := do
  if (← peek).kind == .punctuation .openParen then
    columnList
  else
    note [.punctuation .openParen]
    return []

def insert (sub : Nested) : Parser Insert := do
  let start ← keyword .INSERT
  let _ ← keyword .INTO
  let table ← qualifiedName
  if ← atParenthesizedQuery then
    let q ← parenthesized sub.query
    return ⟨← spanFrom start, table, [], .query q⟩
  else
    let columns ← insertColumns
    let source ← insertSource sub
    return ⟨← spanFrom start, table, columns, source⟩

def assignment (sub : Nested) : Parser Assignment := do
  let column ← identifier
  let _ ← operator .equal
  let value ← sub.wholeExpr
  return ⟨← spanFrom column.span, column, value⟩

def update (sub : Nested) : Parser Update := do
  let start ← keyword .UPDATE
  let table ← qualifiedName
  let label ← alias?
  let _ ← keyword .SET
  let assignments ← commaSeparated (assignment sub)
  let condition ← conditionAfter? sub .WHERE
  return ⟨← spanFrom start, table, label, assignments, condition⟩

def delete (sub : Nested) : Parser Delete := do
  let start ← keyword .DELETE
  let _ ← keyword .FROM
  let table ← qualifiedName
  let label ← alias?
  let condition ← conditionAfter? sub .WHERE
  return ⟨← spanFrom start, table, label, condition⟩

/-! ## Changes of the schema -/

def columnOption? (sub : Nested) : Parser (Option ColumnOption) := do
  match (← peek).kind with
  | .keyword .NOT =>
    let _ ← next
    let _ ← keyword .NULL
    return some .notNull
  | .keyword .NULL =>
    let _ ← next
    return some .null
  | .keyword .PRIMARY =>
    let _ ← next
    let _ ← keyword .KEY
    return some .primaryKey
  | .keyword .UNIQUE =>
    let _ ← next
    return some .unique
  | .keyword .DEFAULT =>
    let _ ← next
    return some (.default (← sub.wholeExpr))
  | _ =>
    note [.keyword .NOT, .keyword .NULL, .keyword .PRIMARY, .keyword .UNIQUE, .keyword .DEFAULT]
    return none

def columnDefinition (sub : Nested) : Parser ColumnDefinition := do
  let name ← identifier
  let type ← dataType
  let options ← iterate (fun options => do
    match ← columnOption? sub with
    | some o => return some (o :: options)
    | none => return none) []
  return ⟨← spanFrom name.span, name, type, options.reverse⟩

/-- A constraint or a column of a new table. -/
def tableElement (sub : Nested) : Parser (TableConstraint ⊕ ColumnDefinition) := do
  let start := (← peek).span
  match ← keyword? .PRIMARY with
  | some _ =>
    let _ ← keyword .KEY
    let columns ← columnList
    return .inl (.primaryKey (← spanFrom start) columns)
  | none =>
    match ← keyword? .UNIQUE with
    | some _ =>
      let columns ← columnList
      return .inl (.unique (← spanFrom start) columns)
    | none => return .inr (← columnDefinition sub)

/-- `IF NOT EXISTS`, if it comes next. -/
def ifNotExists : Parser Bool := do
  match ← keyword? .IF with
  | some _ =>
    let _ ← keyword .NOT
    let _ ← keyword .EXISTS
    return true
  | none => return false

/-- What follows `CREATE TABLE`, when `CREATE` stands at `start`. -/
def createTable (sub : Nested) (start : Span) : Parser CreateTable := do
  let ifNotExists ← ifNotExists
  let name ← qualifiedName
  let elements ← parenthesized (commaSeparated (tableElement sub))
  return ⟨← spanFrom start, ifNotExists, name, elements.filterMap Sum.getRight?,
    elements.filterMap Sum.getLeft?⟩

def createDatabase (start : Span) : Parser CreateDatabase := do
  let name ← identifier
  return ⟨← spanFrom start, name⟩

def createIndex (start : Span) : Parser CreateIndex := do
  let unique ← keyword? .UNIQUE
  let _ ← keyword .INDEX
  let name ← identifier
  let _ ← keyword .ON
  let table ← qualifiedName
  let columns ← columnList
  return ⟨← spanFrom start, unique.isSome, name, table, columns⟩

def create (sub : Nested) : Parser Statement := do
  let start ← keyword .CREATE
  match ← keyword? .TABLE with
  | some _ => return .createTable (← createTable sub start)
  | none =>
    match ← keyword? .DATABASE with
    | some _ => return .createDatabase (← createDatabase start)
    | none => return .createIndex (← createIndex start)

/-- What follows `RENAME`. -/
def renameTail : Parser Alteration := do
  match ← keyword? .TO with
  | some _ => return .renameTable (← identifier)
  | none =>
    let _ ← keyword? .COLUMN
    let old ← identifier
    let _ ← keyword .TO
    let new ← identifier
    return .renameColumn old new

def alteration (sub : Nested) : Parser Alteration := do
  match (← peek).kind with
  | .keyword .ADD =>
    let _ ← next
    let _ ← keyword? .COLUMN
    return .addColumn (← columnDefinition sub)
  | .keyword .DROP =>
    let _ ← next
    let _ ← keyword? .COLUMN
    return .dropColumn (← identifier)
  | .keyword .RENAME =>
    let _ ← next
    renameTail
  | _ =>
    note [.keyword .ADD, .keyword .DROP, .keyword .RENAME]
    unexpected

def alterTable (sub : Nested) : Parser AlterTable := do
  let start ← keyword .ALTER
  let _ ← keyword .TABLE
  let name ← qualifiedName
  let alteration ← alteration sub
  return ⟨← spanFrom start, name, alteration⟩

/-- The kind of object that a token names. -/
def objectKind? : TokenKind → Option ObjectKind
  | .keyword .TABLE => some .table
  | .keyword .INDEX => some .index
  | .keyword .DATABASE => some .database
  | _ => none

/-- `IF EXISTS`, if it comes next. -/
def ifExists : Parser Bool := do
  match ← keyword? .IF with
  | some _ =>
    let _ ← keyword .EXISTS
    return true
  | none => return false

def drop : Parser Drop := do
  let start ← keyword .DROP
  match objectKind? (← peek).kind with
  | some kind =>
    let _ ← next
    let ifExists ← ifExists
    let name ← qualifiedName
    return ⟨← spanFrom start, kind, ifExists, name⟩
  | none =>
    note [.keyword .TABLE, .keyword .INDEX, .keyword .DATABASE]
    unexpected

/-! ## Statements -/

/-- A statement with `max` levels of nesting. -/
def statement (max : Nat) : Parser Statement := do
  let sub := nested max max
  match (← peek).kind with
  | .keyword .SELECT => return .query (← sub.query)
  | .keyword .INSERT => return .insert (← insert sub)
  | .keyword .UPDATE => return .update (← update sub)
  | .keyword .DELETE => return .delete (← delete sub)
  | .keyword .CREATE => create sub
  | .keyword .ALTER => return .alterTable (← alterTable sub)
  | .keyword .DROP => return .drop (← drop)
  | _ =>
    note [.keyword .SELECT, .keyword .INSERT, .keyword .UPDATE, .keyword .DELETE,
      .keyword .CREATE, .keyword .ALTER, .keyword .DROP]
    unexpected

/-- A statement, perhaps a semicolon, and nothing more. -/
def wholeStatement (max : Nat) : Parser Statement := do
  let s ← statement max
  let _ ← punctuation? .semicolon
  endOfInput
  return s

/-- Skips semicolons. -/
def skipSemicolons : Parser Unit :=
  iterate (fun _ => do
    match ← punctuation? .semicolon with
    | some _ => return some ()
    | none => return none) ()

/-- Statements with semicolons around them, to the end of the input. -/
def script (max : Nat) : Parser (List Statement) := do
  let statements ← iterate (fun statements => do
    skipSemicolons
    if (← peek).isEnd then
      return none
    else
      let s ← statement max
      match ← punctuation? .semicolon with
      | some _ => pure ()
      | none => endOfInput
      return some (s :: statements)) []
  return statements.reverse

/-- The outcome of a parser on a stream of tokens. -/
def runOn {α : Type} (p : Parser α) (s : TokenStream) : Except Error α :=
  match p.run (.ofStream s) with
  | .ok a _ => .ok a
  | .error e _ => .error e

end Parser

/-! ## Entry points -/

/-- Parses a single statement. The size of the input is checked first. -/
def parseStatement (limits : Limits) (sql : String) : Except Error Statement := do
  limits.checkInput sql
  (Parser.wholeStatement limits.maxDepth).runOn (.ofString sql)

/-- Parses a script. The size of the input is checked first. -/
def parseScript (limits : Limits) (sql : String) : Except Error (List Statement) := do
  limits.checkInput sql
  (Parser.script limits.maxDepth).runOn (.ofString sql)

/-- Parses a single statement from tokens. They need not end with the end of
the input. -/
def parseTokens (limits : Limits) (tokens : List Token) : Except Error Statement :=
  (Parser.wholeStatement limits.maxDepth).runOn ⟨tokens, none⟩

end SqlSyntax
