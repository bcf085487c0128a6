import SqlSyntax.Analysis
import SqlSyntax.Document.Text
import SqlSyntax.Text.Table

/-!
# Reports

What is printed for a text: on demand its tokens and its canonical form, and
then the document that reports on it.

Tokens are shown when the size of the text is within the limit and all of it
can be read as tokens, whether or not it can be parsed.
-/

namespace SqlSyntax

/-- How texts are analyzed, and what is printed of the outcome. -/
structure Settings where
  analysis : AnalysisOptions := {}
  /-- Documents with one field or item to a line. -/
  pretty : Bool := false
  /-- The canonical form before each document. -/
  canonical : Bool := false
  /-- The tokens before everything else. -/
  tokens : Bool := false
deriving DecidableEq, Repr

namespace Span

/-- A span as its bounds with two dots between them. -/
def describe (s : Span) : String := toString s.start ++ ".." ++ toString s.stop

end Span

namespace TokenKind

/-- The class of a token in a word. -/
def className : TokenKind → String
  | .keyword _ => "keyword"
  | .identifier _ => "identifier"
  | .number => "number"
  | .string => "string"
  | .operator _ => "operator"
  | .punctuation _ => "punctuation"
  | .endOfInput => "eof"

end TokenKind

/-- Tokens as a table. -/
def tokenTable (tokens : List Token) : String :=
  Table.draw <| ["kind", "text", "line", "column", "span"] :: tokens.map fun t =>
    [t.kind.className, t.text, toString t.position.line, toString t.position.column,
      t.span.describe]

/-- Warnings as a table. -/
def warningTable (warnings : List Warning) : String :=
  Table.draw <| ["code", "message", "span"] :: warnings.map fun w =>
    [w.code.text, w.message, w.span.describe]

/-- A text as a line. -/
def line (text : String) : String := text ++ "\n"

namespace Settings

/-- The lines that show the tokens of a text. -/
def tokenReport (s : Settings) (sql : String) : String :=
  if s.tokens then
    match s.analysis.limits.checkInput sql, tokenize sql with
    | .ok (), .ok tokens => line (tokenTable tokens)
    | _, _ => ""
  else ""

def documentText (s : Settings) (d : Document) : String :=
  if s.pretty then d.pretty else d.compact

/-- The lines that report on an accepted statement. -/
def analysisReport (s : Settings) (a : Analysis) : String :=
  (if s.canonical then line a.canonical else "") ++ line (s.documentText (a.document s.analysis))

/-- The line that reports on a text that is refused. -/
def errorReport (s : Settings) (e : Error) : String := line (s.documentText e.document)

end Settings

/-- What is printed for a text, and whether the text was accepted. -/
structure Report where
  accepted : Bool
  text : String
deriving DecidableEq, Repr

namespace Report

/-- The report on a single statement. -/
def ofStatement (s : Settings) (sql : String) : Report :=
  match analyze s.analysis sql with
  | .ok a => ⟨true, s.tokenReport sql ++ s.analysisReport a⟩
  | .error e => ⟨false, s.tokenReport sql ++ s.errorReport e⟩

/-- The report on a script. Nothing is printed for the statements before an
error. -/
def ofScript (s : Settings) (sql : String) : Report :=
  match analyzeScript s.analysis sql with
  | .ok analyses => ⟨true, s.tokenReport sql ++ String.join (analyses.map s.analysisReport)⟩
  | .error e => ⟨false, s.tokenReport sql ++ s.errorReport e⟩

end Report

end SqlSyntax
