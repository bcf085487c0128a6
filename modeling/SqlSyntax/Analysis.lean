import SqlSyntax.Interchange.Statement
import SqlSyntax.Parser.Statement
import SqlSyntax.Validation.Rules

/-!
# Analyses

Parsing and validation in one step, for a single statement or a script, and the
documents that report the outcome. A script is accepted or refused as a whole.
-/

namespace SqlSyntax

open Document (object string array)

structure AnalysisOptions where
  limits : Limits := {}
  /-- Whether documents tell where each node stands in the source. -/
  spans : Bool := false
  /-- Whether there are warnings at all. -/
  validate : Bool := true
deriving DecidableEq, Repr

/-- A statement and what there is to warn about in it. -/
structure Analysis where
  statement : Statement
  warnings : List Warning

namespace Analysis

def ofStatement (o : AnalysisOptions) (s : Statement) : Analysis :=
  ⟨s, if o.validate then s.warnings else []⟩

def canonical (a : Analysis) : String := a.statement.canonical

end Analysis

/-- Analyzes a single statement. -/
def analyze (o : AnalysisOptions) (sql : String) : Except Error Analysis :=
  (parseStatement o.limits sql).map (Analysis.ofStatement o)

/-- Analyzes the statements of a script. -/
def analyzeScript (o : AnalysisOptions) (sql : String) : Except Error (List Analysis) :=
  (parseScript o.limits sql).map (·.map (Analysis.ofStatement o))

/-! ## Reports -/

def Warning.document (w : Warning) : Document :=
  object [("code", string w.code.text), ("message", string w.message), ("span", w.span.document)]

/-- The report on an accepted statement. -/
def Analysis.document (o : AnalysisOptions) (a : Analysis) : Document :=
  object [("status", string "ok"), ("ast", a.statement.document o.spans),
    ("warnings", array (a.warnings.map Warning.document))]

def Position.document (p : Position) : Document :=
  object [("line", .int p.line), ("column", .int p.column), ("offset", .int p.offset)]

/-- The report on a text that is refused. -/
def Error.document (e : Error) : Document :=
  object [("status", string "error"), ("error",
    object [("kind", string e.kind), ("message", string e.message),
      ("position", match e.position? with
        | none => .null
        | some p => p.document),
      ("expected", array (e.expected.map string))])]

end SqlSyntax
