import SqlSyntax.CommandLine.Arguments
import SqlSyntax.CommandLine.Session

/-!
# Outcomes

What a run of the program prints, and its exit code: 0 when all went well, 1
when a text is refused or a file cannot be read, 2 when the command line is
not understood.
-/

namespace SqlSyntax

/-- The exit code of a run and what it prints. -/
structure Outcome where
  code : Nat
  output : String
deriving DecidableEq, Repr

namespace Refusal

def versionText : String := line "querytree 0.1.0"

def helpText : String :=
  line "Parse SQL into a syntax tree and report structural warnings."
    ++ line ""
    ++ line "Usage: querytree [OPTIONS] [SQL]"
    ++ line ""
    ++ line "  -f, --file FILE            analyze every statement of a script file"
    ++ line "      --pretty               indent the JSON output"
    ++ line "      --spans                include source spans in the JSON output"
    ++ line "      --canonical            also print the statement as canonical SQL"
    ++ line "      --tokens               print the tokens before the analysis"
    ++ line "      --no-validate          skip the validator"
    ++ line "      --max-input-bytes N    refuse longer inputs"
    ++ line "      --max-depth N          refuse deeper nesting"
    ++ line "  -v, --verbose              raise the log level"
    ++ line "  -h, --help                 print this text"
    ++ line "  -V, --version              print the version"

def outcome : Refusal → Outcome
  | .version => ⟨0, versionText⟩
  | .help => ⟨0, helpText⟩
  | .usage _ => ⟨2, ""⟩

end Refusal

def Report.outcome (r : Report) : Outcome := ⟨if r.accepted then 0 else 1, r.text⟩

namespace Outcome

/-- The outcome for a script that cannot be read. -/
def unreadable : Outcome := ⟨1, ""⟩

/-- The outcome for a script, if it can be read. -/
def ofScript? (s : Settings) : Option String → Outcome
  | none => unreadable
  | some script => (Report.ofScript s script).outcome

/-- The outcome for a session with the given input. -/
def ofSession (s : Settings) (input : String) : Outcome :=
  ⟨0, Session.transcript s (Session.linesOf input)⟩

end Outcome

/-- The outcome of an invocation, given what its script file holds, if it can
be read, and what is on the standard input. -/
def Invocation.outcome (i : Invocation) (script? : Option String) (input : String) : Outcome :=
  match i.file, i.statement with
  | some _, _ => .ofScript? i.settings script?
  | none, some sql => (Report.ofStatement i.settings sql).outcome
  | none, none => .ofSession i.settings input

end SqlSyntax
