import SqlSyntax.CommandLine.Report
import SqlSyntax.Text.Lines
import SqlSyntax.Unicode.LowerCase
import SqlSyntax.Unicode.WhiteSpace

/-!
# Sessions

A session answers one line after another. A line that starts with a dot is a
command; any other line that is not blank is a statement. Commands change the
settings of the lines after them, and nothing else does.

## Main results

* `answers_cons` — a session is a prompt, the answer to its first line and,
  unless that line ends it, the session with the other lines.
-/

namespace SqlSyntax.Session

inductive Command where
  | exit
  | help
  | toggleTokens
  | toggleCanonical
  | toggleSpans
deriving DecidableEq, Repr

/-- The command with a given text, the case of letters aside. -/
def Command.ofText? (text : String) : Option Command :=
  match Unicode.lowerCase text with
  | ".exit" | ".quit" => some .exit
  | ".help" | ".h" | ".?" => some .help
  | ".tokens" => some .toggleTokens
  | ".sql" => some .toggleCanonical
  | ".spans" => some .toggleSpans
  | _ => none

/-- What a line asks for. -/
inductive Entry where
  | blank
  | command (command : Command)
  /-- A line that starts like a command but is none. -/
  | unknown (text : String)
  | statement (sql : String)
deriving DecidableEq, Repr

/-- White space around an entry does not matter. -/
def Entry.ofLine (text : String) : Entry :=
  match Unicode.trim text.toList with
  | [] => .blank
  | '.' :: cs =>
    let text := String.ofList ('.' :: cs)
    match Command.ofText? text with
    | some c => .command c
    | none => .unknown text
  | cs => .statement (String.ofList cs)

/-! ## Texts -/

def greeting : String := line "querytree 0.1.0. Enter .help for usage hints."

def prompt : String := "> "

def farewell : String := line "Goodbye."

def helpText : String :=
  line "Enter a SQL statement to see its syntax tree."
    ++ line ""
    ++ line ".tokens    toggle the token table"
    ++ line ".sql       toggle canonical SQL output"
    ++ line ".spans     toggle source spans in the syntax tree"
    ++ line ".help      show this message"
    ++ line ".exit      leave the session"

/-- Says how a setting stands. -/
def stateLine (name : String) (enabled : Bool) : String :=
  line (name ++ if enabled then " on" else " off")

/-! ## Answers -/

/-- The report on a statement, for people: errors are a line of their own, and
warnings make a table. -/
def statementReport (s : Settings) (sql : String) : String :=
  s.tokenReport sql ++ match analyze s.analysis sql with
    | .ok a =>
      s.analysisReport a ++ if a.warnings.isEmpty then "" else line (warningTable a.warnings)
    | .error e => line (e.kind ++ ": " ++ e.message)

/-- The settings after a command. -/
def Command.apply (s : Settings) : Command → Settings
  | .toggleTokens => { s with tokens := !s.tokens }
  | .toggleCanonical => { s with canonical := !s.canonical }
  | .toggleSpans => { s with analysis := { s.analysis with spans := !s.analysis.spans } }
  | .exit | .help => s

/-- What a command says, under the settings after it. -/
def Command.answer (s : Settings) : Command → String
  | .exit => farewell
  | .help => helpText
  | .toggleTokens => stateLine "Token table" s.tokens
  | .toggleCanonical => stateLine "Canonical SQL" s.canonical
  | .toggleSpans => stateLine "Spans" s.analysis.spans

/-- The settings after an entry, if the session goes on. -/
def Entry.next? (s : Settings) : Entry → Option Settings
  | .command .exit => none
  | .command c => some (c.apply s)
  | .blank | .unknown _ | .statement _ => some s

/-- What an entry is answered with. -/
def Entry.answer (s : Settings) : Entry → String
  | .blank => ""
  | .command c => c.answer (c.apply s)
  | .unknown text => line ("Error! Command not recognised: " ++ text)
  | .statement sql => statementReport s sql

/-- The prompts and answers of a session, to its end. -/
def answers (s : Settings) : List String → List String
  | [] => [prompt, farewell]
  | text :: rest =>
    let e := Entry.ofLine text
    prompt :: e.answer s :: match e.next? s with
      | none => []
      | some t => answers t rest

theorem answers_cons (s : Settings) (text : String) (rest : List String) :
    answers s (text :: rest) =
      prompt :: (Entry.ofLine text).answer s ::
        match (Entry.ofLine text).next? s with
        | none => []
        | some t => answers t rest := rfl

/-- What a session prints for its lines. -/
def transcript (s : Settings) (lines : List String) : String :=
  greeting ++ String.join (answers s lines)

/-- The lines of an input. A newline at its end starts no further line. -/
def linesOf (input : String) : List String :=
  let lines := (Lines.splitLines input.toList).map String.ofList
  if lines.getLast? = some "" then lines.dropLast else lines

end SqlSyntax.Session
