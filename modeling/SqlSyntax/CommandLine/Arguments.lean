import SqlSyntax.CommandLine.Report
import SqlSyntax.Number.Power
import SqlSyntax.Text.Digits

/-!
# Arguments

The command line is read from left to right. An option with a value takes it
behind an equals sign, directly behind its letter or as the next argument,
which then must not look like an option itself. Letters of options without a
value can be combined. Behind `--` nothing is an option.

Each option can be given once, and a script file excludes a statement; how
much is logged can be raised repeatedly.
-/

namespace SqlSyntax

inductive Flag where
  | pretty | spans | canonical | tokens | noValidate
deriving DecidableEq, Repr

/-- Options that take a value. -/
inductive Setting where
  | file | maxInputBytes | maxDepth
deriving DecidableEq, Repr

inductive CommandOption where
  | flag (flag : Flag)
  | setting (setting : Setting)
  | verbose
  | version
  | help
deriving DecidableEq, Repr

namespace CommandOption

/-- The option with a name, which is written behind two hyphens. -/
def ofName? : String → Option CommandOption
  | "pretty" => some (.flag .pretty)
  | "spans" => some (.flag .spans)
  | "canonical" => some (.flag .canonical)
  | "tokens" => some (.flag .tokens)
  | "no-validate" => some (.flag .noValidate)
  | "file" => some (.setting .file)
  | "max-input-bytes" => some (.setting .maxInputBytes)
  | "max-depth" => some (.setting .maxDepth)
  | "verbose" => some .verbose
  | "version" => some .version
  | "help" => some .help
  | _ => none

/-- The option with a letter, which is written behind one hyphen. -/
def ofLetter? : Char → Option CommandOption
  | 'f' => some (.setting .file)
  | 'v' => some .verbose
  | 'V' => some .version
  | 'h' => some .help
  | _ => none

end CommandOption

/-- What the command line asks for. -/
structure Invocation where
  settings : Settings := {}
  /-- The path of a script. -/
  file : Option String := none
  statement : Option String := none
  /-- The options that must not be given again. -/
  seen : List CommandOption := []
deriving DecidableEq, Repr

/-- What is wrong with a command line. -/
inductive UsageError where
  | unknownOption (argument : String)
  | missingValue (setting : Setting)
  | invalidValue (setting : Setting) (value : String)
  | unexpectedValue (argument : String)
  | repeatedOption (argument : String)
  | unexpectedArgument (argument : String)
  | fileAndStatement
deriving DecidableEq, Repr

/-- Why nothing is run. -/
inductive Refusal where
  | help
  | version
  | usage (error : UsageError)
deriving DecidableEq, Repr

namespace Invocation

/-- The most that a limit can be set to. -/
def greatestLimit : Nat := twoPow 64 - 1

/-- A limit as it is written: digits, perhaps behind a plus sign. -/
def limit? (value : String) : Option Nat :=
  match value.toList with
  | '+' :: ds => Digits.valueUpTo greatestLimit (String.ofList ds)
  | _ => Digits.valueUpTo greatestLimit value

def withFlag (i : Invocation) : Flag → Invocation
  | .pretty => { i with settings.pretty := true }
  | .spans => { i with settings.analysis.spans := true }
  | .canonical => { i with settings.canonical := true }
  | .tokens => { i with settings.tokens := true }
  | .noValidate => { i with settings.analysis.validate := false }

def withSetting? (i : Invocation) (value : String) : Setting → Option Invocation
  | .file => if value.isEmpty then none else some { i with file := some value }
  | .maxInputBytes =>
    (limit? value).map fun n => { i with settings.analysis.limits.maxInputBytes := n }
  | .maxDepth => (limit? value).map fun n => { i with settings.analysis.limits.maxDepth := n }

/-- Notes that an option was given, by the argument that gave it. -/
def once (i : Invocation) (o : CommandOption) (argument : String) : Except Refusal Invocation :=
  if i.seen.contains o then .error (.usage (.repeatedOption argument))
  else .ok { i with seen := o :: i.seen }

/-- Gives a setting its value. -/
def give (i : Invocation) (argument : String) (setting : Setting) (value : String) :
    Except Refusal Invocation := do
  let i ← i.once (.setting setting) argument
  match i.withSetting? value setting with
  | some i => return i
  | none => .error (.usage (.invalidValue setting value))

/-- An option that takes no value. -/
def apply (i : Invocation) (argument : String) : CommandOption → Except Refusal Invocation
  | .flag f => return (← i.once (.flag f) argument).withFlag f
  | .verbose => .ok i
  | .version => .error .version
  | .help => .error .help
  | .setting s => .error (.usage (.missingValue s))

/-- An argument that is no option: the statement. -/
def positional (i : Invocation) (argument : String) : Except Refusal Invocation :=
  match i.statement with
  | none => .ok { i with statement := some argument }
  | some _ => .error (.usage (.unexpectedArgument argument))

/-- What an argument leaves to be done: nothing, or a value to be taken from
the next one. -/
inductive Step where
  | done (invocation : Invocation)
  | awaits (invocation : Invocation) (setting : Setting)

/-- The letters of options behind a hyphen. -/
def letters (i : Invocation) (argument : String) : List Char → Except Refusal Step
  | [] => .ok (.done i)
  | c :: cs =>
    match CommandOption.ofLetter? c with
    | none => .error (.usage (.unknownOption argument))
    | some (.setting s) =>
      match cs with
      | [] => .ok (.awaits i s)
      | '=' :: value => return .done (← i.give argument s (String.ofList value))
      | value => return .done (← i.give argument s (String.ofList value))
    | some o => do (← i.apply argument o).letters argument cs

/-- The name of an option behind two hyphens, perhaps with its value. -/
def named (i : Invocation) (argument : String) (cs : List Char) : Except Refusal Step :=
  let value := cs.dropWhile (· ≠ '=')
  match CommandOption.ofName? (String.ofList (cs.takeWhile (· ≠ '='))), value with
  | none, _ => .error (.usage (.unknownOption argument))
  | some (.setting s), [] => .ok (.awaits i s)
  | some (.setting s), _ :: value => return .done (← i.give argument s (String.ofList value))
  | some o, [] => return .done (← i.apply argument o)
  | some _, _ :: _ => .error (.usage (.unexpectedValue argument))

/-- A single argument before `--`. A hyphen alone is no option. -/
def step (i : Invocation) (argument : String) : Except Refusal Step :=
  match argument.toList with
  | '-' :: '-' :: cs => i.named argument cs
  | '-' :: c :: cs => i.letters argument (c :: cs)
  | _ => return .done (← i.positional argument)

/-- Whether an argument stands for an option, or ends them. -/
def looksLikeOption (argument : String) : Bool :=
  match argument.toList with
  | '-' :: _ :: _ => true
  | _ => false

/-- Reads the arguments, after those that led to `i`. -/
def readFrom (i : Invocation) : List String → Except Refusal Invocation
  | [] => .ok i
  | "--" :: rest => rest.foldlM positional i
  | argument :: rest => do
    match ← i.step argument, rest with
    | .done i, rest => i.readFrom rest
    | .awaits _ s, [] => .error (.usage (.missingValue s))
    | .awaits i s, value :: rest =>
      if looksLikeOption value then .error (.usage (.missingValue s))
      else (← i.give argument s value).readFrom rest

/-- Reads a command line. -/
def ofArguments (arguments : List String) : Except Refusal Invocation := do
  let i ← readFrom {} arguments
  match i.file, i.statement with
  | some _, some _ => .error (.usage .fileAndStatement)
  | _, _ => return i

end Invocation

end SqlSyntax
