import SqlSyntax.CommandLine.Outcome

/-!
# The program

Reads the command line, the script file and the lines of a session, and prints
what they are answered with.
-/

namespace SqlSyntax

/-- Answers the lines of the standard input as they come. -/
partial def converse (input output : IO.FS.Stream) (s : Settings) : IO Unit := do
  output.putStr Session.prompt
  output.flush
  let text ← input.getLine
  if text.isEmpty then
    output.putStr Session.farewell
  else
    let entry := Session.Entry.ofLine text
    output.putStr (entry.answer s)
    match entry.next? s with
    | none => return
    | some t => converse input output t

/-- What a file holds, if it can be read. -/
def contents? (path : String) : IO (Option String) := do
  try
    return some (← IO.FS.readFile path)
  catch e =>
    IO.eprintln ("Error: Failed to open file " ++ path ++ ": " ++ toString e)
    return none

def finish (o : Outcome) : IO UInt32 := do
  IO.print o.output
  return o.code.toUInt32

end SqlSyntax

open SqlSyntax in
def main (arguments : List String) : IO UInt32 := do
  match Invocation.ofArguments arguments with
  | .error r => finish r.outcome
  | .ok i =>
    match i.file, i.statement with
    | none, none =>
      let output ← IO.getStdout
      output.putStr Session.greeting
      converse (← IO.getStdin) output i.settings
      return 0
    | some path, _ => finish (i.outcome (← contents? path) "")
    | none, some _ => finish (i.outcome none "")
