import PropertyGraph.CommandLine.Run

/-!
The program: the files that a command line names are read, it is carried out, and what it writes is
written.
-/

namespace PropertyGraph.CommandLine

/-- A short description of the command line. -/
def usageText : String :=
  "usage: [-h] [--config CONFIG] \x7bquery,explain,plan,nl,stats,similar,traverse\x7d ...\n"

/-- The text of the file at a path, if there is one. -/
def readFile? (path : String) : IO (Option String) := do
  try return some (← IO.FS.readFile path)
  catch _ => return none

/-- Read what a command line names and carry it out. -/
def carryOut (invocation : Invocation) : IO Ending := do
  let files ← invocation.paths.mapM fun path => return (path, ← readFile? path)
  let input ← if invocation.command.readsInput then (← IO.getStdin).readToEnd else pure ""
  return invocation.run ⟨fun path => (files.find? (·.1 == path)).bind Prod.snd, input⟩

end PropertyGraph.CommandLine

open PropertyGraph.CommandLine in
def main (arguments : List String) : IO UInt32 := do
  let ending ←
    match Invocation.ofArguments arguments with
    | .error reason => pure (.usage reason)
    | .ok invocation => carryOut invocation
  match ending with
  | .usage _ => IO.eprint usageText
  | .finished output _ => IO.print output
  | .failed .. => pure ()
  IO.eprint ending.diagnostics
  return ending.exitCode.toUInt32
