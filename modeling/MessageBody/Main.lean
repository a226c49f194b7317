import MessageBody.CommandLine.Run

/-! # The command line -/

open MessageBody

/-- The text of a source: standard input, or a file. -/
def readSource (source : String) : IO String := do
  if source = CommandLine.standardInput then (← IO.getStdin).readToEnd
  else IO.FS.readFile source

/-- The text of the source that the arguments name, if it can be read. -/
def readRequested (args : List String) : IO (Option String) := do
  match CommandLine.request args with
  | .ok (.run _ source) =>
      match ← (readSource source).toBaseIO with
      | .ok text => return some text
      | .error _ => return none
  | _ => return none

def main (args : List String) : IO UInt32 := do
  let text? ← readRequested args
  let outcome := CommandLine.run (fun _ => text?) args
  IO.print outcome.output
  unless outcome.complaint.isEmpty do IO.eprintln outcome.complaint
  return outcome.exitCode
