import TwinEngine.Command.Execution

/-!
Contract: the command line.

Owns: reading the input file, writing what a command printed, and the exit status. Everything else
is decided by `TwinEngine.Command`.
-/

namespace TwinEngine.Command

def ReadFailure.ofError : IO.Error → ReadFailure
  | .noFileOrDirectory .. => .missing
  | .permissionDenied .. => .denied
  | .inappropriateType _ code _ => if code = 20 then .throughFile else .isFolder
  | error => .other (toString error)

def contentsOf (name : String) : IO Contents :=
  try
    return .ok (← IO.FS.readBinFile name).data.toList
  catch error => return .error (ReadFailure.ofError error)

/-- Carry out a request with more and more steps until it ends. -/
partial def execute (request : Request) (contents : Contents) (fuel : Nat) : IO Outcome :=
  match request.execute fuel contents with
  | some outcome => return outcome
  | none => execute request contents (2 * fuel)

def perform (words : List String) : IO UInt32 := do
  match Request.read words with
  | .error .help => IO.print usage; return 0
  | .error .refused => IO.eprint usage; return 2
  | .ok request =>
    let outcome ← execute request (← contentsOf request.input) (2 ^ 40)
    for warning in outcome.warnings do
      IO.eprintln s!"WARN {warning}"
    IO.print outcome.output
    match outcome.failure with
    | some failure => IO.eprint failure.text
    | none => pure ()
    return UInt32.ofNat outcome.status

end TwinEngine.Command

def main (words : List String) : IO UInt32 :=
  TwinEngine.Command.perform words
