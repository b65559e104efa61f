import TwinEngine.Error

/-!
Contract: how a failed command explains itself.

Owns: a message with the causes below it, and the layout of both.
-/

namespace TwinEngine.Command

/-- What went wrong, and what caused it, nearest cause first. -/
structure Failure where
  message : String
  causes : List String := []
deriving DecidableEq, Repr

namespace Failure

def ofError (error : Error) : Failure :=
  match error.chain with
  | [] => ⟨error.message, []⟩
  | message :: causes => ⟨message, causes⟩

def during (message : String) (error : Error) : Failure :=
  ⟨message, error.chain⟩

/-- Indent the lines of a cause: the first by `first`, the others by as many blanks. -/
def indentCause (first cause : String) : String :=
  let next := "\n" ++ String.ofList (List.replicate first.length ' ')
  first ++ next.intercalate (cause.splitOn "\n")

def rightAligned (width : Nat) (text : String) : String :=
  String.ofList (List.replicate (width - text.length) ' ') ++ text

/-- Causes under their heading. One cause is indented; several are numbered from zero. -/
def causesText : List String → String
  | [] => ""
  | [cause] => "\n\nCaused by:\n" ++ indentCause "    " cause
  | causes =>
    let lines := causes.zipIdx.map fun (cause, index) =>
      "\n" ++ indentCause (rightAligned 5 (toString index) ++ ": ") cause
    "\n\nCaused by:" ++ String.join lines

def text (failure : Failure) : String :=
  "Error: " ++ failure.message ++ causesText failure.causes ++ "\n"

end Failure

end TwinEngine.Command
