import TwinEngine.Command.Grammar
import TwinEngine.Host

/-!
Contract: what a command line asks for.

Owns: the three commands with their switches, and the reading of a command line as a request.
-/

namespace TwinEngine.Command

/-- A command with what it needs. The input is the name of a file that holds a module. -/
inductive Request where
  | compile (input : String) (options : CompileOptions) (json : Bool)
  | analyze (input : String) (function : Nat)
  | run (input : String) (exportName : String) (arguments : List String) (engine : EngineOptions)
deriving DecidableEq, Repr

namespace Request

def input : Request → String
  | .compile input .. | .analyze input _ | .run input .. => input

def readIndex? (text : String) : Option Nat :=
  match Decimal.readInteger (.signed 64) text with
  | .ok index => if 0 ≤ index ∧ index < 2 ^ 32 then some index.toNat else none
  | .error _ => none

def readSize? (text : String) : Option Nat :=
  (Decimal.readInteger (.unsigned 64) text).toOption.map Int.toNat

def readPolicy? (text : String) : Option FallbackPolicy :=
  (FallbackPolicy.read text).toOption

def fallbackSwitch : Switch := ⟨"fallback", none, some fun text => (readPolicy? text).isSome, false⟩

def compileGrammar : Grammar where
  switches :=
    [ fallbackSwitch,
      ⟨"interpret", none, some fun text => (readIndex? text).isSome, true⟩,
      ⟨"max-code-size", none, some fun text => (readSize? text).isSome, false⟩,
      ⟨"json", none, none, false⟩ ]

def analyzeGrammar : Grammar where
  switches := [⟨"function", some 'f', some fun text => (readIndex? text).isSome, false⟩]

def runGrammar : Grammar where
  switches :=
    [ ⟨"invoke", none, some fun _ => true, false⟩,
      ⟨"interpreter", none, none, false⟩,
      fallbackSwitch ]
  moreOperands := true

def policyOf (given : Given) : FallbackPolicy :=
  ((given.value? "fallback").bind readPolicy?).getD .fail

def compileOf? (given : Given) : Option Request := do
  let input ← given.operands.head?
  let options : CompileOptions :=
    { fallback := policyOf given
      interpreted := (given.values "interpret").filterMap readIndex?
      maxCodeSize := ((given.value? "max-code-size").bind readSize?).getD maxCodeSize }
  some (.compile input options (given.has "json"))

def analyzeOf? (given : Given) : Option Request := do
  let input ← given.operands.head?
  let function ← (given.value? "function").bind readIndex?
  some (.analyze input function)

def runOf? (given : Given) : Option Request :=
  match given.operands.reverse, given.value? "invoke" with
  | input :: arguments, some exportName =>
    let engine : EngineOptions :=
      if given.has "interpreter" then .interpreted
      else .compiled { fallback := policyOf given }
    some (.run input exportName arguments engine)
  | _, _ => none

/-- Read the words behind a command's name; what the command needs must be among them. -/
def readWith (grammar : Grammar) (request? : Given → Option Request) (words : List String) :
    Except Stop Request := do
  let given ← grammar.read {} none words
  match request? given with
  | some request => .ok request
  | none => .error .refused

def read : List String → Except Stop Request
  | "compile" :: words => readWith compileGrammar compileOf? words
  | "analyze" :: words => readWith analyzeGrammar analyzeOf? words
  | "run" :: words => readWith runGrammar runOf? words
  | "help" :: _ | "--help" :: _ => .error .help
  | word :: _ => .error (if word.startsWith "-h" then .help else .refused)
  | [] => .error .refused

end Request

def usage : String :=
  "Usage:\n" ++
  "  compile <INPUT> [--fallback <POLICY>] [--interpret <INDEX>]... [--max-code-size <BYTES>] " ++
    "[--json]\n" ++
  "  analyze <INPUT> --function <INDEX>\n" ++
  "  run <INPUT> --invoke <NAME> [ARGS]... [--interpreter] [--fallback <POLICY>]\n"

end TwinEngine.Command
