import TwinEngine.Decimal.Read

/-!
Contract: the grammar of command-line words.

Owns: switches with and without a value, operands, the word that ends the switches, and the order in
which words are read.

Does not own: which switches a command has (`Command.Request`).

A word that starts with a dash is a switch, with three exceptions: a dash alone, everything behind
`--`, and a negative number once the operands that may be negative have begun.
-/

namespace TwinEngine.Command

/-- A switch. With `accepts` it takes a value, which is checked as soon as it is read; without, it
stands alone. -/
structure Switch where
  long : String
  short : Option Char := none
  accepts : Option (String → Bool) := none
  repeatable : Bool := false

/-- The words of a command: its switches, and whether more operands may follow the first. Those may
be negative numbers. -/
structure Grammar where
  switches : List Switch
  moreOperands : Bool := false

/-- What was given, last first. -/
structure Given where
  operands : List String := []
  settings : List (String × String) := []
deriving DecidableEq, Repr

namespace Given

def values (given : Given) (long : String) : List String :=
  (given.settings.filter (·.1 == long)).reverse.map Prod.snd

def value? (given : Given) (long : String) : Option String :=
  (given.values long).head?

def has (given : Given) (long : String) : Bool :=
  (given.value? long).isSome

end Given

/-- Why reading stops before the last word. -/
inductive Stop where
  | help
  | refused
deriving DecidableEq, Repr

/-- A word, seen for itself. -/
inductive Word where
  | plain (text : String)
  | endOfSwitches
  | long (name : String) (value : Option String)
  | short (letter : Char) (rest : List Char)
deriving DecidableEq, Repr

/-- Whether characters are a number without a sign: digits, a point behind at least one of them,
and an exponent without a sign. -/
def isNumber (text : List Char) : Bool :=
  let (whole, rest) := text.span Char.isDigit
  let rest := match rest with
    | '.' :: rest => rest.dropWhile Char.isDigit
    | rest => rest
  match rest with
  | [] => !whole.isEmpty
  | 'e' :: exponent => !whole.isEmpty && !exponent.isEmpty && exponent.all Char.isDigit
  | _ => false

/-- Split a long switch from a value that is attached to it. -/
def Word.ofLong (text : List Char) : Word :=
  match text.span (· != '=') with
  | (name, _ :: value) => .long (String.ofList name) (some (String.ofList value))
  | (name, []) => .long (String.ofList name) none

/-- See a word for itself; `negatives` tells whether negative numbers are plain. -/
def Word.ofString (negatives : Bool) (text : String) : Word :=
  match text.toList with
  | ['-', '-'] => .endOfSwitches
  | '-' :: '-' :: name => Word.ofLong name
  | '-' :: letter :: rest =>
    if negatives && isNumber (letter :: rest) then .plain text else .short letter rest
  | _ => .plain text

namespace Grammar

/-- Take an operand. The first names a file and is not empty. -/
def operand (grammar : Grammar) (given : Given) (text : String) : Except Stop Given :=
  let allowed := if given.operands.isEmpty then !text.isEmpty else grammar.moreOperands
  if allowed then .ok { given with operands := text :: given.operands } else .error .refused

/-- Take a switch with its value, or with nothing for one that stands alone. -/
def setting (given : Given) (switch : Switch) (value : String) : Except Stop Given :=
  let accepted := match switch.accepts with
    | some accepts => accepts value
    | none => true
  let repeated := !switch.repeatable && given.has switch.long
  if accepted && !repeated then
    .ok { given with settings := (switch.long, value) :: given.settings }
  else .error .refused

/-- Take a switch with the value attached to it, if there is one. A switch whose value is yet to
come is given back. -/
def attached (given : Given) (switch : Switch) :
    Option String → Except Stop (Given × Option Switch)
  | some value =>
    if switch.accepts.isSome then (setting given switch value).map (·, none)
    else .error .refused
  | none =>
    if switch.accepts.isSome then .ok (given, some switch)
    else (setting given switch "").map (·, none)

/-- A value attached to a short switch, with or without an equals sign between. -/
def shortValue : List Char → Option String
  | [] => none
  | '=' :: value => some (String.ofList value)
  | value => some (String.ofList value)

/-- Take one word, seen for itself, when no switch waits for its value. -/
def word (grammar : Grammar) (given : Given) : Word → Except Stop (Given × Option Switch)
  | .plain text => (grammar.operand given text).map (·, none)
  | .endOfSwitches => .ok (given, none)
  | .long name value =>
    if name == "help" then .error (if value.isSome then .refused else .help)
    else match grammar.switches.find? (·.long == name) with
      | some switch => attached given switch value
      | none => .error .refused
  | .short letter rest =>
    if letter == 'h' then .error .help
    else match grammar.switches.find? (·.short == some letter) with
      | some switch => attached given switch (shortValue rest)
      | none => .error .refused

/-- Read words from the left. `waiting` is a switch whose value comes next: only a plain word can be
that value. -/
def read (grammar : Grammar) (given : Given) (waiting : Option Switch) :
    List String → Except Stop Given
  | [] => if waiting.isSome then .error .refused else .ok given
  | text :: rest =>
    let negatives := grammar.moreOperands && !given.operands.isEmpty
    match waiting, Word.ofString negatives text with
    | some switch, .plain value => do grammar.read (← setting given switch value) none rest
    | some _, _ => .error .refused
    | none, .endOfSwitches => rest.foldlM grammar.operand given
    | none, seen => do
        let (given, waiting) ← grammar.word given seen
        grammar.read given waiting rest

end Grammar

end TwinEngine.Command
