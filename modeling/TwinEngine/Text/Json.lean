import TwinEngine.Text.Hex

/-!
Contract: JSON text, one item a line.

Owns: quoted strings with their escapes, and the layout of arrays and objects that are indented by
two spaces a level.

Items are given as text that is already laid out for the level at which it stands.
-/

namespace TwinEngine.Text.Json

/-- A character inside quotes. Control characters, the quote and the backslash are escaped; all
other characters stand for themselves. -/
def escape (char : Char) : String :=
  match char with
  | '"' => "\\\""
  | '\\' => "\\\\"
  | '\n' => "\\n"
  | '\r' => "\\r"
  | '\t' => "\\t"
  | char =>
    if char.toNat = 8 then "\\b"
    else if char.toNat = 12 then "\\f"
    else if char.toNat < 32 then "\\u" ++ hex 4 char.toNat
    else char.toString

def quote (text : String) : String :=
  "\"" ++ String.join (text.toList.map escape) ++ "\""

def indent (level : Nat) : String :=
  String.ofList (List.replicate (2 * level) ' ')

/-- Items between brackets, each on a line of its own one level deeper; no items give the bare
brackets. -/
def enclose (level : Nat) (opening closing : String) : List String → String
  | [] => opening ++ closing
  | items =>
    let lines := items.map (indent (level + 1) ++ ·)
    opening ++ "\n" ++ ",\n".intercalate lines ++ "\n" ++ indent level ++ closing

def array (level : Nat) (items : List String) : String :=
  enclose level "[" "]" items

def object (level : Nat) (fields : List (String × String)) : String :=
  enclose level "\x7b" "\x7d" (fields.map fun (key, value) => quote key ++ ": " ++ value)

end TwinEngine.Text.Json
