import TwinEngine.Binary.Reader

/-!
Contract: the function names that a module may carry.

Owns: reading the section that names functions.

Names are advice. A part of the section that cannot be read is passed over, and reading goes on
after the bytes that it took.
-/

namespace TwinEngine.Binary

/-- Function names of one part of the section, up to the first that cannot be read. The last name is
first. -/
def functionNamesFrom : Nat → List (Nat × String) → List UInt8 → List (Nat × String)
  | 0, done, _ => done
  | count + 1, done, bytes =>
    let entry : Reader (Nat × String) := do return (← Reader.index, ← Reader.name)
    match entry bytes with
    | none => done
    | some (named, rest) => functionNamesFrom count (named :: done) rest

def addFunctionNames (done : List (Nat × String)) (bytes : List UInt8) : List (Nat × String) :=
  match Reader.index bytes with
  | none => done
  | some (count, rest) => functionNamesFrom count done rest

def functionNamesPart : Nat := 1

def longestIndex : Nat := 5

/-- Walk the parts of the section, at most one for each unit of fuel. -/
def partNamesFrom : Nat → List (Nat × String) → List UInt8 → List (Nat × String)
  | 0, done, _ => done
  | _ + 1, done, [] => done
  | fuel + 1, done, part :: bytes =>
    if 128 ≤ part.toNat then partNamesFrom fuel done bytes
    else
      match Reader.index bytes with
      | none => partNamesFrom fuel done (bytes.drop longestIndex)
      | some (size, rest) =>
        match Reader.take size rest with
        | none => partNamesFrom fuel done rest
        | some (content, later) =>
          let done :=
            if part.toNat = functionNamesPart then addFunctionNames done content else done
          partNamesFrom fuel done later

/-- Add the function names of a section to those already known. A later name stands first. -/
def addNames (done : List (Nat × String)) (bytes : List UInt8) : List (Nat × String) :=
  partNamesFrom bytes.length done bytes

end TwinEngine.Binary
