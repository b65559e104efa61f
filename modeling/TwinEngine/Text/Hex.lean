/-!
Contract: hexadecimal text.

Owns: digits of a fixed number of places, lower-case, and the reading of digits and of byte strings.
-/

namespace TwinEngine.Text

def hexDigit (value : Nat) : Char :=
  if value < 10 then Char.ofNat (48 + value) else Char.ofNat (87 + value)

def hexValue? (digit : Char) : Option Nat :=
  if '0' ≤ digit && digit ≤ '9' then some (digit.toNat - 48)
  else if 'a' ≤ digit && digit ≤ 'f' then some (digit.toNat - 87)
  else if 'A' ≤ digit && digit ≤ 'F' then some (digit.toNat - 55)
  else none

def hexDigits : Nat → Nat → List Char
  | 0, _ => []
  | places + 1, value => hexDigits places (value / 16) ++ [hexDigit (value % 16)]

def hex (places value : Nat) : String :=
  String.ofList (hexDigits places value)

def readHex? (text : String) : Option Nat :=
  if text.isEmpty then none
  else text.toList.foldlM (fun value digit => (16 * value + ·) <$> hexValue? digit) 0

/-- Two digits a byte, appended to what stands in `rest`. -/
def hexBytesInto (bytes : List UInt8) (rest : List Char) : List Char :=
  bytes.foldr
    (fun byte digits => hexDigit (byte.toNat / 16) :: hexDigit (byte.toNat % 16) :: digits) rest

def hexBytes (bytes : List UInt8) : String :=
  String.ofList (hexBytesInto bytes [])

/-- Read digits in pairs; the bytes read so far are in `done`, last first. -/
def readPairs? (done : List UInt8) : List Char → Option (List UInt8)
  | [] => some done.reverse
  | [_] => none
  | high :: low :: rest =>
    match hexValue? high, hexValue? low with
    | some high, some low => readPairs? (UInt8.ofNat (16 * high + low) :: done) rest
    | _, _ => none

def readHexBytes? (text : String) : Option (List UInt8) :=
  readPairs? [] text.toList

end TwinEngine.Text
