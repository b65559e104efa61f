import TwinEngine.Numeric.Power

/-!
Contract: the names of what a component imports and exports.

Owns: the forms of a name, which texts are names, and when two names are too much alike.

Text is read as a list of characters. A reader of a part gives back what follows that part.
-/

namespace TwinEngine.Component

/-! ## Labels -/

/-- Whether characters are one word of a label: a letter, then digits and letters of its case. -/
def isWord : List Char → Bool
  | [] => false
  | first :: rest =>
    (first.isLower && rest.all fun letter => letter.isLower || letter.isDigit) ||
      (first.isUpper && rest.all fun letter => letter.isUpper || letter.isDigit)

def partsAt (separator : Char) : List Char → List (List Char)
  | [] => [[]]
  | letter :: rest =>
    if letter = separator then [] :: partsAt separator rest
    else
      match partsAt separator rest with
      | part :: parts => (letter :: part) :: parts
      | [] => [[letter]]

/-- Whether a text is a label: words with a dash between them. -/
def isLabel (text : List Char) : Bool := (partsAt '-' text).all isWord

/-- The form of a label in which two labels that differ only in case are equal. -/
def folded (text : List Char) : String := String.ofList (text.map Char.toLower)

/-! ## Parts of a name -/

/-- What follows an expected text. -/
def after? : List Char → List Char → Option (List Char)
  | [], text => some text
  | expected :: rest, letter :: text => if expected = letter then after? rest text else none
  | _ :: _, [] => none

/-- What stands before the first occurrence of a character, and what follows it. -/
def upTo? (stop : Char) : List Char → Option (List Char × List Char)
  | [] => none
  | letter :: rest =>
    if letter = stop then some ([], rest)
    else (upTo? stop rest).map fun (before, after) => (letter :: before, after)

def label? (text : List Char) : Option (List Char × List Char) :=
  let inside (letter : Char) := letter.isAlphanum || letter = '-'
  let front := text.takeWhile inside
  if isLabel front then some (front, text.dropWhile inside) else none

def afterLowerLabel? (text : List Char) : Option (List Char) :=
  (label? text).bind fun (label, rest) => if label.all (!·.isUpper) then some rest else none

def afterPackage? (needsThing : Bool) (text : List Char) : Option (List Char) := do
  let rest ← after? [':'] (← afterLowerLabel? text)
  let rest ← afterLowerLabel? rest
  match rest with
  | '/' :: rest => (label? rest).map (·.2)
  | _ => if needsThing then none else some rest

/-! ## Versions -/

/-- Whether digits write a number below `2 ^ 64` without needless zeros. -/
def isVersionNumber (digits : List Char) : Bool :=
  !digits.isEmpty && digits.all Char.isDigit && (digits.length = 1 || digits.head? != some '0') &&
    digits.foldl (fun value digit => 10 * value + (digit.toNat - '0'.toNat)) 0 < 2 ^ 64

/-- Whether a text is one of the identifiers after the numbers of a version. -/
def isIdentifier (text : List Char) : Bool :=
  !text.isEmpty && text.all fun letter => letter.isAlphanum || letter = '-'

/-- Whether a number among the identifiers of an early version has no needless zeros. -/
def isReleaseIdentifier (text : List Char) : Bool :=
  isIdentifier text && !(text.all Char.isDigit && 1 < text.length && text.head? = some '0')

/-- Whether a text is a version: three numbers, maybe identifiers of an early version after a dash,
and maybe identifiers of a build after a plus sign. -/
def isVersion (text : List Char) : Bool :=
  let (front, build) := match upTo? '+' text with
    | some (front, build) => (front, some build)
    | none => (text, none)
  let (numbers, early) := match upTo? '-' front with
    | some (numbers, early) => (numbers, some early)
    | none => (front, none)
  let parts := partsAt '.' numbers
  parts.length = 3 && parts.all isVersionNumber &&
    early.all (fun early => (partsAt '.' early).all isReleaseIdentifier) &&
    build.all (fun build => (partsAt '.' build).all isIdentifier)

def isVersionRange (text : List Char) : Bool :=
  match text with
  | ['*'] => true
  | '>' :: '=' :: bounds =>
    match upTo? ' ' bounds with
    | some (lower, '<' :: upper) => isVersion lower && isVersion upper
    | some _ => false
    | none => isVersion bounds
  | '<' :: upper => isVersion upper
  | _ => false

/-- What follows a package with, maybe, a version. A version ends at a closing angle bracket or with
the text. -/
def afterVersionedPackage? (needsThing : Bool) (text : List Char) : Option (List Char) := do
  match ← afterPackage? needsThing text with
  | '@' :: rest =>
    let version := rest.takeWhile (· != '>')
    if isVersion version then some (rest.dropWhile (· != '>')) else none
  | rest => some rest

def afterPackageQuery? (text : List Char) : Option (List Char) := do
  match ← afterPackage? false text with
  | '@' :: '*' :: rest => some rest
  | '@' :: '\x7b' :: rest => do
      let (range, rest) ← upTo? '\x7d' rest
      if isVersionRange range then some rest else none
  | '@' :: _ => none
  | rest => some rest

/-! ## Digests -/

/-- Whether a text is written in sixty-four letters, with at most two signs of filling
at its end. -/
def isSixtyFour (text : List Char) : Bool :=
  let inside (letter : Char) := letter.isAlphanum || letter = '+' || letter = '/'
  let filling := text.dropWhile inside
  !text.isEmpty && text.head? != some '=' && filling.all (· = '=') && filling.length ≤ 2

/-- Whether a text is a digest: the method, a dash, and the digest itself up to a question mark. -/
def isDigest (text : List Char) : Bool :=
  ["sha256-", "sha384-", "sha512-"].any fun method =>
    match after? method.toList text with
    | some digest => isSixtyFour (digest.takeWhile (· != '?'))
    | none => false

def pieces (text : List Char) : List (List Char) :=
  (partsAt ' ' (text.map fun letter => if letter.isWhitespace then ' ' else letter)).filter
    (!·.isEmpty)

/-- What follows digests that are closed by an angle bracket. -/
def afterDigests? (text : List Char) : Option (List Char) := do
  let (inside, rest) ← upTo? '>' text
  let digests := pieces inside
  if digests.isEmpty || !digests.all isDigest then none else some rest

def afterOptionalDigests? (text : List Char) : Option (List Char) :=
  match text with
  | ',' :: rest => (after? "integrity=<".toList rest).bind afterDigests?
  | _ => some text

/-! ## Names -/

inductive ExternName where
  | label (text : String)
  | builder (resource : String)
  | method (resource name : String)
  | static (resource name : String)
  | interface (text : String)
  | dependency (text : String)
  | url (text : String)
  | digest (text : String)
deriving DecidableEq, Repr

namespace ExternName

/-- Two labels with a point between them. -/
def readMember (text : List Char) : Option (String × String) := do
  let (resource, name) ← upTo? '.' text
  if isLabel resource && isLabel name then
    some (String.ofList resource, String.ofList name)
  else none

def ends (text : Option (List Char)) : Bool := text = some []

def read (name : String) : Option ExternName :=
  let text := name.toList
  let given (condition : Bool) (form : ExternName) := if condition then some form else none
  match after? "[constructor]".toList text with
  | some rest => given (isLabel rest) (.builder (String.ofList rest))
  | none =>
  match after? "[method]".toList text with
  | some rest => (readMember rest).map fun (resource, member) => .method resource member
  | none =>
  match after? "[static]".toList text with
  | some rest => (readMember rest).map fun (resource, member) => .static resource member
  | none =>
  match after? "unlocked-dep=".toList text with
  | some rest =>
    given (ends (((after? ['<'] rest).bind afterPackageQuery?).bind (after? ['>'])))
      (.dependency name)
  | none =>
  match after? "locked-dep=".toList text with
  | some rest =>
    given (ends ((((after? ['<'] rest).bind (afterVersionedPackage? false)).bind
      (after? ['>'])).bind afterOptionalDigests?)) (.dependency name)
  | none =>
  match after? "url=".toList text with
  | some rest =>
    match (after? ['<'] rest).bind (upTo? '>') with
    | some (address, rest) =>
      given (!address.contains '<' && ends (afterOptionalDigests? rest)) (.url name)
    | none => none
  | none =>
  match after? "integrity=".toList text with
  | some rest => given (ends ((after? ['<'] rest).bind afterDigests?)) (.digest name)
  | none =>
    if text.contains ':' then given (ends (afterVersionedPackage? true text)) (.interface name)
    else given (isLabel text) (.label name)

def isExportable : ExternName → Bool
  | .label _ | .builder _ | .method .. | .static .. | .interface _ => true
  | .dependency _ | .url _ | .digest _ => false

/-- Names with the same key are too much alike to stand side by side. Case does not tell labels
apart, and a method and a static function are told apart by their labels only. -/
def key : ExternName → Nat × String
  | .label text => (0, folded text.toList)
  | .builder resource => (1, folded resource.toList)
  | .method resource name | .static resource name =>
    (2, folded resource.toList ++ "." ++ folded name.toList)
  | .interface text => (3, text)
  | .dependency text => (4, text)
  | .url text => (5, text)
  | .digest text => (6, text)

end ExternName

end TwinEngine.Component
