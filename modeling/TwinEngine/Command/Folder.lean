/-!
Contract: finding the input file.

Owns: why a file cannot be read, and where a path leads in a folder of plain files.

Does not own: files of the outside (`Main`).
-/

namespace TwinEngine.Command

inductive ReadFailure where
  | missing
  | denied
  | throughFile
  | isFolder
  | nameTooLong
  | other (text : String)
deriving DecidableEq, Repr

def ReadFailure.message : ReadFailure → String
  | .missing => "No such file or directory (os error 2)"
  | .denied => "Permission denied (os error 13)"
  | .throughFile => "Not a directory (os error 20)"
  | .isFolder => "Is a directory (os error 21)"
  | .nameTooLong => "File name too long (os error 36)"
  | .other text => text

abbrev Contents := Except ReadFailure (List UInt8)

abbrev Folder := List (String × List UInt8)

def nameLengthLimit : Nat := 255

def pathLengthLimit : Nat := 4096

/-- Where a path has led so far. Of the places outside the folder nothing is known but that they
are folders too. -/
inductive Place where
  | here
  | outside
  | file (bytes : List UInt8)
deriving DecidableEq, Repr

namespace Place

def named (folder : Folder) (place : Place) (name : String) : Except ReadFailure Place :=
  if nameLengthLimit < name.utf8ByteSize then .error .nameTooLong
  else
    match place, folder.lookup name with
    | .here, some bytes => .ok (.file bytes)
    | _, _ => .error .missing

/-- Follow one part of a path. Nothing leads on from a file. -/
def follow (folder : Folder) (place : Place) (part : String) : Except ReadFailure Place :=
  match place, part with
  | .file _, _ => .error .throughFile
  | place, "" | place, "." => .ok place
  | _, ".." => .ok .outside
  | place, name => place.named folder name

end Place

def Folder.read (folder : Folder) (path : String) : Contents :=
  if path.isEmpty then .error .missing
  else if pathLengthLimit ≤ path.utf8ByteSize then .error .nameTooLong
  else
    let start := if path.startsWith "/" then Place.outside else .here
    match (path.splitOn "/").foldlM (Place.follow folder) start with
    | .error failure => .error failure
    | .ok (.file bytes) => .ok bytes
    | .ok _ => .error .isFolder

end TwinEngine.Command
