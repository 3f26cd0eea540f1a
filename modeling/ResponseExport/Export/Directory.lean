import ResponseExport.Disk.Path

/-!
# `ResponseExport.Export.Directory`: the place of the files

Finished exports are files in one directory, which is made when the first file is. What else stands
on the disk is not the service's, but a name may lead there: one that starts with a slash, or climbs
out of the directory.
-/

set_option autoImplicit false

namespace ResponseExport.Export

/-- A file of the directory. -/
structure StoredFile where
  name : String
  data : List UInt8
  deriving Repr, DecidableEq

/-- The place where the directory is meant to be. -/
inductive Directory where
  /-- Nothing is there yet. -/
  | absent
  /-- A regular file is there. -/
  | blocked
  /-- The directory is there, with its files. -/
  | present (files : List StoredFile)
  deriving Repr, DecidableEq

/-- What the name of a file leads to. -/
inductive Target where
  /-- A file of the directory. -/
  | stored (f : StoredFile)
  /-- The directory itself, or something outside. -/
  | other (n : Node)
  deriving Repr, DecidableEq

/-- What comes out of it when it is read. -/
def Target.read : Target → Except FileError (List UInt8)
  | .stored f => .ok f.data
  | .other n => n.read

namespace Directory

/-- The files of the directory, if it is there. -/
def files? : Directory → Option (List StoredFile)
  | .present files => some files
  | _ => none

/-- Makes the directory, unless it is there. -/
def make : Directory → Except FileError Directory
  | .absent => .ok (.present [])
  | .blocked => .error .alreadyExists
  | .present files => .ok (.present files)

/-- What the parts of a path lead to from a place outside. What cannot be opened is not found out
here. -/
def beyond (outside : Disk) (p : Place) (ps : List String) : Except FileError Target :=
  match outside.follow p ps with
  | .error e => .error e
  | .ok (.device .unplugged) => .error .noDevice
  | .ok n => .ok (.other n)

/-- Follows the parts of a path from within the directory. -/
def follow (outside : Disk) (files : List StoredFile) : List String → Except FileError Target
  | [] => .ok (.other (.directory none))
  | part :: rest =>
    if Disk.isStay part then follow outside files rest
    else if part == ".." then beyond outside outside.here.dropLast rest
    else if Disk.maxName < part.utf8ByteSize then .error .nameTooLong
    else
      match files.find? fun f => f.name == part with
      | none => .error .notFound
      | some f => if rest.isEmpty then .ok (.stored f) else .error .notDirectory

/-- Is a path too long? One that starts in the directory is written behind the directory's own. -/
def isTooLong (outside : Disk) (path : String) : Bool :=
  let before := if Disk.isAbsolute path then 0 else (Disk.pathOf outside.here).utf8ByteSize + 1
  Disk.maxPath < before + path.utf8ByteSize

/-- Follows a path from the directory, whose own place is where `outside` is seen from. -/
def locate (d : Directory) (outside : Disk) (path : String) : Except FileError Target :=
  if path.toList.contains '\x00' then .error .invalidName
  else if isTooLong outside path then .error .nameTooLong
  else if Disk.isAbsolute path then beyond outside [] (Disk.parts path)
  else
    match d with
    | .absent => .error .notFound
    | .blocked => .error .notDirectory
    | .present files => follow outside files (Disk.parts path)

/-- Writes a file, in place of one with its name. -/
def put (name : String) (data : List UInt8) : List StoredFile → List StoredFile
  | [] => [⟨name, data⟩]
  | f :: fs => if f.name = name then ⟨name, data⟩ :: fs else f :: put name data fs

/-- Makes an empty file of a name that is one part of a path. -/
def create (d : Directory) (name : String) : Except FileError Directory :=
  match d with
  | .absent => .error .notFound
  | .blocked => .error .notDirectory
  | .present files =>
    if Disk.maxName < name.utf8ByteSize then .error .nameTooLong
    else .ok (.present (put name [] files))

/-- Replaces what a file of the directory holds. -/
def write (d : Directory) (name : String) (data : List UInt8) : Directory :=
  match d with
  | .present files => .present (put name data files)
  | d => d

/-- Removes a file, if it is there. -/
def remove (d : Directory) (name : String) : Directory :=
  match d with
  | .present files => .present (files.filter fun f => f.name != name)
  | d => d

end Directory

end ResponseExport.Export
