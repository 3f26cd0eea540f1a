import ResponseExport.Disk.Basic

/-!
# `ResponseExport.Disk.Path`: following paths

A path is followed part by part from the root or from the working directory, and every part but the
last has to lead to a directory that is there; `..` leads up from where one has come to. `Disk.find`
follows a path to something that is there. `Disk.create` follows it to a file that is emptied, or
made if it is not there yet; what it answers says where the bytes go that are written next.
-/

set_option autoImplicit false

namespace ResponseExport

/-- Where written bytes go. -/
inductive Outlet where
  /-- Into the file at a place. -/
  | file (p : Place)
  /-- To a device. -/
  | device (d : Device)
  deriving Repr, DecidableEq

namespace Disk

/-- The fault of a name that is too long for a directory. A closed one does not measure names: it
has no such name. -/
def tooLong (closed : Option FileError) : FileError :=
  if closed.isSome then .notFound else .nameTooLong

/-- Goes from a place, which has to be a directory, into one of its parts. That need not be there
yet. -/
def enter (d : Disk) (p : Place) (part : String) : Except FileError Place :=
  match d.node? p with
  | none => .error .notFound
  | some (.directory closed) =>
    if isStay part then .ok p
    else if part = ".." then .ok p.dropLast
    else if maxName < part.utf8ByteSize then .error (tooLong closed)
    else .ok (d.land (p ++ [part]))
  | some _ => .error .notDirectory

/-- Goes from a place through the parts of a path. -/
def walk (d : Disk) (start : Place) (ps : List String) : Except FileError Place :=
  ps.foldlM d.enter start

/-- What the parts of a path lead to. -/
def follow (d : Disk) (start : Place) (ps : List String) : Except FileError Node :=
  match d.walk start ps with
  | .error e => .error e
  | .ok p =>
    match d.node? p with
    | some n => .ok n
    | none => .error .notFound

/-- What is wrong with a path itself, before it is followed. -/
def fault? (path : String) : Option FileError :=
  if path.toList.contains '\x00' then some .invalidName
  else if path.isEmpty then some .notFound
  else if maxPath < path.utf8ByteSize then some .nameTooLong
  else none

/-- Where a path starts. -/
def start (d : Disk) (path : String) : Place := if isAbsolute path then [] else d.here

/-- What stands at the end of a path. -/
def find (d : Disk) (path : String) : Except FileError Node :=
  match fault? path with
  | some e => .error e
  | none => d.follow (d.start path) (parts path)

/-- What comes out of the file at the end of a path. -/
def read (d : Disk) (path : String) : Except FileError (List UInt8) := (d.find path).bind Node.read

/-- Makes an empty file at a place, or empties the one that is there. Devices stay as they are. -/
def createAt (d : Disk) (p : Place) : Except FileError (Disk × Outlet) :=
  match d.node? p with
  | some (.directory _) => .error .isDirectory
  | some (.device .unplugged) => .error .noDevice
  | some (.device v) => .ok (d, .device v)
  | some (.file _) => .ok (d.write p [], .file p)
  | some (.link _) => .error .notFound
  | none =>
    match d.node? p.dropLast with
    | some (.directory none) => .ok (d.write p [], .file p)
    | some (.directory (some e)) => .error e
    | some _ => .error .notDirectory
    | none => .error .notFound

/-- Makes an empty file at a path, or empties the one that is there. A path that ends in a slash, or
in a part without a name, means a directory. -/
def create (d : Disk) (path : String) : Except FileError (Disk × Outlet) :=
  match fault? path with
  | some e => .error e
  | none =>
    let named := ((parts path).reverse.dropWhile (· == "")).reverse
    match d.walk (d.start path) (named.dropLast ++ ["."]) with
    | .error e => .error e
    | .ok p =>
      let last := named.getLastD "."
      if isStay last || last == ".." || named.length < (parts path).length then .error .isDirectory
      else (d.enter p last).bind d.createAt

end Disk

end ResponseExport
