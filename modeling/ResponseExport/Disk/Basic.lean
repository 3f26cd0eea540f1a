/-!
# `ResponseExport.Disk.Basic`: what stands where on a machine

A `Disk` maps places to directories, files, devices and links. A place is the list of the names on
the way there from the root, so that the root is the empty list and is always a directory. Where a
program is (`here`) belongs to the disk as it sees it.
-/

set_option autoImplicit false

namespace ResponseExport

/-- Why a file cannot be had. -/
inductive FileError where
  | notFound
  | noDevice
  | denied
  | alreadyExists
  | notDirectory
  | isDirectory
  | noSpace
  | nameTooLong
  /-- The name holds a NUL character. -/
  | invalidName
  deriving Repr, DecidableEq

/-- The wording of a file's fault. The operating system has a number for each, but for the last,
which is found before it is asked. -/
def FileError.message : FileError → String
  | .notFound => "No such file or directory (os error 2)"
  | .noDevice => "No such device or address (os error 6)"
  | .denied => "Permission denied (os error 13)"
  | .alreadyExists => "File exists (os error 17)"
  | .notDirectory => "Not a directory (os error 20)"
  | .isDirectory => "Is a directory (os error 21)"
  | .noSpace => "No space left on device (os error 28)"
  | .nameTooLong => "File name too long (os error 36)"
  | .invalidName => "file name contained an unexpected NUL byte"

/-- The names on the way to a place from the root. -/
abbrev Place := List String

/-- What is no file but is written to like one. -/
inductive Device where
  /-- It takes everything and keeps nothing. -/
  | sink
  /-- The standard output of the program. -/
  | output
  /-- The standard error of the program. -/
  | errors
  /-- It takes nothing. -/
  | full
  /-- It has a name, but cannot be opened. -/
  | unplugged
  deriving Repr, DecidableEq

/-- What stands at a place. -/
inductive Node where
  /-- A directory. If it is closed, nothing new can be made in it, for the reason given. -/
  | directory (closed : Option FileError)
  | file (data : List UInt8)
  | device (d : Device)
  /-- Another name for what stands at a place. That is no link itself. -/
  | link (target : Place)
  deriving Repr, DecidableEq

namespace Node

/-- Is it a directory? -/
def isDirectory : Node → Bool
  | .directory _ => true
  | _ => false

/-- What comes out of it when it is read. -/
def read : Node → Except FileError (List UInt8)
  | .directory _ => .error .isDirectory
  | .file data => .ok data
  | .device .unplugged => .error .noDevice
  | .device _ => .ok []
  | .link _ => .error .notFound

end Node

/-- The files of a machine, as a program sees them. -/
structure Disk where
  /-- The working directory. -/
  here : Place := []
  /-- What stands where. The first entry of a place counts. -/
  nodes : List (Place × Node) := []
  deriving Repr, DecidableEq

namespace Disk

/-- The longest name, in bytes. -/
def maxName : Nat := 255

/-- The longest path, in bytes. -/
def maxPath : Nat := 4095

/-- The parts of a path, between its slashes. Those before a slash at the start and behind one at the
end are empty. -/
def parts (path : String) : List String :=
  (path.toList.splitOnP (· == '/')).map String.ofList

/-- The path of a place. -/
def pathOf (p : Place) : String := String.join (p.map ("/" ++ ·))

/-- Is a path followed from the root? -/
def isAbsolute (path : String) : Bool := path.startsWith "/"

/-- Does a part of a path stay where it is? -/
def isStay (part : String) : Bool := part == "" || part == "."

/-- What stands at a place. -/
def node? (d : Disk) (p : Place) : Option Node :=
  if p = [] then some (.directory none) else d.nodes.lookup p

/-- The place that is meant by a place: another one if a link stands there. -/
def land (d : Disk) (p : Place) : Place :=
  match d.node? p with
  | some (.link target) => target
  | _ => p

/-- Puts something at a place, instead of what stood there. -/
def put (p : Place) (n : Node) : List (Place × Node) → List (Place × Node)
  | [] => [(p, n)]
  | (q, m) :: rest => if q = p then (q, n) :: rest else (q, m) :: put p n rest

/-- Replaces what the file at a place holds. -/
def write (d : Disk) (p : Place) (data : List UInt8) : Disk :=
  { d with nodes := put p (.file data) d.nodes }

/-- What was put at a place stands there. -/
theorem lookup_put (p : Place) (n : Node) (nodes : List (Place × Node)) :
    (put p n nodes).lookup p = some n := by
  induction nodes with
  | nil => simp [put]
  | cons entry rest ih =>
    obtain ⟨q, m⟩ := entry
    by_cases h : q = p
    · simp [put, h]
    · have h' : (p == q) = false := by simpa using fun e => h e.symm
      simp [put, h, List.lookup_cons, h', ih]

/-- Nothing else is changed by it. -/
theorem lookup_put_of_ne {p q : Place} (h : q ≠ p) (n : Node) (nodes : List (Place × Node)) :
    (put p n nodes).lookup q = nodes.lookup q := by
  induction nodes with
  | nil =>
    have h' : (q == p) = false := by simpa using h
    simp [put, List.lookup_cons, h']
  | cons entry rest ih =>
    obtain ⟨r, m⟩ := entry
    by_cases hr : r = p
    · have h' : (q == p) = false := by simpa using h
      simp [put, hr, List.lookup_cons, h']
    · by_cases hq : q == r <;> simp [put, hr, List.lookup_cons, hq, ih]

end Disk

end ResponseExport
