import ResponseExport.Disk.Basic

/-!
# `ResponseExport.Store.Files`: where the engine looks for files

The engine makes each path absolute before it opens a file: `Files.resolve?` goes through the parts
of the path and passes over `.` and `..` by their names alone, so that a directory that is left
again need not be there. Paths have a greatest length, and a file's journal, whose name is longer,
has to fit as well.
-/

set_option autoImplicit false

namespace ResponseExport.Store.Files

/-- The longest path in bytes. -/
def maxPath : Nat := 512

/-- The longest path of a file in memory. -/
def maxMemoryPath : Nat := 1024

/-- What a file's journal is called behind the name of the file. -/
def journalEnding : String := "-journal"

/-- The length of a text in bytes. -/
def size (s : String) : Nat := s.utf8ByteSize

/-- Can names be looked for at a place? Where nothing stands that is no fault: none is found. -/
def isSearchable (disk : Disk) (p : Place) : Bool :=
  match disk.node? p with
  | some n => n.isDirectory
  | none => true

/-- Goes from a directory into one of its parts. That part need not be there, but its name may not
be too long, and what it is looked for in may not be a file. -/
def enter (disk : Disk) (p : Place) (part : String) : Option Place :=
  if Disk.isStay part then some p
  else if part = ".." then some p.dropLast
  else if maxPath ≤ size (Disk.pathOf p) + size part + 1 then none
  else if Disk.maxName < size part ∨ isSearchable disk p = false then none
  else some (disk.land (p ++ [part]))

/-- The place that a path means. -/
def resolve? (disk : Disk) (path : String) : Option Place :=
  ((if Disk.isAbsolute path then [] else disk.here) ++ Disk.parts path).foldlM (enter disk) []

end ResponseExport.Store.Files
