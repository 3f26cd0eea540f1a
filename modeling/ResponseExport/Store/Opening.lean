import ResponseExport.Disk.Path
import ResponseExport.Store.Address
import ResponseExport.Store.Files
import ResponseExport.Store.Tables

/-!
# `ResponseExport.Store.Opening`: opening a database

`Address.open` looks for the file of an address, or finds that it has none; `connect` reads the
address first. A file that was not there is made by that (`Opened.leave`). What was opened may hold
nothing yet: `Opened.prepare` makes the tables then, which is refused if nothing may be written.
-/

set_option autoImplicit false

namespace ResponseExport.Store

/-- What was opened. -/
structure Opened where
  /-- The place of the file; none if there is no file, and nothing is held. -/
  file : Option Place
  isWritable : Bool
  deriving Repr, DecidableEq

/-- The file systems that the engine knows. -/
def knownVfs : List String := ["unix", "unix-dotfile", "unix-excl", "unix-none", "memdb"]

/-- The fault of a file that cannot be opened. -/
def cannotOpen : EngineError := .refused 14 "unable to open database file"

/-- The fault of a file whose state cannot be asked for. -/
def cannotAsk : EngineError := .refused 1802 "disk I/O error"

/-- The fault of a file that cannot be read. -/
def cannotRead : EngineError := .refused 266 "disk I/O error"

/-- The fault of the option that names a file to take the permissions of a new one from: it has to
be there. -/
def modelFault? (disk : Disk) (u : FileUri) : Option EngineError :=
  match u.option? "modeof" with
  | none => none
  | some path =>
    match disk.find path with
    | .ok _ => none
    | .error _ => some cannotAsk

/-- Can a file be made at a place? -/
def isOpenFor (disk : Disk) (p : Place) : Bool :=
  match disk.node? p.dropLast with
  | some (.directory none) => true
  | _ => false

/-- Opens what stands at a place. A directory can be opened to be read, but then not be read. -/
def openNode (disk : Disk) (p : Place) (access : Access) (isWritable : Bool) :
    Except EngineError Opened :=
  match disk.node? p with
  | some (.file _) => .ok ⟨some p, isWritable⟩
  | some (.device .sink) => .ok ⟨some p, isWritable⟩
  | some (.device .full) => .ok ⟨some p, isWritable⟩
  | some (.directory _) => .error (if access = .read then cannotRead else cannotOpen)
  | some _ => .error cannotOpen
  | none =>
    if access = .create ∧ isOpenFor disk p = true then .ok ⟨some p, isWritable⟩
    else .error cannotOpen

/-- Opens a file below the file system of the machine. One whose journal would have too long a name
can only be read. -/
def openFile (disk : Disk) (u : FileUri) (access : Access) : Except EngineError Opened :=
  match Files.resolve? disk u.name with
  | none => .error cannotOpen
  | some p =>
    if p = [] ∨ Files.maxPath < Files.size (Disk.pathOf p ++ Files.journalEnding) then
      .error cannotOpen
    else
      match modelFault? disk u with
      | some e => .error e
      | none =>
        openNode disk p access (access != .read && !u.isImmutable &&
          Files.size (p.getLastD "" ++ Files.journalEnding) ≤ Disk.maxName)

/-- Opens the database of an address, which is made if it is not there. One without a name, or in
memory, has no file. -/
def Address.open (a : Address) (disk : Disk) : Except EngineError Opened := do
  let u ← a.uri
  let mode ← u.mode a.mode
  let isRead := mode.access == .read
  if !knownVfs.contains u.vfs then .error (.refused 1 s!"no such vfs: {u.vfs}")
  else if mode.inMemory || u.name == ":memory:" || u.name == "" then .ok ⟨none, !isRead⟩
  else if u.vfs == "memdb" then
    if Files.maxMemoryPath < Files.size (u.name ++ Files.journalEnding) then .error cannotOpen
    else .ok ⟨none, !isRead && !u.isImmutable⟩
  else openFile disk u mode.access

/-- Reads an address and opens the database there. -/
def connect (url : String) (disk : Disk) : Except StoreError Opened :=
  match Address.read url with
  | .error e => .error (.connection ("Invalid database URL: " ++ e.message))
  | .ok a =>
    match a.open disk with
    | .error e => .error (.connection ("Database connection failed: " ++ e.message))
    | .ok o => .ok o

/-- What opening leaves on the disk: an empty file, if none was there. -/
def Opened.leave (o : Opened) (disk : Disk) : Disk :=
  match o.file with
  | none => disk
  | some p => if (disk.node? p).isNone then disk.write p [] else disk

/-! ### Contents -/

/-- What a file holds. -/
inductive Content where
  | empty
  | store (s : Store)
  /-- Anything else. -/
  | foreign
  /-- Nothing, and nothing is kept that is written. -/
  | device
  deriving Repr, DecidableEq

/-- What bytes hold, if `read` reads a store from them. A single byte is as good as none. -/
def Content.ofBytes (read : List UInt8 → Option Store) (bs : List UInt8) : Content :=
  if bs.length ≤ 1 then .empty
  else
    match read bs with
    | some s => .store s
    | none => .foreign

/-- What stands at a place of a disk holds, if `read` reads a store from bytes. -/
def Content.at (disk : Disk) (read : List UInt8 → Option Store) (p : Place) : Content :=
  match disk.node? p with
  | some (.file data) => .ofBytes read data
  | some (.device _) => .device
  | _ => .empty

/-- The fault of making the first table. -/
def notPrepared (code : Nat) (reason : String) : StoreError :=
  .migration ("Failed to create migrations table: " ++ (EngineError.refused code reason).message)

/-- The store behind what was opened, with its tables. Where there are none they are made. -/
def Opened.prepare (o : Opened) (content : Place → Content) : Except StoreError Store :=
  match (o.file.map content).getD .empty with
  | .store s => .ok s
  | .foreign => .error (notPrepared 26 "file is not a database")
  | .empty =>
    if o.isWritable then .ok {}
    else .error (notPrepared 8 "attempt to write a readonly database")
  | .device =>
    .error (if o.isWritable then notPrepared 1034 "disk I/O error"
      else notPrepared 8 "attempt to write a readonly database")

end ResponseExport.Store
