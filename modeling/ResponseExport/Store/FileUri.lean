import ResponseExport.Error.Store
import ResponseExport.Text.Urlencoded

/-!
# `ResponseExport.Store.FileUri`: the names of database files

The engine below the tables takes the name of a file as it stands, unless it starts with `file:`.
Then it is a URI: an authority, which has to be this machine; a name; options behind a question
mark, which may change how the file is opened; and a fragment behind `#`, which is cut off. A
percent sign and two digits stand for a byte, and a zero byte ends the part in which it stands.

`FileUri.read` takes such a name apart, and `FileUri.access` says how the file is to be opened.
-/

set_option autoImplicit false

namespace ResponseExport.Store

/-- What may be done to a file. -/
inductive Access where
  /-- Nothing is said about that. -/
  | unsaid
  | read
  | write
  /-- It may be written, and is made if it is not there. -/
  | create
  deriving Repr, DecidableEq

/-- A higher rank allows more. -/
def Access.rank : Access → Nat
  | .unsaid => 0
  | .read => 1
  | .write => 2
  | .create => 6

/-- The way in which a database is opened. -/
structure Mode where
  access : Access
  /-- Is it held in memory? -/
  inMemory : Bool
  deriving Repr, DecidableEq

/-- The name of a file, with its options. -/
structure FileUri where
  name : String
  options : List (String × String) := []
  deriving Repr, DecidableEq

namespace FileUri

/-- What a part of a URI stands for. -/
def part (bs : List UInt8) : String :=
  Text.ofBytesLossy ((Text.percentDecode bs).takeWhile (· != 0))

/-- The options of a URI. Those without a name are passed over. -/
def optionsOf (query : List UInt8) : List (String × String) :=
  ((Text.splitAt 38 query).map fun piece =>
    (part (piece.takeWhile (· != 61)), part ((piece.dropWhile (· != 61)).drop 1))).filter
      (!·.1.isEmpty)

/-- What stands behind `file:` and an authority. -/
def ofBytes (bs : List UInt8) : FileUri :=
  let bs := bs.takeWhile (· != 35)
  ⟨part (bs.takeWhile (· != 63)), optionsOf ((bs.dropWhile (· != 63)).drop 1)⟩

/-- What stands behind `file:`. -/
def ofReference (bs : List UInt8) : Except EngineError FileUri :=
  match bs with
  | 47 :: 47 :: rest =>
    let authority := Text.ofBytesLossy (rest.takeWhile (· != 47))
    if authority = "" ∨ authority = "localhost" then .ok (ofBytes (rest.dropWhile (· != 47)))
    else .error (.refused 1 s!"invalid uri authority: {authority}")
  | bs => .ok (ofBytes bs)

/-- Reads the name of a file. -/
def read (name : String) : Except EngineError FileUri :=
  match Text.bytes name with
  | 102 :: 105 :: 108 :: 101 :: 58 :: rest => ofReference rest
  | _ => .ok ⟨name, []⟩

/-! ### Options -/

/-- The access that an option asks for. -/
def accessOf? (value : String) : Option Access :=
  match value with
  | "ro" => some .read
  | "rw" => some .write
  | "rwc" => some .create
  | _ => none

/-- Applies an option. More access than is allowed cannot be asked for, except in memory. -/
def applyOption (m : Mode) (name value : String) : Except EngineError Mode :=
  match name with
  | "cache" =>
    if value = "shared" ∨ value = "private" then .ok m
    else .error (.refused 1 s!"no such cache mode: {value}")
  | "mode" =>
    if value = "memory" then .ok ⟨.unsaid, true⟩
    else
      match accessOf? value with
      | none => .error (.refused 1 s!"no such access mode: {value}")
      | some a =>
        if m.inMemory ∨ a.rank ≤ m.access.rank then .ok ⟨a, false⟩
        else .error (.refused 3 s!"access mode not allowed: {value}")
  | _ => .ok m

/-- Applies options from left to right; the first one that is refused counts. -/
def applyOptions (m : Mode) : List (String × String) → Except EngineError Mode
  | [] => .ok m
  | (name, value) :: rest =>
    match applyOption m name value with
    | .ok m => applyOptions m rest
    | .error e => .error e

/-- How the file is opened if one starts from a mode. -/
def mode (u : FileUri) (start : Mode) : Except EngineError Mode := applyOptions start u.options

/-- The file system below, which is the last that is named. -/
def vfs (u : FileUri) : String := (u.options.reverse.lookup "vfs").getD "unix"

/-- The number that the digits at the start of some bytes stand for in a base. -/
def numberIn (base : Nat) (bs : List UInt8) : Nat :=
  let value? (b : UInt8) : Option Nat := (Text.hexDigit? b).filter (· < base)
  (bs.takeWhile fun b => (value? b).isSome).foldl (fun n b => n * base + (value? b).getD 0) 0

/-- The number at the start of an option's value. Behind `0x` it has base sixteen. -/
def leadingNumber (value : List UInt8) : Nat :=
  match value with
  | 48 :: x :: c :: rest =>
    if (x = 120 ∨ x = 88) ∧ (Text.hexDigit? c).isSome then numberIn 16 (c :: rest)
    else numberIn 10 value
  | value => numberIn 10 value

/-- The least number that an option's value cannot be. -/
def numberBound : Nat := 2147483648

/-- Does an option's value mean yes? Of a number the lowest eight bits count. -/
def isYes (value : String) : Bool :=
  if (value.toList.head?.map Char.isDigit).getD false then
    let n := leadingNumber (Text.bytes value)
    n < numberBound && n % 256 != 0
  else ["on", "yes", "true"].contains value.toLower

/-- The first value of an option. -/
def option? (u : FileUri) (name : String) : Option String := u.options.lookup name

/-- Is the file said never to change? -/
def isImmutable (u : FileUri) : Bool := ((u.option? "immutable").map isYes).getD false

end FileUri

end ResponseExport.Store
