/-!
# `ResponseExport.Text.Base64`: bytes in a URL

Three bytes are written as four symbols out of `A`-`Z`, `a`-`z`, `0`-`9`, `-` and `_`; one or two
bytes left over are written as two or three symbols, without padding. Reading accepts nothing but
what writing produces, and says what is wrong with the rest.
-/

set_option autoImplicit false

namespace ResponseExport.Text.Base64

/-- The symbol of a value below 64. -/
def symbol (n : Nat) : Char :=
  if n < 26 then Char.ofNat (65 + n)
  else if n < 52 then Char.ofNat (97 + (n - 26))
  else if n < 62 then Char.ofNat (48 + (n - 52))
  else if n = 62 then '-' else '_'

/-- The value of a symbol, given by its byte. -/
def value? (b : UInt8) : Option Nat :=
  let n := b.toNat
  if 65 ≤ n ∧ n ≤ 90 then some (n - 65)
  else if 97 ≤ n ∧ n ≤ 122 then some (n - 97 + 26)
  else if 48 ≤ n ∧ n ≤ 57 then some (n - 48 + 52)
  else if n = 45 then some 62
  else if n = 95 then some 63
  else none

/-- The values of the symbols that write a byte sequence: 24 bits in four times six. -/
def sextets : List UInt8 → List Nat
  | a :: b :: c :: rest =>
    let n := (a.toNat * 256 + b.toNat) * 256 + c.toNat
    n / 262144 :: n / 4096 % 64 :: n / 64 % 64 :: n % 64 :: sextets rest
  | [a, b] =>
    let n := (a.toNat * 256 + b.toNat) * 4
    [n / 4096, n / 64 % 64, n % 64]
  | [a] => [a.toNat * 16 / 64, a.toNat * 16 % 64]
  | [] => []

/-- The text of a byte sequence. -/
def encode (bs : List UInt8) : String := String.ofList ((sextets bs).map symbol)

/-- What is wrong with a text that writes no byte sequence. -/
inductive Fault where
  /-- A byte that is no symbol. -/
  | invalidByte (byte : UInt8) (offset : Nat)
  /-- One symbol is left over: six bits make no byte. -/
  | oneLeftOver
  /-- The last symbol has bits beyond the last byte. -/
  | invalidLast (byte : UInt8) (offset : Nat)
  /-- The text is padded. -/
  | padded
  deriving Repr, DecidableEq

/-- The wording of a fault. -/
def Fault.message : Fault → String
  | .invalidByte b i => s!"Invalid byte {b.toNat}, offset {i}."
  | .oneLeftOver => "Encoded text cannot have a 6-bit remainder."
  | .invalidLast b i => s!"Invalid last symbol {b.toNat}, offset {i}."
  | .padded => "Invalid padding"

/-- The bytes that a sequence of sextets holds; bits that fill no byte are left out. -/
def octets : List Nat → List UInt8
  | a :: b :: c :: d :: rest =>
    let n := ((a * 64 + b) * 64 + c) * 64 + d
    UInt8.ofNat (n / 65536) :: UInt8.ofNat (n / 256 % 256) :: UInt8.ofNat (n % 256) :: octets rest
  | [a, b, c] =>
    let n := ((a * 64 + b) * 64 + c) / 4
    [UInt8.ofNat (n / 256), UInt8.ofNat (n % 256)]
  | [a, b] => [UInt8.ofNat ((a * 64 + b) / 16)]
  | _ => []

/-- The bits of the last sextet that fill no byte. -/
def spareBits : List Nat → Nat
  | _ :: _ :: _ :: _ :: rest => spareBits rest
  | [_, _, c] => c % 4
  | [_, b] => b % 16
  | _ => 0

/-- A padding sign counts as padding where a group of four may be padded: in third or fourth
place, with nothing but padding behind it to the end of the group. -/
def isPadding (offset : Nat) (rest : List UInt8) : Bool :=
  2 ≤ offset % 4 && rest.all (· == 61) && (offset + rest.length) / 4 == offset / 4

/-- The first byte that is no symbol, looking from `offset` on. -/
def firstForeign : Nat → List UInt8 → Option Fault
  | _, [] => none
  | offset, b :: rest =>
    match value? b with
    | some _ => firstForeign (offset + 1) rest
    | none =>
      if b = 61 ∧ isPadding offset rest then some .padded else some (.invalidByte b offset)

/-- Is the text impossibly long, and what is said about it. The last byte is looked at first. -/
def lengthFault? (bs : List UInt8) : Option Fault :=
  if bs.length % 4 = 1 then
    match bs.getLast? with
    | some b =>
      if (value? b).isNone ∧ b ≠ 61 then some (.invalidByte b (bs.length - 1))
      else some .oneLeftOver
    | none => some .oneLeftOver
  else none

/-- Reads a text, given by its bytes. -/
def decode (bs : List UInt8) : Except Fault (List UInt8) :=
  match lengthFault? bs with
  | some fault => .error fault
  | none =>
    match firstForeign 0 bs with
    | some fault => .error fault
    | none =>
      let values := bs.filterMap value?
      if spareBits values = 0 then .ok (octets values)
      else .error (.invalidLast (bs.getLast?.getD 0) (bs.length - 1))

end ResponseExport.Text.Base64
