/-!
# `ResponseExport.Text.Bytes`: texts and their UTF-8 bytes

Everything that leaves the service is bytes, and the tables order text by its bytes. This module
holds the passage between the two:

* `Text.bytes` and `Text.ofBytes?` are inverse to each other on valid UTF-8
  (`ofBytes?_bytes`, `bytes_of_ofBytes?`);
* `Text.order` is the order of the bytes, the one the tables use;
* `Text.step` reads one character off a byte sequence and says where UTF-8 breaks, and
  `Text.ofBytesLossy` writes U+FFFD for each broken stretch.
-/

set_option autoImplicit false

namespace ResponseExport.Text

/-- The UTF-8 bytes of a text, in order. -/
def bytes (s : String) : List UInt8 := s.toByteArray.data.toList

/-- The text with exactly these UTF-8 bytes, if they are valid UTF-8. -/
def ofBytes? (bs : List UInt8) : Option String := String.fromUTF8? ⟨bs.toArray⟩

/-- A text is read back from its bytes. -/
@[simp] theorem ofBytes?_bytes (s : String) : ofBytes? (bytes s) = some s := by
  have h : (⟨(bytes s).toArray⟩ : ByteArray) = s.toByteArray := by
    simp [bytes]
  unfold ofBytes? String.fromUTF8?
  rw [h]
  simp [s.isValidUTF8, String.fromUTF8]

/-- Two texts with the same bytes are the same text. -/
theorem bytes_injective {s t : String} (h : bytes s = bytes t) : s = t := by
  have := congrArg ofBytes? h
  simpa using this

/-- What is read from bytes has those bytes. -/
theorem bytes_of_ofBytes? {bs : List UInt8} {s : String} (h : ofBytes? bs = some s) :
    bytes s = bs := by
  unfold ofBytes? String.fromUTF8? at h
  split at h
  · obtain rfl := Option.some.inj h
    simp [bytes, String.fromUTF8]
  · simp at h

/-- Texts compared by their UTF-8 bytes. -/
def order (a b : String) : Ordering := compare (bytes a) (bytes b)

/-! ### Reading characters off bytes -/

/-- What stands at the head of a byte sequence: a character, or bytes that no character starts
with. -/
inductive Step where
  /-- A character and what follows it. -/
  | char (c : Char) (rest : List UInt8)
  /-- The longest stretch that only the wrong next byte keeps from being a character. -/
  | broken (rest : List UInt8)
  /-- A character that the end of the bytes cuts off. -/
  | cut
  deriving Repr

/-- Bytes `0x80` to `0xBF` continue a character. -/
def isTail (b : UInt8) : Bool := 0x80 ≤ b && b ≤ 0xBF

/-- The second byte that may follow `lead` in a character of three or four bytes: the shortest
form, no surrogate, nothing above U+10FFFF. -/
def isSecond (lead b : UInt8) : Bool :=
  if lead = 0xE0 then 0xA0 ≤ b && b ≤ 0xBF
  else if lead = 0xED then 0x80 ≤ b && b ≤ 0x9F
  else if lead = 0xF0 then 0x90 ≤ b && b ≤ 0xBF
  else if lead = 0xF4 then 0x80 ≤ b && b ≤ 0x8F
  else isTail b

/-- The low six bits of a continuation byte. -/
def tailBits (b : UInt8) : Nat := b.toNat % 64

/-- Reads the character at the head of `lead :: rest`. -/
def step (lead : UInt8) (rest : List UInt8) : Step :=
  if lead < 0x80 then .char (Char.ofNat lead.toNat) rest
  else if lead < 0xC2 then .broken rest
  else if lead < 0xE0 then
    match rest with
    | [] => .cut
    | b :: r =>
      if isTail b then .char (Char.ofNat ((lead.toNat - 0xC0) * 64 + tailBits b)) r
      else .broken rest
  else if lead < 0xF0 then
    match rest with
    | [] => .cut
    | [b] => if isSecond lead b then .cut else .broken rest
    | b :: c :: r =>
      if !isSecond lead b then .broken rest
      else if !isTail c then .broken (c :: r)
      else .char (Char.ofNat (((lead.toNat - 0xE0) * 64 + tailBits b) * 64 + tailBits c)) r
  else if lead < 0xF5 then
    match rest with
    | [] => .cut
    | [b] => if isSecond lead b then .cut else .broken rest
    | [b, c] =>
      if !isSecond lead b then .broken rest
      else if isTail c then .cut else .broken [c]
    | b :: c :: d :: r =>
      if !isSecond lead b then .broken rest
      else if !isTail c then .broken (c :: d :: r)
      else if !isTail d then .broken (d :: r)
      else .char (Char.ofNat
        ((((lead.toNat - 0xF0) * 64 + tailBits b) * 64 + tailBits c) * 64 + tailBits d)) r
  else .broken rest

/-- Characters of a byte sequence, with U+FFFD for each stretch that is no character. The bound
is the number of steps still allowed; the length of the sequence is always enough. -/
def lossyChars : Nat → List UInt8 → List Char
  | _, [] => []
  | 0, _ => []
  | n + 1, b :: rest =>
    match step b rest with
    | .char c r => c :: lossyChars n r
    | .broken r => '\uFFFD' :: lossyChars n r
    | .cut => ['\uFFFD']

/-- The text of a byte sequence, with U+FFFD for each stretch that is no character. -/
def ofBytesLossy (bs : List UInt8) : String := String.ofList (lossyChars bs.length bs)

/-- Where UTF-8 breaks. -/
structure Break where
  /-- How many bytes before the break are valid. -/
  offset : Nat
  /-- How many bytes are wrong, or `none` if a character is cut off by the end. -/
  length : Option Nat
  deriving Repr, DecidableEq

/-- The first place where a byte sequence stops being UTF-8, looking from byte `at` on. -/
def breakFrom : Nat → Nat → List UInt8 → Option Break
  | _, _, [] => none
  | 0, _, _ => none
  | n + 1, start, b :: rest =>
    match step b rest with
    | .char _ r => breakFrom n (start + (rest.length + 1 - r.length)) r
    | .broken r => some ⟨start, some (rest.length + 1 - r.length)⟩
    | .cut => some ⟨start, none⟩

/-- The first place where a byte sequence stops being UTF-8. -/
def firstBreak (bs : List UInt8) : Option Break := breakFrom bs.length 0 bs

/-- The wording of a break. -/
def Break.message (b : Break) : String :=
  match b.length with
  | some n => s!"invalid utf-8 sequence of {n} bytes from index {b.offset}"
  | none => s!"incomplete utf-8 byte sequence from index {b.offset}"

end ResponseExport.Text
