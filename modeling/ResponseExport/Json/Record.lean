import ResponseExport.Json.Doc

/-!
# `ResponseExport.Json.Record`: records and variants in JSON

A record is an object with named fields, or an array of its fields in order of declaration. In an
object, members of other names are passed over, no field may occur twice, and a field that may be
absent may be left out; an array gives every field. A variant is its name, or an object of one
member: the name and what it carries.
-/

set_option autoImplicit false

namespace ResponseExport.Json

namespace Doc

/-- The document of a field in an object; `none` if the field is left out. -/
def member? (name : String) : List (Option String × Doc) → Option Doc
  | [] => none
  | (k, d) :: ms => if k = some name then some d else member? name ms

/-- Is every key a text, and does no field occur twice? -/
def areFields (names : List String) (members : List (Option String × Doc)) : Bool :=
  members.all (·.1.isSome) && names.all fun n => members.countP (·.1 == some n) ≤ 1

/-- The fields of a record in order of `names`; `none` for one that is left out. -/
def fields? (names : List String) : Doc → Option (List (Option Doc))
  | .array items => if items.length = names.length then some (items.map some) else none
  | .object members =>
    if areFields names members then some (names.map fun n => member? n members) else none
  | _ => none

/-- A field that has to be a text. -/
def text? : Option Doc → Option String
  | some (.literal s) => s
  | _ => none

/-- A field that may be absent or `null`. -/
def optional? {α : Type} (read : Option Doc → Option α) : Option Doc → Option (Option α)
  | none => some none
  | some .null => some none
  | some d => (read (some d)).map some

/-- A field that has to be an integer from `low` to `high`. -/
def integer? (low high : Int) : Option Doc → Option Int
  | some (.numeral n) =>
    match n.number? with
    | some (.integer i) => if low ≤ i ∧ i ≤ high then some i else none
    | _ => none
  | _ => none

/-- The least signed integer of 64 bits, `-2^63`. -/
def minInt64 : Int := -9223372036854775808

/-- The greatest signed integer of 64 bits, `2^63 - 1`. -/
def maxInt64 : Int := 9223372036854775807

/-- The greatest unsigned integer of 64 bits, `2^64 - 1`. -/
def maxCount : Int := 18446744073709551615

/-- A field that has to be a signed integer of 64 bits. -/
def int64? (d : Option Doc) : Option Int64 := (integer? minInt64 maxInt64 d).map Int64.ofInt

/-- A field that has to be an unsigned integer of 64 bits. -/
def count? (d : Option Doc) : Option Nat := (integer? 0 maxCount d).map Int.toNat

/-- The name of a variant, and what it carries: `none` if only the name is given. -/
def variant? : Doc → Option (String × Option Doc)
  | .literal (some s) => some (s, none)
  | .object [(some s, d)] => some (s, some d)
  | _ => none

/-- Does a variant carry nothing? -/
def isUnit : Option Doc → Bool
  | none => true
  | some .null => true
  | some _ => false

end Doc

end ResponseExport.Json
