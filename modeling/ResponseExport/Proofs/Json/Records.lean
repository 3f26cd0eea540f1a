import ResponseExport.Json.Record
import ResponseExport.Proofs.Json.Written

/-!
# `ResponseExport.Proofs.Json.Records`: records come back from their texts

A record is written as an object with one member for each field, and read field by field.
The text is read as the document of the object (`ofText?_text`), and if the members have
distinct names, every field is found under its name (`fields?_doc`). What is left is one
lemma for each kind of field: a text, an integer, or one of these that may be absent.

Names are looked for in any order and other members are passed over, but what is written
has the fields alone, in order, so none of this is needed.
-/

set_option autoImplicit false

namespace ResponseExport.Json

/-! ### Whole values -/

namespace Value

theorem isWhole_null : Value.null.IsWhole :=
  (all_of_parts rfl).mpr fun _ h => by cases h

theorem isWhole_string (s : String) : (Value.string s).IsWhole :=
  (all_of_parts rfl).mpr fun _ h => by cases h

theorem isWhole_ofInt (n : Int) : (ofInt n).IsWhole :=
  (all_of_parts rfl).mpr fun _ h => by cases h

theorem isWhole_ofOption {α : Type} {f : α → Value} (h : ∀ a, (f a).IsWhole) (o : Option α) :
    (ofOption f o).IsWhole := by
  cases o with
  | none => exact isWhole_null
  | some a => exact h a

theorem isWhole_ofOption_string (o : Option String) : (ofOption string o).IsWhole :=
  isWhole_ofOption isWhole_string o

theorem isWhole_object {members : List (String × Value)} (h : ∀ m ∈ members, m.2.IsWhole) :
    (Value.object members).IsWhole :=
  all_object.mpr ⟨(fun _ heq => by cases heq), h⟩

end Value

/-! ### Fields -/

namespace Doc

/-- Reads a text as something that documents are read as. -/
def readText? {α : Type} (ofDoc? : Doc → Option α) (s : String) : Option α :=
  (Doc.ofText? s).bind ofDoc?

/-- The text of a value is read as whatever its document is read as. -/
theorem readText?_text {α : Type} (ofDoc? : Doc → Option α) {v : Value} (h : v.IsWhole) :
    readText? ofDoc? v.text = ofDoc? v.doc := by
  rw [readText?, (Value.isIn_text h).ofText?]
  rfl

theorem memberDocs_eq_map (members : List (String × Value)) :
    memberDocs members = members.map fun m => (some m.1, m.2.doc) := by
  induction members with
  | nil => rfl
  | cons m ms ih => rw [memberDocs, ih, List.map_cons]

/-- Members under distinct names are fields, none of which occurs twice. -/
theorem areFields_memberDocs {members : List (String × Value)}
    (h : (members.map Prod.fst).Nodup) :
    areFields (members.map Prod.fst) (memberDocs members) = true := by
  rw [areFields, memberDocs_eq_map, Bool.and_eq_true, List.all_eq_true, List.all_eq_true]
  constructor
  · intro m hm
    obtain ⟨member, -, rfl⟩ := List.mem_map.mp hm
    rfl
  · intro name _
    have hcount : (members.map fun m => (some m.1, m.2.doc)).countP (·.1 == some name)
        = (members.map Prod.fst).count name := by
      rw [List.count, List.countP_map, List.countP_map]
      rfl
    rw [hcount]
    exact decide_eq_true (List.nodup_iff_count_le_one.mp h name)

/-- A field is found under its name. -/
theorem member?_memberDocs {members : List (String × Value)} (h : (members.map Prod.fst).Nodup)
    {m : String × Value} (hm : m ∈ members) :
    member? m.1 (memberDocs members) = some m.2.doc := by
  induction members with
  | nil => cases hm
  | cons other members ih =>
      obtain ⟨hother, hmembers⟩ := List.nodup_cons.mp h
      rw [memberDocs, member?]
      rcases List.mem_cons.mp hm with rfl | hm
      · rw [if_pos rfl]
      · have hne : other.1 ≠ m.1 := fun heq => hother (heq ▸ List.mem_map_of_mem hm)
        rw [if_neg fun heq => hne (Option.some.inj heq), ih hmembers hm]

/-- **The fields of a record are the values of its members**, if these have distinct names. -/
theorem fields?_doc {names : List String} {members : List (String × Value)}
    (hnames : members.map Prod.fst = names) (h : names.Nodup) :
    (Value.object members).doc.fields? names = some (members.map fun m => some m.2.doc) := by
  subst hnames
  rw [Value.doc, fields?, if_pos (areFields_memberDocs h), List.map_map]
  exact congrArg some (List.map_congr_left fun m hm => member?_memberDocs h hm)

/-- **What is read from the text of a record** is what its fields make, if it is read field by
field. -/
theorem readText?_record {α : Type} (ofDoc? : Doc → Option α) (names : List String)
    {build : List (Option Doc) → Option α} (hread : ∀ d, ofDoc? d = (d.fields? names).bind build)
    {members : List (String × Value)} (hnames : members.map Prod.fst = names) (h : names.Nodup)
    (hwhole : ∀ m ∈ members, m.2.IsWhole) :
    readText? ofDoc? (Value.object members).text
      = build (members.map fun m => some m.2.doc) := by
  rw [readText?_text ofDoc? (Value.isWhole_object hwhole), hread, fields?_doc hnames h,
    Option.bind_some]

/-! ### Kinds of fields -/

theorem text?_doc (s : String) : text? (some (Value.string s).doc) = some s := rfl

/-- A field that may be absent comes back if the field itself does, and is not written as `null`. -/
theorem optional?_doc {α : Type} {read : Option Doc → Option α} {f : α → Value}
    (hread : ∀ a, read (some (f a).doc) = some a) (hnull : ∀ a, (f a).doc ≠ .null) (o : Option α) :
    optional? read (some (Value.ofOption f o).doc) = some o := by
  cases o with
  | none => rfl
  | some a =>
      have hpresent : optional? read (some (f a).doc) = (read (some (f a).doc)).map some := by
        unfold optional?
        split
        · contradiction
        · rename_i heq
          exact absurd (Option.some.inj heq) (hnull a)
        · rename_i heq
          rw [Option.some.inj heq]
      rw [Value.ofOption, hpresent, hread]
      rfl

/-- An integer within bounds that 64 bits can hold comes back. -/
theorem integer?_doc {low high n : Int} (hmin : minInt64 ≤ low) (hmax : high ≤ maxCount)
    (hlow : low ≤ n) (hhigh : n ≤ high) :
    integer? low high (some (Value.ofInt n).doc) = some n := by
  have hfits : (Value.ofInt n).IsSettled := by
    rw [Value.ofInt, Value.IsSettled, Numeral.minusLimit, Numeral.wordLimit]
    rw [minInt64] at hmin
    rw [maxCount] at hmax
    omega
  rw [Value.ofInt, Value.doc, integer?, number?_ofInt hfits]
  exact if_pos ⟨hlow, hhigh⟩

theorem int64?_doc (n : Int64) : int64? (some (Value.ofInt n.toInt).doc) = some n := by
  have hhigh : n.toInt ≤ maxInt64 := Int.le_of_lt_add_one n.toInt_lt
  rw [int64?, integer?_doc (Int.le_refl _) (by decide) n.le_toInt hhigh]
  exact congrArg some n.ofInt_toInt

theorem count?_doc {n : Nat} (h : (n : Int) ≤ maxCount) :
    count? (some (Value.ofNat n).doc) = some n := by
  rw [count?, Value.ofNat, integer?_doc (by decide) (Int.le_refl _) (Int.natCast_nonneg n) h]
  rfl

theorem optional?_string (o : Option String) :
    optional? text? (some (Value.ofOption .string o).doc) = some o :=
  optional?_doc text?_doc (fun _ h => by cases h) o

end Doc

end ResponseExport.Json
