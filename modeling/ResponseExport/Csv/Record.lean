/-!
# `ResponseExport.Csv.Record`: a row before it is written

A record is a map from column names to texts that keeps its order: the order in which the keys were
first pushed. When the columns of a file are taken from its first row, they are its keys in this
order.
-/

set_option autoImplicit false

namespace ResponseExport.Csv

/-- Sets the value of a key: in place if the key is there, at the end if it is new. -/
def setField (key value : String) : List (String × String) → List (String × String)
  | [] => [(key, value)]
  | (k, v) :: rest => if k = key then (k, value) :: rest else (k, v) :: setField key value rest

/-- The value of a key. -/
def getField? (key : String) : List (String × String) → Option String
  | [] => none
  | (k, v) :: rest => if k = key then some v else getField? key rest

/-- A key that is not there is put at the end. -/
theorem setField_of_not_mem {key : String} (value : String) {fields : List (String × String)}
    (h : key ∉ fields.map Prod.fst) : setField key value fields = fields ++ [(key, value)] := by
  induction fields with
  | nil => rfl
  | cons field fields ih =>
      rw [List.map_cons, List.mem_cons, not_or] at h
      rw [setField, if_neg (Ne.symm h.1), ih h.2]
      rfl

/-- A key that is there keeps its place, and so do all others. -/
theorem map_fst_setField_of_mem {key : String} (value : String) {fields : List (String × String)}
    (h : key ∈ fields.map Prod.fst) :
    (setField key value fields).map Prod.fst = fields.map Prod.fst := by
  induction fields with
  | nil => cases h
  | cons field fields ih =>
      obtain ⟨k, v⟩ := field
      rw [setField]
      by_cases hk : k = key
      · rw [if_pos hk]
        rfl
      · have hrest : key ∈ fields.map Prod.fst :=
          (List.mem_cons.mp h).resolve_left (Ne.symm hk)
        rw [if_neg hk, List.map_cons, List.map_cons, ih hrest]

/-- Setting a value brings no key in twice. -/
theorem nodup_setField (key value : String) {fields : List (String × String)}
    (h : (fields.map Prod.fst).Nodup) : ((setField key value fields).map Prod.fst).Nodup := by
  by_cases hkey : key ∈ fields.map Prod.fst
  · rwa [map_fst_setField_of_mem value hkey]
  · rw [setField_of_not_mem value hkey, List.map_append, List.nodup_append]
    refine ⟨h, List.nodup_cons.mpr ⟨List.not_mem_nil, List.nodup_nil⟩, fun k hk k' hk' => ?_⟩
    -- The only key behind the others is the new one.
    obtain rfl := List.mem_singleton.mp hk'
    exact fun heq => hkey (heq ▸ hk)

/-- A row: values under distinct keys, in the order in which the keys were first pushed. -/
@[ext]
structure Record where
  fields : List (String × String)
  nodup_keys : (fields.map Prod.fst).Nodup := by decide
  deriving Repr, DecidableEq

namespace Record

/-- The record without fields. -/
def empty : Record := { fields := [] }

/-- Sets the value of a key: in place if the key is there, at the end if it is new. -/
def push (r : Record) (key value : String) : Record where
  fields := setField key value r.fields
  nodup_keys := nodup_setField key value r.nodup_keys

/-- The value of a key. -/
def get? (r : Record) (key : String) : Option String := getField? key r.fields

/-- The keys in order. -/
def keys (r : Record) : List String := r.fields.map Prod.fst

/-- The number of fields. -/
def length (r : Record) : Nat := r.fields.length

/-- Are there no fields? -/
def isEmpty (r : Record) : Bool := r.fields.isEmpty

/-- The record after pushing fields one by one. -/
def ofList (fields : List (String × String)) : Record :=
  fields.foldl (fun r (k, v) => r.push k v) empty

end Record

end ResponseExport.Csv
