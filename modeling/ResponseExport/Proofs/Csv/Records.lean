import Mathlib.Data.Finset.Card
import ResponseExport.Csv.Record

/-!
# `ResponseExport.Proofs.Csv.Records`: a record is a map that keeps its order

A record comes about by pushes, and only the first and the last push of a key leave a
trace: the first one gives the key its place, and the last one its value. One push does
this to the keys and the values of any record (`keys_push`, `get?_push`), and from that
it follows for all pushes on an empty record (`keys_ofList`, `get?_ofList`), by
induction from behind, since a push adds to what was pushed before.

Keys stand in a record once, so it is determined by the order of its keys and their
values (`eq_of_getField?`). Pushes leave the same record exactly if they agree in both,
and the fields of a record, pushed again, leave the record (`isMapOf_ofList`).
-/

set_option autoImplicit false

namespace ResponseExport.Csv

/-! ### Fields -/

variable {fields : List (String × String)}

/-- A value that is set is there, and all others stay as they are. -/
theorem getField?_setField (key value k : String) (fields : List (String × String)) :
    getField? k (setField key value fields)
      = if k = key then some value else getField? k fields := by
  induction fields with
  | nil =>
      rw [setField, getField?]
      by_cases h : k = key
      · rw [if_pos h, getField?, if_pos h.symm]
      · rw [if_neg h, getField?, if_neg (Ne.symm h), getField?]
  | cons field fields ih =>
      obtain ⟨k', v'⟩ := field
      rw [setField]
      by_cases hk' : k' = key
      · subst hk'
        rw [if_pos rfl, getField?, getField?]
        by_cases h : k = k'
        · rw [if_pos h.symm, if_pos h]
        · rw [if_neg (Ne.symm h), if_neg h, if_neg (Ne.symm h)]
      · rw [if_neg hk', getField?, getField?, ih]
        by_cases h : k' = k
        · subst h
          rw [if_pos rfl, if_neg hk', if_pos rfl]
        · rw [if_neg h, if_neg h]

theorem getField?_eq_none_iff {key : String} :
    getField? key fields = none ↔ key ∉ fields.map Prod.fst := by
  induction fields with
  | nil => simp [getField?]
  | cons field fields ih =>
      obtain ⟨k, v⟩ := field
      rw [getField?, List.map_cons, List.mem_cons, not_or]
      by_cases h : k = key
      · rw [if_pos h]
        exact iff_of_false (Option.some_ne_none v) fun hne => hne.1 h.symm
      · rw [if_neg h, ih]
        exact (and_iff_right (Ne.symm h)).symm

theorem getField?_of_mem {fields : List (String × String)} (h : (fields.map Prod.fst).Nodup)
    {field : String × String} (hmem : field ∈ fields) :
    getField? field.1 fields = some field.2 := by
  induction fields with
  | nil => cases hmem
  | cons other fields ih =>
      rw [List.map_cons, List.nodup_cons] at h
      rw [getField?]
      rcases List.mem_cons.mp hmem with rfl | hmem
      · rw [if_pos rfl]
      · have hne : other.1 ≠ field.1 := fun heq => h.1 (heq ▸ List.mem_map_of_mem hmem)
        rw [if_neg hne, ih h.2 hmem]

/-- Fields under distinct keys are determined by the order of the keys and by their values. -/
theorem eq_of_getField? {fields' : List (String × String)} (h : (fields.map Prod.fst).Nodup)
    (hkeys : fields.map Prod.fst = fields'.map Prod.fst)
    (hvalues : ∀ k, getField? k fields = getField? k fields') : fields = fields' := by
  refine List.ext_getElem (by simpa using congrArg List.length hkeys) fun i hi hi' => ?_
  have hkey : (fields[i]).1 = (fields'[i]).1 := by
    simpa [hi, hi'] using congrArg (·[i]?) hkeys
  have hvalue : some (fields[i]).2 = some (fields'[i]).2 := by
    rw [← getField?_of_mem h (List.getElem_mem hi), hvalues, hkey,
      getField?_of_mem (hkeys ▸ h) (List.getElem_mem hi')]
  exact Prod.ext hkey (Option.some.inj hvalue)

/-- Fields that are pushed under distinct keys stand in the record as they are. -/
theorem fields_ofList {fields : List (String × String)} (h : (fields.map Prod.fst).Nodup) :
    (Record.ofList fields).fields = fields := by
  -- A key that comes later is none of those before, so it is pushed to their end.
  have hfold : ∀ r : Record, ((r.fields ++ fields).map Prod.fst).Nodup →
      (fields.foldl (fun (r : Record) field => r.push field.1 field.2) r).fields
        = r.fields ++ fields := by
    clear h
    induction fields with
    | nil => exact fun r _ => (List.append_nil r.fields).symm
    | cons field fields ih =>
        intro r hnodup
        have hnew : field.1 ∉ r.fields.map Prod.fst := by
          rw [List.map_append, List.nodup_append] at hnodup
          exact fun hmem => hnodup.2.2 _ hmem _ (by simp) rfl
        have hpush : (r.push field.1 field.2).fields = r.fields ++ [field] :=
          setField_of_not_mem field.2 hnew
        rw [List.foldl_cons, ih _ (by simpa [hpush] using hnodup), hpush, List.append_assoc,
          List.singleton_append]
  exact hfold Record.empty h

namespace Record

/-! ### One push -/

/-- A push adds its key at the end if it is new, and leaves the keys as they are otherwise. -/
theorem keys_push (r : Record) (key value : String) :
    (r.push key value).keys = if key ∈ r.keys then r.keys else r.keys ++ [key] := by
  by_cases h : key ∈ r.keys
  · rw [if_pos h]
    exact map_fst_setField_of_mem value h
  · rw [if_neg h]
    show (setField key value r.fields).map Prod.fst = r.keys ++ [key]
    rw [setField_of_not_mem value h, List.map_append]
    rfl

/-- A push gives its key a value and leaves all others alone. -/
theorem get?_push (r : Record) (key value k : String) :
    (r.push key value).get? k = if k = key then some value else r.get? k :=
  getField?_setField key value k r.fields

/-! ### All pushes -/

/-- The keys in the order in which they were pushed first. -/
def firstPushes (pushes : List (String × String)) : List String := (pushes.map Prod.fst).eraseDups

/-- The value that was pushed last under a key. -/
def lastPush? (pushes : List (String × String)) (key : String) : Option String :=
  pushes.reverse.lookup key

variable {pushes : List (String × String)}

theorem eraseDups_concat (keys : List String) (key : String) :
    (keys ++ [key]).eraseDups
      = if key ∈ keys.eraseDups then keys.eraseDups else keys.eraseDups ++ [key] := by
  rw [List.eraseDups_append]
  by_cases h : key ∈ keys
  · rw [if_pos (List.mem_eraseDups.mpr h)]
    simp [List.removeAll, h]
  · rw [if_neg fun hmem => h (List.mem_eraseDups.mp hmem)]
    simp [List.removeAll, h, List.eraseDups_cons]

/-- What was pushed first stands first. -/
theorem pairwise_eraseDups (keys : List String) :
    keys.eraseDups.Pairwise fun a b => keys.idxOf a < keys.idxOf b := by
  induction keys using List.reverseRecOn with
  | nil => exact List.Pairwise.nil
  | append_singleton keys key ih =>
      -- Keys that are there already are found where they were.
      have hbefore {a : String} (ha : a ∈ keys.eraseDups) :
          (keys ++ [key]).idxOf a = keys.idxOf a := by
        rw [List.idxOf_append, if_pos (List.mem_eraseDups.mp ha)]
      have hpairs : keys.eraseDups.Pairwise fun a b =>
          (keys ++ [key]).idxOf a < (keys ++ [key]).idxOf b :=
        ih.imp_of_mem fun ha hb hlt => by rwa [hbefore ha, hbefore hb]
      rw [eraseDups_concat]
      by_cases h : key ∈ keys.eraseDups
      · rwa [if_pos h]
      · rw [if_neg h]
        refine List.pairwise_append.mpr ⟨hpairs, List.pairwise_singleton _ _, ?_⟩
        intro a ha b hb
        obtain rfl := List.mem_singleton.mp hb
        have hlt : keys.idxOf a < keys.length :=
          List.idxOf_lt_length_of_mem (List.mem_eraseDups.mp ha)
        rw [hbefore ha, List.idxOf_append, if_neg fun hmem => h (List.mem_eraseDups.mpr hmem)]
        omega

theorem ofList_concat (pushes : List (String × String)) (push : String × String) :
    ofList (pushes ++ [push]) = (ofList pushes).push push.1 push.2 := by
  rw [ofList, List.foldl_append]
  rfl

/-- The keys of a record stand in the order of their first pushes. -/
theorem keys_ofList (pushes : List (String × String)) :
    (ofList pushes).keys = firstPushes pushes := by
  induction pushes using List.reverseRecOn with
  | nil => rfl
  | append_singleton pushes push ih =>
      rw [ofList_concat, keys_push, ih, firstPushes, firstPushes, List.map_append,
        List.map_singleton, eraseDups_concat]

/-- A key of a record has the value of its last push. -/
theorem get?_ofList (pushes : List (String × String)) (key : String) :
    (ofList pushes).get? key = lastPush? pushes key := by
  induction pushes using List.reverseRecOn with
  | nil => rfl
  | append_singleton pushes push ih =>
      rw [ofList_concat, get?_push, ih, lastPush?, lastPush?, List.reverse_append,
        List.reverse_singleton, List.singleton_append, List.lookup_cons]
      by_cases h : key = push.1
      · rw [if_pos h, beq_iff_eq.mpr h]
      · rw [if_neg h, beq_eq_false_iff_ne.mpr h]

theorem lastPush?_eq_some_iff {key value : String} :
    lastPush? pushes key = some value ↔
      ∃ before behind, pushes = before ++ (key, value) :: behind ∧
        key ∉ behind.map Prod.fst := by
  rw [lastPush?, List.lookup_eq_some_iff]
  constructor
  · rintro ⟨behind, before, hpushes, hbehind⟩
    refine ⟨before.reverse, behind.reverse, ?_, fun hmem => ?_⟩
    · rw [← List.reverse_inj, hpushes, List.reverse_append, List.reverse_cons, List.reverse_reverse,
        List.reverse_reverse, List.append_assoc, List.singleton_append]
    · obtain ⟨push, hpush, hkey⟩ := List.mem_map.mp hmem
      exact bne_iff_ne.mp (hbehind push (List.mem_reverse.mp hpush)) hkey.symm
  · rintro ⟨before, behind, rfl, hbehind⟩
    refine ⟨behind.reverse, before.reverse, ?_, fun push hpush => ?_⟩
    · rw [List.reverse_append, List.reverse_cons, List.append_assoc, List.singleton_append]
    · refine bne_iff_ne.mpr fun hkey => hbehind ?_
      exact hkey ▸ List.mem_map_of_mem (List.mem_reverse.mp hpush)

theorem lastPush?_eq_none_iff {key : String} :
    lastPush? pushes key = none ↔ key ∉ pushes.map Prod.fst := by
  rw [← get?_ofList, get?, getField?_eq_none_iff]
  show key ∉ (ofList pushes).keys ↔ _
  rw [keys_ofList, firstPushes, List.mem_eraseDups]

/-- Pushes leave the same record exactly if keys are first pushed in the same order, and the last
values are the same. -/
theorem ofList_eq_iff {pushes' : List (String × String)} :
    ofList pushes = ofList pushes' ↔
      firstPushes pushes = firstPushes pushes' ∧ ∀ k, lastPush? pushes k = lastPush? pushes' k := by
  simp only [← keys_ofList, ← get?_ofList]
  constructor
  · intro h
    exact ⟨congrArg keys h, fun k => congrArg (get? · k) h⟩
  · rintro ⟨hkeys, hvalues⟩
    exact Record.ext (eq_of_getField? (nodup_keys _) hkeys hvalues)

/-- The record is the map that the pushes describe, in the order of their first keys. -/
structure IsMapOf (r : Record) (pushes : List (String × String)) : Prop where
  /-- No key stands in the record twice. -/
  nodup_keys : r.keys.Nodup
  /-- Every key that was pushed is there, and no other. -/
  keys_eq : r.keys = firstPushes pushes
  /-- Of two keys, the one stands first whose first push came first. -/
  in_order : r.keys.Pairwise fun a b =>
    (pushes.map Prod.fst).idxOf a < (pushes.map Prod.fst).idxOf b
  /-- A key has the value of the push behind which it is pushed no more. -/
  get?_eq_some : ∀ key value, r.get? key = some value ↔
    ∃ before behind, pushes = before ++ (key, value) :: behind ∧ key ∉ behind.map Prod.fst
  /-- A key that was never pushed has none. -/
  get?_eq_none : ∀ key, r.get? key = none ↔ key ∉ pushes.map Prod.fst
  /-- There are as many fields as distinct keys. -/
  length_eq : r.length = (pushes.map Prod.fst).toFinset.card
  /-- The fields of the record, pushed one by one, leave the record. -/
  rebuilt : ofList r.fields = r
  /-- Other pushes leave the same record exactly if they have the same first keys in order and the
  same last values. -/
  same_iff : ∀ pushes', r = ofList pushes' ↔
    firstPushes pushes = firstPushes pushes' ∧ ∀ k, lastPush? pushes k = lastPush? pushes' k

/-- **A record is the map that its pushes describe**, in the order of their first keys. -/
theorem isMapOf_ofList (pushes : List (String × String)) : IsMapOf (ofList pushes) pushes where
  nodup_keys := (ofList pushes).nodup_keys
  keys_eq := keys_ofList pushes
  in_order := by
    rw [keys_ofList]
    exact pairwise_eraseDups _
  get?_eq_some key value := by rw [get?_ofList, lastPush?_eq_some_iff]
  get?_eq_none key := by rw [get?_ofList, lastPush?_eq_none_iff]
  length_eq := by
    have hlength : (ofList pushes).length = (ofList pushes).keys.length := by
      rw [keys, List.length_map]
      rfl
    have hnodup : (ofList pushes).keys.Nodup := (ofList pushes).nodup_keys
    rw [hlength, ← List.toFinset_card_of_nodup hnodup]
    congr 1
    ext key
    rw [List.mem_toFinset, List.mem_toFinset, keys_ofList, firstPushes, List.mem_eraseDups]
  rebuilt := Record.ext (fields_ofList (nodup_keys _))
  same_iff _ := ofList_eq_iff

/-- A key that is pushed again keeps its place. -/
example : ofList [("a", "1"), ("b", "2"), ("a", "3")] = { fields := [("a", "3"), ("b", "2")] } := by
  decide

end Record

end ResponseExport.Csv
