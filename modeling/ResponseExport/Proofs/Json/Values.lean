import Mathlib.Data.List.Nodup
import ResponseExport.Json.Doc
import ResponseExport.Proofs.Text.Order

/-!
# `ResponseExport.Proofs.Json.Values`: what reading makes sure of

Values and documents contain each other, so most of what is proved about them is proved by
induction over what they contain (`Value.induction`, `Doc.induction`). A property that is
to hold at every depth is stated of all `Value.parts`.

A value that was read is *tidy* (`isTidy_ofText?`). The members of its objects stand in
the order of their keys, and no key stands there twice. Its integers fit 64 bits. And an
object never has the announcing key alone: had this been the first key, the object would
have been taken for an embedded text.

Tidy objects are maps: they are equal if every key has the same value in both
(`eq_of_lookup`). What a key has is the value of the last member with this key
(`lookup_memberValues?`).
-/

set_option autoImplicit false

namespace ResponseExport.Json

/-! ### Induction -/

/-- Induction over a value by the values that it contains. -/
@[induction_eliminator]
theorem Value.induction {P : Value → Prop} (null : P .null) (boolean : ∀ b, P (.boolean b))
    (number : ∀ n, P (.number n)) (string : ∀ s, P (.string s))
    (array : ∀ items, (∀ v ∈ items, P v) → P (.array items))
    (object : ∀ members, (∀ m ∈ members, P m.2) → P (.object members)) (v : Value) : P v :=
  @Value.rec P (fun items => ∀ v ∈ items, P v) (fun members => ∀ m ∈ members, P m.2)
    (fun m => P m.2) null boolean number string array object (List.forall_mem_nil _)
    (fun _ _ hv hvs => List.forall_mem_cons.mpr ⟨hv, hvs⟩) (List.forall_mem_nil _)
    (fun _ _ hm hms => List.forall_mem_cons.mpr ⟨hm, hms⟩) (fun _ _ hv => hv) v

/-- Induction over a document by the documents that it contains. -/
@[induction_eliminator]
theorem Doc.induction {P : Doc → Prop} (null : P .null) (boolean : ∀ b, P (.boolean b))
    (numeral : ∀ n, P (.numeral n)) (literal : ∀ s, P (.literal s))
    (array : ∀ items, (∀ d ∈ items, P d) → P (.array items))
    (object : ∀ members, (∀ m ∈ members, P m.2) → P (.object members)) (d : Doc) : P d :=
  @Doc.rec P (fun items => ∀ d ∈ items, P d) (fun members => ∀ m ∈ members, P m.2)
    (fun m => P m.2) null boolean numeral literal array object (List.forall_mem_nil _)
    (fun _ _ hd hds => List.forall_mem_cons.mpr ⟨hd, hds⟩) (List.forall_mem_nil _)
    (fun _ _ hm hms => List.forall_mem_cons.mpr ⟨hm, hms⟩) (fun _ _ hd => hd) d

/-! ### Parts -/

mutual

/-- A value, and all values that it contains at any depth. -/
def Value.parts : Value → List Value
  | .array items => .array items :: itemParts items
  | .object members => .object members :: memberParts members
  | v => [v]

/-- The parts of elements. -/
def itemParts : List Value → List Value
  | [] => []
  | v :: vs => v.parts ++ itemParts vs

/-- The parts of the values of members. -/
def memberParts : List (String × Value) → List Value
  | [] => []
  | (_, v) :: ms => v.parts ++ memberParts ms

end

mutual

/-- How many containers stand inside one another. -/
def Value.nesting : Value → Nat
  | .array items => itemsNesting items + 1
  | .object members => membersNesting members + 1
  | _ => 0

/-- The nesting of elements. -/
def itemsNesting : List Value → Nat
  | [] => 0
  | v :: vs => max v.nesting (itemsNesting vs)

/-- The nesting of the values of members. -/
def membersNesting : List (String × Value) → Nat
  | [] => 0
  | (_, v) :: ms => max v.nesting (membersNesting ms)

end

theorem mem_itemParts {p : Value} {items : List Value} :
    p ∈ itemParts items ↔ ∃ v ∈ items, p ∈ v.parts := by
  induction items with
  | nil => simp [itemParts]
  | cons v vs ih => simp [itemParts, ih]

theorem mem_memberParts {p : Value} {members : List (String × Value)} :
    p ∈ memberParts members ↔ ∃ m ∈ members, p ∈ m.2.parts := by
  induction members with
  | nil => simp [memberParts]
  | cons m ms ih => simp [memberParts, ih]

theorem itemsNesting_le {d : Nat} {items : List Value} :
    itemsNesting items ≤ d ↔ ∀ v ∈ items, v.nesting ≤ d := by
  induction items with
  | nil => simp [itemsNesting]
  | cons v vs ih => rw [itemsNesting, Nat.max_le, ih, List.forall_mem_cons]

theorem membersNesting_le {d : Nat} {members : List (String × Value)} :
    membersNesting members ≤ d ↔ ∀ m ∈ members, m.2.nesting ≤ d := by
  induction members with
  | nil => simp [membersNesting]
  | cons m ms ih => rw [membersNesting, Nat.max_le, ih, List.forall_mem_cons]

namespace Value

variable {v : Value} {items : List Value} {members : List (String × Value)}

theorem self_mem_parts (v : Value) : v ∈ v.parts := by
  cases v <;> simp [parts]

/-- Does something hold of every part of a value? -/
def All (P : Value → Prop) (v : Value) : Prop := ∀ p ∈ v.parts, P p

theorem All.self {P : Value → Prop} (h : v.All P) : P v := h v v.self_mem_parts

theorem all_array {P : Value → Prop} :
    (Value.array items).All P ↔ P (.array items) ∧ ∀ v ∈ items, v.All P := by
  simp only [All, parts, List.forall_mem_cons, mem_itemParts]
  exact and_congr_right fun _ => ⟨fun h v hv p hp => h p ⟨v, hv, hp⟩,
    fun h p ⟨v, hv, hp⟩ => h v hv p hp⟩

theorem all_object {P : Value → Prop} :
    (Value.object members).All P ↔ P (.object members) ∧ ∀ m ∈ members, m.2.All P := by
  simp only [All, parts, List.forall_mem_cons, mem_memberParts]
  exact and_congr_right fun _ => ⟨fun h m hm p hp => h p ⟨m, hm, hp⟩,
    fun h p ⟨m, hm, hp⟩ => h m hm p hp⟩

/-- A part that contains nothing. -/
theorem all_of_parts {P : Value → Prop} (hparts : v.parts = [v]) : v.All P ↔ P v := by
  rw [All, hparts, List.forall_mem_singleton]

end Value

/-! ### Objects in order -/

/-- The keys are in order, and each stands there once. -/
def Ascending (members : List (String × Value)) : Prop :=
  members.Pairwise fun a b => Text.order a.1 b.1 = .lt

theorem Ascending.nodup_keys {members : List (String × Value)} (h : Ascending members) :
    (members.map Prod.fst).Nodup := by
  refine List.pairwise_map.mpr (h.imp fun {a b} hlt heq => ?_)
  rw [heq, Text.order_self] at hlt
  cases hlt

/-- What has a key in an object that is in order stands there under it. -/
theorem Ascending.lookup_eq_some {members : List (String × Value)} (h : Ascending members)
    {k : String} {v : Value} : members.lookup k = some v ↔ (k, v) ∈ members := by
  induction members with
  | nil => simp
  | cons m ms ih =>
      obtain ⟨hfirst, hrest⟩ := List.pairwise_cons.mp h
      by_cases hk : k = m.1
      · -- The keys behind the first one are larger.
        have hbehind : (k, v) ∉ ms := by
          intro hmem
          have hlt := hfirst _ hmem
          rw [← hk, Text.order_self] at hlt
          cases hlt
        rw [hk, List.lookup_cons_self, List.mem_cons, Option.some.injEq]
        rw [hk] at hbehind
        refine ⟨fun heq => Or.inl (by rw [← heq]), fun hmem => ?_⟩
        exact (congrArg Prod.snd (hmem.resolve_right hbehind)).symm
      · have hne : ¬ (k, v) = m := fun heq => hk (congrArg Prod.fst heq)
        rw [List.lookup_cons, beq_eq_false_iff_ne.mpr hk, ih hrest, List.mem_cons,
          or_iff_right hne]

/-- Objects in order are equal if every key has the same value in both. -/
theorem eq_of_lookup {ms ms' : List (String × Value)} (h : Ascending ms) (h' : Ascending ms')
    (hsame : ∀ k, ms.lookup k = ms'.lookup k) : ms = ms' := by
  -- They hold the same members, and members in order can stand in one order only.
  have hperm : ms.Perm ms' := by
    rw [List.perm_ext_iff_of_nodup (List.Nodup.of_map _ h.nodup_keys)
      (List.Nodup.of_map _ h'.nodup_keys)]
    rintro ⟨k, v⟩
    rw [← h.lookup_eq_some, ← h'.lookup_eq_some, hsame]
  refine hperm.eq_of_pairwise (fun a b _ _ hab hba => ?_) h h'
  rw [Text.order_swap, hba] at hab
  cases hab

theorem lookup_cons_eq (key k : String) (v : Value) (members : List (String × Value)) :
    List.lookup key ((k, v) :: members) = if key = k then some v else members.lookup key := by
  rw [List.lookup_cons]
  by_cases h : key = k
  · rw [if_pos h, beq_iff_eq.mpr h]
  · rw [if_neg h, beq_eq_false_iff_ne.mpr h]

/-- A member that is put into an object is there, and all others stay as they are. -/
theorem lookup_putMember (k : String) (v : Value) (members : List (String × Value)) (key : String) :
    (putMember k v members).lookup key = if key = k then some v else members.lookup key := by
  induction members with
  | nil => rw [putMember, lookup_cons_eq]
  | cons m ms ih =>
      obtain ⟨k', v'⟩ := m
      rw [putMember]
      cases hcompare : Text.order k k' with
      | lt => exact lookup_cons_eq key k v _
      | eq =>
          obtain rfl := Text.order_eq_eq.mp hcompare
          dsimp only
          rw [lookup_cons_eq, lookup_cons_eq]
          by_cases h : key = k
          · rw [if_pos h, if_pos h]
          · rw [if_neg h, if_neg h, if_neg h]
      | gt =>
          have hne : k ≠ k' := by
            rintro rfl
            rw [Text.order_self] at hcompare
            cases hcompare
          dsimp only
          rw [lookup_cons_eq, lookup_cons_eq, ih]
          by_cases h : key = k
          · rw [if_neg (h ▸ hne), if_pos h, if_pos h]
          · rw [if_neg h, if_neg h]

theorem mem_putMember {k : String} {v : Value} {members : List (String × Value)}
    {m : String × Value} (hm : m ∈ putMember k v members) : m = (k, v) ∨ m ∈ members := by
  induction members with
  | nil => exact Or.inl (List.mem_singleton.mp hm)
  | cons m' ms ih =>
      obtain ⟨k', v'⟩ := m'
      rw [putMember] at hm
      cases hcompare : Text.order k k' with
      | lt =>
          rw [hcompare] at hm
          exact List.mem_cons.mp hm
      | eq =>
          rw [hcompare] at hm
          exact (List.mem_cons.mp hm).imp_right (List.mem_cons_of_mem _)
      | gt =>
          rw [hcompare] at hm
          rcases List.mem_cons.mp hm with rfl | hm
          · exact Or.inr List.mem_cons_self
          · exact (ih hm).imp_right (List.mem_cons_of_mem _)

/-- Putting a member into an object keeps its keys in order. -/
theorem ascending_putMember {members : List (String × Value)} (h : Ascending members) (k : String)
    (v : Value) : Ascending (putMember k v members) := by
  induction members with
  | nil => exact List.pairwise_singleton _ _
  | cons m ms ih =>
      obtain ⟨k', v'⟩ := m
      obtain ⟨hfirst, hrest⟩ := List.pairwise_cons.mp h
      rw [putMember]
      cases hcompare : Text.order k k' with
      | lt =>
          refine List.pairwise_cons.mpr ⟨fun m hm => ?_, h⟩
          rcases List.mem_cons.mp hm with rfl | hm
          · exact hcompare
          · exact Std.TransCmp.lt_trans hcompare (hfirst m hm)
      | eq =>
          obtain rfl := Text.order_eq_eq.mp hcompare
          exact List.pairwise_cons.mpr ⟨hfirst, hrest⟩
      | gt =>
          refine List.pairwise_cons.mpr ⟨fun m hm => ?_, ih hrest⟩
          rcases mem_putMember hm with rfl | hm
          · exact Std.OrientedCmp.gt_iff_lt.mp hcompare
          · exact hfirst m hm

/-! ### What members become -/

variable {inner? : String → Option Value} {depth : Nat}

/-- Each element is read for itself. -/
theorem getElem?_itemValues? {items : List Doc} {vs : List Value}
    (h : itemValues? inner? depth items = some vs) :
    items.length = vs.length ∧ ∀ (i : Nat) d v, items[i]? = some d → vs[i]? = some v →
      d.value? inner? depth = some v := by
  induction items generalizing vs with
  | nil =>
      obtain rfl := Option.some.inj h
      exact ⟨rfl, fun i d v hd => by cases hd⟩
  | cons d items ih =>
      rw [itemValues?] at h
      split at h
      · rename_i v hv
        obtain ⟨vs, hvs, rfl⟩ := Option.map_eq_some_iff.mp h
        obtain ⟨hlength, hitems⟩ := ih hvs
        refine ⟨congrArg (· + 1) hlength, fun i d' v' hd' hv' => ?_⟩
        cases i with
        | zero =>
            cases hd'
            cases hv'
            exact hv
        | succ i => exact hitems i d' v' hd' hv'
      · cases h

theorem mem_itemValues? {items : List Doc} {vs : List Value}
    (h : itemValues? inner? depth items = some vs) :
    ∀ v ∈ vs, ∃ d ∈ items, d.value? inner? depth = some v := by
  intro v hv
  obtain ⟨hlength, hitems⟩ := getElem?_itemValues? h
  obtain ⟨i, hi⟩ := List.mem_iff_getElem?.mp hv
  have hlt : i < items.length := hlength ▸ (List.getElem?_eq_some_iff.mp hi).1
  exact ⟨items[i], List.getElem_mem hlt, hitems i _ v (List.getElem?_eq_getElem hlt) hi⟩

/-- Members are put into an object one after the other, if each has a key and a value. -/
theorem memberValues?_cons {m : Option String × Doc} {members : List (Option String × Doc)}
    {done ms : List (String × Value)}
    (h : memberValues? inner? depth (m :: members) done = some ms) :
    ∃ k v, m.1 = some k ∧ m.2.value? inner? depth = some v ∧
      memberValues? inner? depth members (putMember k v done) = some ms := by
  obtain ⟨key, d⟩ := m
  cases key with
  | none => cases h
  | some k =>
      rw [memberValues?] at h
      split at h
      · rename_i v hv
        exact ⟨k, v, rfl, hv, h⟩
      · cases h

theorem ascending_memberValues? {members : List (Option String × Doc)}
    {done ms : List (String × Value)} (hdone : Ascending done)
    (h : memberValues? inner? depth members done = some ms) : Ascending ms := by
  induction members generalizing done with
  | nil => exact Option.some.inj h ▸ hdone
  | cons m members ih =>
      obtain ⟨k, v, -, -, hrest⟩ := memberValues?_cons h
      exact ih (ascending_putMember hdone k v) hrest

theorem mem_memberValues? {members : List (Option String × Doc)} {done ms : List (String × Value)}
    (h : memberValues? inner? depth members done = some ms) {m : String × Value} (hm : m ∈ ms) :
    m ∈ done ∨ ∃ member ∈ members, member.2.value? inner? depth = some m.2 := by
  induction members generalizing done with
  | nil => exact Or.inl (Option.some.inj h ▸ hm)
  | cons member members ih =>
      obtain ⟨k, v, -, hv, hrest⟩ := memberValues?_cons h
      rcases ih hrest with hput | ⟨member', hmember', hvalue⟩
      · rcases mem_putMember hput with rfl | hdone
        · exact Or.inr ⟨member, List.mem_cons_self, hv⟩
        · exact Or.inl hdone
      · exact Or.inr ⟨member', List.mem_cons_of_mem _ hmember', hvalue⟩

/-- **The last member counts**: it has the value that is found under its key. -/
theorem lookup_memberValues? {members : List (Option String × Doc)}
    {done ms : List (String × Value)} (h : memberValues? inner? depth members done = some ms)
    (k : String) :
    ms.lookup k = match members.reverse.lookup (some k) with
      | some d => d.value? inner? depth
      | none => done.lookup k := by
  induction members generalizing done with
  | nil => exact Option.some.inj h ▸ rfl
  | cons m members ih =>
      obtain ⟨key, d⟩ := m
      obtain ⟨k', v, hkey, hv, hrest⟩ := memberValues?_cons h
      obtain rfl : key = some k' := hkey
      rw [ih hrest, List.reverse_cons, List.lookup_append]
      -- A member behind this one replaces it; otherwise it is the one that is put last.
      cases members.reverse.lookup (some k) with
      | some d' => rfl
      | none =>
          rw [Option.none_or, lookup_putMember, List.lookup_cons, List.lookup_nil]
          by_cases hk : k = k'
          · rw [if_pos hk, hk, beq_self_eq_true]
            exact hv.symm
          · rw [if_neg hk, beq_eq_false_iff_ne.mpr fun heq => hk (Option.some.inj heq)]

/-! ### Values that were read -/

/-- Every number in the value is an integer. -/
def Value.IsWhole (v : Value) : Prop := v.All fun p => ∀ bits, p ≠ .number (.double bits)

/-- The value is an integer that fits 64 bits, an object in order that has more than the announcing
key, or none of both. -/
def Value.IsSettled : Value → Prop
  | .number (.integer n) => -(Numeral.minusLimit : Int) ≤ n ∧ n < Numeral.wordLimit
  | .object members => Ascending members ∧ members.map Prod.fst ≠ [embeddedKey]
  | _ => True

/-- All that reading makes sure of. -/
def Value.IsTidy (v : Value) : Prop := v.All IsSettled

theorem number?_settled {n : Numeral} {x : Number} (h : n.number? = some x) :
    (Value.number x).IsSettled := by
  have hdouble : ∀ {n : Numeral}, n.double? = some x → (Value.number x).IsSettled := by
    intro n h
    obtain ⟨magnitude, -, rfl⟩ := Option.map_eq_some_iff.mp h
    trivial
  rw [Numeral.number?] at h
  split at h
  · split at h
    · split at h
      · rename_i hrange
        obtain rfl := Option.some.inj h
        rw [Value.IsSettled]
        omega
      · exact hdouble h
    · split at h
      · rename_i hrange
        obtain rfl := Option.some.inj h
        rw [Value.IsSettled]
        omega
      · exact hdouble h
  · exact hdouble h

/-- A key that is taken stays there. -/
theorem isSome_lookup_memberValues? {members : List (Option String × Doc)}
    {done ms : List (String × Value)} (h : memberValues? inner? depth members done = some ms)
    {k : String} (hk : (done.lookup k).isSome = true) : (ms.lookup k).isSome = true := by
  induction members generalizing done with
  | nil => exact Option.some.inj h ▸ hk
  | cons m members ih =>
      obtain ⟨k', v, -, -, hrest⟩ := memberValues?_cons h
      refine ih hrest ?_
      rw [lookup_putMember]
      split
      · rfl
      · exact hk

/-- An object that announces no text has another key than the announcing one. -/
theorem keys_ne_of_absent {members : List (Option String × Doc)} {ms : List (String × Value)}
    (habsent : Embedded.of members = .absent)
    (h : memberValues? inner? depth members [] = some ms) : ms.map Prod.fst ≠ [embeddedKey] := by
  cases members with
  | nil =>
      obtain rfl := Option.some.inj h
      exact fun hkeys => List.cons_ne_nil _ _ hkeys.symm
  | cons m members =>
      obtain ⟨key, d⟩ := m
      obtain ⟨k, v, hkey, -, hrest⟩ := memberValues?_cons h
      obtain rfl : key = some k := hkey
      have hne : k ≠ embeddedKey := by
        intro heq
        unfold Embedded.of at habsent
        dsimp only at habsent
        rw [if_pos heq] at habsent
        split at habsent <;> cases habsent
      intro hkeys
      -- The first key is still there, and the announcing one is another.
      have hfirst : (ms.lookup k).isSome = true := by
        refine isSome_lookup_memberValues? hrest ?_
        rw [lookup_putMember, if_pos rfl]
        rfl
      obtain ⟨v', hv'⟩ := Option.isSome_iff_exists.mp hfirst
      have hascending := ascending_memberValues? List.Pairwise.nil h
      have hmem : k ∈ ms.map Prod.fst := List.mem_map_of_mem (hascending.lookup_eq_some.mp hv')
      rw [hkeys] at hmem
      exact hne (List.mem_singleton.mp hmem)

theorem Doc.isTidy_value? (hinner : ∀ s v, inner? s = some v → v.IsTidy) (d : Doc) (v : Value)
    (h : d.value? inner? depth = some v) : v.IsTidy := by
  induction d generalizing depth v with
  | null =>
      obtain rfl := Option.some.inj h
      exact (Value.all_of_parts rfl).mpr trivial
  | boolean b =>
      obtain rfl := Option.some.inj h
      exact (Value.all_of_parts rfl).mpr trivial
  | numeral n =>
      obtain ⟨x, hx, rfl⟩ := Option.map_eq_some_iff.mp h
      exact (Value.all_of_parts rfl).mpr (number?_settled hx)
  | literal s =>
      obtain ⟨text, -, rfl⟩ := Option.map_eq_some_iff.mp h
      exact (Value.all_of_parts rfl).mpr trivial
  | array items ih =>
      cases depth with
      | zero => cases h
      | succ depth =>
          obtain ⟨vs, hvs, rfl⟩ := Option.map_eq_some_iff.mp h
          refine Value.all_array.mpr ⟨trivial, fun v hv => ?_⟩
          obtain ⟨d, hd, hvalue⟩ := mem_itemValues? hvs v hv
          exact ih d hd v hvalue
  | object members ih =>
      cases depth with
      | zero => cases h
      | succ depth =>
          rw [value?] at h
          cases hembedded : Embedded.of members with
          | text s =>
              rw [hembedded] at h
              exact hinner s v h
          | broken =>
              rw [hembedded] at h
              cases h
          | absent =>
              rw [hembedded] at h
              obtain ⟨ms, hms, rfl⟩ := Option.map_eq_some_iff.mp h
              refine Value.all_object.mpr ⟨⟨?_, keys_ne_of_absent hembedded hms⟩, fun m hm => ?_⟩
              · exact ascending_memberValues? List.Pairwise.nil hms
              · rcases mem_memberValues? hms hm with hnone | ⟨member, hmember, hvalue⟩
                · cases hnone
                · exact ih member hmember m.2 hvalue

theorem Value.isTidy_ofNested? (levels : Nat) (s : String) (v : Value)
    (h : ofNested? levels s = some v) : v.IsTidy := by
  induction levels generalizing s v with
  | zero => cases h
  | succ levels ih =>
      obtain ⟨d, -, hd⟩ := Option.bind_eq_some_iff.mp h
      exact d.isTidy_value? ih v hd

/-- **A value that was read is tidy.** -/
theorem Value.isTidy_ofText? {s : String} {v : Value} (h : ofText? s = some v) : v.IsTidy :=
  isTidy_ofNested? _ s v h

end ResponseExport.Json
