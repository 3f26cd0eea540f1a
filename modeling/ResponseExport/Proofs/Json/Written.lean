import ResponseExport.Json.Printer
import ResponseExport.Proofs.Json.Spelling

/-!
# `ResponseExport.Proofs.Json.Written`: what is written for a value, and what it is read as

A value of whole numbers is written as one of the spellings of its document, the one
without blanks (`spelledBy_write`). So its text is read as this document, and the text
tells it from all other values (`text_injective`).

That is not enough for the value to come back. Reading turns a document down in which too
many containers stand inside one another, and one with an object that announces an
embedded text and then holds something else. A tidy value comes back exactly if neither
is the case (`ofText?_text`); it never comes back as another value.
-/

set_option autoImplicit false

namespace ResponseExport.Json

open ResponseExport.Text (bytes)

/-! ### Numerals -/

/-- The digits of a number. -/
def digitsOf (n : Nat) : List Nat := (Nat.toDigits 10 n).map (·.toNat - 48)

/-- The numeral of an integer. -/
def Numeral.ofInt (n : Int) : Numeral := ⟨decide (n < 0), digitsOf n.natAbs, [], none⟩

/-- The bytes of the digits of a number. -/
def digitBytes (n : Nat) : List UInt8 := (Nat.toDigits 10 n).map fun c => UInt8.ofNat c.toNat

theorem toNat_of_mem_toDigits {n : Nat} {c : Char} (hc : c ∈ Nat.toDigits 10 n) :
    48 ≤ c.toNat ∧ c.toNat ≤ 57 := by
  have hdigit := Nat.isDigit_of_mem_toDigits (by decide) (by decide) hc
  rw [Char.isDigit, Bool.and_eq_true, decide_eq_true_iff, decide_eq_true_iff, ge_iff_le,
    UInt32.le_iff_toNat_le, UInt32.le_iff_toNat_le] at hdigit
  exact hdigit

theorem isDigit_of_mem_digitBytes {n : Nat} {b : UInt8} (hb : b ∈ digitBytes n) :
    Numeral.isDigit b = true := by
  obtain ⟨c, hc, rfl⟩ := List.mem_map.mp hb
  obtain ⟨hlow, hhigh⟩ := toNat_of_mem_toDigits hc
  rw [Numeral.isDigit, Bool.and_eq_true, decide_eq_true_iff, decide_eq_true_iff,
    UInt8.le_iff_toNat_le, UInt8.le_iff_toNat_le, UInt8.toNat_ofNat']
  show 48 ≤ _ ∧ _ ≤ 57
  omega

theorem digitBytes_ne_nil (n : Nat) : digitBytes n ≠ [] :=
  List.map_eq_nil_iff.not.mpr Nat.toDigits_ne_nil

theorem digitsValue_digitsOf (n : Nat) : Numeral.digitsValue (digitsOf n) = n := by
  have hvalue : Numeral.digitsValue (digitsOf n) = Nat.ofDigitChars 10 (Nat.toDigits 10 n) 0 := by
    rw [Numeral.digitsValue, digitsOf, List.foldl_map, Nat.ofDigitChars]
    simp only [Nat.mul_comm 10]
    rfl
  rw [hvalue, Nat.ofDigitChars_ten_toDigits]

theorem digitChar_ne : ∀ n < 10, 0 < n → Nat.digitChar n ≠ '0' := by decide

/-- Only zero begins with a zero. -/
theorem head_toDigits {n : Nat} (hn : 0 < n) : ∃ c cs, Nat.toDigits 10 n = c :: cs ∧ c ≠ '0' := by
  induction n using Nat.strongRecOn with
  | _ n ih =>
      by_cases hlt : n < 10
      · rw [Nat.toDigits_of_lt_base hlt]
        exact ⟨_, _, rfl, digitChar_ne n hlt hn⟩
      · obtain ⟨c, cs, hcs, hc⟩ := ih (n / 10) (by omega) (by omega)
        rw [Nat.toDigits_of_base_le (by decide) (Nat.not_lt.mp hlt), hcs]
        exact ⟨c, _, rfl, hc⟩

variable {rest : List UInt8}

/-- What stands behind a value goes on with no digit, no point and no exponent. -/
theorem Closes.head_ne (h : Closes rest) {b : UInt8} {more : List UInt8}
    (hrest : rest = b :: more) :
    Numeral.isDigit b = false ∧ b ≠ 46 ∧ b ≠ 101 ∧ b ≠ 69 := by
  have hb := h b (by rw [hrest]; rfl)
  rw [isGap, Bool.or_eq_true, Bool.or_eq_true, Bool.or_eq_true, beq_iff_eq, beq_iff_eq, beq_iff_eq,
    beq_iff_eq] at hb
  rcases hb with (((rfl | rfl) | rfl) | rfl) | rfl | rfl | rfl <;> decide

theorem Closes.not_digit (h : Closes rest) : ∀ b ∈ rest.head?, Numeral.isDigit b = false := by
  intro b hb
  cases rest with
  | nil => cases hb
  | cons b' more =>
      obtain rfl := Option.some.inj hb
      exact (h.head_ne rfl).1

/-- Digits are read up to what closes them. -/
theorem digits_digitBytes (n : Nat) (h : Closes rest) :
    Numeral.digits (digitBytes n ++ rest) = (digitsOf n, rest) := by
  have hdigits : ∀ b ∈ digitBytes n, Numeral.isDigit b = true := fun b =>
    isDigit_of_mem_digitBytes
  have hnone : rest.takeWhile Numeral.isDigit = [] ∧ rest.dropWhile Numeral.isDigit = rest := by
    cases rest with
    | nil => exact ⟨rfl, rfl⟩
    | cons b more =>
        have hb := h.not_digit b rfl
        exact ⟨List.takeWhile_cons_of_neg (by rw [hb]; decide),
          List.dropWhile_cons_of_neg (by rw [hb]; decide)⟩
  rw [Numeral.digits, List.takeWhile_append_of_pos hdigits, List.dropWhile_append_of_pos hdigits,
    hnone.1, hnone.2, List.append_nil, digitBytes, List.map_map, digitsOf]
  refine Prod.ext (List.map_congr_left fun c hc => ?_) rfl
  have hbound := toNat_of_mem_toDigits hc
  show (UInt8.ofNat c.toNat).toNat - 48 = _
  rw [UInt8.toNat_ofNat']
  omega

theorem readWhole_digitBytes (n : Nat) (h : Closes rest) :
    Numeral.readWhole (digitBytes n ++ rest) = .ok (digitsOf n, rest) := by
  rcases Nat.eq_zero_or_pos n with rfl | hn
  · -- A zero stands alone.
    show Numeral.readWhole (48 :: rest) = .ok ([0], rest)
    cases rest with
    | nil => rfl
    | cons b more =>
        rw [Numeral.readWhole]
        exact if_neg (by rw [h.not_digit b rfl]; decide)
  · obtain ⟨c, cs, hcs, hc⟩ := head_toDigits hn
    have hmem : c ∈ Nat.toDigits 10 n := by rw [hcs]; exact List.mem_cons_self
    have hbytes : digitBytes n = UInt8.ofNat c.toNat :: cs.map fun c => UInt8.ofNat c.toNat := by
      rw [digitBytes, hcs]
      rfl
    have hdigit : Numeral.isDigit (UInt8.ofNat c.toNat) = true :=
      isDigit_of_mem_digitBytes (n := n) (by rw [hbytes]; exact List.mem_cons_self)
    have hzero : UInt8.ofNat c.toNat ≠ 48 := by
      intro heq
      have hnat : (UInt8.ofNat c.toNat).toNat = 48 := congrArg UInt8.toNat heq
      rw [UInt8.toNat_ofNat'] at hnat
      have hbound := toNat_of_mem_toDigits hmem
      exact hc (Char.toNat_inj.mp (by show c.toNat = 48; omega))
    have hread := digits_digitBytes n h
    rw [hbytes, List.cons_append] at hread ⊢
    unfold Numeral.readWhole
    split
    · contradiction
    · rename_i heq
      exact absurd (List.cons.inj heq).1 hzero
    · rename_i heq
      rw [← (List.cons.inj heq).1, if_pos hdigit, hread]

theorem readUnsigned_digitBytes (negative : Bool) (n : Nat) (h : Closes rest) :
    Numeral.readUnsigned negative (digitBytes n ++ rest)
      = .ok (⟨negative, digitsOf n, [], none⟩, rest) := by
  have hfraction : Numeral.readFraction rest = .ok ([], rest) := by
    unfold Numeral.readFraction
    split
    · exact absurd rfl (h.head_ne rfl).2.1
    · rfl
  have hexponent : Numeral.readExponent rest = .ok (none, rest) := by
    cases rest with
    | nil => rfl
    | cons b more =>
        obtain ⟨-, -, hsmall, hlarge⟩ := h.head_ne rfl
        exact if_neg (not_or.mpr ⟨hsmall, hlarge⟩)
  simp only [Numeral.readUnsigned, bind, Except.bind, readWhole_digitBytes n h, hfraction,
    hexponent]
  rfl

theorem bytes_repr (n : Nat) : bytes n.repr = digitBytes n := by
  rw [Nat.repr_eq_ofList_toDigits, Text.bytes_ofList_ascii, digitBytes]
  intro c hc
  exact Nat.lt_of_le_of_lt (toNat_of_mem_toDigits hc).2 (by decide)

/-- The numeral of an integer is read from what is written for it. -/
theorem read_ofInt (n : Int) (h : Closes rest) :
    Numeral.read (bytes (toString n) ++ rest) = .ok (.ofInt n, rest) := by
  cases n with
  | ofNat m =>
      show Numeral.read (bytes m.repr ++ rest) = _
      have hplus : Numeral.read (digitBytes m ++ rest)
          = Numeral.readUnsigned false (digitBytes m ++ rest) := by
        unfold Numeral.read
        split
        · rename_i more heq
          -- The first byte is a digit, and the minus sign is none.
          obtain ⟨b, bs, hbs⟩ := List.exists_cons_of_ne_nil (digitBytes_ne_nil m)
          have hdigit := isDigit_of_mem_digitBytes (n := m) (by rw [hbs]; exact List.mem_cons_self)
          rw [hbs, List.cons_append] at heq
          rw [(List.cons.inj heq).1] at hdigit
          cases hdigit
        · rfl
      rw [bytes_repr, hplus, readUnsigned_digitBytes false m h]
      rfl
  | negSucc m =>
      have hminus : bytes (toString (Int.negSucc m)) = 45 :: digitBytes (m + 1) := by
        show bytes ("-" ++ (m + 1).repr) = _
        rw [Text.bytes_append, bytes_repr]
        rfl
      have hint : Numeral.ofInt (Int.negSucc m) = ⟨true, digitsOf (m + 1), [], none⟩ := by
        rw [Numeral.ofInt, decide_eq_true (Int.negSucc_lt_zero m)]
        rfl
      rw [hminus, hint]
      exact readUnsigned_digitBytes true (m + 1) h

/-- An integer that fits 64 bits is what its numeral stands for. -/
theorem number?_ofInt {n : Int} (h : (Value.number (.integer n)).IsSettled) :
    (Numeral.ofInt n).number? = some (.integer n) := by
  obtain ⟨hlow, hhigh⟩ := h
  have hvalue := digitsValue_digitsOf n.natAbs
  rw [Numeral.number?, Numeral.ofInt]
  dsimp only
  rw [if_pos (by decide), hvalue]
  by_cases hneg : n < 0
  · rw [if_pos (decide_eq_true hneg), if_pos (by omega)]
    congr 2
    omega
  · rw [if_neg (by simpa using hneg), if_pos (by omega)]
    congr 2
    omega

theorem ofInt_injective {n n' : Int} (h : Numeral.ofInt n = Numeral.ofInt n') : n = n' := by
  obtain ⟨hsign, hdigits, -, -⟩ := Numeral.mk.inj h
  have habs := congrArg Numeral.digitsValue hdigits
  rw [digitsValue_digitsOf, digitsValue_digitsOf] at habs
  have hnegative : n < 0 ↔ n' < 0 := decide_eq_decide.mp hsign
  omega

/-! ### Documents of values -/

mutual

/-- The document that is written for a value of whole numbers. (Any other number has one here that
no text is read as.) -/
def Value.doc : Value → Doc
  | .null => .null
  | .boolean b => .boolean b
  | .number (.integer n) => .numeral (.ofInt n)
  | .number (.double _) => .literal none
  | .string s => .literal (some s)
  | .array items => .array (itemDocs items)
  | .object members => .object (memberDocs members)

/-- The documents of elements. -/
def itemDocs : List Value → List Doc
  | [] => []
  | v :: vs => v.doc :: itemDocs vs

/-- The documents of members. -/
def memberDocs : List (String × Value) → List (Option String × Doc)
  | [] => []
  | (k, v) :: ms => (some k, v.doc) :: memberDocs ms

end

/-- The bytes that are written for a value. -/
def Value.bytes (v : Value) : List UInt8 := Text.bytes (String.ofList v.write)

theorem bytes_writeItems_cons (v : Value) (vs : List Value) :
    bytes (String.ofList (writeItems (v :: vs)))
      = 44 :: (v.bytes ++ bytes (String.ofList (writeItems vs))) := by
  rw [writeItems, Text.bytes_ofList_cons (by decide), Text.bytes_ofList_append]
  rfl

theorem bytes_writeMembers_cons (k : String) (v : Value) (ms : List (String × Value)) :
    bytes (String.ofList (writeMembers ((k, v) :: ms)))
      = 44 :: 34 :: (Literal.content k ++ 34 :: 58 ::
          (v.bytes ++ bytes (String.ofList (writeMembers ms)))) := by
  rw [writeMembers, Text.bytes_ofList_cons (by decide), Text.bytes_ofList_append,
    Literal.bytes_write, Text.bytes_ofList_cons (by decide), Text.bytes_ofList_append,
    List.cons_append, List.append_assoc]
  rfl

theorem itemsSpelledBy_write {items : List Value} (h : ∀ v ∈ items, v.doc.SpelledBy v.bytes) :
    itemsSpelledBy (itemDocs items) (bytes (String.ofList (writeItems items))) := by
  induction items with
  | nil => exact ⟨[], isGaps_nil, rfl⟩
  | cons v vs ih =>
      obtain ⟨hv, hvs⟩ := List.forall_mem_cons.mp h
      exact ⟨[], [], v.bytes, _, isGaps_nil, isGaps_nil, hv, ih hvs, bytes_writeItems_cons v vs⟩

theorem membersSpelledBy_write {members : List (String × Value)}
    (h : ∀ m ∈ members, m.2.doc.SpelledBy m.2.bytes) :
    membersSpelledBy (memberDocs members) (bytes (String.ofList (writeMembers members))) := by
  induction members with
  | nil => exact ⟨[], isGaps_nil, rfl⟩
  | cons m ms ih =>
      obtain ⟨k, v⟩ := m
      obtain ⟨hv, hms⟩ := List.forall_mem_cons.mp h
      exact ⟨[], [], Literal.content k, [], [], v.bytes, _, isGaps_nil, isGaps_nil,
        Literal.contentOf_content k, isGaps_nil, isGaps_nil, hv, ih hms,
        bytes_writeMembers_cons k v ms⟩

/-- What is written for a value of whole numbers is a spelling of its document. -/
theorem Value.spelledBy_write (v : Value) (hwhole : v.IsWhole) : v.doc.SpelledBy v.bytes := by
  induction v with
  | null => rfl
  | boolean b => cases b <;> rfl
  | number n =>
      cases n with
      | integer n =>
          intro rest hrest
          rw [bytes, write, Number.text, String.ofList_toList]
          exact read_ofInt n hrest
      | double bits => exact absurd rfl (hwhole.self bits)
  | string s => exact ⟨_, Literal.contentOf_content s, Literal.bytes_write s⟩
  | array items ih =>
      have hitems := itemsSpelledBy_write fun v hv => ih v hv ((all_array.mp hwhole).2 v hv)
      cases items with
      | nil => exact ⟨[], isGaps_nil, rfl⟩
      | cons v vs =>
          rw [bytes_writeItems_cons] at hitems
          refine ⟨_, hitems, ?_⟩
          rw [bytes, write, Text.bytes_ofList_cons (by decide), Text.bytes_ofList_append]
          rfl
  | object members ih =>
      have hmembers :=
        membersSpelledBy_write fun m hm => ih m hm ((all_object.mp hwhole).2 m hm)
      cases members with
      | nil => exact ⟨[], isGaps_nil, rfl⟩
      | cons m ms =>
          obtain ⟨k, v⟩ := m
          rw [bytes_writeMembers_cons] at hmembers
          refine ⟨_, hmembers, ?_⟩
          rw [bytes, write, Text.bytes_ofList_cons (by decide), Text.bytes_ofList_append,
            Literal.bytes_write, Text.bytes_ofList_cons (by decide), Text.bytes_ofList_append,
            List.cons_append, List.append_assoc]
          rfl

/-- The document of a value is in its text. -/
theorem Value.isIn_text {v : Value} (hwhole : v.IsWhole) : v.doc.IsIn v.text :=
  ⟨[], v.bytes, [], isGaps_nil, v.spelledBy_write hwhole, isGaps_nil, (List.append_nil _).symm⟩

/-! ### Values are told apart -/

theorem itemDocs_injective {items items' : List Value}
    (hsame : ∀ v ∈ items, ∀ v' ∈ items', v.doc = v'.doc → v = v')
    (h : itemDocs items = itemDocs items') : items = items' := by
  induction items generalizing items' with
  | nil =>
      cases items' with
      | nil => rfl
      | cons v' vs' => cases h
  | cons v vs ih =>
      cases items' with
      | nil => cases h
      | cons v' vs' =>
          obtain ⟨hhead, htail⟩ := List.cons.inj h
          rw [hsame v List.mem_cons_self v' List.mem_cons_self hhead,
            ih (fun w hw w' hw' => hsame w (List.mem_cons_of_mem _ hw) w'
              (List.mem_cons_of_mem _ hw')) htail]

theorem memberDocs_injective {members members' : List (String × Value)}
    (hsame : ∀ m ∈ members, ∀ m' ∈ members', m.2.doc = m'.2.doc → m.2 = m'.2)
    (h : memberDocs members = memberDocs members') : members = members' := by
  induction members generalizing members' with
  | nil =>
      cases members' with
      | nil => rfl
      | cons m' ms' => cases h
  | cons m ms ih =>
      cases members' with
      | nil => cases h
      | cons m' ms' =>
          obtain ⟨hhead, htail⟩ := List.cons.inj h
          obtain ⟨hkey, hdoc⟩ := Prod.mk.inj hhead
          rw [ih (fun w hw w' hw' => hsame w (List.mem_cons_of_mem _ hw) w'
              (List.mem_cons_of_mem _ hw')) htail,
            Prod.ext (Option.some.inj hkey)
              (hsame m List.mem_cons_self m' List.mem_cons_self hdoc)]

/-- Values of whole numbers with the same document are the same. -/
theorem Value.doc_injective {v v' : Value} (hwhole : v.IsWhole) (hwhole' : v'.IsWhole)
    (h : v.doc = v'.doc) : v = v' := by
  -- In every case a value of another kind has a document of another kind.
  induction v generalizing v' with
  | null =>
      cases v' with
      | null => rfl
      | number n => cases n <;> cases h
      | _ => cases h
  | boolean b =>
      cases v' with
      | boolean b' => exact congrArg Value.boolean (Doc.boolean.inj h)
      | number n => cases n <;> cases h
      | _ => cases h
  | number n =>
      cases n with
      | integer n =>
          cases v' with
          | number n' =>
              cases n' with
              | integer n' => rw [ofInt_injective (Doc.numeral.inj h)]
              | double bits => cases h
          | _ => cases h
      | double bits => exact absurd rfl (hwhole.self bits)
  | string s =>
      cases v' with
      | string s' => exact congrArg Value.string (Option.some.inj (Doc.literal.inj h))
      | number n => cases n <;> cases h
      | _ => cases h
  | array items ih =>
      cases v' with
      | array items' =>
          refine congrArg Value.array (itemDocs_injective (fun w hw w' hw' hdoc => ?_)
            (Doc.array.inj h))
          exact ih w hw ((all_array.mp hwhole).2 w hw) ((all_array.mp hwhole').2 w' hw') hdoc
      | number n => cases n <;> cases h
      | _ => cases h
  | object members ih =>
      cases v' with
      | object members' =>
          refine congrArg Value.object (memberDocs_injective (fun w hw w' hw' hdoc => ?_)
            (Doc.object.inj h))
          exact ih w hw ((all_object.mp hwhole).2 w hw) ((all_object.mp hwhole').2 w' hw') hdoc
      | number n => cases n <;> cases h
      | _ => cases h

/-- **A text tells its value from all other values.** -/
theorem Value.text_injective {v v' : Value} (hwhole : v.IsWhole) (hwhole' : v'.IsWhole) :
    v.text = v'.text ↔ v = v' := by
  refine ⟨fun h => doc_injective hwhole hwhole' ?_, congrArg Value.text⟩
  have hdoc := (isIn_text hwhole).ofText?
  rw [h, (isIn_text hwhole').ofText?] at hdoc
  exact (Option.some.inj hdoc).symm

/-! ### Reading back -/

/-- No object of the value has the announcing key first. -/
def Value.IsSilent (v : Value) : Prop :=
  v.All fun p => ∀ first ms, p ≠ .object ((embeddedKey, first) :: ms)

variable {inner? : String → Option Value} {depth : Nat}

/-- A member with the largest key goes to the end of the object. -/
theorem putMember_of_last {k : String} {members : List (String × Value)}
    (h : ∀ m ∈ members, Text.order m.1 k = .lt) (v : Value) :
    putMember k v members = members ++ [(k, v)] := by
  induction members with
  | nil => rfl
  | cons m ms ih =>
      obtain ⟨hm, hms⟩ := List.forall_mem_cons.mp h
      rw [putMember, Std.OrientedCmp.gt_iff_lt.mpr hm, ih hms]
      rfl

/-- The document is read as this value exactly under the condition, and as no other one. -/
def ReadsIf (inner? : String → Option Value) (depth : Nat) (v : Value) (condition : Prop) : Prop :=
  ∀ w, v.doc.value? inner? depth = some w ↔ w = v ∧ condition

theorem itemValues?_itemDocs {items : List Value} {P : Value → Prop}
    (h : ∀ v ∈ items, ReadsIf inner? depth v (P v)) (vs : List Value) :
    itemValues? inner? depth (itemDocs items) = some vs ↔ vs = items ∧ ∀ v ∈ items, P v := by
  induction items generalizing vs with
  | nil => simp [itemDocs, itemValues?, eq_comm]
  | cons v items ih =>
      obtain ⟨hv, hitems⟩ := List.forall_mem_cons.mp h
      rw [itemDocs, itemValues?, List.forall_mem_cons]
      split
      · rename_i w hw
        obtain ⟨rfl, hP⟩ := (hv w).mp hw
        rw [Option.map_eq_some_iff]
        constructor
        · rintro ⟨vs, hvs, rfl⟩
          obtain ⟨rfl, hrest⟩ := (ih hitems vs).mp hvs
          exact ⟨rfl, hP, hrest⟩
        · rintro ⟨rfl, -, hrest⟩
          exact ⟨items, (ih hitems items).mpr ⟨rfl, hrest⟩, rfl⟩
      · rename_i hnone
        refine iff_of_false (Option.some_ne_none vs).symm fun h => ?_
        rw [(hv v).mpr ⟨rfl, h.2.1⟩] at hnone
        cases hnone

theorem memberValues?_memberDocs {members done : List (String × Value)} {P : Value → Prop}
    (hascending : Ascending (done ++ members))
    (h : ∀ m ∈ members, ReadsIf inner? depth m.2 (P m.2)) (ms : List (String × Value)) :
    memberValues? inner? depth (memberDocs members) done = some ms
      ↔ ms = done ++ members ∧ ∀ m ∈ members, P m.2 := by
  induction members generalizing done with
  | nil => simp [memberDocs, memberValues?, eq_comm]
  | cons m members ih =>
      obtain ⟨k, v⟩ := m
      obtain ⟨hv, hmembers⟩ := List.forall_mem_cons.mp h
      rw [memberDocs, memberValues?, List.forall_mem_cons]
      split
      · rename_i w hw
        obtain ⟨rfl, hP⟩ := (hv w).mp hw
        -- Keys come in order, so each member goes to the end.
        have hlast : ∀ m ∈ done, Text.order m.1 k = .lt := fun m hm =>
          (List.pairwise_append.mp hascending).2.2 m hm _ List.mem_cons_self
        rw [List.append_cons] at hascending
        rw [putMember_of_last hlast, ih hascending hmembers, ← List.append_cons]
        exact and_congr_right fun _ => (and_iff_right hP).symm
      · rename_i hnone
        refine iff_of_false (Option.some_ne_none ms).symm fun h => ?_
        rw [(hv v).mpr ⟨rfl, h.2.1⟩] at hnone
        cases hnone

/-- An object with its members in order announces a text if the announcing key is its first one, and
it has other members then. -/
theorem embedded_memberDocs {members : List (String × Value)}
    (hkeys : members.map Prod.fst ≠ [embeddedKey]) :
    (Embedded.of (memberDocs members) = .absent ∧ ∀ first ms, members ≠ (embeddedKey, first) :: ms)
      ∨ (Embedded.of (memberDocs members) = .broken ∧
          ∃ first ms, members = (embeddedKey, first) :: ms) := by
  cases members with
  | nil => exact Or.inl ⟨rfl, fun _ _ h => by cases h⟩
  | cons m ms =>
      obtain ⟨k, v⟩ := m
      unfold memberDocs Embedded.of
      dsimp only
      by_cases hk : k = embeddedKey
      · subst hk
        refine Or.inr ⟨?_, v, ms, rfl⟩
        rw [if_pos rfl]
        cases ms with
        | nil => exact absurd rfl hkeys
        | cons m' ms =>
            cases v.doc with
            | literal s => cases s <;> rfl
            | _ => rfl
      · refine Or.inl ⟨if_neg hk, fun first rest h => hk ?_⟩
        exact congrArg Prod.fst (List.cons.inj h).1

/-- A value that contains nothing is read at every depth. -/
theorem readsIf_of_leaf {v : Value} (hparts : v.parts = [v])
    (hobject : ∀ members, v ≠ .object members) (hnesting : v.nesting = 0)
    (hread : v.doc.value? inner? depth = some v) :
    ReadsIf inner? depth v (v.nesting ≤ depth ∧ v.IsSilent) := by
  intro w
  have hsilent : v.IsSilent := (Value.all_of_parts hparts).mpr fun _ _ => hobject _
  rw [hread, Option.some.injEq, eq_comm]
  exact (and_iff_left ⟨by omega, hsilent⟩).symm

/-- **The document of a value is read as this value**, as long as it is not nested too deeply, and
no object in it announces a text. -/
theorem Value.value?_doc (v : Value) (hwhole : v.IsWhole) (htidy : v.IsTidy) :
    ReadsIf inner? depth v (v.nesting ≤ depth ∧ v.IsSilent) := by
  induction v generalizing depth with
  | null => exact readsIf_of_leaf rfl (fun _ h => by cases h) rfl rfl
  | boolean b => exact readsIf_of_leaf rfl (fun _ h => by cases h) rfl rfl
  | number n =>
      cases n with
      | integer n =>
          refine readsIf_of_leaf rfl (fun _ h => by cases h) rfl ?_
          rw [doc, Doc.value?, number?_ofInt htidy.self]
          rfl
      | double bits => exact absurd rfl (hwhole.self bits)
  | string s => exact readsIf_of_leaf rfl (fun _ h => by cases h) rfl rfl
  | array items ih =>
      intro w
      have hsilent : (Value.array items).IsSilent ↔ ∀ v ∈ items, v.IsSilent :=
        all_array.trans (and_iff_right fun _ _ h => by cases h)
      rw [hsilent, nesting]
      cases depth with
      | zero => simp [doc, Doc.value?]
      | succ depth =>
          have hitems := itemValues?_itemDocs (P := fun v => v.nesting ≤ depth ∧ v.IsSilent)
            fun v hv => ih v hv ((all_array.mp hwhole).2 v hv) ((all_array.mp htidy).2 v hv)
          rw [doc, Doc.value?, Option.map_eq_some_iff, Nat.add_le_add_iff_right, itemsNesting_le,
            ← forall₂_and]
          constructor
          · rintro ⟨vs, hvs, rfl⟩
            obtain ⟨rfl, hparts⟩ := (hitems vs).mp hvs
            exact ⟨rfl, hparts⟩
          · rintro ⟨rfl, hparts⟩
            exact ⟨items, (hitems items).mpr ⟨rfl, hparts⟩, rfl⟩
  | object members ih =>
      intro w
      obtain ⟨⟨hascending, hkeys⟩, htidy⟩ := all_object.mp htidy
      have hsilent : (Value.object members).IsSilent
          ↔ (∀ first ms, members ≠ (embeddedKey, first) :: ms) ∧ ∀ m ∈ members, m.2.IsSilent := by
        rw [IsSilent, all_object]
        simp only [ne_eq, Value.object.injEq]
        rfl
      rw [hsilent, nesting]
      cases depth with
      | zero => simp [doc, Doc.value?]
      | succ depth =>
          rw [doc, Doc.value?]
          -- An object that announces a text has other members, so it is not read.
          rcases embedded_memberDocs hkeys with ⟨hembedded, habsent⟩ | ⟨hembedded, first, ms, hms⟩
          · rw [← List.nil_append members] at hascending
            have hmembers := memberValues?_memberDocs hascending
              (P := fun v => v.nesting ≤ depth ∧ v.IsSilent)
              fun m hm => ih m hm ((all_object.mp hwhole).2 m hm) (htidy m hm)
            rw [hembedded, and_iff_right habsent, Nat.add_le_add_iff_right, membersNesting_le,
              ← forall₂_and]
            dsimp only
            rw [Option.map_eq_some_iff]
            constructor
            · rintro ⟨ms, hms, rfl⟩
              obtain ⟨rfl, hparts⟩ := (hmembers ms).mp hms
              exact ⟨rfl, hparts⟩
            · rintro ⟨rfl, hparts⟩
              exact ⟨members, (hmembers members).mpr ⟨rfl, hparts⟩, rfl⟩
          · rw [hembedded]
            exact ⟨fun h => (by cases h), fun h => absurd hms (h.2.2.1 first ms)⟩

/-- **The text of a tidy value is read as this value**, if no more containers stand inside one
another than are read and no object in it announces a text; otherwise it is read as nothing. -/
theorem Value.ofText?_text {v : Value} (hwhole : v.IsWhole) (htidy : v.IsTidy) (w : Value) :
    ofText? v.text = some w ↔ w = v ∧ v.nesting ≤ maxDepth ∧ v.IsSilent := by
  rw [ofText?, ofNested?, (isIn_text hwhole).ofText?, Option.bind_some]
  exact v.value?_doc hwhole htidy w

end ResponseExport.Json
