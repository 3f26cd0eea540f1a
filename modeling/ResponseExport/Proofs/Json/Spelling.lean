import ResponseExport.Json.Doc
import ResponseExport.Proofs.Json.Arrays
import ResponseExport.Proofs.Json.Values

/-!
# `ResponseExport.Proofs.Json.Spelling`: documents and their texts

A document can be spelled in many ways. There may be blanks around every part of it, and
a character of a string may stand there as it is, behind a backslash, or as one or two
numbers. `Doc.SpelledBy` is this grammar, and `ofBytes?_of_spelledBy` says that all
spellings of a document are read as that document.

The elements behind the first one of a list are spelled with a comma before each, and
with the closing bracket behind the last one. A whole list is spelled in the same way,
with the opening bracket in place of its first comma. So reading is shown by one
induction over elements that are still to come (`moreItems_of_spelledBy`), and one over
members (`moreMembers_of_spelledBy`).

The number that bounds the steps of the readers is large enough if it is no less than the
length of the spelling.
-/

set_option autoImplicit false

namespace ResponseExport.Json

/-- Blanks. -/
def IsGaps (bs : List UInt8) : Prop := ∀ b ∈ bs, isGap b = true

/-- May these bytes stand behind a value? They begin with a blank, a comma or a closing bracket, if
with anything. -/
def Closes (rest : List UInt8) : Prop :=
  ∀ b ∈ rest.head?, isGap b = true ∨ b = 44 ∨ b = 93 ∨ b = 125

mutual

/-- Is it one of the spellings of a document? -/
def Doc.SpelledBy : Doc → List UInt8 → Prop
  | .null, bs => bs = [110, 117, 108, 108]
  | .boolean true, bs => bs = [116, 114, 117, 101]
  | .boolean false, bs => bs = [102, 97, 108, 115, 101]
  | .numeral n, bs => ∀ rest, Closes rest → Numeral.read (bs ++ rest) = .ok (n, rest)
  | .literal none, _ => False
  | .literal (some s), bs =>
    ∃ content, Literal.ContentOf s.toList content ∧ bs = 34 :: (content ++ [34])
  | .array [], bs => ∃ gaps, IsGaps gaps ∧ bs = 91 :: (gaps ++ [93])
  | .array (d :: ds), bs => ∃ inside, itemsSpelledBy (d :: ds) (44 :: inside) ∧ bs = 91 :: inside
  | .object [], bs => ∃ gaps, IsGaps gaps ∧ bs = 123 :: (gaps ++ [125])
  | .object (m :: ms), bs =>
    ∃ inside, membersSpelledBy (m :: ms) (44 :: inside) ∧ bs = 123 :: inside

/-- Is it a spelling of elements, with a comma before each, and of the closing bracket? -/
def itemsSpelledBy : List Doc → List UInt8 → Prop
  | [], bs => ∃ gaps, IsGaps gaps ∧ bs = gaps ++ [93]
  | d :: ds, bs => ∃ before behind first more, IsGaps before ∧ IsGaps behind ∧ d.SpelledBy first ∧
      itemsSpelledBy ds more ∧ bs = before ++ 44 :: (behind ++ (first ++ more))

/-- Is it a spelling of members, with a comma before each, and of the closing brace? -/
def membersSpelledBy : List (Option String × Doc) → List UInt8 → Prop
  | [], bs => ∃ gaps, IsGaps gaps ∧ bs = gaps ++ [125]
  | (none, _) :: _, _ => False
  | (some k, d) :: ms, bs => ∃ before behind content between ahead first more,
      IsGaps before ∧ IsGaps behind ∧ Literal.ContentOf k.toList content ∧ IsGaps between ∧
      IsGaps ahead ∧ d.SpelledBy first ∧ membersSpelledBy ms more ∧
      bs = before ++ 44 :: (behind ++ 34 :: (content ++ 34 :: (between ++ 58 :: (ahead ++
        (first ++ more)))))

end

/-! ### Reading step by step -/

theorem skipGaps_append {gaps : List UInt8} (h : IsGaps gaps) (bs : List UInt8) :
    skipGaps (gaps ++ bs) = skipGaps bs := by
  rw [skipGaps, skipGaps, List.dropWhile_append_of_pos h]

theorem isGaps_nil : IsGaps [] := List.forall_mem_nil _

/-- What follows an element: more of them, or the end of the list. -/
def moreItems (n : Nat) (bs : List UInt8) : Option (List Doc × List UInt8) :=
  match skipGaps bs with
  | 44 :: rest => readItems n rest
  | 93 :: rest => some ([], rest)
  | _ => none

/-- What follows a member: more of them, or the end of the object. -/
def moreMembers (n : Nat) (bs : List UInt8) :
    Option (List (Option String × Doc) × List UInt8) :=
  match skipGaps bs with
  | 44 :: rest => readMembers n rest
  | 125 :: rest => some ([], rest)
  | _ => none

theorem readItems_succ {n : Nat} {bs rest : List UInt8} {d : Doc}
    (h : readDoc n bs = some (d, rest)) :
    readItems (n + 1) bs = (moreItems n rest).map fun p => (d :: p.1, p.2) := by
  rw [readItems, h, moreItems]
  dsimp only
  split <;> simp only [*, Option.map_some, Option.map_none]

theorem readMembers_succ {n : Nat} {bs afterKey value rest : List UInt8} {k : String} {d : Doc}
    (hquote : skipGaps bs = 34 :: afterKey) (hkey : Literal.read afterKey = .ok (k, value))
    {ahead : List UInt8} (hcolon : skipGaps value = 58 :: ahead)
    (h : readDoc n ahead = some (d, rest)) :
    readMembers (n + 1) bs = (moreMembers n rest).map fun p => ((some k, d) :: p.1, p.2) := by
  have hliteral : readLiteral? afterKey = some (some k, value) := by rw [readLiteral?, hkey]
  rw [readMembers, hquote]
  simp only [hliteral, hcolon, h]
  rw [moreMembers]
  split <;> simp only [*, Option.map_some, Option.map_none]

/-! ### Reading any spelling -/

/-- All spellings of a document are read as the document. -/
def Doc.ReadsBack (d : Doc) : Prop :=
  ∀ {bs gaps rest : List UInt8} {n : Nat}, d.SpelledBy bs → IsGaps gaps → Closes rest →
    bs.length ≤ n → readDoc n (gaps ++ (bs ++ rest)) = some (d, rest)

variable {rest : List UInt8} {n : Nat}

theorem closes_of_head {b : UInt8} (hb : isGap b = true ∨ b = 44 ∨ b = 93 ∨ b = 125)
    (bs : List UInt8) : Closes (b :: bs) := by
  intro b' hb'
  obtain rfl := Option.mem_some_iff.mp hb'
  exact hb

theorem closes_gaps {gaps : List UInt8} (hgaps : IsGaps gaps) {b : UInt8}
    (hb : b = 44 ∨ b = 93 ∨ b = 125) (bs : List UInt8) : Closes (gaps ++ b :: bs) := by
  cases gaps with
  | nil => exact closes_of_head (Or.inr hb) bs
  | cons gap gaps => exact closes_of_head (Or.inl (hgaps gap List.mem_cons_self)) _

theorem closes_items {ds : List Doc} {more : List UInt8} (h : itemsSpelledBy ds more)
    (rest : List UInt8) : Closes (more ++ rest) := by
  cases ds with
  | nil =>
      obtain ⟨gaps, hgaps, rfl⟩ := h
      rw [List.append_assoc]
      exact closes_gaps hgaps (Or.inr (Or.inl rfl)) _
  | cons d ds =>
      obtain ⟨before, behind, first, more, hbefore, -, -, -, rfl⟩ := h
      rw [List.append_assoc]
      exact closes_gaps hbefore (Or.inl rfl) _

theorem closes_members {ms : List (Option String × Doc)} {more : List UInt8}
    (h : membersSpelledBy ms more) (rest : List UInt8) : Closes (more ++ rest) := by
  cases ms with
  | nil =>
      obtain ⟨gaps, hgaps, rfl⟩ := h
      rw [List.append_assoc]
      exact closes_gaps hgaps (Or.inr (Or.inr rfl)) _
  | cons m ms =>
      obtain ⟨key, d⟩ := m
      cases key with
      | none => exact absurd h id
      | some k =>
          obtain ⟨before, _, _, _, _, _, _, hbefore, -, -, -, -, -, -, rfl⟩ := h
          rw [List.append_assoc]
          exact closes_gaps hbefore (Or.inl rfl) _

theorem length_items {ds : List Doc} {more : List UInt8} (h : itemsSpelledBy ds more) :
    1 ≤ more.length := by
  cases ds with
  | nil =>
      obtain ⟨gaps, -, rfl⟩ := h
      simp
  | cons d ds =>
      obtain ⟨before, behind, first, more, -, -, -, -, rfl⟩ := h
      simp only [List.length_append, List.length_cons]
      omega

/-- Elements that are still to come are read up to the closing bracket. -/
theorem moreItems_of_spelledBy {ds : List Doc} (hds : ∀ d ∈ ds, d.ReadsBack) {bs : List UInt8}
    (h : itemsSpelledBy ds bs) (rest : List UInt8) (hn : bs.length ≤ n + 1) :
    moreItems n (bs ++ rest) = some (ds, rest) := by
  induction ds generalizing bs n with
  | nil =>
      obtain ⟨gaps, hgaps, rfl⟩ := h
      rw [moreItems, List.append_assoc, skipGaps_append hgaps]
      rfl
  | cons d ds ih =>
      obtain ⟨hd, hds⟩ := List.forall_mem_cons.mp hds
      obtain ⟨before, behind, first, more, hbefore, hbehind, hfirst, hmore, rfl⟩ := h
      -- The comma is one byte, so the rest of the bound is enough for what stands behind it.
      have hlength := length_items hmore
      simp only [List.length_append, List.length_cons] at hn
      obtain ⟨m, rfl⟩ : ∃ m, n = m + 1 := ⟨n - 1, by omega⟩
      have hitem : readDoc m (behind ++ (first ++ (more ++ rest))) = some (d, more ++ rest) :=
        hd hfirst hbehind (closes_items hmore rest) (by omega)
      rw [moreItems, List.append_assoc, skipGaps_append hbefore]
      show readItems (m + 1) ((behind ++ (first ++ more)) ++ rest) = _
      rw [List.append_assoc, List.append_assoc, readItems_succ hitem,
        ih hds hmore (by omega)]
      rfl

theorem length_members {ms : List (Option String × Doc)} {more : List UInt8}
    (h : membersSpelledBy ms more) : 1 ≤ more.length := by
  cases ms with
  | nil =>
      obtain ⟨gaps, -, rfl⟩ := h
      simp
  | cons m ms =>
      obtain ⟨key, d⟩ := m
      cases key with
      | none => exact absurd h id
      | some k =>
          obtain ⟨before, _, _, _, _, _, _, -, -, -, -, -, -, -, rfl⟩ := h
          simp only [List.length_append, List.length_cons]
          omega

/-- Members that are still to come are read up to the closing brace. -/
theorem moreMembers_of_spelledBy {ms : List (Option String × Doc)}
    (hms : ∀ m ∈ ms, m.2.ReadsBack) {bs : List UInt8} (h : membersSpelledBy ms bs)
    (rest : List UInt8) (hn : bs.length ≤ n + 1) :
    moreMembers n (bs ++ rest) = some (ms, rest) := by
  induction ms generalizing bs n with
  | nil =>
      obtain ⟨gaps, hgaps, rfl⟩ := h
      rw [moreMembers, List.append_assoc, skipGaps_append hgaps]
      rfl
  | cons m ms ih =>
      obtain ⟨hm, hlater⟩ := List.forall_mem_cons.mp hms
      obtain ⟨key, d⟩ := m
      cases key with
      | none => exact absurd h id
      | some k =>
          obtain ⟨before, behind, content, between, ahead, first, more, hbefore, hbehind, hcontent,
            hbetween, hahead, hfirst, hmore, rfl⟩ := h
          have hlength := length_members hmore
          simp only [List.length_append, List.length_cons] at hn
          obtain ⟨j, rfl⟩ : ∃ j, n = j + 1 := ⟨n - 1, by omega⟩
          have hvalue : readDoc j (ahead ++ (first ++ (more ++ rest))) = some (d, more ++ rest) :=
            hm hfirst hahead (closes_members hmore rest) (by omega)
          have hquote : skipGaps (behind ++ 34 :: (content ++ 34 :: (between ++ 58 :: (ahead ++
              (first ++ (more ++ rest))))))
              = 34 :: (content ++ 34 :: (between ++ 58 :: (ahead ++ (first ++ (more ++ rest))))) :=
            skipGaps_append hbehind _
          have hcolon : skipGaps (between ++ 58 :: (ahead ++ (first ++ (more ++ rest))))
              = 58 :: (ahead ++ (first ++ (more ++ rest))) := skipGaps_append hbetween _
          rw [moreMembers, List.append_assoc, skipGaps_append hbefore]
          show readMembers (j + 1) ((behind ++ _) ++ rest) = _
          simp only [List.append_assoc, List.cons_append]
          rw [readMembers_succ hquote (Literal.read_of_contentOf hcontent _) hcolon hvalue,
            ih hlater hmore (by omega)]
          rfl

/-- A numeral begins with a minus sign or a digit. -/
theorem head_of_read {b : UInt8} {bs : List UInt8} {m : Numeral × List UInt8}
    (h : Numeral.read (b :: bs) = .ok m) : b = 45 ∨ Numeral.isDigit b = true := by
  by_cases hminus : b = 45
  · exact Or.inl hminus
  · refine Or.inr (Decidable.byContradiction fun hdigit => ?_)
    have hwhole : Numeral.readWhole (b :: bs) = .error (.before .invalidNumber bs) := by
      unfold Numeral.readWhole
      split
      · contradiction
      · rename_i heq
        cases heq
        exact absurd rfl hdigit
      · rename_i heq
        cases heq
        exact if_neg hdigit
    have hread : Numeral.read (b :: bs) = Numeral.readUnsigned false (b :: bs) := by
      simp [Numeral.read, hminus]
    rw [hread, Numeral.readUnsigned, hwhole] at h
    cases h

/-- No element begins with a closing bracket. -/
theorem readItems_bracket {n : Nat} {bs rest : List UInt8} (h : skipGaps bs = 93 :: rest) :
    readItems n bs = none := by
  have hdoc : ∀ n, readDoc n bs = none := by
    intro n
    cases n with
    | zero => rfl
    | succ n =>
        rw [readDoc, h]
        rfl
  cases n with
  | zero => rfl
  | succ n => rw [readItems, hdoc]

/-- No member begins with a closing brace. -/
theorem readMembers_brace {n : Nat} {bs rest : List UInt8} (h : skipGaps bs = 125 :: rest) :
    readMembers n bs = none := by
  cases n with
  | zero => rfl
  | succ n =>
      rw [readMembers, h]
      rfl

variable {bs rest' : List UInt8}

theorem readDoc_emptyArray (hopen : skipGaps bs = 91 :: rest)
    (hclose : skipGaps rest = 93 :: rest') :
    readDoc (n + 1) bs = some (.array [], rest') := by
  rw [readDoc, hopen]
  dsimp only
  rw [if_neg (by decide), if_neg (by decide), if_neg (by decide), if_neg (by decide), if_pos rfl,
    hclose]
  rfl

theorem readDoc_array {items : List Doc} (hopen : skipGaps bs = 91 :: rest)
    (hitems : readItems n rest = some (items, rest')) :
    readDoc (n + 1) bs = some (.array items, rest') := by
  rw [readDoc, hopen]
  dsimp only
  rw [if_neg (by decide), if_neg (by decide), if_neg (by decide), if_neg (by decide), if_pos rfl]
  split
  · rename_i hclose
    rw [readItems_bracket hclose] at hitems
    cases hitems
  · rw [hitems]
    rfl

theorem readDoc_emptyObject (hopen : skipGaps bs = 123 :: rest)
    (hclose : skipGaps rest = 125 :: rest') : readDoc (n + 1) bs = some (.object [], rest') := by
  rw [readDoc, hopen]
  dsimp only
  rw [if_neg (by decide), if_neg (by decide), if_neg (by decide), if_neg (by decide),
    if_neg (by decide), if_pos rfl, hclose]
  rfl

theorem readDoc_object {members : List (Option String × Doc)} (hopen : skipGaps bs = 123 :: rest)
    (hmembers : readMembers n rest = some (members, rest')) :
    readDoc (n + 1) bs = some (.object members, rest') := by
  rw [readDoc, hopen]
  dsimp only
  rw [if_neg (by decide), if_neg (by decide), if_neg (by decide), if_neg (by decide),
    if_neg (by decide), if_pos rfl]
  split
  · rename_i hclose
    rw [readMembers_brace hclose] at hmembers
    cases hmembers
  · rw [hmembers]
    rfl

/-- **All spellings of a document are read as that document.** -/
theorem Doc.readsBack (d : Doc) : d.ReadsBack := by
  induction d with
  | null =>
      rintro _ gaps rest n rfl hgaps - hn
      obtain ⟨m, rfl⟩ : ∃ m, n = m + 1 := ⟨n - 1, by simp at hn; omega⟩
      rw [readDoc, skipGaps_append hgaps]
      rfl
  | boolean b =>
      intro bs gaps rest n hbs hgaps _ hn
      cases b with
      | true =>
          obtain rfl : bs = _ := hbs
          obtain ⟨m, rfl⟩ : ∃ m, n = m + 1 := ⟨n - 1, by simp at hn; omega⟩
          rw [readDoc, skipGaps_append hgaps]
          rfl
      | false =>
          obtain rfl : bs = _ := hbs
          obtain ⟨m, rfl⟩ : ∃ m, n = m + 1 := ⟨n - 1, by simp at hn; omega⟩
          rw [readDoc, skipGaps_append hgaps]
          rfl
  | numeral x =>
      intro bs gaps rest n hbs hgaps hrest hn
      cases bs with
      | nil => cases hbs [] (fun _ hb => by cases hb)
      | cons b bs =>
          obtain ⟨m, rfl⟩ : ∃ m, n = m + 1 := ⟨n - 1, by simp at hn; omega⟩
          -- No other document begins with a digit or a minus sign, and no blank is one.
          have hread := hbs rest hrest
          have hne : ∀ {c : UInt8}, ¬ (c = 45 ∨ Numeral.isDigit c = true) → b ≠ c :=
            fun hc heq => hc (heq ▸ head_of_read hread)
          have hgap : isGap b = false := by
            simp only [isGap, Bool.or_eq_false_iff, beq_eq_false_iff_ne]
            exact ⟨⟨⟨hne (by decide), hne (by decide)⟩, hne (by decide)⟩, hne (by decide)⟩
          rw [List.cons_append] at hread ⊢
          rw [readDoc, skipGaps_append hgaps, Strings.skipGaps_of_head hgap]
          dsimp only
          rw [if_neg (hne (by decide)), if_neg (hne (by decide)), if_neg (hne (by decide)),
            if_neg (hne (by decide)), if_neg (hne (by decide)), if_neg (hne (by decide)), hread]
  | literal s =>
      intro bs gaps rest n hbs hgaps _ hn
      cases s with
      | none => exact absurd hbs id
      | some s =>
          obtain ⟨content, hcontent, rfl⟩ := hbs
          obtain ⟨m, rfl⟩ : ∃ m, n = m + 1 := ⟨n - 1, by simp at hn; omega⟩
          have hliteral : readLiteral? (content ++ 34 :: rest) = some (some s, rest) := by
            rw [readLiteral?, Literal.read_of_contentOf hcontent]
          rw [readDoc, skipGaps_append hgaps, List.cons_append, List.append_assoc]
          show (readLiteral? (content ++ 34 :: rest)).map _ = _
          rw [hliteral]
          rfl
  | array items ih =>
      intro bs gaps rest n hbs hgaps _ hn
      cases items with
      | nil =>
          obtain ⟨inside, hinside, rfl⟩ := hbs
          obtain ⟨m, rfl⟩ : ∃ m, n = m + 1 := ⟨n - 1, by simp at hn; omega⟩
          rw [List.cons_append, List.append_assoc]
          exact readDoc_emptyArray (skipGaps_append hgaps _) (skipGaps_append hinside _)
      | cons d ds =>
          obtain ⟨inside, hitems, rfl⟩ := hbs
          obtain ⟨m, rfl⟩ : ∃ m, n = m + 1 := ⟨n - 1, by simp at hn; omega⟩
          have hread : readItems m (inside ++ rest) = some (d :: ds, rest) :=
            moreItems_of_spelledBy ih hitems rest hn
          exact readDoc_array (skipGaps_append hgaps _) hread
  | object members ih =>
      intro bs gaps rest n hbs hgaps _ hn
      cases members with
      | nil =>
          obtain ⟨inside, hinside, rfl⟩ := hbs
          obtain ⟨m, rfl⟩ : ∃ m, n = m + 1 := ⟨n - 1, by simp at hn; omega⟩
          rw [List.cons_append, List.append_assoc]
          exact readDoc_emptyObject (skipGaps_append hgaps _) (skipGaps_append hinside _)
      | cons m ms =>
          obtain ⟨inside, hmembers, rfl⟩ := hbs
          obtain ⟨j, rfl⟩ : ∃ j, n = j + 1 := ⟨n - 1, by simp at hn; omega⟩
          have hread : readMembers j (inside ++ rest) = some (m :: ms, rest) :=
            moreMembers_of_spelledBy ih hmembers rest hn
          exact readDoc_object (skipGaps_append hgaps _) hread

/-- A text that is a spelling of a document, with blanks before and behind, is read as it. -/
theorem Doc.ofBytes?_of_spelledBy {d : Doc} {before bs behind : List UInt8} (h : d.SpelledBy bs)
    (hbefore : IsGaps before) (hbehind : IsGaps behind) :
    Doc.ofBytes? (before ++ (bs ++ behind)) = some d := by
  have hcloses : Closes behind := by
    cases behind with
    | nil => exact fun _ hb => by cases hb
    | cons b behind => exact closes_of_head (Or.inl (hbehind b List.mem_cons_self)) _
  have hend : skipGaps behind = [] := by
    have hskip := skipGaps_append hbehind []
    rwa [List.append_nil] at hskip
  rw [ofBytes?, d.readsBack h hbefore hcloses (by simp only [List.length_append]; omega)]
  dsimp only
  rw [hend]
  rfl

/-- Is the text a spelling of the document, with blanks before and behind? -/
def Doc.IsIn (d : Doc) (s : String) : Prop :=
  ∃ before bs behind, IsGaps before ∧ d.SpelledBy bs ∧ IsGaps behind ∧
    Text.bytes s = before ++ (bs ++ behind)

/-- A document is read from every text that it is in. -/
theorem Doc.IsIn.ofText? {d : Doc} {s : String} (h : d.IsIn s) : Doc.ofText? s = some d := by
  obtain ⟨before, bs, behind, hbefore, hbs, hbehind, hbytes⟩ := h
  rw [Doc.ofText?, hbytes]
  exact ofBytes?_of_spelledBy hbs hbefore hbehind

end ResponseExport.Json
