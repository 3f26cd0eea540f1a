import Mathlib.Tactic.SplitIfs
import ResponseExport.Proofs.Json.Contents
import ResponseExport.Proofs.Json.Values

/-!
# `ResponseExport.Proofs.Json.Embedding`: texts inside texts

An object that announces a text has the value of that text. `Value.ofText?` bounds how deep
texts stand inside one another, but the bound is never met: a string has fewer characters
than the text that it stands in (`Doc.length_lt_of_mem_texts`), as it loses its quotes and no
escape is shorter than the character it stands for. So reading has an equation without a
bound (`Value.ofText?_eq`), and this is what everything else about it is proved from.

The readers work on bytes. Characters are counted there by the bytes that continue none
(`charCount`).
-/

set_option autoImplicit false

namespace ResponseExport.Json

open ResponseExport.Text (bytes)

/-! ### Counting characters -/

/-- How many characters the bytes hold. -/
def charCount (bs : List UInt8) : Nat := bs.countP fun b => !Text.isTail b

theorem charCount_append (bs bs' : List UInt8) :
    charCount (bs ++ bs') = charCount bs + charCount bs' := List.countP_append

theorem charCount_le_of_suffix {bs bs' : List UInt8} (h : bs <:+ bs') :
    charCount bs ≤ charCount bs' := h.sublist.countP_le

theorem charCount_lt_of_suffix {b : UInt8} (hb : Text.isTail b = false) {bs bs' : List UInt8}
    (h : bs <:+ bs') : charCount bs < charCount (b :: bs') := by
  have hcons : charCount (b :: bs') = charCount bs' + 1 :=
    List.countP_cons_of_pos (by rw [hb]; rfl)
  rw [hcons]
  exact Nat.lt_succ_of_le (charCount_le_of_suffix h)

theorem charCount_of_isTail {lead : UInt8} {tails : List UInt8} (hlead : Text.isTail lead = false)
    (htails : ∀ b ∈ tails, Text.isTail b = true) : charCount (lead :: tails) = 1 := by
  rw [charCount, List.countP_cons_of_pos (by rw [hlead]; rfl), List.countP_eq_zero.mpr]
  intro b hb
  rw [htails b hb]
  decide

/-- A character has one byte that continues none. -/
theorem charCount_utf8EncodeChar (c : Char) : charCount (String.utf8EncodeChar c) = 1 := by
  obtain ⟨lead, tails, hbytes, hlead, htails⟩ := Text.utf8EncodeChar_eq_cons c
  rw [hbytes]
  exact charCount_of_isTail hlead htails

theorem charCount_bytes (s : String) : charCount (bytes s) = s.length := by
  rw [Text.bytes_eq_flatMap, ← String.length_toList]
  induction s.toList with
  | nil => rfl
  | cons c cs ih =>
      rw [List.flatMap_cons, charCount_append, charCount_utf8EncodeChar, ih, List.length_cons,
        Nat.add_comm]

/-! ### What is read of a literal -/

namespace Literal

/-- An escape has a byte that continues no character: its backslash, or the first byte of the
character. -/
theorem one_le_charCount_of_escapeOf {c : Char} {escaped : List UInt8} (h : EscapeOf c escaped) :
    1 ≤ charCount escaped := by
  have hslash : ∀ bs, 1 ≤ charCount (92 :: bs) := fun bs => by
    rw [charCount, List.countP_cons_of_pos rfl]
    exact Nat.le_add_left 1 _
  cases h with
  | plain => exact Nat.le_of_eq (charCount_utf8EncodeChar c).symm
  | short => exact hslash _
  | unit => exact hslash _
  | pair => exact hslash _

/-- The characters of a string and those behind it are fewer than the characters that it is read
from: one is the closing quote. -/
theorem charCount_readBytes {bs content rest : List UInt8}
    (h : readBytes bs = .ok (content, rest)) :
    charCount content + charCount rest < charCount bs := by
  induction hlength : bs.length using Nat.strongRecOn generalizing bs content with
  | ind n ih =>
      rcases readBytes_eq_ok h with ⟨rfl, rfl⟩ | ⟨c, escaped, bs', content', hescape, hread, rfl, rfl⟩
        | ⟨b, bs', content', -, hread, rfl, rfl⟩
      · rw [show charCount [] = 0 from rfl, Nat.zero_add]
        exact charCount_lt_of_suffix rfl (List.suffix_refl _)
      · have hone := one_le_charCount_of_escapeOf hescape
        have hbytes : charCount escaped ≤ escaped.length := List.countP_le_length
        rw [List.length_append] at hlength
        have hless := ih bs'.length (by omega) hread rfl
        rw [charCount_append, charCount_append, charCount_utf8EncodeChar]
        omega
      · rw [List.length_cons] at hlength
        have hless := ih bs'.length (by omega) hread rfl
        have hcons : ∀ bs, charCount (b :: bs) = charCount [b] + charCount bs :=
          fun bs => charCount_append [b] bs
        rw [hcons content', hcons bs']
        omega

/-- A string that is read has fewer characters than what it is read from. -/
theorem length_of_read {bs rest : List UInt8} {s : String} (h : read bs = .ok (s, rest)) :
    s.length + charCount rest < charCount bs := by
  rw [read] at h
  split at h
  · cases h
  · rename_i content rest' hread
    split at h
    · rename_i s' hs
      obtain ⟨rfl, rfl⟩ := Prod.mk.inj (Except.ok.inj h)
      rw [← charCount_bytes, Text.bytes_of_ofBytes? hs]
      exact charCount_readBytes hread
    · cases h

theorem suffix_of_skip? {bs rest : List UInt8} (h : skip? bs = some rest) : rest <:+ bs := by
  fun_induction skip? bs
  case case2 rest' => exact Option.some.inj h ▸ List.suffix_cons _ _
  case case4 h1 h2 h3 h4 rest' _ _ ih =>
    exact (ih h).trans (List.suffix_append [92, 117, h1, h2, h3, h4] rest')
  case case6 e rest' _ _ _ ih => exact (ih h).trans (List.suffix_append [92, e] rest')
  case case9 b rest' _ _ _ ih => exact (ih h).trans (List.suffix_cons b rest')
  all_goals cases h

end Literal

/-! ### What is left behind a numeral -/

namespace Numeral

variable {bs rest : List UInt8}

theorem suffix_of_readWhole {ds : List Nat} (h : readWhole bs = .ok (ds, rest)) : rest <:+ bs := by
  rw [readWhole.eq_def] at h
  split at h
  · cases h
  · split at h
    · split at h
      · cases h
      · cases h
        exact List.suffix_cons _ _
    · cases h
      exact List.suffix_cons _ _
  · split at h
    · cases h
      exact List.dropWhile_suffix _
    · cases h

theorem suffix_of_readFraction {ds : List Nat} (h : readFraction bs = .ok (ds, rest)) :
    rest <:+ bs := by
  rw [readFraction.eq_def] at h
  split at h
  · split at h
    · cases h
    · split at h
      · cases h
        exact (List.dropWhile_suffix _).trans (List.suffix_cons _ _)
      · cases h
  · cases h
    exact List.suffix_refl _

theorem suffix_of_readPower {negative : Bool} {e : Option (Bool × List Nat)}
    (h : readPower negative bs = .ok (e, rest)) : rest <:+ bs := by
  rw [readPower.eq_def] at h
  split at h
  · cases h
  · split at h
    · cases h
      exact List.dropWhile_suffix _
    · cases h

theorem suffix_of_readExponent {e : Option (Bool × List Nat)}
    (h : readExponent bs = .ok (e, rest)) : rest <:+ bs := by
  rw [readExponent.eq_def] at h
  split at h
  · split at h
    · split at h
      · exact (suffix_of_readPower h).trans (List.suffix_append [_, _] _)
      · exact (suffix_of_readPower h).trans (List.suffix_append [_, _] _)
      · exact (suffix_of_readPower h).trans (List.suffix_cons _ _)
    · cases h
      exact List.suffix_refl _
  · cases h
    exact List.suffix_refl _

theorem suffix_of_readUnsigned {negative : Bool} {n : Numeral}
    (h : readUnsigned negative bs = .ok (n, rest)) : rest <:+ bs := by
  simp only [readUnsigned, bind, Except.bind] at h
  split at h
  · cases h
  · rename_i whole hwhole
    split at h
    · cases h
    · rename_i fraction hfraction
      split at h
      · cases h
      · rename_i exponent hexponent
        cases h
        exact (suffix_of_readExponent hexponent).trans
          ((suffix_of_readFraction hfraction).trans (suffix_of_readWhole hwhole))

theorem suffix_of_read {n : Numeral} (h : read bs = .ok (n, rest)) : rest <:+ bs := by
  rw [read.eq_def] at h
  split at h
  · exact (suffix_of_readUnsigned h).trans (List.suffix_cons _ _)
  · exact suffix_of_readUnsigned h

end Numeral

/-! ### Texts of a document -/

mutual

/-- The strings of a document, those of its keys left out. -/
def Doc.texts : Doc → List String
  | .literal s => s.toList
  | .array items => itemTexts items
  | .object members => memberTexts members
  | _ => []

/-- The strings of elements. -/
def itemTexts : List Doc → List String
  | [] => []
  | d :: ds => d.texts ++ itemTexts ds

/-- The strings of the values of members. -/
def memberTexts : List (Option String × Doc) → List String
  | [] => []
  | (_, d) :: ms => d.texts ++ memberTexts ms

end

/-- The bytes go on with `rest`, and what was read of them before are these texts: none has as many
characters as the bytes. -/
def Shorter (texts : List String) (bs rest : List UInt8) : Prop :=
  charCount rest ≤ charCount bs ∧ ∀ s ∈ texts, s.length < charCount bs

variable {bs mid rest : List UInt8} {texts texts' : List String} {d : Doc} {n : Nat}

theorem shorter_of_suffix (h : rest <:+ bs) : Shorter [] bs rest :=
  ⟨charCount_le_of_suffix h, List.forall_mem_nil _⟩

/-- What is read later is no longer than what was left. -/
theorem Shorter.append (h : Shorter texts bs mid) (h' : Shorter texts' mid rest) :
    Shorter (texts ++ texts') bs rest := by
  refine ⟨Nat.le_trans h'.1 h.1, fun s hs => ?_⟩
  rcases List.mem_append.mp hs with hs | hs
  · exact h.2 s hs
  · exact Nat.lt_of_lt_of_le (h'.2 s hs) h.1

/-- What is read later is no longer, either, whatever is made of what was read before. -/
theorem Shorter.behind (h : Shorter texts bs mid) (h' : Shorter texts' mid rest) :
    Shorter texts' bs rest :=
  ⟨Nat.le_trans h'.1 h.1, fun s hs => Nat.lt_of_lt_of_le (h'.2 s hs) h.1⟩

theorem shorter_of_skipGaps {b : UInt8} (h : skipGaps bs = b :: rest) : Shorter [] bs rest :=
  shorter_of_suffix ((List.suffix_cons b rest).trans (h ▸ List.dropWhile_suffix isGap))

theorem suffix_of_follow? {word : List UInt8} (h : follow? word bs = some rest) : rest <:+ bs := by
  induction word generalizing bs with
  | nil => exact Option.some.inj h ▸ List.suffix_refl _
  | cons w word ih =>
      cases bs with
      | nil => cases h
      | cons b bs =>
          rw [follow?] at h
          split at h
          · exact (ih h).trans (List.suffix_cons b bs)
          · cases h

theorem shorter_of_readLiteral? {s : Option String} (h : readLiteral? bs = some (s, rest)) :
    Shorter s.toList bs rest := by
  rw [readLiteral?] at h
  split at h
  · rename_i text rest' hread
    cases h
    have hless := Literal.length_of_read hread
    exact ⟨by omega, List.forall_mem_singleton.mpr (by omega)⟩
  · obtain ⟨rest', hskip, heq⟩ := Option.map_eq_some_iff.mp h
    cases heq
    exact shorter_of_suffix (Literal.suffix_of_skip? hskip)

section Readers

variable (hdoc : ∀ {bs rest d}, readDoc n bs = some (d, rest) → Shorter d.texts bs rest)
  (hitems : ∀ {bs rest ds}, readItems n bs = some (ds, rest) → Shorter (itemTexts ds) bs rest)
  (hmembers : ∀ {bs rest ms}, readMembers n bs = some (ms, rest) →
    Shorter (memberTexts ms) bs rest)

include hitems hmembers in
theorem shorter_of_readDoc_succ (h : readDoc (n + 1) bs = some (d, rest)) :
    Shorter d.texts bs rest := by
  rw [readDoc] at h
  split at h
  · cases h
  · rename_i b rest' hgaps
    have hbefore := shorter_of_skipGaps hgaps
    -- What a word stands for holds no text.
    have hword : ∀ {word : List UInt8} {d' : Doc}, d'.texts = [] →
        (follow? word rest').map (d', ·) = some (d, rest) → Shorter d.texts bs rest := by
      intro word d' hnone h
      obtain ⟨_, hfollow, heq⟩ := Option.map_eq_some_iff.mp h
      cases heq
      rw [hnone]
      exact hbefore.behind (shorter_of_suffix (suffix_of_follow? hfollow))
    -- The cases are those of the first byte, in the order of `readDoc`.
    split_ifs at h
    · exact hword rfl h
    · exact hword rfl h
    · exact hword rfl h
    · obtain ⟨⟨s, _⟩, hliteral, heq⟩ := Option.map_eq_some_iff.mp h
      cases heq
      exact hbefore.behind (shorter_of_readLiteral? hliteral)
    · split at h
      · rename_i hend
        cases h
        exact hbefore.behind (shorter_of_skipGaps hend)
      · obtain ⟨⟨items, _⟩, hread, heq⟩ := Option.map_eq_some_iff.mp h
        cases heq
        exact hbefore.behind (hitems hread)
    · split at h
      · rename_i hend
        cases h
        exact hbefore.behind (shorter_of_skipGaps hend)
      · obtain ⟨⟨members, _⟩, hread, heq⟩ := Option.map_eq_some_iff.mp h
        cases heq
        exact hbefore.behind (hmembers hread)
    · split at h
      · rename_i hread
        cases h
        exact shorter_of_suffix ((hgaps ▸ Numeral.suffix_of_read hread).trans
          (List.dropWhile_suffix isGap))
      · cases h

include hdoc hitems in
theorem shorter_of_readItems_succ {ds : List Doc} (h : readItems (n + 1) bs = some (ds, rest)) :
    Shorter (itemTexts ds) bs rest := by
  rw [readItems] at h
  split at h
  · cases h
  · rename_i hread
    split at h
    · rename_i hcomma
      obtain ⟨⟨items, _⟩, hmore, heq⟩ := Option.map_eq_some_iff.mp h
      cases heq
      exact (hdoc hread).append ((shorter_of_skipGaps hcomma).behind (hitems hmore))
    · rename_i hend
      cases h
      exact (hdoc hread).append (shorter_of_skipGaps hend)
    · cases h

include hdoc hmembers in
theorem shorter_of_readMembers_succ {ms : List (Option String × Doc)}
    (h : readMembers (n + 1) bs = some (ms, rest)) : Shorter (memberTexts ms) bs rest := by
  rw [readMembers] at h
  split at h
  · rename_i hquote
    split at h
    · cases h
    · rename_i hkey
      have hname := (shorter_of_skipGaps hquote).behind (shorter_of_readLiteral? hkey)
      split at h
      · rename_i hcolon
        have hahead := hname.behind (shorter_of_skipGaps hcolon)
        split at h
        · cases h
        · rename_i hread
          have hvalue := hahead.behind (hdoc hread)
          split at h
          · rename_i hcomma
            obtain ⟨⟨members, _⟩, hmore, heq⟩ := Option.map_eq_some_iff.mp h
            cases heq
            exact hvalue.append ((shorter_of_skipGaps hcomma).behind (hmembers hmore))
          · rename_i hend
            cases h
            exact hvalue.append (shorter_of_skipGaps hend)
          · cases h
      · cases h
  · cases h

end Readers

theorem shorter_of_read (n : Nat) :
    (∀ {bs rest d}, readDoc n bs = some (d, rest) → Shorter d.texts bs rest) ∧
    (∀ {bs rest ds}, readItems n bs = some (ds, rest) → Shorter (itemTexts ds) bs rest) ∧
    (∀ {bs rest ms}, readMembers n bs = some (ms, rest) → Shorter (memberTexts ms) bs rest) := by
  induction n with
  | zero => exact ⟨(nomatch ·), (nomatch ·), (nomatch ·)⟩
  | succ n ih =>
      obtain ⟨hdoc, hitems, hmembers⟩ := ih
      exact ⟨shorter_of_readDoc_succ hitems hmembers, shorter_of_readItems_succ hdoc hitems,
        shorter_of_readMembers_succ hdoc hmembers⟩

/-- **A string is shorter than the text that it stands in.** -/
theorem Doc.length_lt_of_mem_texts {text : String} (h : Doc.ofText? text = some d) :
    ∀ s ∈ d.texts, s.length < text.length := by
  rw [ofText?, ofBytes?] at h
  split at h
  · rename_i hread
    split at h
    · cases h
      have hshorter := ((shorter_of_read _).1 hread).2
      rwa [charCount_bytes] at hshorter
    · cases h
  · cases h

/-! ### Reading without a bound -/

variable {inner? inner?' : String → Option Value}

theorem itemValues?_congr {ds : List Doc} {depth : Nat}
    (h : ∀ d ∈ ds, d.value? inner? depth = d.value? inner?' depth) :
    itemValues? inner? depth ds = itemValues? inner?' depth ds := by
  induction ds with
  | nil => rfl
  | cons d ds ih =>
      obtain ⟨hd, hds⟩ := List.forall_mem_cons.mp h
      rw [itemValues?, itemValues?, hd, ih hds]

theorem memberValues?_congr {ms : List (Option String × Doc)} {depth : Nat}
    (h : ∀ m ∈ ms, m.2.value? inner? depth = m.2.value? inner?' depth)
    (done : List (String × Value)) :
    memberValues? inner? depth ms done = memberValues? inner?' depth ms done := by
  induction ms generalizing done with
  | nil => rfl
  | cons m ms ih =>
      obtain ⟨key, d⟩ := m
      obtain ⟨hd, hms⟩ := List.forall_mem_cons.mp h
      cases key with
      | none => rfl
      | some k =>
          have hvalue : d.value? inner? depth = d.value? inner?' depth := hd
          rw [memberValues?, memberValues?, hvalue]
          split
          · exact ih hms _
          · rfl

theorem mem_itemTexts {ds : List Doc} {s : String} (hd : d ∈ ds) (hs : s ∈ d.texts) :
    s ∈ itemTexts ds := by
  induction ds with
  | nil => cases hd
  | cons d' ds ih =>
      rcases List.mem_cons.mp hd with rfl | hd
      · exact List.mem_append_left _ hs
      · exact List.mem_append_right _ (ih hd)

theorem mem_memberTexts {ms : List (Option String × Doc)} {m : Option String × Doc} {s : String}
    (hm : m ∈ ms) (hs : s ∈ m.2.texts) : s ∈ memberTexts ms := by
  induction ms with
  | nil => cases hm
  | cons m' ms ih =>
      rcases List.mem_cons.mp hm with rfl | hm
      · exact List.mem_append_left _ hs
      · exact List.mem_append_right _ (ih hm)

/-- Only a string of the object is announced. -/
theorem Embedded.mem_texts {ms : List (Option String × Doc)} {s : String}
    (h : Embedded.of ms = .text s) : s ∈ memberTexts ms := by
  unfold Embedded.of at h
  split at h
  · split at h
    · split at h
      · cases h
        exact List.mem_cons_self
      · cases h
    · cases h
  · cases h

/-- The value of a document depends on no other texts than those in it. -/
theorem Doc.value?_congr (d : Doc) (h : ∀ s ∈ d.texts, inner? s = inner?' s) (depth : Nat) :
    d.value? inner? depth = d.value? inner?' depth := by
  induction d generalizing depth with
  | array items ih =>
      cases depth with
      | zero => rfl
      | succ depth =>
          rw [value?, value?]
          exact congrArg _ (itemValues?_congr fun d hd =>
            ih d hd (fun s hs => h s (mem_itemTexts hd hs)) depth)
  | object members ih =>
      cases depth with
      | zero => rfl
      | succ depth =>
          rw [value?, value?]
          split
          · rename_i s hs
            exact h s (Embedded.mem_texts hs)
          · rfl
          · exact congrArg _ (memberValues?_congr (fun m hm =>
              ih m hm (fun s hs => h s (mem_memberTexts hm hs)) depth) [])
  | _ => rfl

/-- There are always enough levels. -/
theorem Value.ofNested?_eq {n n' : Nat} {s : String} (h : s.length < n) (h' : s.length < n') :
    ofNested? n s = ofNested? n' s := by
  induction n generalizing n' s with
  | zero => omega
  | succ n ih =>
      obtain ⟨n', rfl⟩ : ∃ m, n' = m + 1 := ⟨n' - 1, by omega⟩
      rw [ofNested?, ofNested?]
      refine Option.bind_congr fun d hd => d.value?_congr (fun t ht => ?_) maxDepth
      have hshorter := Doc.length_lt_of_mem_texts hd t ht
      exact ih (by omega) (by omega)

/-- **Texts inside a text are read like any other text.** -/
theorem Value.ofText?_eq (s : String) :
    ofText? s = (Doc.ofText? s).bind (Doc.value? ofText? maxDepth) := by
  rw [ofText?, ofNested?]
  refine Option.bind_congr fun d hd => d.value?_congr (fun t ht => ?_) maxDepth
  have hshorter := Doc.length_lt_of_mem_texts hd t ht
  exact ofNested?_eq hshorter (Nat.lt_succ_self _)

end ResponseExport.Json
