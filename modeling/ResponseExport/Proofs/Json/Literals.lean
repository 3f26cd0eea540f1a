import ResponseExport.Json.Literal
import ResponseExport.Proofs.Text.Ascii

/-!
# `ResponseExport.Proofs.Json.Literals`: strings read back

A character may stand between quotes in four ways (`EscapeOf`): as it is, as a letter behind a
backslash, as a number, or as the two numbers of a surrogate pair. Reading takes each of them for
the bytes of the character (`readBytes_of_escapeOf`), so that a text is read from anything that may
stand for it (`read_of_contentOf`).

Writing keeps to the first three ways (`escapeOf_escape`), so that a text of any characters comes
back from what is written for it.
-/

set_option autoImplicit false

namespace ResponseExport.Json.Literal

open ResponseExport.Text (bytes)

theorem charBytes_eq (c : Char) : charBytes c = String.utf8EncodeChar c := by
  rw [charBytes, Text.bytes_eq_flatMap, String.toList_singleton, List.flatMap_singleton]

theorem after_after (bs bs' : List UInt8) (r : Except Failure (List UInt8 × List UInt8)) :
    after bs (after bs' r) = after (bs ++ bs') r := by
  cases r with
  | error f => rfl
  | ok p => simp [after, Except.map]

/-! ### One character -/

/-- A byte that stands for itself between the quotes. -/
def IsPlain (b : UInt8) : Prop := b ≠ 34 ∧ b ≠ 92 ∧ ¬ b < 32

theorem readBytes_plain {bs : List UInt8} (h : ∀ b ∈ bs, IsPlain b) (rest : List UInt8) :
    readBytes (bs ++ rest) = after bs (readBytes rest) := by
  induction bs with
  | nil =>
      rw [List.nil_append]
      cases readBytes rest <;> rfl
  | cons b bs ih =>
      obtain ⟨⟨hquote, hslash, hcontrol⟩, hbs⟩ := List.forall_mem_cons.mp h
      rw [List.cons_append, readBytes.eq_def]
      dsimp only
      rw [if_neg hquote, if_neg hslash, if_neg hcontrol, ih hbs, after_after]
      rfl

theorem hexUnit?_control : ∀ n < 32, hexUnit? 48 48 (UInt8.ofNat (hexDigit (n / 16)).toNat)
    (UInt8.ofNat (hexDigit (n % 16)).toNat) = some n := by decide

theorem hexDigit_lt : ∀ n < 16, (hexDigit n).toNat < 128 := by decide

theorem readBytes_short {e b : UInt8} (he : e ≠ 117) (hb : shortEscape? e = some b)
    (rest : List UInt8) : readBytes (92 :: e :: rest) = after [b] (readBytes rest) := by
  rw [readBytes, if_neg (by decide), if_pos rfl, hb]
  · exact fun _ _ _ _ _ h => absurd h he
  · exact fun h => absurd h he

/-- The bytes of a character that is written as it is are none of those that reading looks for: a
byte below `0x80` would be the character itself. -/
theorem isPlain_of_mem {c : Char} (hc : 32 ≤ c.toNat) (hquote : c ≠ '"') (hslash : c ≠ '\\')
    {b : UInt8} (hb : b ∈ String.utf8EncodeChar c) : IsPlain b := by
  have hplain : ∀ n, 32 ≤ n → n ≠ 34 → n ≠ 92 → n = b.toNat → IsPlain b := by
    rintro n h32 h34 h92 rfl
    refine ⟨fun h => h34 (congrArg UInt8.toNat h), fun h => h92 (congrArg UInt8.toNat h), ?_⟩
    rw [UInt8.lt_iff_toNat_lt]
    exact Nat.not_lt.mpr h32
  by_cases hascii : c.toNat < 128
  · rw [Text.utf8EncodeChar_ascii hascii, List.mem_singleton] at hb
    refine hplain c.toNat hc (fun h => hquote (Char.toNat_inj.mp h))
      (fun h => hslash (Char.toNat_inj.mp h)) ?_
    rw [hb, UInt8.toNat_ofNat']
    omega
  · have hle := Text.le_of_mem_utf8EncodeChar (Nat.not_lt.mp hascii) hb
    exact hplain b.toNat (by omega) (by omega) (by omega) rfl

/-- Is it one of the ways in which a character may stand between the quotes? -/
inductive EscapeOf (c : Char) : List UInt8 → Prop
  | plain : 32 ≤ c.toNat → c ≠ '"' → c ≠ '\\' → EscapeOf c (String.utf8EncodeChar c)
  | short {e : UInt8} : c.toNat < 128 → shortEscape? e = some (UInt8.ofNat c.toNat) →
      EscapeOf c [92, e]
  | unit {h1 h2 h3 h4 : UInt8} : hexUnit? h1 h2 h3 h4 = some c.toNat →
      EscapeOf c [92, 117, h1, h2, h3, h4]
  | pair {h1 h2 h3 h4 l1 l2 l3 l4 : UInt8} {high low : Nat} :
      hexUnit? h1 h2 h3 h4 = some high → isHighSurrogate high = true →
      hexUnit? l1 l2 l3 l4 = some low → isLowSurrogate low = true → pair high low = c →
      EscapeOf c [92, 117, h1, h2, h3, h4, 92, 117, l1, l2, l3, l4]

/-- May these bytes stand between the quotes for these characters? -/
def ContentOf : List Char → List UInt8 → Prop
  | [], bs => bs = []
  | c :: cs, bs => ∃ escaped more, EscapeOf c escaped ∧ ContentOf cs more ∧ bs = escaped ++ more

/-- A character is no half of a surrogate pair. -/
theorem not_surrogate (c : Char) :
    isLowSurrogate c.toNat = false ∧ isHighSurrogate c.toNat = false := by
  have hvalid := c.valid
  have hnat : c.toNat = c.val.toNat := rfl
  rw [isLowSurrogate, isHighSurrogate, Bool.and_eq_false_iff, Bool.and_eq_false_iff,
    decide_eq_false_iff_not, decide_eq_false_iff_not, decide_eq_false_iff_not,
    decide_eq_false_iff_not, hnat]
  rcases hvalid with h | ⟨h, -⟩ <;> omega

theorem not_low_of_high {n : Nat} (h : isHighSurrogate n = true) : isLowSurrogate n = false := by
  rw [isHighSurrogate, Bool.and_eq_true, decide_eq_true_iff, decide_eq_true_iff] at h
  rw [isLowSurrogate, Bool.and_eq_false_iff, decide_eq_false_iff_not]
  exact Or.inl (by omega)

/-- Each of them is read as the bytes of the character. -/
theorem readBytes_of_escapeOf {c : Char} {escaped : List UInt8} (h : EscapeOf c escaped)
    (rest : List UInt8) :
    readBytes (escaped ++ rest) = after (String.utf8EncodeChar c) (readBytes rest) := by
  cases h with
  | plain hc hquote hslash =>
      exact readBytes_plain (fun b hb => isPlain_of_mem hc hquote hslash hb) rest
  | short hc hshort =>
      rw [Text.utf8EncodeChar_ascii hc]
      refine readBytes_short ?_ hshort rest
      rintro rfl
      cases hshort
  | unit hunit =>
      obtain ⟨hlow, hhigh⟩ := not_surrogate c
      show readBytes (92 :: 117 :: _ :: _ :: _ :: _ :: rest) = _
      rw [readBytes, if_neg (by decide), if_pos rfl, hunit]
      dsimp only
      rw [hlow, hhigh, Char.ofNat_toNat, charBytes_eq]
      rfl
  | pair hhigh hishigh hlow hislow hpair =>
      show readBytes (92 :: 117 :: _ :: _ :: _ :: _ :: 92 :: 117 :: _ :: _ :: _ :: _ :: rest) = _
      rw [readBytes, if_neg (by decide), if_pos rfl, hhigh]
      dsimp only
      rw [not_low_of_high hishigh, hishigh, if_neg Bool.false_ne_true, if_pos rfl]
      simp only [hlow, hislow, if_true, hpair, charBytes_eq]

/-- Every character is written in one of these ways. -/
theorem escapeOf_escape (c : Char) : EscapeOf c (bytes (String.ofList (escape c))) := by
  by_cases hshort : c = '"' ∨ c = '\\' ∨ c = '\x08' ∨ c = '\t' ∨ c = '\n' ∨ c = '\x0c' ∨ c = '\r'
  · rcases hshort with rfl | rfl | rfl | rfl | rfl | rfl | rfl <;>
      exact EscapeOf.short (by decide) (by decide)
  · simp only [not_or] at hshort
    obtain ⟨hquote, hslash, hback, htab, hline, hform, hreturn⟩ := hshort
    rw [escape, if_neg hquote, if_neg hslash, if_neg hback, if_neg htab, if_neg hline, if_neg hform,
      if_neg hreturn]
    by_cases hcontrol : c.toNat < 32
    · have hhigh := hexDigit_lt (c.toNat / 16) (by omega)
      have hlow := hexDigit_lt (c.toNat % 16) (by omega)
      rw [if_pos hcontrol, Text.bytes_ofList_ascii (by simp [hhigh, hlow])]
      exact .unit (hexUnit?_control _ hcontrol)
    · rw [if_neg hcontrol, Text.bytes_ofList, List.flatMap_singleton]
      exact .plain (Nat.not_lt.mp hcontrol) hquote hslash

/-! ### A whole text -/

/-- The bytes that are written for a text, up to its closing quote. -/
def content (s : String) : List UInt8 := bytes (String.ofList (s.toList.flatMap escape))

theorem bytes_write (s : String) : bytes (String.ofList (write s)) = 34 :: (content s ++ [34]) := by
  have hquote : String.utf8EncodeChar '"' = [34] := rfl
  rw [write, content, Text.bytes_ofList, Text.bytes_ofList, List.flatMap_cons, List.flatMap_append,
    List.flatMap_singleton, hquote]
  rfl

/-- A string is read from anything that may stand between its quotes. -/
theorem read_of_contentOf {s : String} {content : List UInt8} (h : ContentOf s.toList content)
    (rest : List UInt8) : read (content ++ 34 :: rest) = .ok (s, rest) := by
  have hbytes : ∀ (cs : List Char) (content : List UInt8), ContentOf cs content →
      readBytes (content ++ 34 :: rest) = .ok (cs.flatMap String.utf8EncodeChar, rest) := by
    intro cs
    induction cs with
    | nil =>
        rintro _ rfl
        rw [List.nil_append, readBytes.eq_def]
        exact if_pos rfl
    | cons c cs ih =>
        rintro _ ⟨escaped, more, hescaped, hmore, rfl⟩
        rw [List.append_assoc, readBytes_of_escapeOf hescaped, ih more hmore]
        rfl
  rw [read, hbytes _ _ h, ← Text.bytes_eq_flatMap]
  dsimp only
  rw [Text.ofBytes?_bytes]

/-- What is written for a text may stand between its quotes. -/
theorem contentOf_content (s : String) : ContentOf s.toList (content s) := by
  rw [content]
  induction s.toList with
  | nil => rfl
  | cons c cs ih =>
      refine ⟨_, _, escapeOf_escape c, ih, ?_⟩
      rw [List.flatMap_cons, String.ofList_append, Text.bytes_append]

/-- A text is read back from what is written for it, and nothing behind it is touched. -/
theorem read_content (s : String) (rest : List UInt8) :
    read (content s ++ 34 :: rest) = .ok (s, rest) :=
  read_of_contentOf (contentOf_content s) rest

end ResponseExport.Json.Literal
