import Mathlib.Data.List.DropRight
import ResponseExport.Proofs.Json.Contents
import ResponseExport.Proofs.Json.Spelling

/-!
# `ResponseExport.Proofs.Json.TextArrays`: the arrays of texts that are read

What an array of texts looks like is said here character by character (`IsDocument`), and
without a reader: blanks may stand around every part, and a character of a text may stand
as itself, as a letter behind a backslash, or as one or two numbers (`Spells`).

* `contentOf_iff`: `Spells` says for characters what `Literal.EscapeOf` says for bytes;
* `readsInside_behind_iff`: behind a text, reading goes on with the elements that the
  format has there, up to the closing bracket and no further;
* `read_eq_ok_iff`: reading accepts the documents of the format and nothing else, and
  returns the texts that they spell.

A reader skips blanks and looks at the byte behind them. So each step of it is about blanks
and one byte that is none (`skipGaps_eq_iff`).
-/

set_option autoImplicit false

namespace ResponseExport.Json.Strings

open ResponseExport.Text (bytes)
open Literal (hexValue? hexUnit? shortEscape? isHighSurrogate isLowSurrogate EscapeOf ContentOf)

/-! ### The format -/

/-- Blanks between the parts of a document. -/
def AreBlanks (cs : List Char) : Prop := ∀ c ∈ cs, c = ' ' ∨ c = '\t' ∨ c = '\n' ∨ c = '\r'

/-- Is it the digit of base sixteen with this value? Letters may have either case. -/
def IsHexDigit (c : Char) (n : Nat) : Prop :=
  "0123456789abcdef".toList[n]? = some c ∨ "0123456789ABCDEF".toList[n]? = some c

/-- Are they four digits of base sixteen that make this number? -/
inductive IsHexUnit : List Char → Nat → Prop
  | digits {a b c d : Char} {na nb nc nd : Nat} : IsHexDigit a na → IsHexDigit b nb →
      IsHexDigit c nc → IsHexDigit d nd →
      IsHexUnit [a, b, c, d] (na * 0x1000 + nb * 0x100 + nc * 0x10 + nd)

/-- The letters that may follow a backslash, and what they stand for. -/
def escapeLetters : List (Char × Char) :=
  [('"', '"'), ('\\', '\\'), ('/', '/'), ('b', '\x08'), ('f', '\x0c'), ('n', '\n'), ('r', '\r'),
    ('t', '\t')]

/-- May this character stand between quotes in this way? -/
inductive Spells (c : Char) : List Char → Prop
  /-- As itself, if it is no control character, quote or backslash. -/
  | plain : ' ' ≤ c → c ≠ '"' → c ≠ '\\' → Spells c [c]
  /-- As a letter behind a backslash. -/
  | letter {l : Char} : (l, c) ∈ escapeLetters → Spells c ['\\', l]
  /-- As its number. -/
  | unit {digits : List Char} : IsHexUnit digits c.toNat → Spells c ('\\' :: 'u' :: digits)
  /-- Beyond U+FFFF as a surrogate pair: ten bits of what is beyond in each half. -/
  | pair {high low : List Char} {n m : Nat} : IsHexUnit high (0xD800 + n) → n < 0x400 →
      IsHexUnit low (0xDC00 + m) → m < 0x400 → c.toNat = 0x10000 + n * 0x400 + m →
      Spells c ('\\' :: 'u' :: (high ++ '\\' :: 'u' :: low))

/-- May these characters stand between quotes in this way? -/
def SpellsAll : List Char → List Char → Prop
  | [], spelling => spelling = []
  | c :: cs, spelling => ∃ first more, Spells c first ∧ SpellsAll cs more ∧ spelling = first ++ more

/-- Is it a text in quotes? -/
def IsString (t : String) (cs : List Char) : Prop :=
  ∃ inside, SpellsAll t.toList inside ∧ cs = '"' :: (inside ++ ['"'])

/-- Is it a text in quotes, with blanks around it? -/
def IsElement (t : String) (cs : List Char) : Prop :=
  ∃ before string behind, AreBlanks before ∧ IsString t string ∧ AreBlanks behind ∧
    cs = before ++ (string ++ behind)

/-- Are they elements with commas between them? -/
def AreElements : List String → List Char → Prop
  | [], cs => AreBlanks cs
  | [t], cs => IsElement t cs
  | t :: ts, cs => ∃ first more, IsElement t first ∧ AreElements ts more ∧ cs = first ++ ',' :: more

/-- Is it an array of these texts, with blanks around it and nothing else? -/
def IsDocument (ts : List String) (cs : List Char) : Prop :=
  ∃ before elements behind, AreBlanks before ∧ AreElements ts elements ∧ AreBlanks behind ∧
    cs = before ++ '[' :: (elements ++ ']' :: behind)

/-! ### Blanks -/

theorem areBlanks_nil : AreBlanks [] := List.forall_mem_nil _

/-- Gaps are the bytes of blanks. -/
theorem exists_blanks {gaps : List UInt8} (h : IsGaps gaps) :
    ∃ blanks, AreBlanks blanks ∧ gaps = bytes (String.ofList blanks) := by
  induction gaps with
  | nil => exact ⟨[], areBlanks_nil, rfl⟩
  | cons b gaps ih =>
      obtain ⟨hb, hgaps⟩ := List.forall_mem_cons.mp h
      obtain ⟨blanks, hblanks, hbytes⟩ := ih hgaps
      have hblank : ∃ c : Char, (c = ' ' ∨ c = '\t' ∨ c = '\n' ∨ c = '\r') ∧
          bytes (String.ofList [c]) = [b] := by
        simp only [isGap, Bool.or_eq_true, beq_iff_eq] at hb
        rcases hb with ((rfl | rfl) | rfl) | rfl
        · exact ⟨' ', by simp, rfl⟩
        · exact ⟨'\t', by simp, rfl⟩
        · exact ⟨'\n', by simp, rfl⟩
        · exact ⟨'\r', by simp, rfl⟩
      obtain ⟨c, hc, hcb⟩ := hblank
      refine ⟨c :: blanks, List.forall_mem_cons.mpr ⟨hc, hblanks⟩, ?_⟩
      show _ = bytes (String.ofList ([c] ++ blanks))
      rw [Text.bytes_ofList_append, hcb, ← hbytes, List.singleton_append]

theorem isGaps_blanks {blanks : List Char} (h : AreBlanks blanks) :
    IsGaps (bytes (String.ofList blanks)) := by
  have hascii : ∀ c ∈ blanks, c.toNat < 128 := by
    intro c hc
    rcases h c hc with rfl | rfl | rfl | rfl <;> decide
  rw [Text.bytes_ofList_ascii hascii, IsGaps, List.forall_mem_map]
  intro c hc
  rcases h c hc with rfl | rfl | rfl | rfl <;> decide

/-- What is left when gaps are skipped stood behind blanks. -/
theorem skipGaps_eq_iff {bs rest : List UInt8} (hrest : skipGaps rest = rest) :
    skipGaps bs = rest ↔ ∃ blanks, AreBlanks blanks ∧ bs = bytes (String.ofList blanks) ++ rest := by
  constructor
  · rintro rfl
    have hgaps : IsGaps (bs.takeWhile isGap) := fun b hb => List.mem_takeWhile_imp hb
    obtain ⟨blanks, hblanks, hbytes⟩ := exists_blanks hgaps
    refine ⟨blanks, hblanks, ?_⟩
    rw [← hbytes]
    exact List.takeWhile_append_dropWhile.symm
  · rintro ⟨blanks, hblanks, rfl⟩
    rw [skipGaps_append (isGaps_blanks hblanks), hrest]

theorem skipGaps_skipGaps (bs : List UInt8) : skipGaps (skipGaps bs) = skipGaps bs :=
  List.dropWhile_idempotent _ _

/-- The bytes of characters with an ASCII character among them. -/
theorem bytes_middle (before : List Char) {c : Char} (hc : c.toNat < 128) (behind : List Char) :
    bytes (String.ofList (before ++ c :: behind))
      = bytes (String.ofList before) ++ UInt8.ofNat c.toNat :: bytes (String.ofList behind) := by
  rw [Text.bytes_ofList_append, Text.bytes_ofList_cons hc]

/-! ### Strings -/

theorem hexValue?_of_isHexDigit {c : Char} {n : Nat} (h : IsHexDigit c n) :
    c.toNat < 128 ∧ hexValue? (UInt8.ofNat c.toNat) = some n := by
  have hlower : ∀ n < 16, "0123456789abcdef".toList[n]?.all
      (fun c => c.toNat < 128 ∧ hexValue? (UInt8.ofNat c.toNat) = some n) = true := by decide
  have hupper : ∀ n < 16, "0123456789ABCDEF".toList[n]?.all
      (fun c => c.toNat < 128 ∧ hexValue? (UInt8.ofNat c.toNat) = some n) = true := by decide
  rcases h with h | h
  · obtain ⟨hlt, -⟩ := List.getElem?_eq_some_iff.mp h
    exact of_decide_eq_true ((Option.all_eq_true _ _).mp (hlower n hlt) c h)
  · obtain ⟨hlt, -⟩ := List.getElem?_eq_some_iff.mp h
    exact of_decide_eq_true ((Option.all_eq_true _ _).mp (hupper n hlt) c h)

theorem exists_isHexDigit {b : UInt8} {n : Nat} (h : hexValue? b = some n) :
    ∃ c : Char, IsHexDigit c n ∧ c.toNat < 128 ∧ UInt8.ofNat c.toNat = b := by
  have hall : ∀ b : UInt8, ∀ n ∈ hexValue? b, b.toNat < 128 ∧
      ("0123456789abcdef".toList[n]? = some (Char.ofNat b.toNat) ∨
        "0123456789ABCDEF".toList[n]? = some (Char.ofNat b.toNat)) :=
    Text.forall_byte (by decide +kernel)
  obtain ⟨hlt, hdigit⟩ := hall b n h
  have htoNat := Text.toNat_ofNat_ascii hlt
  refine ⟨_, hdigit, ?_, ?_⟩
  · rw [htoNat]
    exact hlt
  · rw [htoNat, UInt8.ofNat_toNat]

theorem hexUnit?_of_isHexUnit {digits : List Char} {n : Nat} (h : IsHexUnit digits n) :
    ∃ a b c d, bytes (String.ofList digits) = [a, b, c, d] ∧ hexUnit? a b c d = some n := by
  cases h with
  | digits ha hb hc hd =>
      obtain ⟨haa, ha⟩ := hexValue?_of_isHexDigit ha
      obtain ⟨hba, hb⟩ := hexValue?_of_isHexDigit hb
      obtain ⟨hca, hc⟩ := hexValue?_of_isHexDigit hc
      obtain ⟨hda, hd⟩ := hexValue?_of_isHexDigit hd
      refine ⟨_, _, _, _, Text.bytes_ofList_ascii (by simp [haa, hba, hca, hda]), ?_⟩
      exact Literal.hexUnit?_eq_some_iff.mpr ⟨_, _, _, _, ha, hb, hc, hd, by omega⟩

theorem exists_isHexUnit {a b c d : UInt8} {n : Nat} (h : hexUnit? a b c d = some n) :
    ∃ digits, IsHexUnit digits n ∧ bytes (String.ofList digits) = [a, b, c, d] := by
  obtain ⟨na, nb, nc, nd, ha, hb, hc, hd, rfl⟩ := Literal.hexUnit?_eq_some_iff.mp h
  obtain ⟨ca, hda, haa, rfl⟩ := exists_isHexDigit ha
  obtain ⟨cb, hdb, hba, rfl⟩ := exists_isHexDigit hb
  obtain ⟨cc, hdc, hca, rfl⟩ := exists_isHexDigit hc
  obtain ⟨cd, hdd, hdia, rfl⟩ := exists_isHexDigit hd
  have hvalue : ((na * 16 + nb) * 16 + nc) * 16 + nd
      = na * 0x1000 + nb * 0x100 + nc * 0x10 + nd := by omega
  refine ⟨[ca, cb, cc, cd], hvalue ▸ .digits hda hdb hdc hdd, ?_⟩
  exact Text.bytes_ofList_ascii (by simp [haa, hba, hca, hdia])

theorem bytes_unit {digits : List Char} {ds : List UInt8}
    (h : bytes (String.ofList digits) = ds) :
    bytes (String.ofList ('\\' :: 'u' :: digits)) = 92 :: 117 :: ds := by
  rw [Text.bytes_ofList_cons (by decide), Text.bytes_ofList_cons (by decide), h]
  rfl

/-- What may stand for a character has the bytes that may. -/
theorem escapeOf_of_spells {c : Char} {cs : List Char} (h : Spells c cs) :
    EscapeOf c (bytes (String.ofList cs)) := by
  cases h with
  | plain hc hquote hslash =>
      rw [Text.bytes_ofList, List.flatMap_singleton]
      exact .plain (UInt32.le_iff_toNat_le.mp hc) hquote hslash
  | @letter l hmem =>
      have hall : ∀ p ∈ escapeLetters, p.1.toNat < 128 ∧ p.2.toNat < 128 ∧
          shortEscape? (UInt8.ofNat p.1.toNat) = some (UInt8.ofNat p.2.toNat) := by decide
      obtain ⟨hl, hc, hshort⟩ := hall _ hmem
      rw [Text.bytes_ofList_cons (by decide), Text.bytes_ofList_cons hl]
      exact .short hc hshort
  | unit hdigits =>
      obtain ⟨h1, h2, h3, h4, hbytes, hunit⟩ := hexUnit?_of_isHexUnit hdigits
      rw [bytes_unit hbytes]
      exact .unit hunit
  | @pair high low n m hhigh hn hlow hm hc =>
      obtain ⟨h1, h2, h3, h4, hbytes, hunit⟩ := hexUnit?_of_isHexUnit hhigh
      obtain ⟨l1, l2, l3, l4, hbytes', hunit'⟩ := hexUnit?_of_isHexUnit hlow
      have hpair : Literal.pair (0xD800 + n) (0xDC00 + m) = c := by
        have hvalue : (0xD800 + n - 0xD800) * 1024 + (0xDC00 + m - 0xDC00) + 0x10000 = c.toNat := by
          omega
        rw [Literal.pair, hvalue, Char.ofNat_toNat]
      have hishigh : isHighSurrogate (0xD800 + n) = true :=
        Literal.isHighSurrogate_iff.mpr (by omega)
      have hislow : isLowSurrogate (0xDC00 + m) = true :=
        Literal.isLowSurrogate_iff.mpr (by omega)
      rw [bytes_unit (Text.bytes_ofList_append high _), hbytes, bytes_unit hbytes']
      exact .pair hunit hishigh hunit' hislow hpair

theorem exists_spells {c : Char} {escaped : List UInt8} (h : EscapeOf c escaped) :
    ∃ cs, Spells c cs ∧ escaped = bytes (String.ofList cs) := by
  cases h with
  | plain hc hquote hslash =>
      refine ⟨[c], .plain (UInt32.le_iff_toNat_le.mpr hc) hquote hslash, ?_⟩
      rw [Text.bytes_ofList, List.flatMap_singleton]
  | @short e hc hshort =>
      have hall : ∀ e : UInt8, (shortEscape? e).all (fun b => e.toNat < 128 ∧
          (Char.ofNat e.toNat, Char.ofNat b.toNat) ∈ escapeLetters) = true :=
        Text.forall_byte (by decide +kernel)
      obtain ⟨he, hmem⟩ := of_decide_eq_true ((Option.all_eq_true _ _).mp (hall e) _ hshort)
      have hbyte : (UInt8.ofNat c.toNat).toNat = c.toNat := by
        rw [UInt8.toNat_ofNat']
        omega
      rw [hbyte, Char.ofNat_toNat] at hmem
      refine ⟨['\\', Char.ofNat e.toNat], .letter hmem, ?_⟩
      rw [Text.bytes_ofList_cons (by decide), Text.bytes_ofList, List.flatMap_singleton,
        Text.utf8EncodeChar_ofNat he]
      rfl
  | unit hunit =>
      obtain ⟨digits, hdigits, hbytes⟩ := exists_isHexUnit hunit
      exact ⟨_, .unit hdigits, (bytes_unit hbytes).symm⟩
  | @pair h1 h2 h3 h4 l1 l2 l3 l4 high low hunit hishigh hunit' hislow hpair =>
      obtain ⟨digits, hdigits, hbytes⟩ := exists_isHexUnit hunit
      obtain ⟨digits', hdigits', hbytes'⟩ := exists_isHexUnit hunit'
      rw [Literal.isHighSurrogate_iff] at hishigh
      rw [Literal.isLowSurrogate_iff] at hislow
      have hhigh : 0xD800 + (high - 0xD800) = high := by omega
      have hlow : 0xDC00 + (low - 0xDC00) = low := by omega
      -- The character of a pair is a valid one, as it has ten bits from each half.
      have hc : c.toNat = 0x10000 + (high - 0xD800) * 0x400 + (low - 0xDC00) := by
        rw [← hpair, Literal.pair, Text.toNat_ofNat_of_isValidChar]
        · omega
        · exact Or.inr (by omega)
      refine ⟨_, .pair (hhigh.symm ▸ hdigits) (by omega) (hlow.symm ▸ hdigits') (by omega) hc, ?_⟩
      rw [bytes_unit (Text.bytes_ofList_append digits _), hbytes, bytes_unit hbytes']
      rfl

theorem contentOf_iff {cs : List Char} {content : List UInt8} :
    ContentOf cs content ↔
      ∃ spelling, SpellsAll cs spelling ∧ content = bytes (String.ofList spelling) := by
  induction cs generalizing content with
  | nil =>
      constructor
      · rintro rfl
        exact ⟨[], rfl, rfl⟩
      · rintro ⟨spelling, rfl, rfl⟩
        rfl
  | cons c cs ih =>
      constructor
      · rintro ⟨escaped, more, hescaped, hmore, rfl⟩
        obtain ⟨first, hfirst, rfl⟩ := exists_spells hescaped
        obtain ⟨spelling, hspelling, rfl⟩ := ih.mp hmore
        exact ⟨first ++ spelling, ⟨first, spelling, hfirst, hspelling, rfl⟩,
          (Text.bytes_ofList_append first spelling).symm⟩
      · rintro ⟨spelling, ⟨first, more, hfirst, hmore, rfl⟩, rfl⟩
        exact ⟨_, _, escapeOf_of_spells hfirst, ih.mpr ⟨more, hmore, rfl⟩,
          Text.bytes_ofList_append first more⟩

/-! ### From text to text -/

theorem bytes_string (inside : List Char) : bytes (String.ofList ('"' :: (inside ++ ['"'])))
    = 34 :: (bytes (String.ofList inside) ++ [34]) := by
  rw [Text.bytes_ofList_cons (by decide), Text.bytes_ofList_append]
  rfl

theorem readText_eq_ok_iff {bs rest : List UInt8} {t : String} :
    readText bs = .ok (t, rest) ↔ ∃ before string, AreBlanks before ∧ IsString t string ∧
      bs = bytes (String.ofList (before ++ string)) ++ rest := by
  constructor
  · intro h
    rw [readText] at h
    split at h
    · next bs' hgaps =>
        obtain ⟨content, hcontent, rfl⟩ := Literal.read_eq_ok_iff.mp h
        obtain ⟨inside, hinside, rfl⟩ := contentOf_iff.mp hcontent
        obtain ⟨before, hbefore, rfl⟩ := (skipGaps_eq_iff (skipGaps_of_head rfl _)).mp hgaps
        refine ⟨before, _, hbefore, ⟨inside, hinside, rfl⟩, ?_⟩
        simp only [Text.bytes_ofList_append, bytes_string, List.append_assoc, List.cons_append,
          List.nil_append]
    · cases h
  · rintro ⟨before, string, hbefore, ⟨inside, hinside, rfl⟩, rfl⟩
    have hread := Literal.read_of_contentOf (contentOf_iff.mpr ⟨inside, hinside, rfl⟩) rest
    simp only [Text.bytes_ofList_append, bytes_string, List.append_assoc, List.cons_append,
      List.nil_append]
    rw [readText, skipGaps_append (isGaps_blanks hbefore), skipGaps_of_head rfl]
    exact hread

/-- A text that can be read begins with a quote, behind gaps. -/
theorem skipGaps_of_readText {bs : List UInt8} {p : String × List UInt8}
    (h : readText bs = .ok p) : ∃ bs', skipGaps bs = 34 :: bs' := by
  rw [readText] at h
  split at h
  · next bs' hgaps => exact ⟨bs', hgaps⟩
  · cases h

theorem readText_skipGaps (bs : List UInt8) : readText (skipGaps bs) = readText bs := by
  rw [readText, skipGaps_skipGaps, readText]

/-- In front of the first text there is nothing but blanks. -/
theorem readFirst_iff {bs : List UInt8} {p : String × List UInt8} :
    (∃ bs', toNext true bs = .ok (some bs') ∧ readText bs' = .ok p) ↔ readText bs = .ok p := by
  constructor
  · rintro ⟨bs', hnext, htext⟩
    rw [toNext] at hnext
    split at hnext
    · cases hnext
    · cases hnext
    · next b rest _ hgaps =>
        obtain rfl := Option.some.inj (Except.ok.inj hnext)
        rw [← hgaps, readText_skipGaps] at htext
        exact htext
  · intro h
    obtain ⟨bs', hgaps⟩ := skipGaps_of_readText h
    refine ⟨skipGaps bs, ?_, by rw [readText_skipGaps, h]⟩
    rw [toNext, hgaps]
    rfl

/-- In front of the others there is a comma. -/
theorem readLater_iff {bs : List UInt8} {p : String × List UInt8} :
    (∃ bs', toNext false bs = .ok (some bs') ∧ readText bs' = .ok p) ↔
      ∃ before bs', AreBlanks before ∧ readText bs' = .ok p ∧
        bs = bytes (String.ofList before) ++ 44 :: bs' := by
  constructor
  · rintro ⟨bs', hnext, htext⟩
    rw [toNext] at hnext
    split at hnext
    · cases hnext
    · cases hnext
    · next b rest _ hgaps =>
        rw [if_neg Bool.false_ne_true] at hnext
        split at hnext
        · next hb =>
            -- Behind the comma, a text is next exactly if it can be read there.
            subst hb
            obtain ⟨before, hbefore, rfl⟩ := (skipGaps_eq_iff (skipGaps_of_head rfl _)).mp hgaps
            refine ⟨before, rest, hbefore, ?_, rfl⟩
            split at hnext
            · cases hnext
            · cases hnext
            · obtain rfl := Option.some.inj (Except.ok.inj hnext)
              rw [← readText_skipGaps]
              exact htext
        · cases hnext
  · rintro ⟨before, bs', hbefore, htext, rfl⟩
    obtain ⟨rest, hgaps⟩ := skipGaps_of_readText htext
    refine ⟨skipGaps bs', ?_, by rw [readText_skipGaps, htext]⟩
    simp [toNext, skipGaps_append (isGaps_blanks hbefore), skipGaps_of_head (b := 44) rfl, hgaps]

theorem readEnd_eq_ok_iff {bs rest : List UInt8} :
    readEnd bs = .ok rest ↔
      ∃ blanks, AreBlanks blanks ∧ bs = bytes (String.ofList blanks) ++ 93 :: rest := by
  rw [← skipGaps_eq_iff (skipGaps_of_head rfl rest)]
  constructor
  · intro h
    rw [readEnd] at h
    split at h
    · cases h
    · next hgaps =>
        obtain rfl := Except.ok.inj h
        exact hgaps
    · split at h <;> cases h
    · cases h
  · intro h
    simp [readEnd, h]

/-! ### A whole array -/

/-- What follows a text: the end of its element, and the other elements behind a comma. -/
def Continues : List String → List Char → Prop
  | [], cs => AreBlanks cs
  | t :: ts, cs => ∃ before elements, AreBlanks before ∧ AreElements (t :: ts) elements ∧
      cs = before ++ ',' :: elements

/-- Elements are a text behind blanks, and what follows it. -/
theorem areElements_cons_iff {t : String} {ts : List String} {cs : List Char} :
    AreElements (t :: ts) cs ↔ ∃ before string more, AreBlanks before ∧ IsString t string ∧
      Continues ts more ∧ cs = before ++ (string ++ more) := by
  cases ts with
  | nil => exact Iff.rfl
  | cons t' ts =>
      constructor
      · rintro ⟨_, elements, ⟨before, string, behind, hbefore, hstring, hbehind, rfl⟩, helements,
          rfl⟩
        refine ⟨before, string, behind ++ ',' :: elements, hbefore, hstring,
          ⟨behind, elements, hbehind, helements, rfl⟩, ?_⟩
        rw [List.append_assoc, List.append_assoc]
      · rintro ⟨before, string, _, hbefore, hstring, ⟨behind, elements, hbehind, helements, rfl⟩,
          rfl⟩
        refine ⟨before ++ (string ++ behind), elements,
          ⟨before, string, behind, hbefore, hstring, hbehind, rfl⟩, helements, ?_⟩
        rw [List.append_assoc, List.append_assoc]

variable {total more : Nat} {bs rest : List UInt8} {t : String} {ts : List String}

/-- So they are read as a text and what follows it. -/
theorem readText_elements_iff :
    (∃ mid, readText bs = .ok (t, mid) ∧
      ∃ cs, Continues ts cs ∧ mid = bytes (String.ofList cs) ++ rest) ↔
      ∃ cs, AreElements (t :: ts) cs ∧ bs = bytes (String.ofList cs) ++ rest := by
  constructor
  · rintro ⟨_, htext, cs, hcs, rfl⟩
    obtain ⟨before, string, hbefore, hstring, rfl⟩ := readText_eq_ok_iff.mp htext
    refine ⟨before ++ (string ++ cs),
      areElements_cons_iff.mpr ⟨before, string, cs, hbefore, hstring, hcs, rfl⟩, ?_⟩
    simp only [Text.bytes_ofList_append, List.append_assoc]
  · rintro ⟨_, helements, rfl⟩
    obtain ⟨before, string, cs, hbefore, hstring, hcs, rfl⟩ := areElements_cons_iff.mp helements
    refine ⟨_, readText_eq_ok_iff.mpr ⟨before, string, hbefore, hstring, ?_⟩, cs, hcs, rfl⟩
    simp only [Text.bytes_ofList_append, List.append_assoc]

/-- Are these texts read, as the last `more` of an array, and then its closing bracket? -/
def ReadsInside (total more : Nat) (bs : List UInt8) (ts : List String) (rest : List UInt8) :
    Prop :=
  ∃ mid, readTexts total more bs = .ok (ts, mid) ∧ readEnd mid = .ok rest

theorem readsInside_zero_iff :
    ReadsInside total 0 bs ts rest ↔
      ts.length = 0 ∧ ∃ cs, AreBlanks cs ∧ bs = bytes (String.ofList cs) ++ 93 :: rest := by
  constructor
  · rintro ⟨mid, hread, hend⟩
    obtain ⟨rfl, rfl⟩ := Prod.mk.inj (Except.ok.inj hread)
    exact ⟨rfl, readEnd_eq_ok_iff.mp hend⟩
  · rintro ⟨hlength, hcs⟩
    obtain rfl := List.eq_nil_of_length_eq_zero hlength
    exact ⟨bs, rfl, readEnd_eq_ok_iff.mpr hcs⟩

theorem readsInside_succ_iff :
    ReadsInside total (more + 1) bs ts rest ↔ ∃ t ts' mid, ts = t :: ts' ∧
      (∃ bs', toNext (more + 1 == total) bs = .ok (some bs') ∧ readText bs' = .ok (t, mid)) ∧
      ReadsInside total more mid ts' rest := by
  constructor
  · rintro ⟨last, hread, hend⟩
    rw [readTexts] at hread
    split at hread
    · cases hread
    · cases hread
    · next bs' hnext =>
        split at hread
        · cases hread
        · next t mid htext =>
            cases hmore : readTexts total more mid with
            | error f =>
                rw [hmore] at hread
                cases hread
            | ok p =>
                rw [hmore] at hread
                obtain ⟨rfl, rfl⟩ := Prod.mk.inj (Except.ok.inj hread)
                exact ⟨t, p.1, mid, rfl, ⟨bs', hnext, htext⟩, p.2, hmore, hend⟩
  · rintro ⟨t, ts', mid, rfl, ⟨bs', hnext, htext⟩, last, hmore, hend⟩
    refine ⟨last, ?_, hend⟩
    rw [readTexts, hnext]
    dsimp only
    rw [htext]
    dsimp only
    rw [hmore]
    rfl

/-- Behind a text, the elements that are still to come are read. The induction is on their
number. -/
theorem readsInside_behind_iff (hmore : more < total) :
    ReadsInside total more bs ts rest ↔
      ts.length = more ∧ ∃ cs, Continues ts cs ∧ bs = bytes (String.ofList cs) ++ 93 :: rest := by
  induction more generalizing bs ts with
  | zero =>
      rw [readsInside_zero_iff]
      refine and_congr_right fun hlength => ?_
      rw [List.eq_nil_of_length_eq_zero hlength]
      exact Iff.rfl
  | succ more ih =>
      have hlater : (more + 1 == total) = false := beq_eq_false_iff_ne.mpr (Nat.ne_of_lt hmore)
      have hcomma : ∀ before elements : List Char,
          bytes (String.ofList (before ++ ',' :: elements)) ++ 93 :: rest
            = bytes (String.ofList before) ++
              44 :: (bytes (String.ofList elements) ++ 93 :: rest) := by
        intro before elements
        rw [bytes_middle before (by decide), List.append_assoc]
        rfl
      rw [readsInside_succ_iff, hlater]
      constructor
      · rintro ⟨t, ts', mid, rfl, htext, hrest⟩
        obtain ⟨before, bs', hbefore, htext', rfl⟩ := readLater_iff.mp htext
        obtain ⟨hlength, hcs⟩ := (ih (Nat.lt_of_succ_lt hmore)).mp hrest
        obtain ⟨elements, helements, rfl⟩ := readText_elements_iff.mp ⟨mid, htext', hcs⟩
        exact ⟨congrArg (· + 1) hlength, _, ⟨before, elements, hbefore, helements, rfl⟩,
          (hcomma before elements).symm⟩
      · rintro ⟨hlength, cs, hcs, rfl⟩
        cases ts with
        | nil => cases hlength
        | cons t ts =>
            obtain ⟨before, elements, hbefore, helements, rfl⟩ := hcs
            obtain ⟨mid, htext, hcs⟩ := readText_elements_iff.mpr ⟨elements, helements, rfl⟩
            exact ⟨t, ts, mid, rfl,
              readLater_iff.mpr ⟨before, _, hbefore, htext, hcomma before elements⟩,
              (ih (Nat.lt_of_succ_lt hmore)).mpr ⟨Nat.succ.inj hlength, hcs⟩⟩

/-- All elements of an array are read, up to the closing bracket and no further. -/
theorem readsInside_iff :
    ReadsInside total total bs ts rest ↔
      ts.length = total ∧ ∃ cs, AreElements ts cs ∧ bs = bytes (String.ofList cs) ++ 93 :: rest := by
  cases total with
  | zero =>
      rw [readsInside_zero_iff]
      refine and_congr_right fun hlength => ?_
      rw [List.eq_nil_of_length_eq_zero hlength]
      exact Iff.rfl
  | succ more =>
      rw [readsInside_succ_iff, beq_self_eq_true]
      constructor
      · rintro ⟨t, ts', mid, rfl, htext, hrest⟩
        obtain ⟨hlength, hcs⟩ := (readsInside_behind_iff (Nat.lt_succ_self more)).mp hrest
        exact ⟨congrArg (· + 1) hlength,
          readText_elements_iff.mp ⟨mid, readFirst_iff.mp htext, hcs⟩⟩
      · rintro ⟨hlength, helements⟩
        cases ts with
        | nil => cases hlength
        | cons t ts =>
            obtain ⟨mid, htext, hcs⟩ := readText_elements_iff.mpr helements
            exact ⟨t, ts, mid, rfl, readFirst_iff.mpr htext,
              (readsInside_behind_iff (Nat.lt_succ_self more)).mpr ⟨Nat.succ.inj hlength, hcs⟩⟩

/-- Reading accepts the documents of so many texts and nothing else. -/
theorem read_eq_ok_iff : read total bs = .ok ts ↔
    ts.length = total ∧ ∃ document, IsDocument ts document ∧
      bs = bytes (String.ofList document) := by
  have hbytes : ∀ before elements behind : List Char,
      bytes (String.ofList (before ++ '[' :: (elements ++ ']' :: behind)))
        = bytes (String.ofList before) ++
          91 :: (bytes (String.ofList elements) ++ 93 :: bytes (String.ofList behind)) := by
    intro before elements behind
    rw [bytes_middle before (by decide), bytes_middle elements (by decide)]
    rfl
  constructor
  · intro h
    rw [read] at h
    split at h
    · cases h
    · next bs' hopen =>
        split at h
        · cases h
        · next ts' mid hread =>
            split at h
            · cases h
            · next rest hend =>
                split at h
                · next hclose =>
                    obtain rfl := Except.ok.inj h
                    obtain ⟨hlength, elements, helements, rfl⟩ :=
                      readsInside_iff.mp ⟨mid, hread, hend⟩
                    obtain ⟨before, hbefore, rfl⟩ :=
                      (skipGaps_eq_iff (skipGaps_of_head rfl _)).mp hopen
                    obtain ⟨behind, hbehind, rfl⟩ := (skipGaps_eq_iff rfl).mp hclose
                    refine ⟨hlength, _, ⟨before, elements, behind, hbefore, helements, hbehind, rfl⟩,
                      ?_⟩
                    rw [hbytes, List.append_nil]
                · cases h
    · cases h
  · rintro ⟨hlength, _, ⟨before, elements, behind, hbefore, helements, hbehind, rfl⟩, rfl⟩
    have hinside : ReadsInside total total
        (bytes (String.ofList elements) ++ 93 :: bytes (String.ofList behind)) ts
        (bytes (String.ofList behind)) :=
      readsInside_iff.mpr ⟨hlength, elements, helements, rfl⟩
    obtain ⟨mid, hread, hend⟩ := hinside
    have hclose : skipGaps (bytes (String.ofList behind)) = [] :=
      (skipGaps_eq_iff rfl).mpr ⟨behind, hbehind, (List.append_nil _).symm⟩
    rw [hbytes]
    simp [read, skipGaps_append (isGaps_blanks hbefore), skipGaps_of_head (b := 91) rfl, hread,
      hend, hclose]

end ResponseExport.Json.Strings
