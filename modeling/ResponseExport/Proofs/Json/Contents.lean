import ResponseExport.Proofs.Json.Literals
import ResponseExport.Proofs.Text.Characters

/-!
# `ResponseExport.Proofs.Json.Contents`: what is read as a string

Reading goes byte by byte, and a character that stands for itself may have several bytes. Its
first byte continues no character, and no escape stands for a byte that does. So the bytes behind it
stand for themselves as well, and what is read as a text is what may stand between quotes for it
(`read_eq_ok_iff`).
-/

set_option autoImplicit false

namespace ResponseExport.Json.Literal

/-! ### One step -/

/-- Four digits make a number if each of them has a value. -/
theorem hexUnit?_eq_some_iff {a b c d : UInt8} {n : Nat} : hexUnit? a b c d = some n ↔
    ∃ na nb nc nd, hexValue? a = some na ∧ hexValue? b = some nb ∧ hexValue? c = some nc ∧
      hexValue? d = some nd ∧ ((na * 16 + nb) * 16 + nc) * 16 + nd = n := by
  simp only [hexUnit?, Option.bind_eq_bind, Option.bind_eq_some_iff, Option.pure_def,
    Option.some.injEq]
  constructor
  · rintro ⟨na, ha, nb, hb, nc, hc, nd, hd, hn⟩
    exact ⟨na, nb, nc, nd, ha, hb, hc, hd, hn⟩
  · rintro ⟨na, nb, nc, nd, ha, hb, hc, hd, hn⟩
    exact ⟨na, ha, nb, hb, nc, hc, nd, hd, hn⟩

theorem hexUnit?_lt {a b c d : UInt8} {n : Nat} (h : hexUnit? a b c d = some n) : n < 65536 := by
  have hdigit : ∀ b : UInt8, ∀ n ∈ hexValue? b, n < 16 := Text.forall_byte (by decide +kernel)
  obtain ⟨na, nb, nc, nd, ha, hb, hc, hd, rfl⟩ := hexUnit?_eq_some_iff.mp h
  have hna := hdigit a na ha
  have hnb := hdigit b nb hb
  have hnc := hdigit c nc hc
  have hnd := hdigit d nd hd
  omega

theorem isHighSurrogate_iff {n : Nat} : isHighSurrogate n = true ↔ 0xD800 ≤ n ∧ n ≤ 0xDBFF := by
  rw [isHighSurrogate, Bool.and_eq_true, decide_eq_true_iff, decide_eq_true_iff]

theorem isLowSurrogate_iff {n : Nat} : isLowSurrogate n = true ↔ 0xDC00 ≤ n ∧ n ≤ 0xDFFF := by
  rw [isLowSurrogate, Bool.and_eq_true, decide_eq_true_iff, decide_eq_true_iff]

/-- Four digits that are no half of a surrogate pair are a character. -/
theorem toNat_ofNat_of_hexUnit? {a b c d : UInt8} {n : Nat} (h : hexUnit? a b c d = some n)
    (hlow : ¬ isLowSurrogate n = true) (hhigh : ¬ isHighSurrogate n = true) :
    (Char.ofNat n).toNat = n := by
  have hlt := hexUnit?_lt h
  rw [isLowSurrogate_iff] at hlow
  rw [isHighSurrogate_iff] at hhigh
  refine Text.toNat_ofNat_of_isValidChar ?_
  show n < 0xD800 ∨ 0xDFFF < n ∧ n < 0x110000
  omega

/-- A letter behind a backslash stands for an ASCII character. -/
theorem toNat_lt_of_shortEscape? {e b : UInt8} (h : shortEscape? e = some b) : b.toNat < 128 := by
  have hall : ∀ e : UInt8, (shortEscape? e).all (fun b => b.toNat < 128) = true :=
    Text.forall_byte (by decide +kernel)
  exact of_decide_eq_true ((Option.all_eq_true _ _).mp (hall e) b h)

theorem eq_append_of_after {bs content rest : List UInt8}
    {r : Except Failure (List UInt8 × List UInt8)} (h : after bs r = .ok (content, rest)) :
    ∃ content', r = .ok (content', rest) ∧ content = bs ++ content' := by
  cases r with
  | error f => cases h
  | ok p =>
      obtain ⟨hcontent, hrest⟩ := Prod.mk.inj (Except.ok.inj h)
      exact ⟨p.1, by rw [← hrest], hcontent.symm⟩

/-- What a string that is read begins with: the closing quote, an escape or a byte that stands for
itself. -/
theorem readBytes_eq_ok {bs content rest : List UInt8} (h : readBytes bs = .ok (content, rest)) :
    (content = [] ∧ bs = 34 :: rest) ∨
    (∃ c escaped bs' content', EscapeOf c escaped ∧ readBytes bs' = .ok (content', rest) ∧
      bs = escaped ++ bs' ∧ content = String.utf8EncodeChar c ++ content') ∨
    (∃ b bs' content', IsPlain b ∧ readBytes bs' = .ok (content', rest) ∧ bs = b :: bs' ∧
      content = b :: content') := by
  revert h
  fun_cases readBytes bs
  case case2 bs' =>
    intro h
    obtain ⟨rfl, rfl⟩ := Prod.mk.inj (Except.ok.inj h)
    exact Or.inl ⟨rfl, rfl⟩
  case case7 h1 h2 h3 h4 high hhigh _ hishigh l1 l2 l3 l4 bs' low hlow hislow _ =>
    intro h
    obtain ⟨content', hread, hcontent⟩ := eq_append_of_after h
    rw [charBytes_eq] at hcontent
    exact Or.inr (Or.inl ⟨_, _, bs', content', .pair hhigh hishigh hlow hislow rfl, hread, rfl,
      hcontent⟩)
  case case14 h1 h2 h3 h4 bs' n hn hnotlow hnothigh _ =>
    intro h
    obtain ⟨content', hread, hcontent⟩ := eq_append_of_after h
    rw [charBytes_eq] at hcontent
    have hunit := hn.trans (congrArg some (toNat_ofNat_of_hexUnit? hn hnotlow hnothigh).symm)
    exact Or.inr (Or.inl ⟨_, _, bs', content', .unit hunit, hread, rfl, hcontent⟩)
  case case16 e bs' _ _ b hb _ =>
    intro h
    obtain ⟨content', hread, hcontent⟩ := eq_append_of_after h
    have hlt := toNat_lt_of_shortEscape? hb
    have htoNat := Text.toNat_ofNat_ascii hlt
    refine Or.inr (Or.inl ⟨Char.ofNat b.toNat, [92, e], bs', content', .short ?_ ?_, hread, rfl, ?_⟩)
    · rw [htoNat]
      exact hlt
    · rw [htoNat, UInt8.ofNat_toNat]
      exact hb
    · rw [Text.utf8EncodeChar_ofNat hlt]
      exact hcontent
  case case19 b bs' hquote hslash hcontrol =>
    intro h
    obtain ⟨content', hread, hcontent⟩ := eq_append_of_after h
    exact Or.inr (Or.inr ⟨b, bs', content', ⟨hquote, hslash, hcontrol⟩, hread, rfl, hcontent⟩)
  all_goals
    intro h
    cases h

/-! ### A whole text -/

/-- The bytes that continue a character stand for themselves. -/
theorem readBytes_tails {tails : List UInt8} (htails : ∀ b ∈ tails, Text.isTail b = true)
    {bs content rest : List UInt8} (h : readBytes bs = .ok (tails ++ content, rest)) :
    ∃ bs', readBytes bs' = .ok (content, rest) ∧ bs = tails ++ bs' := by
  induction tails generalizing bs with
  | nil => exact ⟨bs, h, rfl⟩
  | cons b tails ih =>
      obtain ⟨hb, htails'⟩ := List.forall_mem_cons.mp htails
      rcases readBytes_eq_ok h with ⟨hnil, -⟩ | ⟨c, escaped, bs', content', -, -, -, hcontent⟩ |
        ⟨b', bs', content', -, hread, rfl, hcontent⟩
      · cases hnil
      · -- An escape stands for a character, whose first byte continues none.
        obtain ⟨lead, more, hbytes, hlead, -⟩ := Text.utf8EncodeChar_eq_cons c
        rw [hbytes] at hcontent
        obtain ⟨rfl, -⟩ := List.cons.inj hcontent
        rw [hb] at hlead
        cases hlead
      · obtain ⟨rfl, rfl⟩ := List.cons.inj hcontent
        obtain ⟨bs'', hread', rfl⟩ := ih htails' hread
        exact ⟨bs'', hread', rfl⟩

/-- A character whose first byte stands for itself does so as a whole. -/
theorem escapeOf_plain {c : Char} {lead : UInt8} {tails : List UInt8}
    (hbytes : String.utf8EncodeChar c = lead :: tails) (h : IsPlain lead) :
    EscapeOf c (String.utf8EncodeChar c) := by
  obtain ⟨hquote, hslash, hcontrol⟩ := h
  by_cases hascii : c.toNat < 128
  · rw [Text.utf8EncodeChar_ascii hascii] at hbytes
    obtain ⟨rfl, -⟩ := List.cons.inj hbytes
    refine .plain ?_ ?_ ?_
    · rw [UInt8.lt_iff_toNat_lt, UInt8.toNat_ofNat'] at hcontrol
      have h32 : (32 : UInt8).toNat = 32 := rfl
      omega
    · rintro rfl
      exact hquote rfl
    · rintro rfl
      exact hslash rfl
  · refine .plain (by omega) ?_ ?_
    · rintro rfl
      exact hascii (by decide)
    · rintro rfl
      exact hascii (by decide)

/-- What is read as the bytes of characters may stand between quotes for them. -/
theorem contentOf_of_readBytes {cs : List Char} {bs rest : List UInt8}
    (h : readBytes bs = .ok (cs.flatMap String.utf8EncodeChar, rest)) :
    ∃ content, ContentOf cs content ∧ bs = content ++ 34 :: rest := by
  induction cs generalizing bs with
  | nil =>
      rcases readBytes_eq_ok h with ⟨-, rfl⟩ | ⟨c, escaped, bs', content', -, -, -, hcontent⟩ |
        ⟨b, bs', content', -, -, -, hcontent⟩
      · exact ⟨[], rfl, rfl⟩
      · obtain ⟨lead, tails, hbytes, -⟩ := Text.utf8EncodeChar_eq_cons c
        rw [hbytes] at hcontent
        cases hcontent
      · cases hcontent
  | cons c cs ih =>
      obtain ⟨lead, tails, hbytes, -, htails⟩ := Text.utf8EncodeChar_eq_cons c
      rw [List.flatMap_cons] at h
      rcases readBytes_eq_ok h with ⟨hnil, -⟩ | ⟨c', escaped, bs', content', hescape, hread, rfl,
        hcontent⟩ | ⟨b, bs', content', hplain, hread, rfl, hcontent⟩
      · rw [hbytes] at hnil
        cases hnil
      · obtain ⟨rfl, rfl⟩ := Text.utf8EncodeChar_append_inj hcontent
        obtain ⟨content, hcs, rfl⟩ := ih hread
        exact ⟨escaped ++ content, ⟨escaped, content, hescape, hcs, rfl⟩,
          (List.append_assoc _ _ _).symm⟩
      · rw [hbytes] at hcontent
        obtain ⟨rfl, rfl⟩ := List.cons.inj hcontent
        obtain ⟨bs'', hread', rfl⟩ := readBytes_tails htails hread
        obtain ⟨content, hcs, rfl⟩ := ih hread'
        refine ⟨String.utf8EncodeChar c ++ content,
          ⟨_, content, escapeOf_plain hbytes hplain, hcs, rfl⟩, ?_⟩
        rw [hbytes, List.append_assoc, List.cons_append]

/-- A text is read from what may stand between its quotes and from nothing else. -/
theorem read_eq_ok_iff {s : String} {bs rest : List UInt8} :
    read bs = .ok (s, rest) ↔ ∃ content, ContentOf s.toList content ∧ bs = content ++ 34 :: rest := by
  constructor
  · intro h
    rw [read] at h
    split at h
    · cases h
    · next content rest' hread =>
        split at h
        · next s' hs =>
            obtain ⟨rfl, rfl⟩ := Prod.mk.inj (Except.ok.inj h)
            rw [← Text.bytes_of_ofBytes? hs, Text.bytes_eq_flatMap] at hread
            exact contentOf_of_readBytes hread
        · cases h
  · rintro ⟨content, hcontent, rfl⟩
    exact read_of_contentOf hcontent rest

end ResponseExport.Json.Literal
