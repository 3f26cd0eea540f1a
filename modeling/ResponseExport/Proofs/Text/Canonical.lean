import Mathlib.Data.List.Basic
import Mathlib.Data.Nat.Bitwise
import ResponseExport.Proofs.Text.Characters
import ResponseExport.Proofs.Text.Sextets

/-!
# `ResponseExport.Proofs.Text.Canonical`: one base64 text for each byte sequence

`Writes` says what a base64 text is without writing or reading one: its letters stand for
six bits each, and all of them together are the bits of the bytes and fewer than six
zeros. So a text has no letter too many, and nothing stands in the bits that are left over.

* `writes_iff`: there is one such text for each byte sequence, the one that is written;
* `decode_eq_ok_iff`: reading accepts such texts and nothing else.

The numbers of zeros behind the bits of the same bytes are the same, as both are the
least that make a multiple of six. So the bits of two texts are the same, and their
letters with them.
-/

set_option autoImplicit false

namespace ResponseExport.Text.Base64

/-! ### Bits -/

/-- The lowest bits of a number, the highest of them first. -/
def bitsOf : Nat → Nat → List Bool
  | 0, _ => []
  | width + 1, n => n.testBit width :: bitsOf width n

theorem length_bitsOf (width n : Nat) : (bitsOf width n).length = width := by
  induction width with
  | zero => rfl
  | succ width ih => rw [bitsOf, List.length_cons, ih]

/-- High bits and low bits are all bits. -/
theorem bitsOf_add (high low n : Nat) :
    bitsOf (high + low) n = bitsOf high (n / 2 ^ low) ++ bitsOf low n := by
  induction high with
  | zero => rw [Nat.zero_add]; rfl
  | succ high ih =>
      rw [Nat.add_right_comm, bitsOf, ih, bitsOf, Nat.testBit_div_two_pow, List.cons_append]

/-- Higher bits are not among the lowest. -/
theorem bitsOf_mod {width more : Nat} (h : width ≤ more) (n : Nat) :
    bitsOf width (n % 2 ^ more) = bitsOf width n := by
  induction width with
  | zero => rfl
  | succ width ih =>
      have hbit : (n % 2 ^ more).testBit width = n.testBit width := by
        rw [Nat.testBit_mod_two_pow, decide_eq_true (Nat.lt_of_succ_le h), Bool.true_and]
      rw [bitsOf, bitsOf, hbit, ih (Nat.le_of_succ_le h)]

/-- A number below a power of two is known by its bits. -/
theorem eq_of_bitsOf {width n m : Nat} (hn : n < 2 ^ width) (hm : m < 2 ^ width)
    (h : bitsOf width n = bitsOf width m) : n = m := by
  have hbits : ∀ i < width, n.testBit i = m.testBit i := by
    clear hn hm
    induction width with
    | zero => exact fun i hi => absurd hi (Nat.not_lt_zero i)
    | succ width ih =>
        obtain ⟨hhigh, hlow⟩ := List.cons.inj h
        intro i hi
        rcases Nat.lt_succ_iff_lt_or_eq.mp hi with hi | rfl
        · exact ih hlow i hi
        · exact hhigh
  refine Nat.eq_of_testBit_eq fun i => ?_
  by_cases hi : i < width
  · exact hbits i hi
  · have hpow : 2 ^ width ≤ 2 ^ i := Nat.pow_le_pow_right (by decide) (Nat.not_lt.mp hi)
    rw [Nat.testBit_lt_two_pow (Nat.lt_of_lt_of_le hn hpow),
      Nat.testBit_lt_two_pow (Nat.lt_of_lt_of_le hm hpow)]

theorem length_flatMap_bitsOf (width : Nat) (values : List Nat) :
    (values.flatMap (bitsOf width)).length = width * values.length := by
  induction values with
  | nil => rfl
  | cons n values ih =>
      rw [List.flatMap_cons, List.length_append, length_bitsOf, ih, List.length_cons]
      exact (Nat.add_comm _ _)

/-- So are numbers of the same width. -/
theorem eq_of_flatMap_bitsOf {width : Nat} (hwidth : 0 < width) {values values' : List Nat}
    (hvalues : ∀ n ∈ values, n < 2 ^ width) (hvalues' : ∀ n ∈ values', n < 2 ^ width)
    (h : values.flatMap (bitsOf width) = values'.flatMap (bitsOf width)) : values = values' := by
  have hlength : values.length = values'.length := by
    have hboth := congrArg List.length h
    rw [length_flatMap_bitsOf, length_flatMap_bitsOf] at hboth
    exact Nat.eq_of_mul_eq_mul_left hwidth hboth
  induction values generalizing values' with
  | nil => exact (List.eq_nil_of_length_eq_zero hlength.symm).symm
  | cons n values ih =>
      cases values' with
      | nil => cases hlength
      | cons n' values' =>
          obtain ⟨hn, hrest⟩ := List.forall_mem_cons.mp hvalues
          obtain ⟨hn', hrest'⟩ := List.forall_mem_cons.mp hvalues'
          rw [List.flatMap_cons, List.flatMap_cons] at h
          obtain ⟨hfirst, hlater⟩ := List.append_inj h (by rw [length_bitsOf, length_bitsOf])
          rw [eq_of_bitsOf hn hn' hfirst, ih hrest hrest' hlater (Nat.succ.inj hlength)]

/-- The bits of bytes. -/
def byteBits (bs : List UInt8) : List Bool := bs.flatMap fun b => bitsOf 8 b.toNat

theorem length_byteBits (bs : List UInt8) : (byteBits bs).length = 8 * bs.length := by
  induction bs with
  | nil => rfl
  | cons b bs ih =>
      rw [byteBits, List.flatMap_cons, List.length_append, length_bitsOf, ← byteBits, ih,
        List.length_cons]
      exact Nat.add_comm _ _

/-- What is written for a group holds the bits of its bytes, and zeros if the group is short. Each
group is one number, taken apart once by six bits and once by eight. -/
theorem flatMap_sextets (bs : List UInt8) :
    ∃ spare < 6, (sextets bs).flatMap (bitsOf 6) = byteBits bs ++ List.replicate spare false := by
  fun_induction sextets bs with
  | case1 a b c rest m ih =>
      obtain ⟨spare, hspare, hrest⟩ := ih
      have ha := a.toNat_lt
      have hb := b.toNat_lt
      have hc := c.toNat_lt
      have hfirst : m / 2 ^ (8 + 8) = a.toNat := by omega
      have hsecond : m / 2 ^ 8 % 2 ^ 8 = b.toNat := by omega
      have hthird : m % 2 ^ 8 = c.toNat := by omega
      have hgroup : [m / 262144, m / 4096 % 64, m / 64 % 64, m % 64].flatMap (bitsOf 6)
          = byteBits [a, b, c] := calc
        _ = bitsOf (6 + (6 + (6 + 6))) m := by
            rw [bitsOf_add, bitsOf_add, bitsOf_add, ← bitsOf_mod (Nat.le_refl 6) (m / 2 ^ (6 + 6)),
              ← bitsOf_mod (Nat.le_refl 6) (m / 2 ^ 6), ← bitsOf_mod (Nat.le_refl 6) m]
            rfl
        _ = bitsOf (8 + (8 + 8)) m := rfl
        _ = byteBits [a, b, c] := by
            rw [bitsOf_add, bitsOf_add, hfirst, ← bitsOf_mod (Nat.le_refl 8) (m / 2 ^ 8), hsecond,
              ← bitsOf_mod (Nat.le_refl 8) m, hthird]
            rfl
      refine ⟨spare, hspare, ?_⟩
      show ([m / 262144, m / 4096 % 64, m / 64 % 64, m % 64] ++ sextets rest).flatMap _
        = byteBits ([a, b, c] ++ rest) ++ _
      rw [List.flatMap_append, hgroup, hrest, byteBits, byteBits, byteBits, List.flatMap_append,
        List.append_assoc]
  | case2 a b m =>
      have ha := a.toNat_lt
      have hb := b.toNat_lt
      have hfirst : m / 2 ^ (8 + 2) = a.toNat := by omega
      have hsecond : m / 2 ^ 2 % 2 ^ 8 = b.toNat := by omega
      have hzeros : m % 2 ^ 2 = 0 := by omega
      refine ⟨2, by decide, ?_⟩
      calc [m / 4096, m / 64 % 64, m % 64].flatMap (bitsOf 6)
        _ = bitsOf (6 + (6 + 6)) m := by
            rw [bitsOf_add, bitsOf_add, ← bitsOf_mod (Nat.le_refl 6) (m / 2 ^ 6),
              ← bitsOf_mod (Nat.le_refl 6) m]
            rfl
        _ = bitsOf (8 + (8 + 2)) m := rfl
        _ = byteBits [a, b] ++ List.replicate 2 false := by
            rw [bitsOf_add, bitsOf_add, hfirst, ← bitsOf_mod (Nat.le_refl 8) (m / 2 ^ 2), hsecond,
              ← bitsOf_mod (Nat.le_refl 2) m, hzeros]
            rfl
  | case3 a =>
      have ha := a.toNat_lt
      have hfirst : a.toNat * 16 / 2 ^ 4 = a.toNat := by omega
      have hzeros : a.toNat * 16 % 2 ^ 4 = 0 := by omega
      refine ⟨4, by decide, ?_⟩
      calc [a.toNat * 16 / 64, a.toNat * 16 % 64].flatMap (bitsOf 6)
        _ = bitsOf (6 + 6) (a.toNat * 16) := by
            rw [bitsOf_add, ← bitsOf_mod (Nat.le_refl 6) (a.toNat * 16)]
            rfl
        _ = bitsOf (8 + 4) (a.toNat * 16) := rfl
        _ = byteBits [a] ++ List.replicate 4 false := by
            rw [bitsOf_add, hfirst, ← bitsOf_mod (Nat.le_refl 4) (a.toNat * 16), hzeros]
            rfl
  | case4 => exact ⟨0, by decide, rfl⟩

/-! ### Texts -/

/-- The letters, each in the place of its value. -/
def alphabet : List Char :=
  "ABCDEFGHIJKLMNOPQRSTUVWXYZabcdefghijklmnopqrstuvwxyz0123456789-_".toList

/-- Is it a text of these bytes? Its letters stand for the bits of the bytes, and for fewer than
six zeros behind them. -/
def Writes (text : List Char) (bs : List UInt8) : Prop :=
  ∃ (values : List Nat) (spare : Nat), text.map some = values.map (alphabet[·]?) ∧ spare < 6 ∧
    values.flatMap (bitsOf 6) = byteBits bs ++ List.replicate spare false

theorem getElem?_alphabet : ∀ n < 64, alphabet[n]? = some (symbol n) := by decide

theorem writes_encode (bs : List UInt8) : Writes (encode bs).toList bs := by
  obtain ⟨spare, hspare, hbits⟩ := flatMap_sextets bs
  refine ⟨sextets bs, spare, ?_, hspare, hbits⟩
  rw [encode, String.toList_ofList, List.map_map]
  exact List.map_congr_left fun n hn => (getElem?_alphabet n (lt_of_mem_sextets hn)).symm

/-- The values of a text are places in the alphabet. -/
theorem lt_of_mem_values {text : List Char} {values : List Nat}
    (h : text.map some = values.map (alphabet[·]?)) : ∀ n ∈ values, n < 2 ^ 6 := by
  intro n hn
  have hletter : alphabet[n]? ∈ text.map some := h ▸ List.mem_map_of_mem hn
  obtain ⟨c, -, hc⟩ := List.mem_map.mp hletter
  obtain ⟨hlt, -⟩ := List.getElem?_eq_some_iff.mp hc.symm
  exact hlt

/-- There is one text for each byte sequence. -/
theorem Writes.unique {text text' : List Char} {bs : List UInt8} (h : Writes text bs)
    (h' : Writes text' bs) : text = text' := by
  obtain ⟨values, spare, hletters, hspare, hbits⟩ := h
  obtain ⟨values', spare', hletters', hspare', hbits'⟩ := h'
  have hlength := congrArg List.length hbits
  have hlength' := congrArg List.length hbits'
  rw [length_flatMap_bitsOf, List.length_append, length_byteBits, List.length_replicate]
    at hlength hlength'
  have hzeros : spare = spare' := by omega
  have hvalues : values = values' := by
    refine eq_of_flatMap_bitsOf (by decide) (lt_of_mem_values hletters)
      (lt_of_mem_values hletters') ?_
    rw [hbits, hbits', hzeros]
  have hsome : text.map some = text'.map some := by rw [hletters, hletters', hvalues]
  exact List.map_injective_iff.mpr (Option.some_injective Char) hsome

theorem writes_iff {text : List Char} {bs : List UInt8} :
    Writes text bs ↔ text = (encode bs).toList := by
  constructor
  · exact fun h => h.unique (writes_encode bs)
  · rintro rfl
    exact writes_encode bs

/-! ### Reading -/

/-- A byte with a value is the letter of this value. -/
theorem symbol_of_value? {b : UInt8} {n : Nat} (h : value? b = some n) :
    n < 64 ∧ UInt8.ofNat (symbol n).toNat = b := by
  have hall : ∀ b : UInt8, ∀ n ∈ value? b, n < 64 ∧ UInt8.ofNat (symbol n).toNat = b :=
    forall_byte (by decide +kernel)
  exact hall b n h

theorem isSome_of_firstForeign {bs : List UInt8} {offset : Nat}
    (h : firstForeign offset bs = none) : ∀ b ∈ bs, (value? b).isSome = true := by
  induction bs generalizing offset with
  | nil => exact List.forall_mem_nil _
  | cons b bs ih =>
      rw [firstForeign] at h
      split at h
      · next hvalue => exact List.forall_mem_cons.mpr ⟨by rw [hvalue]; rfl, ih h⟩
      · split at h <;> cases h

/-- Bytes that have values are the letters of their values. -/
theorem map_symbol_values {bs : List UInt8} (h : ∀ b ∈ bs, (value? b).isSome = true) :
    (bs.filterMap value?).map (fun n => UInt8.ofNat (symbol n).toNat) = bs := by
  induction bs with
  | nil => rfl
  | cons b bs ih =>
      obtain ⟨hb, hbs⟩ := List.forall_mem_cons.mp h
      obtain ⟨n, hn⟩ := Option.isSome_iff_exists.mp hb
      rw [List.filterMap_cons_some hn, List.map_cons, (symbol_of_value? hn).2, ih hbs]

/-- Values that leave no bits over are the values of the bytes that they hold. -/
theorem sextets_octets {values : List Nat} (hvalues : ∀ n ∈ values, n < 64)
    (hlength : values.length % 4 ≠ 1) (hspare : spareBits values = 0) :
    sextets (octets values) = values := by
  fun_induction octets values with
  | case1 a b c d rest m ih =>
      simp only [List.forall_mem_cons] at hvalues
      obtain ⟨ha, hb, hc, hd, hrest⟩ := hvalues
      have hwhole : ((UInt8.ofNat (m / 65536)).toNat * 256 + (UInt8.ofNat (m / 256 % 256)).toNat)
          * 256 + (UInt8.ofNat (m % 256)).toNat = m := by
        rw [UInt8.toNat_ofNat', UInt8.toNat_ofNat', UInt8.toNat_ofNat']
        omega
      have hfirst : m / 262144 = a := by omega
      have hsecond : m / 4096 % 64 = b := by omega
      have hthird : m / 64 % 64 = c := by omega
      have hfourth : m % 64 = d := by omega
      have hlength' : rest.length % 4 ≠ 1 := by
        simp only [List.length_cons] at hlength
        omega
      rw [sextets, hwhole, hfirst, hsecond, hthird, hfourth, ih hrest hlength' hspare]
  | case2 a b c m =>
      simp only [List.forall_mem_cons] at hvalues
      obtain ⟨ha, hb, hc, -⟩ := hvalues
      have hzeros : c % 4 = 0 := hspare
      have hwhole : ((UInt8.ofNat (m / 256)).toNat * 256 + (UInt8.ofNat (m % 256)).toNat) * 4
          = (a * 64 + b) * 64 + c := by
        rw [UInt8.toNat_ofNat', UInt8.toNat_ofNat']
        omega
      have hfirst : ((a * 64 + b) * 64 + c) / 4096 = a := by omega
      have hsecond : ((a * 64 + b) * 64 + c) / 64 % 64 = b := by omega
      have hthird : ((a * 64 + b) * 64 + c) % 64 = c := by omega
      rw [sextets, hwhole, hfirst, hsecond, hthird]
  | case3 a b =>
      simp only [List.forall_mem_cons] at hvalues
      obtain ⟨ha, hb, -⟩ := hvalues
      have hzeros : b % 16 = 0 := hspare
      have hwhole : (UInt8.ofNat ((a * 64 + b) / 16)).toNat * 16 = a * 64 + b := by
        rw [UInt8.toNat_ofNat']
        omega
      have hfirst : (a * 64 + b) / 64 = a := by omega
      have hsecond : (a * 64 + b) % 64 = b := by omega
      rw [sextets, hwhole, hfirst, hsecond]
  | case4 values hlong hthree htwo =>
      match values with
      | [] => rfl
      | [a] => exact absurd rfl hlength
      | [a, b] => exact (htwo a b rfl).elim
      | [a, b, c] => exact (hthree a b c rfl).elim
      | a :: b :: c :: d :: rest => exact (hlong a b c d rest rfl).elim

/-- What is read was written. -/
theorem eq_encode_of_decode {s : String} {bs : List UInt8} (h : decode (bytes s) = .ok bs) :
    s = encode bs := by
  rw [decode] at h
  split at h
  · cases h
  · next hfault =>
      split at h
      · cases h
      · next hforeign =>
          dsimp only at h
          split at h
          · next hspare =>
              have hvalues := map_symbol_values (isSome_of_firstForeign hforeign)
              have hlt : ∀ n ∈ (bytes s).filterMap value?, n < 64 := by
                intro n hn
                obtain ⟨b, -, hb⟩ := List.mem_filterMap.mp hn
                exact (symbol_of_value? hb).1
              have hlength : ((bytes s).filterMap value?).length % 4 ≠ 1 := by
                have hsame := congrArg List.length hvalues
                rw [List.length_map] at hsame
                rw [hsame]
                intro hone
                rw [lengthFault?, if_pos hone] at hfault
                split at hfault
                · split at hfault <;> cases hfault
                · cases hfault
              rw [← Except.ok.inj h]
              refine bytes_injective ?_
              rw [bytes_encode, sextets_octets hlt hlength hspare, hvalues]
          · cases h

/-- Reading accepts the texts of byte sequences and nothing else. -/
theorem decode_eq_ok_iff {s : String} {bs : List UInt8} :
    decode (bytes s) = .ok bs ↔ Writes s.toList bs := by
  rw [writes_iff, String.toList_inj]
  constructor
  · exact eq_encode_of_decode
  · rintro rfl
    exact decode_encode bs

end ResponseExport.Text.Base64
