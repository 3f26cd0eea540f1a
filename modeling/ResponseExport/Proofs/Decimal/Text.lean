import ResponseExport.Proofs.Decimal.Shortest
import ResponseExport.Proofs.Json.Written

/-!
# `ResponseExport.Proofs.Decimal.Text`: the number that a text denotes

A decimal is written in one of four layouts: with a power of ten, with zeros in front of the
point, with the point between its digits, or with zeros behind the point. Each of them is a
numeral, and each denotes the decimal (`Digits.denotes_text`).

So the text of a binary64 number is a sign and a numeral for the shortest decimal that rounds to
this number (`isText_text`). This goes for zero, too: zero has no digits.
-/

set_option autoImplicit false

namespace ResponseExport.Decimal

/-! ### Numerals -/

/-- At least one digit, and nothing else. -/
def IsDigits (cs : List Char) : Prop := cs ≠ [] ∧ ∀ c ∈ cs, c.isDigit = true

/-- Digits without a zero in front, or a zero alone. -/
def IsWhole (cs : List Char) : Prop := IsDigits cs ∧ ∀ rest, cs = '0' :: rest → rest = []

/-- Digits, perhaps with a point in between, and the number that they denote. -/
inductive DenotesPlain : List Char → ℚ → Prop
  | whole {cs : List Char} (h : IsWhole cs) : DenotesPlain cs (Nat.ofDigitChars 10 cs 0)
  | point {cs behind : List Char} (h : IsWhole cs) (hbehind : IsDigits behind) :
      DenotesPlain (cs ++ '.' :: behind)
        (Nat.ofDigitChars 10 (cs ++ behind) 0 / 10 ^ behind.length)

/-- A numeral without a sign and the number that it denotes. It may have a power of ten. -/
inductive Denotes : List Char → ℚ → Prop
  | plain {cs : List Char} {x : ℚ} (h : DenotesPlain cs x) : Denotes cs x
  | up {cs power : List Char} {x : ℚ} (h : DenotesPlain cs x) (hpower : IsDigits power) :
      Denotes (cs ++ 'e' :: '+' :: power) (x * 10 ^ Nat.ofDigitChars 10 power 0)
  | down {cs power : List Char} {x : ℚ} (h : DenotesPlain cs x) (hpower : IsDigits power) :
      Denotes (cs ++ 'e' :: '-' :: power) (x / 10 ^ Nat.ofDigitChars 10 power 0)

/-- The text of the binary64 number with these bits: a minus sign if its bit is set, and a numeral
for the shortest decimal that rounds to the number. -/
def IsText (bits : UInt64) (text : String) : Prop :=
  ∃ cs x, text.toList = (if 2 ^ 63 ≤ bits.toNat then '-' :: cs else cs) ∧ Denotes cs x ∧
    IsShortest (bits.toNat % 2 ^ 63) x

variable {cs behind : List Char} {x : ℚ} {e : ℤ}

theorem isDigits_toDigits (n : Nat) : IsDigits (Nat.toDigits 10 n) :=
  ⟨Nat.toDigits_ne_nil, fun _ hc => Nat.isDigit_of_mem_toDigits (by decide) (by decide) hc⟩

theorem isDigits_replicate {n : Nat} (hn : 0 < n) : IsDigits (List.replicate n '0') := by
  refine ⟨List.ne_nil_of_length_pos (hn.trans_eq List.length_replicate.symm), fun c hc => ?_⟩
  rw [List.eq_of_mem_replicate hc]
  rfl

theorem IsDigits.append (h : IsDigits cs) (hbehind : ∀ c ∈ behind, c.isDigit = true) :
    IsDigits (cs ++ behind) :=
  ⟨List.append_ne_nil_of_left_ne_nil h.1 _, List.forall_mem_append.mpr ⟨h.2, hbehind⟩⟩

theorem isWhole_singleton {c : Char} (hc : c.isDigit = true) : IsWhole [c] :=
  ⟨⟨List.cons_ne_nil _ _, List.forall_mem_singleton.mpr hc⟩,
    fun _ hrest => (List.cons.inj hrest).2.symm⟩

/-- Zeros behind the digits multiply. -/
theorem ofDigitChars_zeros (cs : List Char) (n : Nat) :
    Nat.ofDigitChars 10 (cs ++ List.replicate n '0') 0 = Nat.ofDigitChars 10 cs 0 * 10 ^ n := by
  rw [Nat.ofDigitChars_append, Nat.ofDigitChars_replicate_zero, Nat.mul_comm]

/-- Zeros in front of the digits count for nothing. -/
theorem ofDigitChars_of_zeros (n : Nat) (cs : List Char) :
    Nat.ofDigitChars 10 (['0'] ++ (List.replicate n '0' ++ cs)) 0 = Nat.ofDigitChars 10 cs 0 := by
  rw [Nat.ofDigitChars_append, Nat.ofDigitChars_append, Nat.ofDigitChars_replicate_zero]
  rfl

/-! ### Layouts -/

/-- An exponent is written as its sign and its absolute value. It counts from behind the first
digit. -/
theorem denotes_exponent (h : DenotesPlain cs x) (place : ℤ) :
    Denotes (cs ++ 'e' :: (if 0 < place then '+' else '-') :: Nat.toDigits 10 (place - 1).natAbs)
      (x * 10 ^ (place - 1)) := by
  have hdigits := isDigits_toDigits (place - 1).natAbs
  have hpower := Nat.ofDigitChars_ten_toDigits (n := (place - 1).natAbs)
  split
  · have hup := Denotes.up h hdigits
    have hexponent : place - 1 = ((place - 1).natAbs : ℤ) := by omega
    rwa [hpower, ← zpow_natCast, ← hexponent] at hup
  · have hdown := Denotes.down h hdigits
    have hexponent : place - 1 = -((place - 1).natAbs : ℤ) := by omega
    rwa [hpower, div_eq_mul_inv, ← zpow_natCast, ← zpow_neg, ← hexponent] at hdown

section

-- The digits of a decimal that is not zero.
variable (hcs : IsDigits cs) (hhead : ∀ rest, cs ≠ '0' :: rest)

include hcs in
/-- With a power of ten, the point stands behind the first digit. -/
theorem denotes_scientific {c c' : Char} {rest : List Char} (hsplit : cs = c :: c' :: rest) :
    Denotes (c :: '.' :: (c' :: rest ++ 'e' :: (if 0 < cs.length + e then '+' else '-') ::
      Nat.toDigits 10 (cs.length + e - 1).natAbs)) (Nat.ofDigitChars 10 cs 0 * 10 ^ e) := by
  subst hsplit
  have hdigits := List.forall_mem_cons.mp hcs.2
  have hmantissa :=
    DenotesPlain.point (isWhole_singleton hdigits.1) ⟨List.cons_ne_nil c' rest, hdigits.2⟩
  have hdenotes := denotes_exponent hmantissa ((c :: c' :: rest).length + e)
  have hexponent : ((c :: c' :: rest).length : ℤ) + e - 1 = (c' :: rest).length + e := by
    rw [List.length_cons]
    omega
  have hvalue : (Nat.ofDigitChars 10 ([c] ++ c' :: rest) 0 : ℚ) / 10 ^ (c' :: rest).length
      * 10 ^ (((c :: c' :: rest).length : ℤ) + e - 1)
        = Nat.ofDigitChars 10 (c :: c' :: rest) 0 * 10 ^ e := by
    rw [hexponent, zpow_add₀ (by norm_num), zpow_natCast, ← mul_assoc,
      div_mul_cancel₀ _ (by positivity), List.singleton_append]
  rw [hvalue] at hdenotes
  exact hdenotes

include hcs hhead

/-- A whole number gets zeros behind its digits, and one behind the point. -/
theorem denotes_whole (he : 0 ≤ e) :
    Denotes (cs ++ List.replicate e.toNat '0' ++ ['.', '0'])
      (Nat.ofDigitChars 10 cs 0 * 10 ^ e) := by
  have hwhole : IsWhole (cs ++ List.replicate e.toNat '0') := by
    refine ⟨hcs.append fun c hc => ?_, fun rest hrest => ?_⟩
    · rw [List.eq_of_mem_replicate hc]
      rfl
    · obtain ⟨c, tail, rfl⟩ := List.exists_cons_of_ne_nil hcs.1
      exact absurd (congrArg (· :: tail) (List.cons.inj hrest).1) (hhead tail)
  have hpoint := DenotesPlain.point hwhole (isDigits_replicate Nat.one_pos)
  have hvalue : (Nat.ofDigitChars 10 (cs ++ List.replicate e.toNat '0' ++ List.replicate 1 '0') 0
      / 10 ^ (List.replicate 1 '0').length : ℚ) = Nat.ofDigitChars 10 cs 0 * 10 ^ e := by
    obtain ⟨n, rfl⟩ := Int.eq_ofNat_of_zero_le he
    rw [ofDigitChars_zeros, ofDigitChars_zeros, List.length_replicate, Int.toNat_natCast,
      zpow_natCast]
    push_cast
    exact mul_div_cancel_right₀ _ (by norm_num)
  rw [hvalue] at hpoint
  exact .plain hpoint

/-- The point stands between the digits. -/
theorem denotes_point (he : e < 0) (hpos : 0 < cs.length + e) :
    Denotes (cs.take (cs.length + e).toNat ++ '.' :: cs.drop (cs.length + e).toNat)
      (Nat.ofDigitChars 10 cs 0 * 10 ^ e) := by
  obtain ⟨n, hn⟩ : ∃ n : Nat, cs.length + e = n := ⟨_, (Int.toNat_of_nonneg hpos.le).symm⟩
  rw [hn, Int.toNat_natCast]
  have hlength : (cs.drop n).length = cs.length - n := List.length_drop
  have hwhole : IsWhole (cs.take n) := by
    refine ⟨⟨?_, fun c hc => hcs.2 c (List.mem_of_mem_take hc)⟩, fun rest hrest => ?_⟩
    · refine List.ne_nil_of_length_pos ?_
      rw [List.length_take]
      omega
    · have hsplit := List.take_append_drop n cs
      rw [hrest, List.cons_append] at hsplit
      exact absurd hsplit.symm (hhead _)
  have hbehind : IsDigits (cs.drop n) :=
    ⟨List.ne_nil_of_length_pos (by omega), fun c hc => hcs.2 c (List.mem_of_mem_drop hc)⟩
  have hpoint := DenotesPlain.point hwhole hbehind
  have hexponent : e = -((cs.drop n).length : ℤ) := by omega
  rw [List.take_append_drop, div_eq_mul_inv, ← zpow_natCast, ← zpow_neg, ← hexponent] at hpoint
  exact .plain hpoint

omit hhead in
/-- A small number gets zeros behind the point. -/
theorem denotes_small (he : cs.length + e ≤ 0) :
    Denotes (['0', '.'] ++ List.replicate (-(cs.length + e)).toNat '0' ++ cs)
      (Nat.ofDigitChars 10 cs 0 * 10 ^ e) := by
  have hbehind : IsDigits (List.replicate (-(cs.length + e)).toNat '0' ++ cs) := by
    refine ⟨List.append_ne_nil_of_right_ne_nil _ hcs.1, List.forall_mem_append.mpr ⟨?_, hcs.2⟩⟩
    intro c hc
    rw [List.eq_of_mem_replicate hc]
    rfl
  have hpoint := DenotesPlain.point (isWhole_singleton (c := '0') rfl) hbehind
  have hexponent : e = -((List.replicate (-(cs.length + e)).toNat '0' ++ cs).length : ℤ) := by
    rw [List.length_append, List.length_replicate]
    omega
  rw [ofDigitChars_of_zeros, div_eq_mul_inv, ← zpow_natCast, ← zpow_neg, ← hexponent] at hpoint
  exact .plain hpoint

end

/-- Stripped zeros are those at the end. -/
theorem stripZeros_append (cs : List Char) :
    (stripZeros cs).1 ++ List.replicate (stripZeros cs).2 '0' = cs := by
  have hzeros : cs.reverse.takeWhile (· == '0') = List.replicate (stripZeros cs).2 '0' := by
    refine List.eq_replicate_of_mem fun c hc => ?_
    exact eq_of_beq (List.mem_takeWhile_imp (p := (· == '0')) hc)
  obtain ⟨kept, hsplit⟩ : ∃ kept, cs = kept ++ List.replicate (stripZeros cs).2 '0' := by
    refine ⟨(cs.reverse.dropWhile (· == '0')).reverse, ?_⟩
    rw [← List.reverse_replicate, ← hzeros, ← List.reverse_append,
      List.takeWhile_append_dropWhile, List.reverse_reverse]
  show cs.take (cs.length - (stripZeros cs).2) ++ _ = cs
  generalize (stripZeros cs).2 = zeros at hsplit ⊢
  rw [hsplit, List.length_append, List.length_replicate, Nat.add_sub_cancel, List.take_left]

/-- What is left of the digits of a number is not nothing, and has no zero in front. -/
theorem isDigits_stripZeros {n : Nat} (hn : 0 < n) :
    IsDigits (stripZeros (Nat.toDigits 10 n)).1 ∧
      ∀ rest, (stripZeros (Nat.toDigits 10 n)).1 ≠ '0' :: rest := by
  have happend := stripZeros_append (Nat.toDigits 10 n)
  obtain ⟨c, cs, hcs, hc⟩ := Json.head_toDigits hn
  refine ⟨⟨?_, fun d hd => ?_⟩, fun rest hrest => ?_⟩
  · -- Otherwise zeros would be all there is.
    intro hnil
    rw [hnil, List.nil_append, hcs] at happend
    exact hc (List.eq_of_mem_replicate (happend.symm ▸ List.mem_cons_self))
  · exact (isDigits_toDigits n).2 d (happend ▸ List.mem_append_left _ hd)
  · rw [hrest, List.cons_append, hcs] at happend
    exact hc (List.cons.inj happend).1.symm

/-- **A decimal is written as a numeral that denotes it.** -/
theorem Digits.denotes_text {d : Digits} (h : 0 < d.digits) : Denotes d.text.toList d.value := by
  obtain ⟨hcs, hhead⟩ := isDigits_stripZeros h
  have hvalue : d.value = Nat.ofDigitChars 10 (stripZeros (Nat.toDigits 10 d.digits)).1 0
      * 10 ^ (d.exponent + (stripZeros (Nat.toDigits 10 d.digits)).2) := by
    have hdigits : (d.digits : ℚ) = Nat.ofDigitChars 10 (Nat.toDigits 10 d.digits) 0 := by
      rw [Nat.ofDigitChars_ten_toDigits]
    rw [value, hdigits, ← stripZeros_append (Nat.toDigits 10 d.digits), ofDigitChars_zeros,
      stripZeros_append, add_comm, zpow_add₀ (by norm_num), zpow_natCast]
    push_cast
    ring
  rw [hvalue, Digits.text, String.toList_ofList]
  generalize (stripZeros (Nat.toDigits 10 d.digits)).2 = zeros
  generalize (stripZeros (Nat.toDigits 10 d.digits)).1 = cs at hcs hhead
  dsimp only
  generalize d.exponent + (zeros : ℤ) = e
  split
  · cases cs with
    | nil => exact absurd rfl hcs.1
    | cons c rest =>
        cases rest with
        | nil =>
            have hdenotes := denotes_exponent
              (.whole (isWhole_singleton (hcs.2 c List.mem_cons_self))) ([c].length + e)
            have hexponent : (10 : ℚ) ^ (([c].length : ℤ) + e - 1) = 10 ^ e :=
              congrArg (10 ^ ·) (add_sub_cancel_left 1 e)
            rw [hexponent] at hdenotes
            exact hdenotes
        | cons c' rest => exact denotes_scientific hcs rfl
  · split
    · rename_i he
      exact denotes_whole hcs hhead he
    · split
      · rename_i he hpos
        exact denotes_point hcs hhead (not_le.mp he) hpos
      · rename_i hpos
        exact denotes_small hcs (not_lt.mp hpos)

/-! ### Binary64 numbers -/

/-- Zero has no digits, and is near enough to itself. -/
theorem isShortest_zero : IsShortest 0 0 := by
  have hzero : valueOf 0 = 0 := by
    rw [valueOf_of_lt (by decide), Nat.cast_zero, zero_mul]
  refine ⟨?_, fun k _ _ _ => ⟨0, 0, Nat.pow_pos (by decide), by rw [Nat.cast_zero, zero_mul]⟩, ?_⟩
  · have hone : 0 < valueOf 1 := by
      rw [valueOf_of_lt (by decide)]
      positivity
    rw [Rounds, if_pos (Nat.zero_mod 2), hzero]
    constructor <;> linarith
  · intro y _ _
    rw [hzero, sub_zero, abs_zero]
    exact abs_nonneg _

/-- The digits that are found for a number are not all zero. -/
theorem Binary.digits_pos {b : Binary} {n : Nat} (h : b.IsOf n) : 0 < b.shortest.digits := by
  have hpos := (h.rounds_iff.mp (isShortest_shortest h).rounds).pos h.pos
  rw [Digits.value] at hpos
  exact Nat.cast_pos.mp (pos_of_mul_pos_left hpos (by positivity))

/-- **A finite binary64 number is written as the shortest decimal that rounds to it.** -/
theorem isText_text {bits : UInt64} (h : bits.toNat / 2 ^ 52 % 2 ^ 11 ≠ 2 ^ 11 - 1) :
    IsText bits (text bits) := by
  have hsigned : ∀ cs : List Char, ∀ s : String, s.toList = cs →
      (if signBit ≤ bits.toNat then "-" ++ s else s).toList
        = if 2 ^ 63 ≤ bits.toNat then '-' :: cs else cs := by
    intro cs s hs
    show (if 2 ^ 63 ≤ bits.toNat then "-" ++ s else s).toList = _
    split
    · rw [String.toList_append, hs]
      rfl
    · exact hs
  cases hbits : Binary.ofBits bits with
  | some b =>
      have hof := Binary.isOf_ofBits hbits
      refine ⟨b.shortest.text.toList, b.shortest.value, ?_,
        Digits.denotes_text (Binary.digits_pos hof), Binary.isShortest_shortest hof⟩
      rw [text, hbits]
      exact hsigned _ _ rfl
  | none =>
      refine ⟨['0', '.', '0'], 0, ?_, ?_, ?_⟩
      · rw [text, hbits]
        exact hsigned _ _ rfl
      · have hpoint := DenotesPlain.point (isWhole_singleton (c := '0') rfl)
          (isDigits_replicate Nat.one_pos)
        have hvalue : (Nat.ofDigitChars 10 (['0'] ++ List.replicate 1 '0') 0 : ℚ)
            / 10 ^ (List.replicate 1 '0').length = 0 := by
          rw [ofDigitChars_zeros]
          exact zero_div _
        rw [hvalue] at hpoint
        exact .plain hpoint
      · rw [Binary.eq_zero_of_ofBits h hbits]
        exact isShortest_zero

/-- A tenth, and a number whose digits are followed by many zeros. -/
example : text 0x3FB999999999999A = "0.1" ∧ text 0xC415AF1D78B58C40 = "-1e+20" := by
  decide +kernel

end ResponseExport.Decimal
