import ResponseExport.Proofs.Text.Ascii

/-!
# `ResponseExport.Proofs.Text.Characters`: where characters begin

The first byte of a character continues none, and its other bytes do (`utf8EncodeChar_eq_cons`). No
character begins with another one, so that bytes are those of at most one character with something
behind it (`utf8EncodeChar_append_inj`).
-/

set_option autoImplicit false

namespace ResponseExport.Text

/-- What holds of 256 values holds of every byte. -/
theorem forall_byte {P : UInt8 → Prop} (h : ∀ n < 256, P (UInt8.ofNat n)) (b : UInt8) : P b := by
  have hb := h b.toNat b.toNat_lt
  rwa [UInt8.ofNat_toNat] at hb

/-- The character with a number has that number, if there is one. -/
theorem toNat_ofNat_of_isValidChar {n : Nat} (h : n.isValidChar) : (Char.ofNat n).toNat = n := by
  rw [Char.ofNat, dif_pos h]
  rfl

theorem toNat_ofNat_ascii {b : UInt8} (h : b.toNat < 128) :
    (Char.ofNat b.toNat).toNat = b.toNat :=
  toNat_ofNat_of_isValidChar (Or.inl (Nat.lt_trans h (by decide)))

/-- The character of an ASCII byte is that byte. -/
theorem utf8EncodeChar_ofNat {b : UInt8} (h : b.toNat < 128) :
    String.utf8EncodeChar (Char.ofNat b.toNat) = [b] := by
  have htoNat := toNat_ofNat_ascii h
  rw [utf8EncodeChar_ascii (by rw [htoNat]; exact h), htoNat, UInt8.ofNat_toNat]

/-- A character has one byte that continues none, its first. -/
theorem utf8EncodeChar_eq_cons (c : Char) : ∃ lead tails,
    String.utf8EncodeChar c = lead :: tails ∧ isTail lead = false ∧
      ∀ b ∈ tails, isTail b = true := by
  have htail : ∀ n, isTail (UInt8.ofNat (n % 64 + 128)) = true := by
    intro n
    rw [isTail, Bool.and_eq_true, decide_eq_true_iff, decide_eq_true_iff,
      UInt8.le_iff_toNat_le, UInt8.le_iff_toNat_le, UInt8.toNat_ofNat']
    show 128 ≤ _ ∧ _ ≤ 191
    omega
  have hlead : ∀ n, n < 128 ∨ 192 ≤ n ∧ n < 256 → isTail (UInt8.ofNat n) = false := by
    intro n hn
    rw [isTail, Bool.and_eq_false_iff, decide_eq_false_iff_not, decide_eq_false_iff_not,
      UInt8.le_iff_toNat_le, UInt8.le_iff_toNat_le, UInt8.toNat_ofNat']
    show ¬ 128 ≤ _ ∨ ¬ _ ≤ 191
    omega
  rw [String.utf8EncodeChar]
  split
  · exact ⟨_, _, rfl, hlead _ (by omega), List.forall_mem_nil _⟩
  · split
    · exact ⟨_, _, rfl, hlead _ (by omega), List.forall_mem_singleton.mpr (htail _)⟩
    · split
      · exact ⟨_, _, rfl, hlead _ (by omega),
          List.forall_mem_cons.mpr ⟨htail _, List.forall_mem_singleton.mpr (htail _)⟩⟩
      · exact ⟨_, _, rfl, hlead _ (by omega), List.forall_mem_cons.mpr ⟨htail _,
          List.forall_mem_cons.mpr ⟨htail _, List.forall_mem_singleton.mpr (htail _)⟩⟩⟩

/-- The bytes of a character say where they end. -/
theorem utf8EncodeChar_append_inj {c c' : Char} {bs bs' : List UInt8}
    (h : String.utf8EncodeChar c ++ bs = String.utf8EncodeChar c' ++ bs') :
    c = c' ∧ bs = bs' := by
  have hdecode : ∀ (c : Char) (bs : List UInt8),
      (String.utf8EncodeChar c ++ bs).toByteArray.utf8DecodeChar? 0 = some c := by
    intro c bs
    rw [List.toByteArray_append]
    exact ByteArray.utf8DecodeChar?_utf8EncodeChar_append
  obtain rfl : c = c' := Option.some.inj (by rw [← hdecode c bs, h, hdecode])
  exact ⟨rfl, List.append_cancel_left h⟩

end ResponseExport.Text
