import ResponseExport.Text.Bytes

/-!
# `ResponseExport.Proofs.Text.Ascii`: the bytes of characters

The bytes of a text are those of its characters in order. A character below U+0080 is one byte; all
bytes of the others are at least `0x80`, so that a byte below stands for a character wherever it is.
-/

set_option autoImplicit false

namespace ResponseExport.Text

theorem bytes_ofList (cs : List Char) :
    bytes (String.ofList cs) = cs.flatMap String.utf8EncodeChar := by
  rw [bytes, String.toByteArray_ofList, List.utf8Encode, List.data_toByteArray]

theorem bytes_eq_flatMap (s : String) : bytes s = s.toList.flatMap String.utf8EncodeChar := by
  rw [← bytes_ofList, String.ofList_toList]

theorem bytes_append (s t : String) : bytes (s ++ t) = bytes s ++ bytes t := by
  rw [bytes, bytes, bytes, String.toByteArray_append, ByteArray.data_append, Array.toList_append]

/-- Letters and digits lie between `0` and `z`. -/
theorem toNat_of_isAlphanum {c : Char} (h : c.isAlphanum = true) : 48 ≤ c.toNat ∧ c.toNat ≤ 122 := by
  have hgroups : c.isAlphanum = ((c.isUpper || c.isLower) || c.isDigit) := rfl
  have hbounds : ∀ {low high : UInt32}, low ≤ c.val → c.val ≤ high → 48 ≤ low.toNat →
      high.toNat ≤ 122 → 48 ≤ c.toNat ∧ c.toNat ≤ 122 := fun hlow hhigh hfrom hto =>
    ⟨Nat.le_trans hfrom (UInt32.le_iff_toNat_le.mp hlow),
      Nat.le_trans (UInt32.le_iff_toNat_le.mp hhigh) hto⟩
  rw [hgroups, Bool.or_eq_true, Bool.or_eq_true] at h
  rcases h with (hupper | hlower) | hdigit
  · obtain ⟨hlow, hhigh⟩ := of_decide_eq_true hupper
    exact hbounds hlow hhigh (by decide) (by decide)
  · obtain ⟨hlow, hhigh⟩ := Bool.and_eq_true_iff.mp hlower
    exact hbounds (of_decide_eq_true hlow) (of_decide_eq_true hhigh) (by decide) (by decide)
  · obtain ⟨hlow, hhigh⟩ := Bool.and_eq_true_iff.mp hdigit
    exact hbounds (of_decide_eq_true hlow) (of_decide_eq_true hhigh) (by decide) (by decide)

/-- Letters and digits are ASCII. -/
theorem toNat_lt_of_isAlphanum {c : Char} (h : c.isAlphanum = true) : c.toNat < 128 :=
  Nat.lt_of_le_of_lt (toNat_of_isAlphanum h).2 (by decide)

theorem utf8EncodeChar_ascii {c : Char} (h : c.toNat < 128) :
    String.utf8EncodeChar c = [UInt8.ofNat c.toNat] := by
  rw [String.utf8EncodeChar]
  exact if_pos (Nat.le_of_lt_succ h)

/-- Every byte of a character from U+0080 on is at least `0x80`. -/
theorem le_of_mem_utf8EncodeChar {c : Char} (h : 128 ≤ c.toNat) {b : UInt8}
    (hb : b ∈ String.utf8EncodeChar c) : 128 ≤ b.toNat := by
  have h' : ¬ c.val.toNat ≤ 127 := Nat.not_le.mpr h
  rw [String.utf8EncodeChar, if_neg h'] at hb
  split at hb
  · simp only [List.mem_cons, List.not_mem_nil, or_false] at hb
    rcases hb with rfl | rfl <;> rw [UInt8.toNat_ofNat'] <;> omega
  · split at hb
    · simp only [List.mem_cons, List.not_mem_nil, or_false] at hb
      rcases hb with rfl | rfl | rfl <;> rw [UInt8.toNat_ofNat'] <;> omega
    · simp only [List.mem_cons, List.not_mem_nil, or_false] at hb
      rcases hb with rfl | rfl | rfl | rfl <;> rw [UInt8.toNat_ofNat'] <;> omega

theorem bytes_ofList_ascii {cs : List Char} (h : ∀ c ∈ cs, c.toNat < 128) :
    bytes (String.ofList cs) = cs.map fun c => UInt8.ofNat c.toNat := by
  rw [bytes_ofList]
  induction cs with
  | nil => rfl
  | cons c cs ih =>
      obtain ⟨hc, hcs⟩ := List.forall_mem_cons.mp h
      rw [List.flatMap_cons, utf8EncodeChar_ascii hc, ih hcs]
      rfl

theorem bytes_ofList_append (cs cs' : List Char) :
    bytes (String.ofList (cs ++ cs')) = bytes (String.ofList cs) ++ bytes (String.ofList cs') := by
  rw [String.ofList_append, bytes_append]

theorem bytes_ofList_cons {c : Char} (h : c.toNat < 128) (cs : List Char) :
    bytes (String.ofList (c :: cs)) = UInt8.ofNat c.toNat :: bytes (String.ofList cs) := by
  rw [bytes_ofList, bytes_ofList, List.flatMap_cons, utf8EncodeChar_ascii h]
  rfl

theorem step_ascii {b : UInt8} (h : b < 0x80) (rest : List UInt8) :
    step b rest = .char (Char.ofNat b.toNat) rest := if_pos h

/-- Bytes below `0x80` are read as the characters they are, in any number of steps that is
enough. -/
theorem lossyChars_ascii {cs : List Char} (h : ∀ c ∈ cs, c.toNat < 128) {steps : Nat}
    (hsteps : cs.length ≤ steps) :
    lossyChars steps (cs.map fun c => UInt8.ofNat c.toNat) = cs := by
  induction cs generalizing steps with
  | nil => cases steps <;> rfl
  | cons c cs ih =>
      obtain ⟨hc, hcs⟩ := List.forall_mem_cons.mp h
      obtain ⟨n, rfl⟩ : ∃ n, steps = n + 1 := ⟨steps - 1, by rw [List.length_cons] at hsteps; omega⟩
      have hbyte : (UInt8.ofNat c.toNat).toNat = c.toNat := by
        rw [UInt8.toNat_ofNat']
        omega
      have hlead : UInt8.ofNat c.toNat < 0x80 := by
        rw [UInt8.lt_iff_toNat_lt, hbyte]
        exact hc
      rw [List.map_cons, lossyChars, step_ascii hlead]
      dsimp only
      rw [hbyte, Char.ofNat_toNat, ih hcs (Nat.le_of_succ_le_succ hsteps)]

theorem ofBytesLossy_bytes_ascii {cs : List Char} (h : ∀ c ∈ cs, c.toNat < 128) :
    ofBytesLossy (bytes (String.ofList cs)) = String.ofList cs := by
  have hlength : cs.length ≤ (cs.map fun c => UInt8.ofNat c.toNat).length :=
    Nat.le_of_eq (List.length_map _).symm
  rw [ofBytesLossy, bytes_ofList_ascii h, lossyChars_ascii h hlength]

end ResponseExport.Text
