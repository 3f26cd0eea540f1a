import Mathlib.Data.List.Basic
import ResponseExport.Proofs.Text.Ascii
import ResponseExport.Text.Base64

/-!
# `ResponseExport.Proofs.Text.Sextets`: base64 read back

Three bytes and four symbols hold the same 24 bits; the two shorter groups at the end fill their
last symbol with zeros, which is what reading looks for. So whatever is written is read back.
-/

set_option autoImplicit false

namespace ResponseExport.Text.Base64

theorem symbol_lt : ∀ n < 64, (symbol n).toNat < 128 := by decide

theorem value?_symbol : ∀ n < 64, value? (UInt8.ofNat (symbol n).toNat) = some n := by decide

/-! ### Values of six bits -/

theorem lt_of_mem_sextets {bs : List UInt8} {n : Nat} (h : n ∈ sextets bs) : n < 64 := by
  fun_induction sextets bs with
  | case1 a b c rest m ih =>
      have ha := a.toNat_lt
      have hb := b.toNat_lt
      have hc := c.toNat_lt
      simp only [List.mem_cons] at h
      rcases h with h | h | h | h | h
      · omega
      · omega
      · omega
      · omega
      · exact ih h
  | case2 a b m =>
      have ha := a.toNat_lt
      have hb := b.toNat_lt
      simp only [List.mem_cons, List.not_mem_nil, or_false] at h
      omega
  | case3 a =>
      have ha := a.toNat_lt
      simp only [List.mem_cons, List.not_mem_nil, or_false] at h
      omega
  | case4 => cases h

theorem octets_sextets (bs : List UInt8) : octets (sextets bs) = bs := by
  fun_induction sextets bs with
  | case1 a b c rest m ih =>
      have ha := a.toNat_lt
      have hb := b.toNat_lt
      have hc := c.toNat_lt
      have hm : ((m / 262144 * 64 + m / 4096 % 64) * 64 + m / 64 % 64) * 64 + m % 64 = m := by
        omega
      have h1 : m / 65536 = a.toNat := by omega
      have h2 : m / 256 % 256 = b.toNat := by omega
      have h3 : m % 256 = c.toNat := by omega
      rw [octets, hm, ih, h1, h2, h3, UInt8.ofNat_toNat, UInt8.ofNat_toNat, UInt8.ofNat_toNat]
  | case2 a b m =>
      have ha := a.toNat_lt
      have hb := b.toNat_lt
      have hm : ((m / 4096 * 64 + m / 64 % 64) * 64 + m % 64) / 4 = a.toNat * 256 + b.toNat := by
        omega
      have h1 : (a.toNat * 256 + b.toNat) / 256 = a.toNat := by omega
      have h2 : (a.toNat * 256 + b.toNat) % 256 = b.toNat := by omega
      rw [octets, hm, h1, h2, UInt8.ofNat_toNat, UInt8.ofNat_toNat]
  | case3 a =>
      have ha := a.toNat_lt
      have hm : (a.toNat * 16 / 64 * 64 + a.toNat * 16 % 64) / 16 = a.toNat := by omega
      rw [octets, hm, UInt8.ofNat_toNat]
  | case4 => rfl

/-- The bits that fill no byte are written as zeros. -/
theorem spareBits_sextets (bs : List UInt8) : spareBits (sextets bs) = 0 := by
  fun_induction sextets bs with
  | case1 a b c rest m ih => exact ih
  | case2 a b m =>
      show m % 64 % 4 = 0
      omega
  | case3 a =>
      show a.toNat * 16 % 64 % 16 = 0
      omega
  | case4 => rfl

/-- No group is written as one symbol. -/
theorem length_sextets_mod (bs : List UInt8) : (sextets bs).length % 4 ≠ 1 := by
  fun_induction sextets bs with
  | case1 a b c rest m ih =>
      simp only [List.length_cons]
      omega
  | case2 a b m => exact (by decide : 3 % 4 ≠ 1)
  | case3 a => exact (by decide : 2 % 4 ≠ 1)
  | case4 => decide

theorem sextets_ne_nil {bs : List UInt8} (h : bs ≠ []) : sextets bs ≠ [] := by
  intro hnil
  have hoctets := octets_sextets bs
  rw [hnil] at hoctets
  exact h hoctets.symm

/-! ### Symbols -/

/-- What holds of the 64 symbols holds of all characters that are written. -/
theorem forall_mem_encode {P : Char → Prop} (h : ∀ n < 64, P (symbol n)) (bs : List UInt8) :
    ∀ c ∈ (encode bs).toList, P c := by
  rw [encode, String.toList_ofList, List.forall_mem_map]
  exact fun n hn => h n (lt_of_mem_sextets hn)

theorem encode_ne_nil {bs : List UInt8} (h : bs ≠ []) : (encode bs).toList ≠ [] := by
  rw [encode, String.toList_ofList]
  exact fun hnil => sextets_ne_nil h (List.map_eq_nil_iff.mp hnil)

theorem bytes_encode (bs : List UInt8) :
    bytes (encode bs) = (sextets bs).map fun n => UInt8.ofNat (symbol n).toNat := by
  have hascii := forall_mem_encode (P := fun c => c.toNat < 128) symbol_lt bs
  rw [encode, String.toList_ofList] at hascii
  rw [encode, bytes_ofList_ascii hascii, List.map_map]
  rfl

theorem firstForeign_eq_none {bs : List UInt8} (h : ∀ b ∈ bs, (value? b).isSome = true)
    (offset : Nat) : firstForeign offset bs = none := by
  induction bs generalizing offset with
  | nil => rfl
  | cons b bs ih =>
      obtain ⟨hb, hbs⟩ := List.forall_mem_cons.mp h
      obtain ⟨n, hn⟩ := Option.isSome_iff_exists.mp hb
      rw [firstForeign, hn]
      exact ih hbs (offset + 1)

/-- Whatever is written is read back. -/
theorem decode_encode (bs : List UInt8) : decode (bytes (encode bs)) = .ok bs := by
  have hvalue : ∀ n ∈ sextets bs, value? (UInt8.ofNat (symbol n).toNat) = some n :=
    fun n hn => value?_symbol n (lt_of_mem_sextets hn)
  have hlength : lengthFault? (bytes (encode bs)) = none := by
    rw [lengthFault?, bytes_encode, List.length_map, if_neg (length_sextets_mod bs)]
  have hforeign : firstForeign 0 (bytes (encode bs)) = none := by
    refine firstForeign_eq_none ?_ 0
    rw [bytes_encode, List.forall_mem_map]
    intro n hn
    rw [hvalue n hn]
    rfl
  have hvalues : (bytes (encode bs)).filterMap value? = sextets bs := by
    rw [bytes_encode, List.filterMap_map]
    exact (List.filterMap_congr hvalue).trans List.filterMap_some
  rw [decode, hlength, hforeign]
  dsimp only
  rw [hvalues, spareBits_sextets, if_pos rfl, octets_sextets]

end ResponseExport.Text.Base64
