import Mathlib.Data.List.TakeWhile
import ResponseExport.Text.Blank

/-!
# `ResponseExport.Proofs.Text.Trim`: what trimming leaves

A text without blanks is what trimming leaves of it, whatever blanks are put around it, and
trimming leaves it of no other text (`trim_eq_iff`).
-/

set_option autoImplicit false

namespace ResponseExport.Text

/-- No digit is blank. -/
theorem isBlank_of_digit {c : Char} (hlow : '0' ≤ c) (hhigh : c ≤ '9') : isBlank c = false := by
  have hlow' : 48 ≤ c.toNat := hlow
  have hhigh' : c.toNat ≤ 57 := hhigh
  unfold isBlank
  simp only [Bool.or_eq_false_iff, Bool.and_eq_false_iff, decide_eq_false_iff_not,
    beq_eq_false_iff_ne]
  omega

theorem dropLeadingBlanks_append {before : List Char} (h : ∀ c ∈ before, isBlank c = true)
    (cs : List Char) : dropLeadingBlanks (before ++ cs) = dropLeadingBlanks cs :=
  List.dropWhile_append_of_pos h

/-- Trailing blanks are leading blanks from behind. -/
theorem dropTrailingBlanks_eq (cs : List Char) :
    dropTrailingBlanks cs = (dropLeadingBlanks cs.reverse).reverse := rfl

theorem dropLeadingBlanks_of_head {c : Char} (h : isBlank c = false) (cs : List Char) :
    dropLeadingBlanks (c :: cs) = c :: cs :=
  List.dropWhile_cons_of_neg (by rw [h]; exact Bool.false_ne_true)

/-- The blanks around a text that holds none are gone, and nothing else is. -/
theorem trimChars_surrounded {before cs behind : List Char} (hcs : cs ≠ [])
    (hvisible : ∀ c ∈ cs, isBlank c = false) (hbefore : ∀ c ∈ before, isBlank c = true)
    (hbehind : ∀ c ∈ behind, isBlank c = true) :
    trimChars (before ++ cs ++ behind) = cs := by
  have hleading : ∀ rest, dropLeadingBlanks (cs ++ rest) = cs ++ rest := by
    obtain ⟨c, tail, rfl⟩ := List.exists_cons_of_ne_nil hcs
    exact fun rest => dropLeadingBlanks_of_head (hvisible c List.mem_cons_self) (tail ++ rest)
  have htrailing : dropLeadingBlanks cs.reverse = cs.reverse := by
    obtain ⟨init, c, rfl⟩ := List.eq_nil_or_concat cs |>.resolve_left hcs
    rw [List.concat_eq_append, List.reverse_append, List.reverse_singleton, List.singleton_append]
    exact dropLeadingBlanks_of_head (hvisible c (by simp)) init.reverse
  have hbehind' : ∀ c ∈ behind.reverse, isBlank c = true :=
    fun c hc => hbehind c (List.mem_reverse.mp hc)
  rw [trimChars, List.append_assoc, dropLeadingBlanks_append hbefore, hleading,
    dropTrailingBlanks_eq, List.reverse_append, dropLeadingBlanks_append hbehind', htrailing,
    List.reverse_reverse]

/-- Is the text these characters with blanks around them? -/
def Surrounds (s : String) (cs : List Char) : Prop :=
  ∃ before behind, (∀ c ∈ before, isBlank c = true) ∧ (∀ c ∈ behind, isBlank c = true) ∧
    s.toList = before ++ cs ++ behind

/-- What is trimmed off is blank. -/
theorem surrounds_trim (s : String) : Surrounds s (trim s).toList := by
  have hleading : s.toList = s.toList.takeWhile isBlank ++ dropLeadingBlanks s.toList :=
    List.takeWhile_append_dropWhile.symm
  have htrailing : dropLeadingBlanks s.toList = trimChars s.toList
      ++ ((dropLeadingBlanks s.toList).reverse.takeWhile isBlank).reverse := by
    rw [trimChars, dropTrailingBlanks, ← List.reverse_append, List.takeWhile_append_dropWhile,
      List.reverse_reverse]
  refine ⟨s.toList.takeWhile isBlank,
    ((dropLeadingBlanks s.toList).reverse.takeWhile isBlank).reverse, ?_, ?_, ?_⟩
  · intro c hc
    exact List.mem_takeWhile_imp hc
  · intro c hc
    exact List.mem_takeWhile_imp (List.mem_reverse.mp hc)
  · rw [trim, String.toList_ofList, List.append_assoc, ← htrailing]
    exact hleading

/-- Characters that are not blank are left exactly if there are only blanks around them. -/
theorem trim_eq_iff {s : String} {cs : List Char} (hcs : cs ≠ [])
    (hvisible : ∀ c ∈ cs, isBlank c = false) : (trim s).toList = cs ↔ Surrounds s cs := by
  constructor
  · rintro rfl
    exact surrounds_trim s
  · rintro ⟨before, behind, hbefore, hbehind, hs⟩
    rw [trim, String.toList_ofList, hs, trimChars_surrounded hcs hvisible hbefore hbehind]

end ResponseExport.Text
