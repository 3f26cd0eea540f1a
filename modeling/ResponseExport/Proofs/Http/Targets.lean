import Mathlib.Data.List.TakeWhile
import ResponseExport.Http.Target

/-!
# `ResponseExport.Proofs.Http.Targets`: targets by their parts
-/

set_option autoImplicit false

namespace ResponseExport.Http.Target

/-- A target that starts with its path is taken apart at the first question mark. -/
theorem ofText_append {path query : String} (hslash : path.toList.head? = some '/')
    (hmark : '?' ∉ path.toList) (hpath : '#' ∉ path.toList) (hquery : '#' ∉ query.toList) :
    ofText (path ++ "?" ++ query) = ⟨"", path, some query⟩ := by
  obtain ⟨tail, htail⟩ := List.head?_eq_some_iff.mp hslash
  have hchars : (path ++ "?" ++ query).toList = path.toList ++ '?' :: query.toList := by
    rw [String.toList_append, String.toList_append, List.append_assoc]
    rfl
  have hfragment : (path.toList ++ '?' :: query.toList).takeWhile (· != '#')
      = path.toList ++ '?' :: query.toList := by
    refine List.takeWhile_eq_self_iff.mpr fun c hc => bne_iff_ne.mpr ?_
    rcases List.mem_append.mp hc with hc | hc
    · exact fun heq => hpath (heq ▸ hc)
    · rcases List.mem_cons.mp hc with rfl | hc
      · decide
      · exact fun heq => hquery (heq ▸ hc)
  have hbefore : ∀ c ∈ path.toList, (c != '?') = true :=
    fun c hc => bne_iff_ne.mpr fun heq => hmark (heq ▸ hc)
  have hofPath : ofPath "" (path.toList ++ '?' :: query.toList) = ⟨"", path, some query⟩ := by
    rw [ofPath, List.takeWhile_append_of_pos hbefore, List.dropWhile_append_of_pos hbefore,
      List.takeWhile_cons_of_neg (by decide), List.dropWhile_cons_of_neg (by decide),
      List.append_nil]
    dsimp only
    rw [String.ofList_toList, String.ofList_toList]
  rw [ofText, hchars, hfragment]
  rw [htail] at hofPath ⊢
  exact hofPath

end ResponseExport.Http.Target
