import Mathlib.Data.List.Basic
import ResponseExport.Proofs.Text.Ascii
import ResponseExport.Text.Urlencoded

/-!
# `ResponseExport.Proofs.Text.Parameters`: query strings part by part

A query string is read part by part, whatever stands in the other parts. A name and a value come
through unchanged if they are made of characters that mean nothing else there.
-/

set_option autoImplicit false

namespace ResponseExport.Text

/-! ### Parts -/

theorem splitAt_ne_nil (sep : UInt8) (bs : List UInt8) : splitAt sep bs ≠ [] := by
  cases bs with
  | nil => exact List.cons_ne_nil _ _
  | cons b bs =>
      rw [splitAt]
      split
      · exact List.cons_ne_nil _ _
      · split <;> exact List.cons_ne_nil _ _

theorem splitAt_append (sep : UInt8) (bs bs' : List UInt8) :
    splitAt sep (bs ++ sep :: bs') = splitAt sep bs ++ splitAt sep bs' := by
  induction bs with
  | nil =>
      rw [List.nil_append, splitAt.eq_def]
      exact if_pos rfl
  | cons b bs ih =>
      rw [List.cons_append, splitAt, splitAt]
      by_cases h : b = sep
      · rw [if_pos h, if_pos h, ih, List.cons_append]
      · obtain ⟨part, parts, hparts⟩ := List.exists_cons_of_ne_nil (splitAt_ne_nil sep bs)
        rw [if_neg h, if_neg h, ih, hparts]
        rfl

theorem splitAt_of_not_mem {sep : UInt8} {bs : List UInt8} (h : sep ∉ bs) :
    splitAt sep bs = [bs] := by
  induction bs with
  | nil => rfl
  | cons b bs ih =>
      have hb : b ≠ sep := fun heq => h (heq ▸ List.mem_cons_self)
      rw [splitAt, if_neg hb, ih fun hmem => h (List.mem_cons_of_mem b hmem)]

theorem queryPairs_append (bs bs' : List UInt8) :
    queryPairs (bs ++ 38 :: bs') = queryPairs bs ++ queryPairs bs' := by
  rw [queryPairs, splitAt_append, List.filter_append, List.map_append]
  rfl

/-- The parts of a query string are read one by one. -/
theorem queryPairs_intercalate (parts : List String) :
    queryPairs (bytes ("&".intercalate parts)) = parts.flatMap fun s => queryPairs (bytes s) := by
  induction parts with
  | nil => rfl
  | cons s parts ih =>
      cases parts with
      | nil =>
          rw [List.flatMap_singleton, String.intercalate_singleton]
      | cons s' parts =>
          have hand : bytes "&" = [38] := rfl
          rw [String.intercalate_cons_cons, bytes_append, bytes_append, hand, List.append_assoc,
            List.singleton_append, queryPairs_append, ih]
          rfl

/-! ### Names and values -/

/-- A character that stands for itself in a name or a value. -/
structure IsVerbatim (c : Char) : Prop where
  ascii : c.toNat < 128
  percent : c ≠ '%'
  plus : c ≠ '+'
  separator : c ≠ '&'
  equals : c ≠ '='

instance (c : Char) : Decidable (IsVerbatim c) :=
  decidable_of_iff (c.toNat < 128 ∧ c ≠ '%' ∧ c ≠ '+' ∧ c ≠ '&' ∧ c ≠ '=')
    ⟨fun ⟨ascii, percent, plus, separator, equals⟩ => ⟨ascii, percent, plus, separator, equals⟩,
      fun h => ⟨h.ascii, h.percent, h.plus, h.separator, h.equals⟩⟩

/-- A byte of such characters is that of another one only if the characters are the same. -/
theorem not_mem_bytes {cs : List Char} (h : ∀ c ∈ cs, IsVerbatim c) {d : Char}
    (hd : d.toNat < 128) (hne : ∀ c, IsVerbatim c → c ≠ d) :
    UInt8.ofNat d.toNat ∉ bytes (String.ofList cs) := by
  rw [bytes_ofList_ascii fun c hc => (h c hc).ascii]
  intro hmem
  obtain ⟨c, hc, heq⟩ := List.mem_map.mp hmem
  have hascii := (h c hc).ascii
  have hnat := congrArg UInt8.toNat heq
  rw [UInt8.toNat_ofNat', UInt8.toNat_ofNat'] at hnat
  exact hne c (h c hc) (Char.toNat_inj.mp (by omega))

theorem percentDecode_of_not_mem {bs : List UInt8} (h : 37 ∉ bs) : percentDecode bs = bs := by
  fun_induction percentDecode bs with
  | case1 a b rest c hc ih => exact absurd List.mem_cons_self h
  | case2 a b rest hnone ih => exact absurd List.mem_cons_self h
  | case3 c rest hcases ih => rw [ih fun hmem => h (List.mem_cons_of_mem c hmem)]
  | case4 => rfl

theorem queryText_verbatim {cs : List Char} (h : ∀ c ∈ cs, IsVerbatim c) :
    queryText (bytes (String.ofList cs)) = String.ofList cs := by
  have hpercent : 37 ∉ bytes (String.ofList cs) :=
    not_mem_bytes h (d := '%') (by decide) fun c hc => hc.percent
  have hplus : 43 ∉ bytes (String.ofList cs) :=
    not_mem_bytes h (d := '+') (by decide) fun c hc => hc.plus
  have hmap : (bytes (String.ofList cs)).map (fun b => if b = 43 then 32 else b)
      = bytes (String.ofList cs) := by
    rw [List.map_congr_left fun b hb => if_neg fun (heq : b = 43) => hplus (heq ▸ hb)]
    exact List.map_id' _
  rw [queryText, hmap, percentDecode_of_not_mem hpercent,
    ofBytesLossy_bytes_ascii fun c hc => (h c hc).ascii]

theorem queryPairs_of_not_mem {bs bs' : List UInt8} (h : 38 ∉ bs) (h' : 38 ∉ bs')
    (hequals : 61 ∉ bs) : queryPairs (bs ++ 61 :: bs') = [(queryText bs, queryText bs')] := by
  have hpart : 38 ∉ bs ++ 61 :: bs' := by
    simp only [List.mem_append, List.mem_cons, not_or]
    exact ⟨h, by decide, h'⟩
  have hname : ∀ b ∈ bs, (b != 61) = true :=
    fun b hb => bne_iff_ne.mpr fun heq => hequals (heq ▸ hb)
  have hfilter : [bs ++ 61 :: bs'].filter (!·.isEmpty) = [bs ++ 61 :: bs'] :=
    List.filter_cons_of_pos (by simp)
  rw [queryPairs, splitAt_of_not_mem hpart, hfilter, List.map_singleton,
    List.takeWhile_append_of_pos hname, List.dropWhile_append_of_pos hname,
    List.takeWhile_cons_of_neg (by decide), List.dropWhile_cons_of_neg (by decide),
    List.append_nil]
  rfl

/-- A name and a value of such characters make one pair. -/
theorem queryPairs_pair {name value : String} (hname : ∀ c ∈ name.toList, IsVerbatim c)
    (hvalue : ∀ c ∈ value.toList, IsVerbatim c) :
    queryPairs (bytes (name ++ "=" ++ value)) = [(name, value)] := by
  have hequals : bytes "=" = [61] := rfl
  have hbytes : bytes (name ++ "=" ++ value) = bytes name ++ 61 :: bytes value := by
    rw [bytes_append, bytes_append, hequals, List.append_assoc, List.singleton_append]
  have hread : ∀ s : String, (∀ c ∈ s.toList, IsVerbatim c) →
      queryText (bytes s) = s ∧ 38 ∉ bytes s ∧ 61 ∉ bytes s := by
    intro s hs
    rw [← String.ofList_toList (s := s)]
    exact ⟨queryText_verbatim hs, not_mem_bytes hs (d := '&') (by decide) fun c hc => hc.separator,
      not_mem_bytes hs (d := '=') (by decide) fun c hc => hc.equals⟩
  obtain ⟨hnameText, hnamePart, hnameEquals⟩ := hread name hname
  obtain ⟨hvalueText, hvaluePart, -⟩ := hread value hvalue
  rw [hbytes, queryPairs_of_not_mem hnamePart hvaluePart hnameEquals, hnameText, hvalueText]

end ResponseExport.Text
