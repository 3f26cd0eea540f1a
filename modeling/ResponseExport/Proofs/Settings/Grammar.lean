import Mathlib.Data.List.Basic
import ResponseExport.Export.Service
import ResponseExport.Proofs.Settings.Accepted
import ResponseExport.Proofs.Text.Trim
import ResponseExport.Settings.Basic

/-!
# `ResponseExport.Proofs.Settings.Grammar`: what variables may hold

Three settings are numbers. A variable may give one as decimal digits, as many as there are,
with a plus sign in front or without one (`Text.IsNumeral`). Digits are read one by one, and
the limit is looked at behind each of them. As a value never shrinks when a digit is added
(`le_ofDigitChars`), this is no more than to look at it once, behind the last digit
(`readDigits_eq_ok_iff`), and leading zeros do not matter.

`follows_ofLookup` says which variables are accepted, and what the settings then are. The
address in front of links loses the slashes at its end, so there is one slash between it and
what follows it in a link.
-/

set_option autoImplicit false

namespace ResponseExport

/-! ### Numerals -/

namespace Text

variable {limit acc n : Nat} {cs : List Char}

/-- Is it a decimal digit? -/
def IsDecimal (c : Char) : Prop := '0' ≤ c ∧ c ≤ '9'

/-- Is it a numeral of this number: digits, with a plus sign in front or without one? -/
def IsNumeral (cs : List Char) (n : Nat) : Prop :=
  ∃ digits, (cs = digits ∨ cs = '+' :: digits) ∧ digits ≠ [] ∧ (∀ c ∈ digits, IsDecimal c) ∧
    n = Nat.ofDigitChars 10 digits 0

theorem digit?_of_isDecimal {c : Char} (h : IsDecimal c) : digit? c = some (c.toNat - 48) := if_pos h

theorem digit?_of_not_isDecimal {c : Char} (h : ¬ IsDecimal c) : digit? c = none := if_neg h

theorem not_isDecimal_plus : ¬ IsDecimal '+' := by
  unfold IsDecimal
  decide

/-- More digits make no smaller number. -/
theorem le_ofDigitChars (cs : List Char) (acc : Nat) : acc ≤ Nat.ofDigitChars 10 cs acc := by
  induction cs generalizing acc with
  | nil => exact Nat.le_refl acc
  | cons c cs ih =>
      rw [Nat.ofDigitChars_cons]
      have hrest := ih (10 * acc + (c.toNat - '0'.toNat))
      omega

/-- Digits are read if there is nothing else and their value is below the limit. -/
theorem readDigits_eq_ok_iff (hacc : acc ≤ limit) :
    readDigits limit acc cs = .ok n ↔
      (∀ c ∈ cs, IsDecimal c) ∧ n = Nat.ofDigitChars 10 cs acc ∧ n ≤ limit := by
  induction cs generalizing acc with
  | nil =>
      simp only [readDigits, Nat.ofDigitChars_nil, Except.ok.injEq, List.not_mem_nil,
        false_implies, implies_true, true_and]
      constructor
      · rintro rfl
        exact ⟨rfl, hacc⟩
      · exact fun h => h.1.symm
  | cons c cs ih =>
      by_cases hc : IsDecimal c
      · simp only [readDigits, digit?_of_isDecimal hc]
        have hvalue : Nat.ofDigitChars 10 (c :: cs) acc
            = Nat.ofDigitChars 10 cs (10 * acc + (c.toNat - 48)) := Nat.ofDigitChars_cons
        split
        · rename_i hlarge
          -- Too large already, and it only grows.
          have hgrows := le_ofDigitChars cs (10 * acc + (c.toNat - 48))
          constructor
          · intro h
            cases h
          · rintro ⟨-, rfl, hle⟩
            omega
        · rename_i hfits
          rw [ih (Nat.not_lt.mp hfits), hvalue, List.forall_mem_cons, and_iff_right hc]
      · simp only [readDigits, digit?_of_not_isDecimal hc]
        constructor
        · intro h
          cases h
        · rintro ⟨hdigits, -⟩
          exact absurd (hdigits c List.mem_cons_self) hc

theorem readNumeral_plus {s : String} (hs : s.toList = '+' :: cs) (hcs : cs ≠ []) :
    readNumeral limit s = readDigits limit 0 cs := by
  unfold readNumeral
  rw [hs]
  split
  · contradiction
  · rename_i heq
    exact absurd (List.cons.inj heq).2 hcs
  · rename_i heq
    rw [(List.cons.inj heq).2]
  · rename_i hplus
    exact absurd rfl (hplus cs)

theorem readNumeral_plain {s : String} (hs : s.toList ≠ []) (hplus : ∀ cs, s.toList ≠ '+' :: cs) :
    readNumeral limit s = readDigits limit 0 s.toList := by
  unfold readNumeral
  split
  · contradiction
  · rename_i heq
    exact absurd heq (hplus [])
  · rename_i cs _ heq
    exact absurd heq (hplus cs)
  · rfl

/-- **A numeral is read if and only if it is one and its value is no more than the limit.** -/
theorem readNumeral_eq_ok_iff {s : String} :
    readNumeral limit s = .ok n ↔ IsNumeral s.toList n ∧ n ≤ limit := by
  have hzero : 0 ≤ limit := Nat.zero_le limit
  constructor
  · intro h
    by_cases hempty : s.toList = []
    · simp [readNumeral, hempty] at h
    by_cases hsign : ∃ cs, s.toList = '+' :: cs
    · obtain ⟨cs, hcs⟩ := hsign
      have hne : cs ≠ [] := by
        rintro rfl
        simp [readNumeral, hcs] at h
      rw [readNumeral_plus hcs hne, readDigits_eq_ok_iff hzero] at h
      obtain ⟨hdigits, hn, hle⟩ := h
      exact ⟨⟨cs, Or.inr hcs, hne, hdigits, hn⟩, hle⟩
    · rw [readNumeral_plain hempty (not_exists.mp hsign), readDigits_eq_ok_iff hzero] at h
      obtain ⟨hdigits, hn, hle⟩ := h
      exact ⟨⟨s.toList, Or.inl rfl, hempty, hdigits, hn⟩, hle⟩
  · rintro ⟨⟨digits, hs, hne, hdigits, hn⟩, hle⟩
    have hread := (readDigits_eq_ok_iff hzero).mpr ⟨hdigits, hn, hle⟩
    rcases hs with rfl | hs
    · rw [readNumeral_plain hne, hread]
      intro cs heq
      exact not_isDecimal_plus (hdigits '+' (heq ▸ List.mem_cons_self))
    · rw [readNumeral_plus hs hne, hread]

theorem IsNumeral.ne_nil (h : IsNumeral cs n) : cs ≠ [] := by
  obtain ⟨digits, rfl | rfl, hne, -⟩ := h
  · exact hne
  · exact List.cons_ne_nil _ _

theorem IsNumeral.visible (h : IsNumeral cs n) : ∀ c ∈ cs, isBlank c = false := by
  obtain ⟨digits, hcs, -, hdigits, -⟩ := h
  have hvisible : ∀ c ∈ digits, isBlank c = false := fun c hc =>
    isBlank_of_digit (hdigits c hc).1 (hdigits c hc).2
  rcases hcs with rfl | rfl
  · exact hvisible
  · exact List.forall_mem_cons.mpr ⟨by decide, hvisible⟩

end Text

/-! ### Settings -/

namespace Settings

variable {lookup : String → Option String} {s : Settings}

/-- Does the variable give this number? If it is set, it holds a numeral with blanks around it at
most, of a number from one up to the limit; if it is not, the number is the default. -/
def Gives (lookup : String → Option String) (key : String) (default limit n : Nat) : Prop :=
  (lookup key = none ∧ n = default) ∨
    ∃ raw numeral, lookup key = some raw ∧ Text.Surrounds raw numeral ∧
      Text.IsNumeral numeral n ∧ 1 ≤ n ∧ n ≤ limit

/-- A number that is read and is not zero is one that the variable gives. -/
theorem gives_iff {key : String} {default limit n : Nat} (hdefault : 1 ≤ default) :
    Gives lookup key default limit n ↔
      number lookup key default limit = .ok n ∧ positive key n = .ok () := by
  have hpositive : positive key n = .ok () ↔ 1 ≤ n := by
    refine ⟨positive_eq_ok, fun h => ?_⟩
    exact if_neg (Nat.ne_of_gt h)
  rw [hpositive, Gives, number]
  cases lookup key with
  | none =>
      simp only [reduceCtorEq, false_and, exists_false, or_false, true_and, Except.ok.injEq]
      constructor
      · rintro rfl
        exact ⟨rfl, hdefault⟩
      · exact fun h => h.1.symm
  | some raw =>
      dsimp only
      have hread : Text.readNumeral limit (Text.trim raw) = .ok n ↔
          Text.IsNumeral (Text.trim raw).toList n ∧ n ≤ limit := Text.readNumeral_eq_ok_iff
      constructor
      · rintro (⟨hnone, -⟩ | ⟨raw', numeral, hraw, hsurrounds, hnumeral, hone, hle⟩)
        · cases hnone
        · obtain rfl := Option.some.inj hraw
          have htrim : (Text.trim raw).toList = numeral :=
            (Text.trim_eq_iff hnumeral.ne_nil hnumeral.visible).mpr hsurrounds
          rw [← htrim] at hnumeral
          rw [hread.mpr ⟨hnumeral, hle⟩]
          exact ⟨rfl, hone⟩
      · rintro ⟨h, hone⟩
        split at h
        · rename_i m hm
          obtain rfl := Except.ok.inj h
          obtain ⟨hnumeral, hle⟩ := hread.mp hm
          exact Or.inr ⟨raw, _, rfl, Text.surrounds_trim raw, hnumeral, hone, hle⟩
        · cases h

/-- What is left of an address when the slashes at its end are taken off. -/
theorem trimSlashes_spec (url : String) :
    (∃ count, url.toList = (trimSlashes url).toList ++ List.replicate count '/') ∧
      (trimSlashes url).toList.getLast? ≠ some '/' := by
  rw [trimSlashes, String.toList_ofList]
  constructor
  · -- What is dropped from behind are slashes only.
    have hslashes : url.toList.reverse.takeWhile (· == '/')
        = List.replicate (url.toList.reverse.takeWhile (· == '/')).length '/' := by
      rw [List.eq_replicate_iff]
      exact ⟨rfl, fun c hc => by simpa using List.mem_takeWhile_imp hc⟩
    refine ⟨(url.toList.reverse.takeWhile (· == '/')).length, ?_⟩
    calc url.toList
        = (url.toList.reverse.takeWhile (· == '/')
            ++ url.toList.reverse.dropWhile (· == '/')).reverse := by
          rw [List.takeWhile_append_dropWhile, List.reverse_reverse]
      _ = _ := by rw [List.reverse_append, hslashes, List.reverse_replicate, List.length_replicate]
  · rw [List.getLast?_reverse]
    intro hlast
    have hhead := List.head?_dropWhile_not (· == '/') url.toList.reverse
    rw [hlast] at hhead
    simp at hhead

/-- The settings with these numbers. -/
def withNumbers (lookup : String → Option String) (maxConnections pageSize workers : Nat) :
    Settings :=
  let defaults : Settings := {}
  { databaseUrl := (lookup "DATABASE_URL").getD defaults.databaseUrl
    maxConnections
    bindAddress := (lookup "BIND_ADDR").getD defaults.bindAddress
    pageSize
    exportDirectory := (lookup "EXPORT_DIR").getD defaults.exportDirectory
    baseUrl := ((lookup "EXPORT_BASE_URL").map trimSlashes).getD defaults.baseUrl
    workers }

/-- Settings are accepted if and only if their numbers are given. -/
theorem ofLookup_eq_ok_iff :
    ofLookup lookup = .ok s ↔ ∃ maxConnections pageSize workers,
      Gives lookup "DB_MAX_CONNECTIONS" 5 (2 ^ 32 - 1) maxConnections ∧
      Gives lookup "EXPORT_PAGE_SIZE" 1000 (2 ^ 64 - 1) pageSize ∧
      Gives lookup "EXPORT_WORKERS" 2 (2 ^ 64 - 1) workers ∧
      s = withNumbers lookup maxConnections pageSize workers := by
  constructor
  · intro h
    unfold ofLookup at h
    obtain ⟨maxConnections, hmax, h⟩ := bind_eq_ok h
    obtain ⟨pageSize, hpage, h⟩ := bind_eq_ok h
    obtain ⟨workers, hwork, h⟩ := bind_eq_ok h
    obtain ⟨⟨⟩, hmax', h⟩ := bind_eq_ok h
    obtain ⟨⟨⟩, hpage', h⟩ := bind_eq_ok h
    obtain ⟨⟨⟩, hwork', h⟩ := bind_eq_ok h
    exact ⟨maxConnections, pageSize, workers, (gives_iff (by decide)).mpr ⟨hmax, hmax'⟩,
      (gives_iff (by decide)).mpr ⟨hpage, hpage'⟩, (gives_iff (by decide)).mpr ⟨hwork, hwork'⟩,
      (Except.ok.inj h).symm⟩
  · rintro ⟨maxConnections, pageSize, workers, hmax, hpage, hwork, rfl⟩
    obtain ⟨hmax, hmax'⟩ := (gives_iff (by decide)).mp hmax
    obtain ⟨hpage, hpage'⟩ := (gives_iff (by decide)).mp hpage
    obtain ⟨hwork, hwork'⟩ := (gives_iff (by decide)).mp hwork
    have hmax'' : number lookup "DB_MAX_CONNECTIONS" 5 Text.max32 = .ok maxConnections := hmax
    have hpage'' : number lookup "EXPORT_PAGE_SIZE" 1000 Text.max64 = .ok pageSize := hpage
    have hwork'' : number lookup "EXPORT_WORKERS" 2 Text.max64 = .ok workers := hwork
    unfold ofLookup
    dsimp only
    rw [hmax'', hpage'', hwork'']
    show (do positive _ maxConnections; positive _ pageSize; positive _ workers; _) = _
    rw [hmax', hpage', hwork']
    rfl

/-- What variables come to. -/
structure Follows (lookup : String → Option String) (result : Except ServiceError Settings) :
    Prop where
  /-- They are accepted if and only if the three numbers are given. -/
  ok_iff : (∃ s, result = .ok s) ↔
    (∃ n, Gives lookup "DB_MAX_CONNECTIONS" 5 (2 ^ 32 - 1) n) ∧
    (∃ n, Gives lookup "EXPORT_PAGE_SIZE" 1000 (2 ^ 64 - 1) n) ∧
    ∃ n, Gives lookup "EXPORT_WORKERS" 2 (2 ^ 64 - 1) n
  /-- The settings are the numbers that are given. -/
  numbers : ∀ s, result = .ok s →
    Gives lookup "DB_MAX_CONNECTIONS" 5 (2 ^ 32 - 1) s.maxConnections ∧
    Gives lookup "EXPORT_PAGE_SIZE" 1000 (2 ^ 64 - 1) s.pageSize ∧
    Gives lookup "EXPORT_WORKERS" 2 (2 ^ 64 - 1) s.workers
  /-- The address in front of links is the one that is given, without the slashes at its end. -/
  base : ∀ s url, result = .ok s → lookup "EXPORT_BASE_URL" = some url →
    ∃ count, url.toList = s.baseUrl.toList ++ List.replicate count '/'
  /-- So there is one slash between it and the name of an export, whichever address is given. -/
  link : ∀ s, result = .ok s → s.baseUrl.toList.getLast? ≠ some '/' ∧
    ∀ id, (Export.Service.link s.baseUrl id).toList
      = s.baseUrl.toList ++ '/' :: (id.toList ++ "/file".toList)

/-- **Variables.** Settings are accepted or refused by this rule, whatever the variables hold. -/
theorem follows_ofLookup (lookup : String → Option String) : Follows lookup (ofLookup lookup) where
  ok_iff := by
    simp only [ofLookup_eq_ok_iff]
    constructor
    · rintro ⟨_, maxConnections, pageSize, workers, hmax, hpage, hwork, -⟩
      exact ⟨⟨_, hmax⟩, ⟨_, hpage⟩, ⟨_, hwork⟩⟩
    · rintro ⟨⟨maxConnections, hmax⟩, ⟨pageSize, hpage⟩, ⟨workers, hwork⟩⟩
      exact ⟨_, maxConnections, pageSize, workers, hmax, hpage, hwork, rfl⟩
  numbers := by
    intro s hs
    obtain ⟨maxConnections, pageSize, workers, hmax, hpage, hwork, rfl⟩ := ofLookup_eq_ok_iff.mp hs
    exact ⟨hmax, hpage, hwork⟩
  base := by
    intro s url hs hurl
    obtain ⟨_, _, _, -, -, -, rfl⟩ := ofLookup_eq_ok_iff.mp hs
    simp only [withNumbers, hurl, Option.map_some, Option.getD_some]
    exact (trimSlashes_spec url).1
  link := by
    intro s hs
    obtain ⟨_, _, _, -, -, -, rfl⟩ := ofLookup_eq_ok_iff.mp hs
    constructor
    · simp only [withNumbers]
      cases lookup "EXPORT_BASE_URL" with
      | none => decide
      | some url => exact (trimSlashes_spec url).2
    · intro id
      simp [Export.Service.link]

/-- Leading zeros, a sign, a blank beyond ASCII, and more slashes than one. -/
example :
    ofLookup (fun key => List.lookup key
      [("EXPORT_WORKERS", "\u2003+00000000000000000000007\n"), ("EXPORT_BASE_URL", "/files//")])
      = .ok { workers := 7, baseUrl := "/files" } := by
  rfl

end Settings

end ResponseExport
