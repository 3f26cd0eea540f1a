import ResponseExport.Http.Message
import ResponseExport.Proofs.Http.ExportFiles

/-!
# `ResponseExport.Proofs.Export.FileNames`: what the names of files are made of

The name of a file holds the name of a survey, which anybody may choose. Two places
have to take it: the directory of the exports, where it must not lead anywhere else,
and a header of a reply, where it stands between quotes.

`IsSafe` says what a name needs for both. That it stands in a header is said of a
reader of such headers (`savedName?`), which knows quotes and escapes and finds just
the name. `names_safe` has it for every name that is made from a survey's name and a
time, whatever the survey is called, and says that stored files of two exports never
share their name.

A stored name has as many bytes as the survey's name has characters, and 69 more
(`utf8ByteSize_stored`).
-/

set_option autoImplicit false

namespace ResponseExport

namespace Http

/-- Reads up to the quote that closes a quoted string, and says what comes behind it. A character
behind a backslash is meant as it is. -/
def readQuoted : List Char → Option (List Char × List Char)
  | [] => none
  | '"' :: rest => some ([], rest)
  | '\\' :: c :: rest =>
    if Request.isVisible c then (readQuoted rest).map fun (cs, behind) => (c :: cs, behind) else none
  | c :: rest =>
    if Request.isVisible c then (readQuoted rest).map fun (cs, behind) => (c :: cs, behind) else none

/-- What stands in front of the name of a file that is to be saved. -/
def beforeName : List Char := "attachment; filename=\"".toList

/-- The name under which a header says to save a reply, if it is a quoted one and nothing comes
behind it. -/
def savedName? (header : String) : Option String :=
  if beforeName.isPrefixOf header.toList then
    match readQuoted (header.toList.drop beforeName.length) with
    | some (name, []) => some (String.ofList name)
    | _ => none
  else none

/-- What is visible, and neither a quote nor a backslash, is read as it is. -/
theorem readQuoted_append {name : List Char}
    (h : ∀ c ∈ name, Request.isVisible c = true ∧ c ≠ '"' ∧ c ≠ '\\') (behind : List Char) :
    readQuoted (name ++ '"' :: behind) = some (name, behind) := by
  induction name with
  | nil => rfl
  | cons c name ih =>
      obtain ⟨⟨hvisible, hquote, hescape⟩, hname⟩ := List.forall_mem_cons.mp h
      rw [List.cons_append, readQuoted, if_pos hvisible, ih hname]
      · rfl
      · exact hquote
      · exact fun c' rest hc _ => hescape hc

theorem savedName?_attachment {name : String}
    (h : ∀ c ∈ name.toList, Request.isVisible c = true ∧ c ≠ '"' ∧ c ≠ '\\')
    (body : List UInt8) (fault : Option String) :
    (Reply.attachment name body fault).disposition.bind savedName? = some name := by
  have hheader : ("attachment; filename=\"" ++ name ++ "\"").toList
      = beforeName ++ (name.toList ++ ['"']) := by
    rw [String.toList_append, String.toList_append, List.append_assoc]
    rfl
  rw [Reply.attachment, Option.bind_some, savedName?, hheader,
    if_pos (List.isPrefixOf_iff_prefix.mpr (List.prefix_append _ _)), List.drop_left,
    readQuoted_append h]
  exact congrArg some String.ofList_toList

/-- A quote in a name would close it. -/
example : savedName? "attachment; filename=\"a\"; filename=\"b\"" = none := by decide

end Http

namespace Export

open FileName (isKept sanitize)

/-! ### Characters -/

theorem isKept_iff {c : Char} :
    isKept c = true ↔ c.isAlphanum = true ∨ c ∈ ['-', '_', '.'] := by
  simp only [isKept, Bool.or_eq_true, beq_iff_eq, List.mem_cons, List.not_mem_nil, or_false,
    or_assoc]

theorem isKept_sanitize (s : String) : ∀ c ∈ (sanitize s).toList, isKept c = true := by
  intro c hc
  rw [sanitize, String.toList_ofList] at hc
  obtain ⟨d, -, rfl⟩ := List.mem_map.mp hc
  split
  · assumption
  · rfl

theorem isKept_padded (width n : Nat) : ∀ c ∈ Time.padded width n, isKept c = true := by
  intro c hc
  have halphanum : c.isAlphanum = true := by
    have hgroups : c.isAlphanum = (c.isUpper || c.isLower || c.isDigit) := rfl
    rw [hgroups, ← Time.isDigit_eq, Time.isDigit_of_mem_padded hc, Bool.or_true]
  rw [isKept_iff]
  exact Or.inl halphanum

variable {t : Time.Instant}

theorem yearText_of_short (ht : t.HasShortYear) :
    Time.yearText t.clock.date.year = Time.padded 4 t.clock.date.year.toNat :=
  if_pos ⟨ht.year_nonneg, ht.year_le⟩

/-- A year of four digits has no sign, and all that is not a digit is kept. -/
theorem isKept_compactText (ht : t.HasShortYear) : ∀ c ∈ t.compactText.toList, isKept c = true := by
  have hdigits := isKept_padded
  rw [Time.Instant.compactText, String.toList_ofList, yearText_of_short ht]
  simp only [List.forall_mem_append, List.forall_mem_cons]
  exact ⟨⟨⟨⟨⟨⟨⟨hdigits _ _, hdigits _ _⟩, hdigits _ _⟩, by decide, hdigits _ _⟩, hdigits _ _⟩,
    hdigits _ _⟩, by decide, hdigits _ _⟩, by decide, List.forall_mem_nil _⟩

theorem isKept_or_colon_millisText (ht : t.HasShortYear) :
    ∀ c ∈ t.millisText.toList, isKept c = true ∨ c = ':' := by
  have hdigits : ∀ width n, ∀ c ∈ Time.padded width n, isKept c = true ∨ c = ':' :=
    fun width n c hc => Or.inl (isKept_padded width n c hc)
  rw [Time.Instant.millisText, String.toList_ofList, Time.Clock.text, yearText_of_short ht]
  simp only [List.forall_mem_append, List.forall_mem_cons]
  exact ⟨⟨⟨⟨⟨⟨⟨hdigits _ _, by decide, hdigits _ _⟩, by decide, hdigits _ _⟩, by decide,
    hdigits _ _⟩, by decide, hdigits _ _⟩, by decide, hdigits _ _⟩, by decide, hdigits _ _⟩,
    by decide, List.forall_mem_nil _⟩

theorem isKept_stored (survey id : String) (ht : t.HasShortYear) :
    ∀ c ∈ (FileName.stored survey id t).toList, isKept c = true := by
  have hends : ∀ c ∈ "report_".toList ++ "_".toList ++ ".csv".toList, isKept c = true :=
    List.all_eq_true.mp (by decide)
  rw [FileName.stored]
  simp only [String.toList_append, List.forall_mem_append] at hends ⊢
  exact ⟨⟨⟨⟨⟨⟨hends.1.1, isKept_sanitize _⟩, hends.1.2⟩, isKept_compactText ht⟩, hends.1.2⟩,
    isKept_sanitize _⟩, hends.2⟩

theorem isKept_or_colon_forms (survey : String) (ht : t.HasShortYear) :
    ∀ c ∈ (FileName.forms survey t).toList, isKept c = true ∨ c = ':' := by
  have hends : ∀ c ∈ "_".toList ++ ".csv".toList, isKept c = true := List.all_eq_true.mp (by decide)
  rw [FileName.forms]
  simp only [String.toList_append, List.forall_mem_append] at hends ⊢
  exact ⟨⟨⟨fun c hc => Or.inl (isKept_sanitize _ c hc), fun c hc => Or.inl (hends.1 c hc)⟩,
    isKept_or_colon_millisText ht⟩, fun c hc => Or.inl (hends.2 c hc)⟩

/-- A report is named like a form, with a word in front. -/
theorem report_eq (survey : String) (t : Time.Instant) :
    FileName.report survey t = "report_" ++ FileName.forms survey t := by
  rw [FileName.report, FileName.forms]
  simp only [String.append_assoc]

/-! ### Safe names -/

/-- A name that a directory and a header can take. -/
structure IsSafe (others : List Char) (name : String) : Prop where
  /-- There are ASCII letters and digits in it, and some others. -/
  chars : ∀ c ∈ name.toList, c.isAlphanum = true ∨ c ∈ others
  /-- It is one part of a path, and leads neither out of a directory nor to the directory. -/
  plain : IsPlainName name
  /-- What a header says to save it as is the name, to its last character. -/
  saved : ∀ body fault, (Http.Reply.attachment name body fault).disposition.bind Http.savedName?
    = some name

/-- Letters and digits are visible. -/
theorem isVisible_of_isAlphanum {c : Char} (h : c.isAlphanum = true) :
    Http.Request.isVisible c = true := by
  obtain ⟨hlow, hhigh⟩ := Text.toNat_of_isAlphanum h
  rw [Http.Request.isVisible, Bool.or_eq_true, Bool.and_eq_true, decide_eq_true_iff,
    decide_eq_true_iff]
  exact Or.inl (by omega)

/-- What is kept in a name is visible, and neither closes a quoted string nor escapes anything. -/
theorem isVisible_of_isKept_or_colon {c : Char} (h : isKept c = true ∨ c = ':') :
    Http.Request.isVisible c = true ∧ c ≠ '"' ∧ c ≠ '\\' := by
  refine ⟨?_, ?_, ?_⟩
  · rcases h with hkept | rfl
    · have hothers : ∀ c ∈ ['-', '_', '.'], Http.Request.isVisible c = true :=
        List.all_eq_true.mp (by decide)
      exact (isKept_iff.mp hkept).elim isVisible_of_isAlphanum (hothers c)
    · decide
  all_goals
    rintro rfl
    revert h
    decide

/-- What is kept, and colons, do not lead out of one part of a path. -/
theorem staysInside_of_isKept_or_colon {c : Char} (h : isKept c = true ∨ c = ':') :
    StaysInside c := by
  rcases h with hkept | rfl
  · exact staysInside_of_isKept hkept
  · decide

/-- A name is safe if nothing else is in it than what is kept, and colons where they may be. -/
theorem isSafe_of_isKept_or_colon {others : List Char} {name : String}
    (hchars : ∀ c ∈ name.toList, isKept c = true ∨ c = ':')
    (hothers : ∀ c ∈ name.toList, c.isAlphanum = true ∨ c ∈ others) (hlong : 2 < name.length) :
    IsSafe others name where
  chars := hothers
  plain := isPlainName_of_staysInside
    (fun c hc => staysInside_of_isKept_or_colon (hchars c hc)) hlong
  saved := Http.savedName?_attachment fun c hc => isVisible_of_isKept_or_colon (hchars c hc)

/-- A name with an ending is not made of two characters. -/
theorem lt_length_csv (base : String) : 2 < (base ++ ".csv").length := by
  have hending : ".csv".length = 4 := by decide
  rw [String.length_append, hending]
  omega

theorem isSafe_download {name base : String} (hname : name = base ++ ".csv")
    (hchars : ∀ c ∈ name.toList, isKept c = true ∨ c = ':') :
    IsSafe ['-', '_', '.', ':'] name := by
  refine isSafe_of_isKept_or_colon hchars (fun c hc => ?_) (hname ▸ lt_length_csv base)
  rcases hchars c hc with hkept | rfl
  · exact (isKept_iff.mp hkept).imp_right fun hother =>
      List.mem_append_left [':'] hother
  · exact Or.inr (by decide)

theorem isSafe_forms (survey : String) (ht : t.HasShortYear) :
    IsSafe ['-', '_', '.', ':'] (FileName.forms survey t) :=
  isSafe_download rfl (isKept_or_colon_forms survey ht)

theorem isSafe_report (survey : String) (ht : t.HasShortYear) :
    IsSafe ['-', '_', '.', ':'] (FileName.report survey t) := by
  refine isSafe_download rfl ?_
  have hword : ∀ c ∈ "report_".toList, isKept c = true := List.all_eq_true.mp (by decide)
  rw [report_eq, String.toList_append, List.forall_mem_append]
  exact ⟨fun c hc => Or.inl (hword c hc), isKept_or_colon_forms survey ht⟩

theorem isSafe_stored (survey id : String) (ht : t.HasShortYear) :
    IsSafe ['-', '_', '.'] (FileName.stored survey id t) :=
  isSafe_of_isKept_or_colon (fun c hc => Or.inl (isKept_stored survey id ht c hc))
    (fun c hc => isKept_iff.mp (isKept_stored survey id ht c hc)) (lt_length_csv _)

/-- **Names of files are safe, and tell exports apart.** However a survey is called, the names that
are made of it in the years 0 to 9999 can be given to files and stand in headers, those of stored
files without colons. Whatever the surveys and the times are, two stored files have one name only if
they are of one export. -/
theorem names_safe :
    (∀ (survey : String) (t : Time.Instant), t.HasShortYear →
      IsSafe ['-', '_', '.', ':'] (FileName.report survey t) ∧
        IsSafe ['-', '_', '.', ':'] (FileName.forms survey t) ∧
        ∀ id, isUuid id = true → IsSafe ['-', '_', '.'] (FileName.stored survey id t)) ∧
      ∀ (survey survey' id id' : String) (t t' : Time.Instant), isUuid id = true →
        isUuid id' = true → FileName.stored survey id t = FileName.stored survey' id' t' →
        id = id' :=
  ⟨fun survey _ ht => ⟨isSafe_report survey ht, isSafe_forms survey ht,
    fun id _ => isSafe_stored survey id ht⟩, fun _ _ _ _ _ _ => stored_injective⟩

/-- A survey whose name climbs out of the directory and closes a quote, and two of which one is
called like a file of the other. -/
theorem names_safe_quoted :
    let t : Time.Instant := ⟨1709287200, 123000000⟩
    FileName.report "../a\"b" t = "report_.._a_b_2024-03-01T10:00:00.123Z.csv" ∧
      IsSafe ['-', '_', '.', ':'] (FileName.report "../a\"b" t) ∧
      FileName.stored "a" "11111111-1111-4111-8111-111111111111" t
        ≠ FileName.stored "a_20240301T100000.123Z" "22222222-2222-4222-8222-222222222222" t := by
  have ht : Time.Instant.HasShortYear ⟨1709287200, 123000000⟩ :=
    ⟨by decide, by decide, by decide⟩
  refine ⟨by decide +kernel, (names_safe.1 _ _ ht).1, fun hname => ?_⟩
  have hids := names_safe.2 _ _ _ _ _ _ (by decide) (by decide) hname
  exact absurd hids (by decide)

/-! ### Length -/

/-- A character that is kept is a single byte. -/
theorem utf8ByteSize_of_isKept {name : String} (h : ∀ c ∈ name.toList, isKept c = true) :
    name.utf8ByteSize = name.length := by
  have hascii : ∀ c ∈ name.toList, c.toNat < 128 := fun c hc =>
    (Http.isVerbatim_of_isKept (h c hc)).ascii
  have hbytes := congrArg List.length (Text.bytes_ofList_ascii hascii)
  rw [String.ofList_toList, List.length_map] at hbytes
  exact hbytes

theorem length_sanitize (s : String) : (sanitize s).length = s.length := by
  rw [sanitize, String.length_ofList, List.length_map, String.length_toList]

theorem monthLength_le (leap : Bool) (month : Nat) : Time.monthLength leap month ≤ 31 := by
  unfold Time.monthLength
  split
  · split <;> decide
  all_goals decide

theorem date_le (ht : t.HasShortYear) : t.clock.date.month ≤ 12 ∧ t.clock.date.day ≤ 31 := by
  have hexists := Time.make?_clock ht
  rw [Time.Date.make?] at hexists
  split at hexists
  · rename_i hbounds
    exact ⟨hbounds.2.2.1, Nat.le_trans hbounds.2.2.2.2 (monthLength_le _ _)⟩
  · cases hexists

/-- A time in the name of a file is twenty characters long. -/
theorem length_compactText (ht : t.HasShortYear) : t.compactText.length = 20 := by
  obtain ⟨hhour, hminute, hsecond, hmillis⟩ := Time.clock_le ht.nanos_lt
  obtain ⟨hmonth, hday⟩ := date_le ht
  have hyear : (Time.padded 4 t.clock.date.year.toNat).length = 4 :=
    Time.length_padded (by decide)
      (Nat.lt_of_le_of_lt (Int.toNat_le.mpr ht.year_le) (by decide))
  have htwo : ∀ {n : Nat}, n ≤ 60 → (Time.padded 2 n).length = 2 := fun hn =>
    Time.length_padded (by decide) (Nat.lt_of_le_of_lt hn (by decide))
  -- The parts are added up whatever they are: as digits of numbers they would be computed.
  have hsum : ∀ year month day hour minute second millis : List Char,
      (year ++ month ++ day ++ 'T' :: hour ++ minute ++ second ++ '.' :: millis ++ ['Z']).length
        = year.length + month.length + day.length + hour.length + minute.length + second.length
          + millis.length + 3 := by
    intro year month day hour minute second millis
    simp only [List.length_append, List.length_cons, List.length_nil]
    omega
  rw [Time.Instant.compactText, String.length_ofList, yearText_of_short ht, hsum, hyear,
    htwo (Nat.le_trans hmonth (by decide)), htwo (Nat.le_trans hday (by decide)),
    htwo (Nat.le_trans hhour (by decide)), htwo (Nat.le_trans hminute (by decide)), htwo hsecond,
    Time.length_padded (by decide) hmillis]

/-- The name of a stored file is 69 bytes longer than that of the survey has characters. -/
theorem utf8ByteSize_stored (survey : String) {id : String} (hid : isUuid id = true)
    (ht : t.HasShortYear) : (FileName.stored survey id t).utf8ByteSize = survey.length + 69 := by
  have hidLength : id.length = 36 := by
    rw [isUuid, Bool.and_eq_true, String.length_toList] at hid
    exact beq_iff_eq.mp hid.1
  have hparts : "report_".length = 7 ∧ "_".length = 1 ∧ ".csv".length = 4 := by decide
  rw [utf8ByteSize_of_isKept (isKept_stored survey id ht), FileName.stored]
  simp only [String.length_append, length_sanitize, length_compactText ht, hidLength, hparts]
  omega

end Export

end ResponseExport
