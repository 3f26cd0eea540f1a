import ResponseExport.Csv.Format

/-!
# `ResponseExport.Proofs.Csv.Reader`: a strict reader of separated values

A reader that knows a dialect's delimiter and quote and nothing else of how lines
are written. It goes through a file byte by byte, and refuses all that readers
disagree on: a line without bytes, a quote or a carriage return in a field
without quotes, text behind a closing quote, and a file that breaks off inside a
line. What it accepts, other readers take for the same records.

* `Reader.run_field`: a field as it is written is read back;
* `Reader.run_joined`, by induction over the fields of a line;
* `Reader.run_line`: a line is read as one record, wherever it stands;
* `read_lines`: lines are read as their records, by induction over the lines.

All of this needs is that the special bytes of the dialect are distinct
(`Dialect.IsClear`).
-/

set_option autoImplicit false

namespace ResponseExport.Csv

/-- Delimiter and quote can be told apart from each other and from the bytes that end
lines. -/
structure Dialect.IsClear (d : Dialect) : Prop where
  delimiter_ne_quote : d.delimiter ≠ d.quote
  delimiter_ne_lineFeed : d.delimiter ≠ Dialect.lineFeed
  delimiter_ne_carriageReturn : d.delimiter ≠ Dialect.carriageReturn
  quote_ne_lineFeed : d.quote ≠ Dialect.lineFeed
  quote_ne_carriageReturn : d.quote ≠ Dialect.carriageReturn

/-- Where in a field the reader is. -/
inductive Place where
  /-- Before its first byte. -/
  | start
  /-- In a field without quotes. -/
  | bare
  /-- Between quotes. -/
  | quoted
  /-- Behind a quote in a field with quotes: it closes the field, unless it is doubled. -/
  | closed
  deriving Repr, DecidableEq

/-- A reader, and what it has read. -/
structure Reader where
  records : List (List (List UInt8)) := []
  /-- The fields of the current record that are complete. -/
  fields : List (List UInt8) := []
  /-- The current field so far. -/
  text : List UInt8 := []
  place : Place := .start
  deriving Repr, DecidableEq

namespace Reader

/-- A field is complete. -/
def endField (s : Reader) : Reader := ⟨s.records, s.fields ++ [s.text], [], .start⟩

/-- A record is complete. -/
def endRecord (s : Reader) : Reader := ⟨s.records ++ [s.fields ++ [s.text]], [], [], .start⟩

/-- Reads one byte, or refuses it. -/
def step (d : Dialect) (s : Reader) (b : UInt8) : Option Reader :=
  match s.place with
  | .start =>
    if b = d.quote then some { s with place := .quoted }
    else if b = d.delimiter then some s.endField
    else if b = Dialect.lineFeed then if s.fields.isEmpty then none else some s.endRecord
    else if b = Dialect.carriageReturn then none
    else some { s with text := [b], place := .bare }
  | .bare =>
    if b = d.delimiter then some s.endField
    else if b = Dialect.lineFeed then some s.endRecord
    else if b = d.quote ∨ b = Dialect.carriageReturn then none
    else some { s with text := s.text ++ [b] }
  | .quoted =>
    if b = d.quote then some { s with place := .closed }
    else some { s with text := s.text ++ [b] }
  | .closed =>
    if b = d.quote then some { s with text := s.text ++ [b], place := .quoted }
    else if b = d.delimiter then some s.endField
    else if b = Dialect.lineFeed then some s.endRecord
    else none

/-- Reads bytes one by one. -/
def run (d : Dialect) (s : Reader) (bs : List UInt8) : Option Reader := bs.foldlM (step d) s

/-- Is the reader in front of a line? -/
def isBetween (s : Reader) : Bool := s.fields.isEmpty && s.place == .start

end Reader

/-- The records of a file. -/
def read (d : Dialect) (bs : List UInt8) : Option (List (List (List UInt8))) :=
  match Reader.run d {} bs with
  | some s => if s.isBetween then some s.records else none
  | none => none

namespace Reader

variable {d : Dialect}

theorem run_append {s s' : Reader} {a b : List UInt8} (h : run d s a = some s') :
    run d s (a ++ b) = run d s' b := by
  rw [run, List.foldlM_append, ← run, h]
  rfl

theorem run_cons (s : Reader) (b : UInt8) (bs : List UInt8) :
    run d s (b :: bs) = (step d s b).bind fun s' => run d s' bs := by
  rw [run, List.foldlM_cons]
  rfl

/-! ### Fields -/

theorem isSpecial_eq_false {b : UInt8} (h : d.isSpecial b = false) :
    b ≠ d.delimiter ∧ b ≠ d.quote ∧ b ≠ Dialect.carriageReturn ∧ b ≠ Dialect.lineFeed := by
  simpa [Dialect.isSpecial, and_assoc] using h

/-- In a field without quotes, bytes that are not special are read as they are. -/
theorem run_bare (records : List (List (List UInt8))) (fields : List (List UInt8))
    (text bs : List UInt8) (hbs : bs.any d.isSpecial = false) :
    run d ⟨records, fields, text, .bare⟩ bs = some ⟨records, fields, text ++ bs, .bare⟩ := by
  induction bs generalizing text with
  | nil =>
      rw [List.append_nil]
      rfl
  | cons b bs ih =>
      rw [List.any_cons, Bool.or_eq_false_iff] at hbs
      obtain ⟨hdelimiter, hquote, hreturn, hfeed⟩ := isSpecial_eq_false hbs.1
      -- Each special byte has a branch of its own, and the byte is none of them.
      have hstep : step d ⟨records, fields, text, .bare⟩ b
          = some ⟨records, fields, text ++ [b], .bare⟩ := by
        simp [step, hdelimiter, hquote, hreturn, hfeed]
      rw [run_cons, hstep, Option.bind_some, ih _ hbs.2, List.append_assoc]
      rfl

/-- Between quotes every byte is read as it is, and a doubled quote as one. -/
theorem run_quoted (records : List (List (List UInt8))) (fields : List (List UInt8))
    (text bs : List UInt8) :
    run d ⟨records, fields, text, .quoted⟩
        (bs.flatMap fun b => if b = d.quote then [b, b] else [b])
      = some ⟨records, fields, text ++ bs, .quoted⟩ := by
  induction bs generalizing text with
  | nil =>
      rw [List.append_nil]
      rfl
  | cons b bs ih =>
      have hbyte : run d ⟨records, fields, text, .quoted⟩ (if b = d.quote then [b, b] else [b])
          = some ⟨records, fields, text ++ [b], .quoted⟩ := by
        by_cases hquote : b = d.quote
        -- The first quote closes the field, and the second one opens it again.
        · simp [hquote, run, step]
        · simp [hquote, run, step]
      rw [List.flatMap_cons, run_append hbyte, ih, List.append_assoc]
      rfl

/-- A field as it is written is read back. Behind it the reader is still before a first
byte only if there is none. -/
theorem run_field (records : List (List (List UInt8))) (fields : List (List UInt8))
    (text : List UInt8) :
    ∃ place, run d ⟨records, fields, [], .start⟩ (d.field text)
        = some ⟨records, fields, text, place⟩ ∧
      place ≠ .quoted ∧ (place = .start → d.field text = []) := by
  by_cases hspecial : text.any d.isSpecial = true
  · refine ⟨.closed, ?_, Place.noConfusion, Place.noConfusion⟩
    have hopen : step d ⟨records, fields, [], .start⟩ d.quote
        = some ⟨records, fields, [], .quoted⟩ := by
      simp [step]
    have hclose : run d ⟨records, fields, text, .quoted⟩ [d.quote]
        = some ⟨records, fields, text, .closed⟩ := by
      simp [run, step]
    -- One quote, then the text with its quotes doubled, then one quote.
    rw [Dialect.field, if_pos hspecial, Dialect.quoted, run_cons, hopen, Option.bind_some,
      run_append (run_quoted records fields [] text)]
    exact hclose
  · rw [Dialect.field, if_neg hspecial]
    cases text with
    | nil => exact ⟨.start, rfl, Place.noConfusion, fun _ => rfl⟩
    | cons b bs =>
        refine ⟨.bare, ?_, Place.noConfusion, Place.noConfusion⟩
        rw [Bool.not_eq_true, List.any_cons, Bool.or_eq_false_iff] at hspecial
        obtain ⟨hdelimiter, hquote, hreturn, hfeed⟩ := isSpecial_eq_false hspecial.1
        have hstep : step d ⟨records, fields, [], .start⟩ b
            = some ⟨records, fields, [b], .bare⟩ := by
          simp [step, hdelimiter, hquote, hreturn, hfeed]
        rw [run_cons, hstep, Option.bind_some, run_bare records fields [b] bs hspecial.2]
        rfl

/-- Behind a field, the delimiter ends it. -/
theorem step_delimiter (hd : d.IsClear) {s : Reader} (hs : s.place ≠ .quoted) :
    step d s d.delimiter = some s.endField := by
  have hquote := hd.delimiter_ne_quote
  cases hplace : s.place with
  | quoted => exact absurd hplace hs
  | start => simp [step, hplace, hquote]
  | bare => simp [step, hplace]
  | closed => simp [step, hplace, hquote]

/-- Behind a field, the line feed ends it and the record, unless the line has no bytes. -/
theorem step_lineFeed (hd : d.IsClear) {s : Reader} (hs : s.place ≠ .quoted)
    (hstart : s.place = .start → s.fields ≠ []) :
    step d s Dialect.lineFeed = some s.endRecord := by
  have hquote := hd.quote_ne_lineFeed.symm
  have hdelimiter := hd.delimiter_ne_lineFeed.symm
  cases hplace : s.place with
  | quoted => exact absurd hplace hs
  | start => simp [step, hplace, hquote, hdelimiter, hstart hplace]
  | bare => simp [step, hplace, hdelimiter]
  | closed => simp [step, hplace, hquote, hdelimiter]

/-! ### Lines -/

/-- The fields of a line are read one by one. The last of them is then not ended yet. -/
theorem run_joined (hd : d.IsClear) (records : List (List (List UInt8)))
    (fields texts : List (List UInt8)) (hne : texts ≠ []) :
    ∃ before last place, run d ⟨records, fields, [], .start⟩ (d.joined texts)
        = some ⟨records, before, last, place⟩ ∧
      before ++ [last] = fields ++ texts ∧ place ≠ .quoted ∧
      (place = .start → before = [] → d.joined texts = []) := by
  induction texts generalizing fields with
  | nil => exact absurd rfl hne
  | cons text rest ih =>
      obtain ⟨place, hfield, hquoted, hstart⟩ := run_field (d := d) records fields text
      cases rest with
      | nil => exact ⟨fields, text, place, hfield, rfl, hquoted, fun h _ => hstart h⟩
      | cons text' rest =>
          obtain ⟨before, last, place', hrun, hall, hquoted', -⟩ :=
            ih (fields ++ [text]) (List.cons_ne_nil _ _)
          refine ⟨before, last, place', ?_, ?_, hquoted', fun _ hnil => ?_⟩
          · have hends := step_delimiter hd (s := ⟨records, fields, text, place⟩) hquoted
            show run d _ (d.field text ++ d.delimiter :: d.joined (text' :: rest)) = _
            rw [run_append hfield, run_cons, hends, Option.bind_some]
            exact hrun
          · rw [hall, List.append_assoc]
            rfl
          -- One field has been ended, so there are some before the last one.
          · have hlength := congrArg List.length hall
            rw [hnil] at hlength
            simp only [List.length_append, List.length_cons, List.length_nil] at hlength
            omega

/-- Without bytes there is one field at most, and that is empty. -/
theorem joined_eq_nil {texts : List (List UInt8)} (hne : texts ≠ []) (h : d.joined texts = []) :
    texts = [[]] := by
  match texts with
  | [] => exact absurd rfl hne
  | [text] =>
      rw [Dialect.joined, Dialect.field] at h
      split at h
      · cases h
      · rw [h]
  | text :: text' :: rest => simp [Dialect.joined] at h

/-- A line is read as one record, whatever was read before. -/
theorem run_line (hd : d.IsClear) {texts : List (List UInt8)} (hne : texts ≠ [])
    (records : List (List (List UInt8))) :
    run d { records } (d.line texts) = some { records := records ++ [texts] } := by
  by_cases hnil : d.joined texts = []
  · -- Two quotes are an empty field, and the line feed behind them ends the record.
    obtain rfl := joined_eq_nil hne hnil
    have hquote := hd.quote_ne_lineFeed.symm
    have hdelimiter := hd.delimiter_ne_lineFeed.symm
    simp [Dialect.line, hnil, run, step, endRecord, hquote, hdelimiter]
  · obtain ⟨before, last, place, hrun, hall, hquoted, hstart⟩ := run_joined hd records [] texts hne
    have hend := step_lineFeed hd (s := ⟨records, before, last, place⟩) hquoted
      fun hplace hbefore => hnil (hstart hplace hbefore)
    rw [Dialect.line, if_neg (by simpa using hnil), run_append hrun, run_cons, hend, endRecord,
      hall]
    rfl

end Reader

/-- Lines are read as their records. -/
theorem read_lines {d : Dialect} (hd : d.IsClear) (lines : List (List (List UInt8)))
    (hne : ∀ texts ∈ lines, texts ≠ []) : read d (lines.flatMap d.line) = some lines := by
  -- Each line is read behind the records of the lines before it.
  have hrun : ∀ records, Reader.run d { records } (lines.flatMap d.line)
      = some { records := records ++ lines } := by
    induction lines with
    | nil =>
        intro records
        rw [List.append_nil]
        rfl
    | cons texts lines ih =>
        intro records
        obtain ⟨htexts, hlines⟩ := List.forall_mem_cons.mp hne
        rw [List.flatMap_cons, Reader.run_append (Reader.run_line hd htexts records),
          ih hlines, List.append_assoc]
        rfl
  rw [read, hrun []]
  rfl

end ResponseExport.Csv
