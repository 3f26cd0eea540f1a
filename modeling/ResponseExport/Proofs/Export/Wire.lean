import ResponseExport.Export.Wire
import ResponseExport.Proofs.Survey.Wire
import ResponseExport.Proofs.Time.Relaxed

/-!
# `ResponseExport.Proofs.Export.Wire`: what is written in JSON comes back

Jobs, requests, figures and faults come back from their texts, like responses, spans and
forms (`roundTrips_wire`). Two things are special about a job. Its time is a text of its
own within the text, which is read in the relaxed form (`Time.readRelaxed_text`). And the
name of its file is kept back, so it is absent when the job is read, and jobs that differ
in nothing else have the same text.

A fault, like a status, is one of several variants: the name of a variant alone, or an
object whose only member has that name.
-/

set_option autoImplicit false

namespace ResponseExport

open Json (Value Doc)

namespace Export

/-! ### Jobs and requests -/

theorem bind_status_doc (s : Status) : (some s.toJson.doc).bind Status.ofDoc? = some s := by
  cases s <;> rfl

theorem instant?_doc {t : Time.Instant} (ht : t.IsReading) :
    instant? (some (Value.string t.text).doc) = some t := by
  rw [instant?, Doc.text?_doc, Option.bind_some, Time.readRelaxed_text ht]
  rfl

/-- The text of a job is read as the job without the name of its file. -/
theorem Job.readText?_toJson {j : Job} (h : j.updated.IsReading) :
    Doc.readText? Job.ofDoc? j.toJson.text = some { j with file := none } := by
  rw [toJson, Doc.readText?_record ofDoc? fieldNames (fun _ => rfl) rfl (by decide)]
  · simp only [List.map_cons, List.map_nil, Doc.text?_doc, instant?_doc h, bind_status_doc,
      Doc.optional?_string]
    rfl
  · simp only [List.forall_mem_cons, Value.isWhole_string, Status.toJson,
      Value.isWhole_ofOption_string, true_and]
    exact List.forall_mem_nil _

/-- The text of a request is read as the request. -/
theorem Request.readText?_toJson (r : Request) :
    Doc.readText? Request.ofDoc? r.toJson.text = some r := by
  rw [toJson, Doc.readText?_record ofDoc? _ (fun _ => rfl) rfl (by decide)]
  · rfl
  · simp only [List.forall_mem_cons, Value.isWhole_string, true_and]
    exact List.forall_mem_nil _

/-! ### Figures -/

/-- All figures are counts of 64 bits. -/
structure Figures.FitsWords (f : Figures) : Prop where
  records : (f.stats.records : Int) ≤ Doc.maxCount
  bytes : (f.stats.bytes : Int) ≤ Doc.maxCount
  dropped : (f.stats.dropped : Int) ≤ Doc.maxCount
  milliseconds : (f.milliseconds : Int) ≤ Doc.maxCount

/-- The text of figures is read as the figures. -/
theorem Figures.readText?_toJson {f : Figures} (h : f.FitsWords) :
    Doc.readText? Figures.ofDoc? f.toJson.text = some f := by
  rw [toJson, Doc.readText?_record ofDoc? _ (fun _ => rfl) rfl (by decide)]
  · simp only [List.map_cons, List.map_nil, Doc.count?_doc h.records, Doc.count?_doc h.bytes,
      Doc.count?_doc h.dropped, Doc.count?_doc h.milliseconds]
    rfl
  · simp only [List.forall_mem_cons, Value.ofNat, Value.isWhole_ofInt, true_and]
    exact List.forall_mem_nil _

end Export

/-! ### Faults -/

/-- The text of a fault is read as the fault. -/
theorem ExportError.readText?_toJson (e : ExportError) :
    Doc.readText? ExportError.ofDoc? e.toJson.text = some e := by
  have hcarried (name reason : String) : (Value.object [(name, .string reason)]).IsWhole :=
    Value.isWhole_object (List.forall_mem_singleton.mpr (Value.isWhole_string reason))
  have hwhole : e.toJson.IsWhole := by
    cases e with
    | io reason => exact hcarried _ _
    | serialization reason => exact hcarried _ _
    | channelClosed => exact Value.isWhole_string _
    | queueFull => exact Value.isWhole_string _
    | database reason => exact hcarried _ _
  rw [Doc.readText?_text _ hwhole]
  cases e <;> rfl

/-! ### All of them -/

namespace Export

/-- What is read from the texts of all that is written in JSON. -/
structure RoundTrips : Prop where
  /-- A response comes back. -/
  response : ∀ r : Survey.Response, Doc.readText? Survey.Response.ofDoc? r.toJson.text = some r
  /-- A span comes back. -/
  span : ∀ s : Survey.Span, Doc.readText? Survey.Span.ofDoc? s.toJson.text = some s
  /-- A form comes back if its version is a signed integer of 64 bits. -/
  form : ∀ f : Survey.Form, Doc.minInt64 ≤ f.version → f.version ≤ Doc.maxInt64 →
    Doc.readText? Survey.Form.ofDoc? f.toJson.text = some f
  /-- A request comes back. -/
  request : ∀ r : Request, Doc.readText? Request.ofDoc? r.toJson.text = some r
  /-- Figures come back if they are unsigned integers of 64 bits. -/
  figures : ∀ f : Figures, f.FitsWords → Doc.readText? Figures.ofDoc? f.toJson.text = some f
  /-- A fault comes back. -/
  fault : ∀ e : ExportError, Doc.readText? ExportError.ofDoc? e.toJson.text = some e
  /-- A job comes back without the name of its file, if a clock can show its time in a year of four
  digits. -/
  job : ∀ j : Job, j.updated.IsReading →
    Doc.readText? Job.ofDoc? j.toJson.text = some { j with file := none }
  /-- Jobs that differ in the name of the file alone have the same text. -/
  file_hidden : ∀ j j' : Job, { j with file := none } = ({ j' with file := none } : Job) →
    j.toJson.text = j'.toJson.text

/-- **What is written in JSON comes back.** -/
theorem roundTrips_wire : RoundTrips where
  response := Survey.Response.readText?_toJson
  span := Survey.Span.readText?_toJson
  form _ := Survey.Form.readText?_toJson
  request := Request.readText?_toJson
  figures _ := Figures.readText?_toJson
  fault := ExportError.readText?_toJson
  job _ := Job.readText?_toJson
  file_hidden j j' h := by
    have hbare (j : Job) : j.toJson = ({ j with file := none } : Job).toJson := rfl
    rw [hbare j, hbare j', h]

/-- The last nanosecond of a leap day, with quotes and line breaks around it; the least version; and
the largest figures. -/
theorem roundTrips_wire_extreme :
    (⟨1709251199, 999999999⟩ : Time.Instant).IsReading ∧
    (⟨1709251199, 999999999⟩ : Time.Instant).text = "2024-02-29T23:59:59.999999999Z" ∧
    Doc.readText? Job.ofDoc?
        (Job.toJson ⟨"\"e\"", "Base\nline", "", ⟨1709251199, 999999999⟩, .done, some "/e\\file",
          some "report.csv"⟩).text
      = some ⟨"\"e\"", "Base\nline", "", ⟨1709251199, 999999999⟩, .done, some "/e\\file", none⟩ ∧
    (Doc.minInt64 ≤ -9223372036854775808 ∧ -9223372036854775808 ≤ Doc.maxInt64) ∧
    Doc.readText? Survey.Form.ofDoc?
        (Survey.Form.toJson ⟨"s", "", "\x00", -9223372036854775808, "", none⟩).text
      = some ⟨"s", "", "\x00", -9223372036854775808, "", none⟩ ∧
    (⟨⟨18446744073709551615, 0, 18446744073709551615⟩, 1⟩ : Figures).FitsWords ∧
    Doc.readText? Figures.ofDoc?
        (Figures.toJson ⟨⟨18446744073709551615, 0, 18446744073709551615⟩, 1⟩).text
      = some ⟨⟨18446744073709551615, 0, 18446744073709551615⟩, 1⟩ := by
  have hreading : (⟨1709251199, 999999999⟩ : Time.Instant).IsReading := by decide
  have hversion : Doc.minInt64 ≤ -9223372036854775808 ∧ -9223372036854775808 ≤ Doc.maxInt64 := by
    decide
  have hfigures : (⟨⟨18446744073709551615, 0, 18446744073709551615⟩, 1⟩ : Figures).FitsWords :=
    ⟨by decide, by decide, by decide, by decide⟩
  exact ⟨hreading, by decide, roundTrips_wire.job _ hreading, hversion,
    roundTrips_wire.form _ hversion.1 hversion.2, hfigures, roundTrips_wire.figures _ hfigures⟩

end Export

end ResponseExport
