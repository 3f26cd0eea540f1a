import ResponseExport.Survey.Wire
import ResponseExport.Proofs.Json.Records

/-!
# `ResponseExport.Proofs.Survey.Wire`: responses, spans and forms come back

Each of them is written as an object with its fields under distinct names, and read field
by field. What is read from the text is what was written, whatever its texts hold, for all
integers of 64 bits, and with any of the fields absent that may be.
-/

set_option autoImplicit false

namespace ResponseExport.Survey

open ResponseExport.Json (Value Doc)

theorem isWhole_numberOrNull (n : Option Int64) : (numberOrNull n).IsWhole := by
  refine Value.isWhole_ofOption (fun n => ?_) n
  exact Value.isWhole_ofInt n.toInt

theorem optional?_numberOrNull (n : Option Int64) :
    Doc.optional? Doc.int64? (some (numberOrNull n).doc) = some n :=
  Doc.optional?_doc Doc.int64?_doc (fun _ h => by cases h) n

/-- The text of a response is read as the response. -/
theorem Response.readText?_toJson (r : Response) :
    Doc.readText? Response.ofDoc? r.toJson.text = some r := by
  rw [toJson, members, Doc.readText?_record ofDoc? fieldNames (fun _ => rfl) rfl (by decide)]
  -- Every field comes back; putting them together is left to the end.
  · simp only [List.map_cons, List.map_nil, Doc.text?_doc, textOrNull, Doc.optional?_string,
      optional?_numberOrNull]
    rfl
  · simp only [List.forall_mem_cons, Value.isWhole_string, textOrNull,
      Value.isWhole_ofOption_string, isWhole_numberOrNull, true_and]
    exact List.forall_mem_nil _

/-- The text of a span is read as the span. -/
theorem Span.readText?_toJson (s : Span) : Doc.readText? Span.ofDoc? s.toJson.text = some s := by
  rw [toJson, Doc.readText?_record ofDoc? fieldNames (fun _ => rfl) rfl (by decide)]
  · simp only [List.map_cons, List.map_nil, Doc.text?_doc, textOrNull, Doc.optional?_string]
    rfl
  · simp only [List.forall_mem_cons, Value.isWhole_string, textOrNull,
      Value.isWhole_ofOption_string, true_and]
    exact List.forall_mem_nil _

/-- The text of a form is read as the form, if its version fits 64 bits. -/
theorem Form.readText?_toJson {f : Form} (hlow : Doc.minInt64 ≤ f.version)
    (hhigh : f.version ≤ Doc.maxInt64) : Doc.readText? Form.ofDoc? f.toJson.text = some f := by
  have hversion := Doc.integer?_doc (Int.le_refl _) (by decide) hlow hhigh
  rw [toJson, Doc.readText?_record ofDoc? fieldNames (fun _ => rfl) rfl (by decide)]
  · simp only [List.map_cons, List.map_nil, Doc.text?_doc, textOrNull, Doc.optional?_string,
      hversion]
    rfl
  · simp only [List.forall_mem_cons, Value.isWhole_string, Value.isWhole_ofInt, textOrNull,
      Value.isWhole_ofOption_string, true_and]
    exact List.forall_mem_nil _

end ResponseExport.Survey
