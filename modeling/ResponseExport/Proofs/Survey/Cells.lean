import ResponseExport.Survey.Answer
import ResponseExport.Proofs.Json.Meaning
import ResponseExport.Proofs.Json.Written

/-!
# `ResponseExport.Proofs.Survey.Cells`: objects in cells

The cell of an answer that is an object holds the object and nothing of how it was stored. Answers
have the same cell exactly if their objects are the same: blanks, escapes, the order of members and
members that a later one replaces leave no trace (`isCanonical_cell`).

The cell is a JSON text again, and the cell of it is the text itself. But it is not always read.
Members stand in the order of their keys now, and an announcing key that was not the first one
before may be (`cell_of_late_announcement`); and an embedded text, within which containers are
counted anew, has become a part of one text.
-/

set_option autoImplicit false

namespace ResponseExport.Survey.Answer

/-- The stored answer is read as this object, and all numbers in it are whole. -/
structure ReadsAs (raw : String) (ms : List (String × Json.Value)) : Prop where
  read : Json.Value.ofText? raw = some (.object ms)
  whole : (Json.Value.object ms).IsWhole

/-- The cell of an answer stands for its object. -/
structure IsCanonical (raw : String) (ms : List (String × Json.Value)) : Prop where
  /-- The object is what the document in the answer means. -/
  means : ∀ d v, Json.Doc.ofText? raw = some d → (d.Means v ↔ v = .object ms)
  /-- Wherever this document stands, it is read as the same object. -/
  any_spelling : ∀ d raw', Json.Doc.ofText? raw = some d → d.IsIn raw' → ReadsAs raw' ms
  /-- Answers have the same cell exactly if they are the same object. -/
  same_cell : ∀ raw' ms', ReadsAs raw' ms' → (text (some raw) = text (some raw') ↔ ms = ms')
  /-- They are the same object if every key has the same value in both. -/
  same_object : ∀ raw' ms', ReadsAs raw' ms' → (ms = ms' ↔ ∀ k, ms.lookup k = ms'.lookup k)
  /-- The cell of a cell is the cell itself. -/
  unchanged : text (some (text (some raw))) = text (some raw)
  /-- A cell is read as the object, unless it is nested too deeply or an announcing key has become
  the first one of an object. It is never read as anything else. -/
  read_back : ∀ v, Json.Value.ofText? (text (some raw)) = some v ↔ v = .object ms ∧
    (Json.Value.object ms).nesting ≤ Json.maxDepth ∧ (Json.Value.object ms).IsSilent

variable {raw raw' : String} {ms ms' : List (String × Json.Value)}

theorem ReadsAs.text_eq (h : ReadsAs raw ms) : text (some raw) = (Json.Value.object ms).text := by
  rw [text, h.read]
  rfl

theorem ReadsAs.ascending (h : ReadsAs raw ms) : Json.Ascending ms :=
  (Json.Value.isTidy_ofText? h.read).self.1

theorem ReadsAs.read_text (h : ReadsAs raw ms) (v : Json.Value) :
    Json.Value.ofText? (text (some raw)) = some v ↔ v = .object ms ∧
      (Json.Value.object ms).nesting ≤ Json.maxDepth ∧ (Json.Value.object ms).IsSilent := by
  rw [h.text_eq]
  exact Json.Value.ofText?_text h.whole (Json.Value.isTidy_ofText? h.read) v

theorem ReadsAs.of_isIn (h : ReadsAs raw ms) {d : Json.Doc} (hd : Json.Doc.ofText? raw = some d)
    (hin : d.IsIn raw') : ReadsAs raw' ms := by
  refine ⟨?_, h.whole⟩
  rw [← h.read, Json.Value.ofText?_eq, Json.Value.ofText?_eq, hd, hin.ofText?]

/-- What is read as its own text or not at all is its own cell. -/
theorem ReadsAs.text_text (h : ReadsAs raw ms) :
    text (some (text (some raw))) = text (some raw) := by
  cases hread : Json.Value.ofText? (text (some raw)) with
  | none =>
      conv_lhs => rw [text, hread]
  | some v =>
      obtain ⟨rfl, -⟩ := (h.read_text v).mp hread
      rw [(ReadsAs.mk hread h.whole).text_eq, h.text_eq]

/-- **The cell of an answer that is an object stands for this object.** -/
theorem isCanonical_cell (h : ReadsAs raw ms) : IsCanonical raw ms where
  means _ _ hd := Json.Value.means_of_ofText? h.read hd
  any_spelling _ _ hd hin := h.of_isIn hd hin
  same_cell raw' ms' h' := by
    rw [h.text_eq, h'.text_eq, Json.Value.text_injective h.whole h'.whole, Json.Value.object.injEq]
  same_object raw' ms' h' :=
    ⟨fun heq k => by rw [heq], Json.eq_of_lookup h.ascending h'.ascending⟩
  unchanged := h.text_text
  read_back := h.read_text

/-- Blanks, an escape and a member that is replaced: the cell has one member per key, in order. -/
theorem isCanonical_cell_repeated :
    ReadsAs "\x7b\"b\": 1, \"a\": [\"\\u0041\"], \"b\": 2\x7d"
      [("a", .array [.string "A"]), ("b", .number (.integer 2))] ∧
    IsCanonical "\x7b\"b\": 1, \"a\": [\"\\u0041\"], \"b\": 2\x7d"
      [("a", .array [.string "A"]), ("b", .number (.integer 2))] ∧
    text (some "\x7b\"b\": 1, \"a\": [\"\\u0041\"], \"b\": 2\x7d")
      = "\x7b\"a\":[\"A\"],\"b\":2\x7d" := by
  have hwhole : (Json.Value.object
      [("a", .array [.string "A"]), ("b", .number (.integer 2))]).IsWhole := by
    simp [Json.Value.IsWhole, Json.Value.All, Json.Value.parts, Json.itemParts, Json.memberParts]
  have hreads : ReadsAs "\x7b\"b\": 1, \"a\": [\"\\u0041\"], \"b\": 2\x7d"
      [("a", .array [.string "A"]), ("b", .number (.integer 2))] := ⟨rfl, hwhole⟩
  refine ⟨hreads, isCanonical_cell hreads, ?_⟩
  rw [hreads.text_eq]
  rfl

/-- An announcing key that is not the first one of the answer is the first one of the cell. So the
answer is read, and the cell is not. -/
theorem cell_of_late_announcement :
    ReadsAs "\x7b\"a\":1,\"$serde_json::private::RawValue\":\"[1]\"\x7d"
      [("$serde_json::private::RawValue", .string "[1]"), ("a", .number (.integer 1))] ∧
    Json.Value.ofText? (text
      (some "\x7b\"a\":1,\"$serde_json::private::RawValue\":\"[1]\"\x7d")) = none := by
  have hwhole : (Json.Value.object [("$serde_json::private::RawValue", .string "[1]"),
      ("a", .number (.integer 1))]).IsWhole := by
    simp [Json.Value.IsWhole, Json.Value.All, Json.Value.parts, Json.memberParts]
  have hreads : ReadsAs "\x7b\"a\":1,\"$serde_json::private::RawValue\":\"[1]\"\x7d"
      [("$serde_json::private::RawValue", .string "[1]"), ("a", .number (.integer 1))] :=
    ⟨rfl, hwhole⟩
  refine ⟨hreads, Option.eq_none_iff_forall_ne_some.mpr fun v hv => ?_⟩
  exact ((hreads.read_text v).mp hv).2.2.self _ _ rfl

end ResponseExport.Survey.Answer
