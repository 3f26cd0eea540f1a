import ResponseExport.Store.Responses

/-!
# `ResponseExport.Proofs.Keyset.Order`: cursors are strictly ordered

`Cursor.order` compares four texts by their bytes, one after the other. This
module shows that it is a strict total order, so a cursor names one place and
every other response lies before it or behind it:

* `Cursor.order_eq_iff`: only equal cursors compare as equal. A text is its
  bytes, and a cursor is its four texts.
* `Cursor.lt_trans`, `Cursor.lt_irrefl`, `Cursor.lt_or_eq_or_gt`: the laws of
  the strict order `c < d`, by which listings are sorted.
* `Cursor.order_eq_then`: what the order says, text by text: the respondent
  decides, then the time, then the question, then the survey.
-/

set_option autoImplicit false

namespace ResponseExport.Survey.Cursor

/-- The place of a cursor strictly before another one. -/
instance : LT Cursor := ⟨fun c d => c.order d = .lt⟩

theorem lt_def (c d : Cursor) : c < d ↔ c.order d = .lt := Iff.rfl

/-- The respondents are compared first; a later text counts only if all texts
before it agree. -/
theorem order_eq_then (c d : Cursor) :
    c.order d = (Text.order c.respondent d.respondent).then
      ((Text.order c.time d.time).then
        ((Text.order c.question d.question).then (Text.order c.survey d.survey))) := by
  show List.compareLex compare c.key d.key = _
  simp only [key, List.compareLex_cons_cons, List.compareLex_nil_nil, Text.order,
    Ordering.then_eq]

/-- A cursor is its four texts, and a text is its bytes. -/
theorem key_injective {c d : Cursor} (h : c.key = d.key) : c = d := by
  obtain ⟨r, t, q, s⟩ := c
  obtain ⟨r', t', q', s'⟩ := d
  simp only [key, List.cons.injEq, and_true] at h
  obtain ⟨hr, ht, hq, hs⟩ := h
  rw [Text.bytes_injective hr, Text.bytes_injective ht, Text.bytes_injective hq,
    Text.bytes_injective hs]

/-- Only equal cursors compare as equal. -/
theorem order_eq_iff (c d : Cursor) : c.order d = .eq ↔ c = d := by
  constructor
  · intro h
    exact key_injective (Std.LawfulEqOrd.eq_of_compare h)
  · rintro rfl
    exact Std.ReflOrd.compare_self

theorem lt_irrefl (c : Cursor) : ¬ c < c := by
  rw [lt_def, (order_eq_iff c c).mpr rfl]
  decide

theorem lt_trans {c d e : Cursor} (h₁ : c < d) (h₂ : d < e) : c < e :=
  @Std.TransCmp.lt_trans (List (List UInt8)) compare _ c.key d.key e.key h₁ h₂

/-- The opposite comparison gives the opposite answer. -/
theorem order_eq_gt_iff (c d : Cursor) : c.order d = .gt ↔ d < c :=
  @Std.OrientedCmp.gt_iff_lt (List (List UInt8)) compare _ c.key d.key

theorem lt_asymm {c d : Cursor} (h : c < d) : ¬ d < c :=
  fun h' => lt_irrefl c (lt_trans h h')

/-- Two cursors are equal, or one of them comes first. -/
theorem lt_or_eq_or_gt (c d : Cursor) : c < d ∨ c = d ∨ d < c := by
  cases h : c.order d with
  | lt => exact Or.inl h
  | eq => exact Or.inr (Or.inl ((order_eq_iff c d).mp h))
  | gt => exact Or.inr (Or.inr ((order_eq_gt_iff c d).mp h))

/-- A page behind a cursor starts strictly behind it. -/
theorem isBehind_iff (c d : Cursor) : c.isBehind d = true ↔ d < c := by
  rw [isBehind, beq_iff_eq, order_eq_gt_iff]

end ResponseExport.Survey.Cursor
