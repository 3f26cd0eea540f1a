import ResponseExport.Proofs.Callers.Isolation
import ResponseExport.Proofs.Export.Delivery
import ResponseExport.Proofs.Store.Versions

/-!
# `ResponseExport.Proofs.Http.FormData`: form data and the order of insertion

Two states of the tables may hold the same users and surveys, inserted in different
orders. Whether a caller can tell them apart by the form data is settled by the ties:
versions of one survey that agree in shortcode and in time of creation.

* Without ties, sorting leaves one order only, and all is equal: the numbers, the list
  and the file (`forms_eq_of_untied`).
* With a tie, the older insertion gets the smaller number. To insert everything in the
  opposite order turns the tied versions around (`untied_of_reverse`). That is seen in the
  file too, since a file is read back as what it was made from (`ids_eq_of_formFile`).

`forms_of_any_insertion` states both. Responses and jobs do not come into it, and may be
different ones altogether.
-/

set_option autoImplicit false

namespace ResponseExport.Store

open Survey (Form)

/-- Tables with the same users and the same surveys, in any order. -/
structure Tables.SameRows (t t' : Tables) : Prop where
  users : t.users.Perm t'.users
  surveys : t.surveys.Perm t'.surveys

/-- No two versions agree in shortcode and in time of creation. -/
def Untied (rows : List SurveyRow) : Prop :=
  ∀ a ∈ rows, ∀ b ∈ rows, a.shortcode = b.shortcode → a.created = b.created → a = b

instance (rows : List SurveyRow) : Decidable (Untied rows) :=
  inferInstanceAs (Decidable (∀ a ∈ rows, ∀ b ∈ rows, _ → _ → _))

variable {t t' : Tables}

theorem Tables.SameRows.versions_perm (h : t.SameRows t') (owner name : String) :
    (t.surveys.filter (t.isVersion owner name)).Perm
      (t'.surveys.filter (t'.isVersion owner name)) := by
  have hpick : t.isVersion owner name = t'.isVersion owner name := by
    funext s
    rw [isVersion, isVersion, hasEmail, hasEmail, h.users.any_eq]
  rw [hpick]
  exact h.surveys.filter _

/-- Without ties, forms do not depend on the order of insertion. -/
theorem forms_eq_of_untied {owner name : String} (ht : t.Keyed) (h : t.SameRows t')
    (huntied : Untied (t.surveys.filter (t.isVersion owner name))) :
    t'.forms owner name = t.forms owner name := by
  have husers : (t'.users.map User.id).Nodup := (h.users.map User.id).nodup_iff.mp ht.userIds
  rw [forms_eq_numbered, forms_eq_numbered, Tables.versionsOf_eq ht.userIds,
    Tables.versionsOf_eq husers, sorted_eq_of_perm (h.versions_perm owner name)
      fun a ha b hb heq => ?_]
  obtain ⟨hshortcode, hcreated⟩ := versionOrder_eq_eq.mp heq
  exact huntied a ha b hb hshortcode hcreated

/-- A list without repetition that reads the same from its end has at most one element. -/
theorem eq_of_eq_reverse {α : Type} {l : List α} (hnodup : l.Nodup) (hreverse : l = l.reverse)
    {a b : α} (ha : a ∈ l) (hb : b ∈ l) : a = b := by
  cases l with
  | nil => cases ha
  | cons x rest =>
      have hrest : rest = [] := by
        rcases List.eq_nil_or_concat rest with hnil | ⟨front, y, rfl⟩
        · exact hnil
        · -- The last element would be the first one as well.
          rw [List.concat_eq_append, ← List.cons_append, List.reverse_append] at hreverse
          obtain rfl : x = y := (List.cons.inj hreverse).1
          simp at hnodup
      rw [hrest] at ha hb
      rw [List.mem_singleton.mp ha, List.mem_singleton.mp hb]

/-- The same tables, with the surveys inserted in the opposite order. -/
def Tables.reversed (t : Tables) : Tables := { t with surveys := t.surveys.reverse }

theorem Tables.keyed_reversed (ht : t.Keyed) : t.reversed.Keyed where
  userIds := ht.userIds
  emails := ht.emails
  surveyIds := by
    rw [reversed, List.map_reverse]
    exact List.nodup_reverse.mpr ht.surveyIds
  owners := fun s hs => ht.owners s (List.mem_reverse.mp hs)
  cursors := ht.cursors
  answered := fun r hr => by
    rw [reversed, List.map_reverse]
    exact List.mem_reverse.mpr (ht.answered r hr)

theorem Tables.sameRows_reversed (t : Tables) : t.SameRows t.reversed :=
  ⟨List.Perm.refl _, t.surveys.reverse_perm.symm⟩

/-- If the opposite order of insertion makes no difference, there are no ties. -/
theorem untied_of_reverse {owner name : String} (ht : t.Keyed)
    (hsame : (t.reversed.forms owner name).map Form.survey
      = (t.forms owner name).map Form.survey) :
    Untied (t.surveys.filter (t.isVersion owner name)) := by
  have hsurveys : (t.reversed.surveysOf owner) = (t.surveysOf owner).reverse := List.filter_reverse
  have hties : Tables.SameTies owner name t.reversed t := by
    refine Tables.sameTies_of_forms (Tables.keyed_reversed ht) ht ?_ hsame
    rw [hsurveys]
    exact List.reverse_perm _
  intro a ha b hb hshortcode hcreated
  have hversions : t.surveys.filter (t.isVersion owner name)
      = (t.surveysOf owner).filter fun s => s.name == name := by
    rw [Tables.surveysOf, List.filter_filter]
    exact List.filter_congr fun s _ => Bool.and_comm _ _
  rw [hversions, List.mem_filter] at ha hb
  -- The ties are the same in both orders of insertion, each the other one turned around.
  have hpalindrome := hties a.shortcode a.created
  rw [hsurveys, List.filter_reverse] at hpalindrome
  refine eq_of_eq_reverse ?_ hpalindrome.symm ?_ ?_
  · exact ((List.Nodup.of_map _ ht.surveyIds).filter _).filter _
  · exact List.mem_filter.mpr ⟨ha.1, by simp only [ha.2, beq_self_eq_true, Bool.and_self]⟩
  · refine List.mem_filter.mpr ⟨hb.1, ?_⟩
    simp only [hb.2, hshortcode, hcreated, beq_self_eq_true, Bool.and_self]

end ResponseExport.Store

namespace ResponseExport.Http

open Export (Service)
open Store (Tables Untied)
open Survey (Form formFile ids_eq_of_formFile)

/-- **Form data and the order of insertion.** Two states of the tables with the same users and
surveys have the same forms, and the same file of forms, exactly when no two versions of the survey
agree in shortcode and in time of creation. -/
theorem forms_of_any_insertion {s : Service} (hs : s.store.isOpen = true)
    (hkeyed : s.store.tables.Keyed) (owner : String) {name : String} {q : Query}
    (hq : q.requiredSurvey = .ok name) :
    ((∀ t, s.store.tables.SameRows t → t.forms owner name = s.store.tables.forms owner name) ↔
        Untied (s.store.tables.surveys.filter (s.store.tables.isVersion owner name))) ∧
      ((∀ s' : Service, s'.store.isOpen = true → s.store.tables.SameRows s'.store.tables →
          (reply (forms s' owner q)).shown = (reply (forms s owner q)).shown) ↔
        Untied (s.store.tables.surveys.filter (s.store.tables.isVersion owner name))) := by
  refine ⟨⟨fun hall => ?_, fun huntied t ht => Store.forms_eq_of_untied hkeyed ht huntied⟩,
    ⟨fun hall => ?_, fun huntied s' hs' ht => ?_⟩⟩
  · have hreversed := hall _ s.store.tables.sameRows_reversed
    exact Store.untied_of_reverse hkeyed (congrArg (List.map Form.survey) hreversed)
  · have hreversed := hall { s with store := { s.store with tables := s.store.tables.reversed } }
      hs s.store.tables.sameRows_reversed
    rw [shown_forms hs owner hq, shown_forms (by exact hs) owner hq] at hreversed
    exact Store.untied_of_reverse hkeyed (ids_eq_of_formFile (congrArg (·.2.1) hreversed))
  · rw [shown_forms hs owner hq, shown_forms hs' owner hq, Store.forms_eq_of_untied hkeyed ht huntied]

/-- Versions created on different days can be inserted in any order. -/
theorem forms_of_any_insertion_days :
    let s : Service := {
      store := { tables := {
        users := [⟨"user-1", "owner@example.com"⟩]
        surveys := [⟨"survey-b", "user-1", "Baseline", "base", "2024-02-01T00:00:00Z", none⟩,
          ⟨"survey-a", "user-1", "Baseline", "base", "2024-01-01T00:00:00Z", none⟩] } }
      directory := .present []
      source := .table
      now := ⟨0, 0⟩ }
    Untied
      (s.store.tables.surveys.filter (s.store.tables.isVersion "owner@example.com" "Baseline")) ∧
      ∀ s' : Service, s'.store.isOpen = true → s.store.tables.SameRows s'.store.tables →
        (reply (forms s' "owner@example.com" { survey := some "Baseline" })).shown
          = (reply (forms s "owner@example.com" { survey := some "Baseline" })).shown := by
  intro s
  have hkeyed : s.store.tables.Keyed :=
    ⟨by decide, by decide, by decide, by decide, by decide, by decide⟩
  have huntied : Untied
      (s.store.tables.surveys.filter (s.store.tables.isVersion "owner@example.com" "Baseline")) := by decide
  exact ⟨huntied, (forms_of_any_insertion rfl hkeyed "owner@example.com" (by decide)).2.mpr huntied⟩

/-- Two versions of the same day are numbered in the order of insertion, and so are the lines of the
file. -/
theorem forms_of_insertion_tied :
    let a : Store.SurveyRow :=
      ⟨"survey-a", "user-1", "Baseline", "base", "2024-01-01T00:00:00Z", none⟩
    let b : Store.SurveyRow :=
      ⟨"survey-b", "user-1", "Baseline", "base", "2024-01-01T00:00:00Z", none⟩
    let inserted (rows : List Store.SurveyRow) : Tables :=
      { users := [⟨"user-1", "owner@example.com"⟩], surveys := rows }
    (inserted [b, a]).Keyed ∧ (inserted [a, b]).Keyed ∧
      (inserted [b, a]).SameRows (inserted [a, b]) ∧
      (inserted [b, a]).forms "owner@example.com" "Baseline" = [b.form 1, a.form 2] ∧
      (inserted [a, b]).forms "owner@example.com" "Baseline" = [a.form 1, b.form 2] ∧
      formFile [b.form 1, a.form 2] ≠ formFile [a.form 1, b.form 2] := by
  intro a b inserted
  refine ⟨⟨by decide, by decide, by decide, by decide, by decide, by decide⟩,
    ⟨by decide, by decide, by decide, by decide, by decide, by decide⟩,
    ⟨List.Perm.refl _, List.Perm.swap _ _ _⟩, by cbv, by cbv, fun hfiles => ?_⟩
  have hids := ids_eq_of_formFile hfiles
  revert hids
  decide

end ResponseExport.Http
