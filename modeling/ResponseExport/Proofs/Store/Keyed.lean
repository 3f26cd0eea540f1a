import ResponseExport.Store.Tables

/-!
# `ResponseExport.Proofs.Store.Keyed`: tables that respect their keys

The rules of the tables of users, surveys and responses, put together: ids,
addresses and cursors are unique, and every row that another row points to is
there. `Tables.Keyed` is the one thing that proofs about the store assume of a
state of the tables. It holds of the empty tables, and whatever the tables take
in keeps it (`keyed_addUser`, `keyed_addSurvey`, `keyed_addResponse`).
-/

set_option autoImplicit false

namespace ResponseExport.Store

open Survey (Cursor Response)

/-- The tables of users, surveys and responses respect their keys. -/
structure Tables.Keyed (t : Tables) : Prop where
  userIds : (t.users.map User.id).Nodup
  emails : (t.users.map User.email).Nodup
  surveyIds : (t.surveys.map SurveyRow.id).Nodup
  owners : ∀ s ∈ t.surveys, s.owner ∈ t.users.map User.id
  cursors : (t.responses.map Cursor.at).Nodup
  answered : ∀ r ∈ t.responses, r.survey ∈ t.surveys.map SurveyRow.id

namespace Tables

/-- A new last row keeps a key unique if no row has it yet. -/
theorem nodup_map_concat {α β : Type} [BEq β] [LawfulBEq β] {f : α → β} {rows : List α} {a : α}
    (h : (rows.map f).Nodup) (ha : (rows.any fun b => f b == f a) = false) :
    ((rows ++ [a]).map f).Nodup := by
  rw [List.map_append, List.map_singleton, List.nodup_append]
  refine ⟨h, by simp, ?_⟩
  intro x hx y hy hxy
  obtain ⟨b, hb, rfl⟩ := List.mem_map.mp hx
  obtain rfl := List.mem_singleton.mp hy
  exact absurd hxy (by simpa using List.any_eq_false.mp ha b hb)

theorem keyed_empty : Keyed {} where
  userIds := List.nodup_nil
  emails := List.nodup_nil
  surveyIds := List.nodup_nil
  owners := by simp
  cursors := List.nodup_nil
  answered := by simp

theorem keyed_addUser {t t' : Tables} {id email : Option String} (h : t.Keyed)
    (ht : t.addUser id email = .ok t') : t'.Keyed := by
  unfold addUser at ht
  split at ht
  · rename_i id email
    split at ht
    · cases ht
    · rename_i hnew
      cases ht
      have hnew := Bool.eq_false_iff.mpr hnew
      have hid : (t.users.any fun u => u.id == id) = false := by
        simp only [List.any_eq_false, Bool.or_eq_true, not_or] at hnew ⊢
        exact fun u hu => (hnew u hu).1
      have hemail : (t.users.any fun u => u.email == email) = false := by
        simp only [List.any_eq_false, Bool.or_eq_true, not_or] at hnew ⊢
        exact fun u hu => (hnew u hu).2
      exact { h with
        userIds := nodup_map_concat h.userIds hid
        emails := nodup_map_concat h.emails hemail
        owners := fun s hs => by
          rw [List.map_append]
          exact List.mem_append_left _ (h.owners s hs) }
  · cases ht

theorem keyed_addSurvey {t t' : Tables} {id owner name shortcode created metadata : Option String}
    (h : t.Keyed) (ht : t.addSurvey id owner name shortcode created metadata = .ok t') :
    t'.Keyed := by
  unfold addSurvey at ht
  split at ht
  · split at ht
    · cases ht
    · rename_i hnew
      split at ht
      · rename_i howner
        cases ht
        obtain ⟨u, hu, hid⟩ := List.any_eq_true.mp howner
        exact { h with
          surveyIds := nodup_map_concat h.surveyIds (Bool.eq_false_iff.mpr hnew)
          owners := fun s hs => by
            rcases List.mem_append.mp hs with hs | hs
            · exact h.owners s hs
            · obtain rfl := List.mem_singleton.mp hs
              exact List.mem_map.mpr ⟨u, hu, by simpa using hid⟩
          answered := fun r hr => by
            rw [List.map_append]
            exact List.mem_append_left _ (h.answered r hr) }
      · cases ht
  · cases ht

theorem keyed_addResponse {t t' : Tables} {r : Response} (h : t.Keyed)
    (ht : t.addResponse r = .ok t') : t'.Keyed := by
  unfold addResponse at ht
  split at ht
  · cases ht
  · rename_i hnew
    split at ht
    · rename_i hsurvey
      cases ht
      obtain ⟨s, hs, hid⟩ := List.any_eq_true.mp hsurvey
      exact { h with
        cursors := nodup_map_concat h.cursors (Bool.eq_false_iff.mpr hnew)
        answered := fun r' hr' => by
          rcases List.mem_append.mp hr' with hr' | hr'
          · exact h.answered r' hr'
          · obtain rfl := List.mem_singleton.mp hr'
            exact List.mem_map.mpr ⟨s, hs, by simpa using hid⟩ }
    · cases ht

/-- Tables with one answer by each of these respondents. -/
def answeredBy (respondents : List String) : Tables where
  users := [⟨"o", "owner@example.com"⟩]
  surveys := [⟨"s", "o", "Survey", "sc", "2024", none⟩]
  responses := respondents.map fun u =>
    { survey := "s", respondent := u, question := "q", time := "2024-03-01T10:00:00Z" }

theorem keyed_answeredBy {respondents : List String} (h : respondents.Nodup) :
    (answeredBy respondents).Keyed where
  userIds := by simp [answeredBy]
  emails := by simp [answeredBy]
  surveyIds := by simp [answeredBy]
  owners := by simp [answeredBy]
  cursors := by
    rw [answeredBy, List.map_map]
    exact List.Pairwise.map _ (fun _ _ hne heq => hne (congrArg Cursor.respondent heq)) h
  answered := by simp [answeredBy]

end Tables

end ResponseExport.Store
