import Mathlib
import ResponseExport.Proofs.Callers.Rows
import ResponseExport.Proofs.Store.Keyed

/-!
# `ResponseExport.Proofs.Store.Versions`: versions of a survey are counted

The surveys of one owner and name are its versions. They are picked, sorted by shortcode
and time of creation, and then numbered, each by how many of its shortcode stand before
it. Picking comes first, so nobody else's survey takes a number, and sorting comes before
numbering, so the numbers under one shortcode go up.

* `filter_numbered`: the numbers under one shortcode are those that its versions get when
  there are no others.
* `version_numbered`: versions of one shortcode get the numbers that follow each other.
* `map_numbered`: apart from its number, a form is the row of its survey.

`isVersioned_fetchForms` puts them together. Versions with the same shortcode and time of
creation are numbered in the order of insertion; nothing is said here about which of
them comes first.
-/

set_option autoImplicit false

namespace ResponseExport

/-- A form apart from its version. -/
def Survey.Form.unnumbered (f : Survey.Form) : Survey.Form := { f with version := 0 }

namespace Store

open Survey (Form)

/-! ### Numbering -/

variable {t : Tables} {s : Store} {owner name : String}

/-- Forms are the rows of surveys, in the same order. -/
theorem map_numbered (done rows : List SurveyRow) :
    (numbered done rows).map Form.unnumbered = rows.map fun s => s.form 0 := by
  induction rows generalizing done with
  | nil => rfl
  | cons s rows ih =>
      rw [numbered, List.map_cons, List.map_cons, ih]
      rfl

/-- Other shortcodes take no number away. -/
theorem filter_numbered (shortcode : String) (done rows : List SurveyRow) :
    (numbered done rows).filter (fun f => f.shortcode == shortcode)
      = numbered (done.filter fun s => s.shortcode == shortcode)
        (rows.filter fun s => s.shortcode == shortcode) := by
  induction rows generalizing done with
  | nil => rfl
  | cons s rows ih =>
      have hrest := ih (done ++ [s])
      rw [List.filter_append] at hrest
      rw [numbered, List.filter_cons, hrest]
      by_cases hs : s.shortcode = shortcode
      · -- Those of this shortcode that come before are all that is counted.
        have hcount : (done.filter fun s => s.shortcode == shortcode).countP
              (fun d => d.shortcode == s.shortcode)
            = done.countP fun d => d.shortcode == s.shortcode := by
          rw [List.countP_filter, hs]
          simp only [Bool.and_self]
        rw [if_pos (by simpa [SurveyRow.form] using hs),
          List.filter_cons_of_pos (by simpa using hs), List.filter_cons_of_pos (by simpa using hs),
          List.filter_nil]
        conv_rhs => rw [numbered, hcount]
      · rw [if_neg (by simpa [SurveyRow.form] using hs),
          List.filter_cons_of_neg (by simpa using hs), List.filter_cons_of_neg (by simpa using hs),
          List.filter_nil, List.append_nil]

/-- Versions of one shortcode are numbered one after the other. -/
theorem version_numbered {shortcode : String} {done rows : List SurveyRow}
    (hdone : ∀ s ∈ done, s.shortcode = shortcode) (hrows : ∀ s ∈ rows, s.shortcode = shortcode) :
    (numbered done rows).map Form.version
      = (List.range' (done.length + 1) rows.length).map Int.ofNat := by
  induction rows generalizing done with
  | nil => rfl
  | cons s rows ih =>
      obtain ⟨hs, hrows⟩ := List.forall_mem_cons.mp hrows
      have hcount : done.countP (fun d => d.shortcode == s.shortcode) = done.length := by
        rw [List.countP_eq_length]
        intro d hd
        rw [hdone d hd, hs, beq_self_eq_true]
      have hdone' : ∀ d ∈ done ++ [s], d.shortcode = shortcode :=
        List.forall_mem_append.mpr ⟨hdone, List.forall_mem_singleton.mpr hs⟩
      have hnext := ih hdone' hrows
      rw [List.length_append, List.length_singleton] at hnext
      rw [numbered, List.map_cons, hnext, List.length_cons, List.range'_succ, List.map_cons,
        SurveyRow.form, hcount]
      rfl

/-! ### Forms -/

theorem forms_eq_numbered (t : Tables) (owner name : String) :
    t.forms owner name = numbered [] (sorted versionOrder (t.versionsOf owner name)) := by
  rw [Tables.forms, SurveyRow.isBefore_eq]
  rfl

/-- The forms of one shortcode are known from its versions. -/
theorem filter_forms (t : Tables) (owner name shortcode : String) :
    (t.forms owner name).filter (fun f => f.shortcode == shortcode)
      = numbered [] (sorted versionOrder
        ((t.versionsOf owner name).filter fun s => s.shortcode == shortcode)) := by
  rw [forms_eq_numbered, filter_numbered, filter_sorted]
  rfl

/-- Is a form no later than another in the order of versions? -/
def NotAfter (a b : Form) : Prop :=
  Text.order a.shortcode b.shortcode = .lt ∨
    a.shortcode = b.shortcode ∧ Text.order a.created b.created ≠ .gt

/-- Forms that are the numbered versions of a survey. -/
structure IsVersioned (rows : List SurveyRow) (forms : List Form) : Prop where
  /-- Each version has a form, which says what its row says. -/
  complete : (forms.map fun f => (f.survey, f.shortcode, f.name, f.created, f.metadata)).Perm
    (rows.map fun s => (s.id, s.shortcode, s.name, s.created, s.metadata))
  /-- No version has two. -/
  once : (forms.map Form.survey).Nodup
  inOrder : forms.Pairwise NotAfter
  /-- Under each shortcode the numbers count from 1 to how many versions it has. -/
  versions : ∀ shortcode, (forms.filter fun f => f.shortcode == shortcode).map Form.version
    = (List.range' 1 (rows.countP fun s => s.shortcode == shortcode)).map Int.ofNat
  /-- An older version has the smaller number. -/
  older : ∀ a ∈ forms, ∀ b ∈ forms, a.shortcode = b.shortcode →
    Text.order a.created b.created = .lt → a.version < b.version

theorem notAfter_unnumbered {a b : Form} : NotAfter a.unnumbered b.unnumbered ↔ NotAfter a b :=
  Iff.rfl

/-- Sorted rows have forms in order. -/
theorem pairwise_notAfter (rows : List SurveyRow) :
    (numbered [] (sorted versionOrder rows)).Pairwise NotAfter := by
  have hrows : ((sorted versionOrder rows).map fun s => s.form 0).Pairwise NotAfter := by
    refine List.pairwise_map.mpr ((pairwise_sorted rows).imp fun {a b} hle => ?_)
    rw [versionOrder, compareLex] at hle
    cases hshortcode : Text.order a.shortcode b.shortcode with
    | lt => exact Or.inl hshortcode
    | eq =>
        refine Or.inr ⟨Text.order_eq_eq.mp hshortcode, ?_⟩
        rw [hshortcode] at hle
        exact Ordering.ne_gt_iff_isLE.mpr hle
    | gt =>
        rw [hshortcode] at hle
        cases hle
  rw [← map_numbered [], List.pairwise_map] at hrows
  exact hrows.imp notAfter_unnumbered.mp

/-- Of two forms of one shortcode, the older one stands before the other, so its number is
smaller. -/
theorem version_lt {forms : List Form} (horder : forms.Pairwise NotAfter)
    {k : Nat} (hversions : forms.map Form.version = (List.range' 1 k).map Int.ofNat) {a b : Form}
    (ha : a ∈ forms) (hb : b ∈ forms) (hshortcode : a.shortcode = b.shortcode)
    (holder : Text.order a.created b.created = .lt) : a.version < b.version := by
  have hincreasing : forms.Pairwise fun a b => a.version < b.version := by
    rw [← List.pairwise_map (f := Form.version), hversions, List.pairwise_map]
    exact List.Pairwise.imp Int.ofNat_lt.mpr List.pairwise_lt_range'
  obtain ⟨i, hi, rfl⟩ := List.getElem_of_mem ha
  obtain ⟨j, hj, rfl⟩ := List.getElem_of_mem hb
  rcases Nat.lt_trichotomy i j with hlt | rfl | hgt
  · exact List.pairwise_iff_getElem.mp hincreasing i j hi hj hlt
  · rw [Text.order_self] at holder
    cases holder
  · -- The other one would stand before it.
    rcases List.pairwise_iff_getElem.mp horder j i hj hi hgt with hless | ⟨-, hnot⟩
    · rw [hshortcode, Text.order_self] at hless
      cases hless
    · exact absurd (Std.OrientedCmp.gt_iff_lt.mpr holder) hnot

theorem isVersioned_forms (ht : t.Keyed) (owner name : String) :
    IsVersioned (t.surveys.filter (t.isVersion owner name)) (t.forms owner name) := by
  have hversionsOf := Tables.versionsOf_eq ht.userIds owner name
  rw [← hversionsOf]
  have hperm := sorted_perm versionOrder (t.versionsOf owner name)
  have horder : (t.forms owner name).Pairwise NotAfter := by
    rw [forms_eq_numbered]
    exact pairwise_notAfter _
  have hcolumns : ((t.forms owner name).map Form.unnumbered).Perm
      ((t.versionsOf owner name).map fun s => s.form 0) := by
    rw [forms_eq_numbered, map_numbered]
    exact hperm.map _
  have hcomplete :
      ((t.forms owner name).map fun f => (f.survey, f.shortcode, f.name, f.created, f.metadata)).Perm
        ((t.versionsOf owner name).map fun s => (s.id, s.shortcode, s.name, s.created, s.metadata))
      := by
    -- The number is not among the columns.
    have h := hcolumns.map fun f => (f.survey, f.shortcode, f.name, f.created, f.metadata)
    rwa [List.map_map, List.map_map] at h
  have hversions : ∀ shortcode,
      ((t.forms owner name).filter fun f => f.shortcode == shortcode).map Form.version
        = (List.range' 1 ((t.versionsOf owner name).countP fun s => s.shortcode == shortcode)).map
          Int.ofNat := by
    intro shortcode
    have hone : ∀ s ∈ sorted versionOrder
        ((t.versionsOf owner name).filter fun s => s.shortcode == shortcode),
        s.shortcode = shortcode := by
      intro s hs
      exact beq_iff_eq.mp (List.mem_filter.mp ((sorted_perm _ _).mem_iff.mp hs)).2
    rw [filter_forms, version_numbered (List.forall_mem_nil _) hone, (sorted_perm _ _).length_eq,
      List.countP_eq_length_filter]
    rfl
  refine ⟨hcomplete, ?_, horder, hversions, ?_⟩
  · -- The rows have different ids, and a form has the id of its row.
    rw [forms_eq_numbered, Tables.map_survey_numbered, (hperm.map _).nodup_iff, hversionsOf]
    exact ht.surveyIds.sublist (List.filter_sublist.map _)
  · intro a ha b hb hshortcode holder
    have hmem {f : Form} (hf : f ∈ t.forms owner name) (hsame : f.shortcode = a.shortcode) :
        f ∈ (t.forms owner name).filter fun f => f.shortcode == a.shortcode :=
      List.mem_filter.mpr ⟨hf, beq_iff_eq.mpr hsame⟩
    exact version_lt (horder.filter _) (hversions a.shortcode) (hmem ha rfl)
      (hmem hb hshortcode.symm) hshortcode holder

/-- **Form data are the numbered versions** of the survey that is asked for, and the numbers under a
shortcode depend on its versions alone. -/
theorem isVersioned_fetchForms (hs : s.isOpen = true) (hkeyed : s.tables.Keyed)
    (owner name : String) :
    ∃ forms, s.fetchForms owner name = .ok forms ∧
      IsVersioned (s.tables.surveys.filter (s.tables.isVersion owner name)) forms ∧
      ∀ (t : Tables) (shortcode : String),
        ((t.versionsOf owner name).filter fun s => s.shortcode == shortcode)
          = ((s.tables.versionsOf owner name).filter fun s => s.shortcode == shortcode) →
        ((t.forms owner name).filter fun f => f.shortcode == shortcode)
          = forms.filter fun f => f.shortcode == shortcode := by
  refine ⟨_, if_pos hs, isVersioned_forms hkeyed owner name, fun t shortcode hsame => ?_⟩
  rw [filter_forms, filter_forms, hsame]

/-- Two owners have surveys of one name, inserted from the newest to the oldest. The first owner's
shortcodes are counted by themselves, and the second owner's version takes no number. -/
theorem isVersioned_fetchForms_owners :
    let owned (id owner shortcode created : String) : SurveyRow :=
      ⟨id, owner, "Health", shortcode, created, none⟩
    let s : Store := { tables := {
      users := [⟨"a", "a@example.com"⟩, ⟨"b", "b@example.com"⟩]
      surveys := [owned "a3" "a" "base" "2024-03", owned "a2" "a" "base" "2024-02",
        owned "b1" "b" "base" "2024-01", owned "a1" "a" "end" "2023-12"] } }
    (∃ forms, s.fetchForms "a@example.com" "Health" = .ok forms ∧
      IsVersioned (s.tables.surveys.filter (s.tables.isVersion "a@example.com" "Health")) forms) ∧
      (s.tables.forms "a@example.com" "Health").map (fun f => (f.survey, f.version))
        = [("a2", 1), ("a3", 2), ("a1", 1)] := by
  intro owned s
  have hkeyed : s.tables.Keyed :=
    ⟨by decide, by decide, by decide, by decide, by decide, by decide⟩
  obtain ⟨forms, hforms, hversioned, -⟩ :=
    isVersioned_fetchForms rfl hkeyed "a@example.com" "Health"
  exact ⟨⟨forms, hforms, hversioned⟩, by cbv⟩

end Store

end ResponseExport
