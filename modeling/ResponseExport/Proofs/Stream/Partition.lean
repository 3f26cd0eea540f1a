import Mathlib
import ResponseExport.Proofs.Stream.ChangingTables

/-!
# `ResponseExport.Proofs.Stream.Partition`: all streams by survey make up the stream of everything

A *subject* is what a filter by survey asks for: the address of a user and the name
of a survey. `Tables.subjects` lists every address with every name, also those of a
user who has no survey of that name.

In keyed tables a response is wanted under exactly one address and name
(`existsUnique_bySurvey`). This takes all keys together. The foreign keys say that
the response's survey and its owner are there, so it is wanted under their address
and name. The primary keys say that there is one such survey and one such owner, so
it is wanted under no other.

It follows that the listings of the subjects share no row and miss none. All of them
ascend, and merging keeps rows in order, so the listing of everything is their merge
(`listing_all_eq_mergeAll`). Two lists in order with the same rows are equal here
because cursors are unique: no two rows stand at one place.

Streams deliver listings (`Trace.delivers_listing`), and `streams_partition` puts both
together.
-/

set_option autoImplicit false

namespace ResponseExport.Store

open Survey (Response Cursor Filter)

/-- The responses under an address and the name of a survey. -/
def bySurvey (p : String × String) : Filter := .survey p.1 p.2

namespace Tables

/-- Every address of a user, with every name of a survey. -/
def subjects (t : Tables) : List (String × String) :=
  t.users.map User.email ×ˢ (t.surveys.map SurveyRow.name).dedup

/-- Lists in order, merged into one: of two first rows, the earlier one comes first. -/
def mergeAll (parts : List (List Response)) : List Response :=
  parts.foldr (fun part rest => part.merge rest isBefore) []

variable {t : Tables}

/-! ### Subjects -/

theorem mem_subjects {p : String × String} :
    p ∈ t.subjects ↔ p.1 ∈ t.users.map User.email ∧ p.2 ∈ t.surveys.map SurveyRow.name := by
  rw [subjects, ← List.mem_dedup (l := t.surveys.map SurveyRow.name)]
  exact List.mem_product

theorem nodup_subjects (h : t.Keyed) : t.subjects.Nodup := h.emails.product (List.nodup_dedup _)

/-- A response is wanted under the address of its survey's owner and its survey's name. -/
theorem isWanted_bySurvey {p : String × String} {r : Response} :
    t.isWanted (bySurvey p) r = true ↔
      ∃ s ∈ t.surveys, ∃ u ∈ t.users, s.id = r.survey ∧ u.id = s.owner ∧
        p = (u.email, s.name) := by
  obtain ⟨email, name⟩ := p
  simp only [bySurvey, isWanted, isOwned, hasEmail, List.any_eq_true, Bool.and_eq_true,
    beq_iff_eq, Prod.mk.injEq]
  constructor
  · rintro ⟨s, hs, ⟨hid, u, hu, howner, rfl⟩, rfl⟩
    exact ⟨s, hs, u, hu, hid, howner, rfl, rfl⟩
  · rintro ⟨s, hs, u, hu, hid, howner, rfl, rfl⟩
    exact ⟨s, hs, ⟨hid, u, hu, howner, rfl⟩, rfl⟩

/-- A stored response is wanted under exactly one address and name. -/
theorem existsUnique_bySurvey (h : t.Keyed) {r : Response} (hr : r ∈ t.responses) :
    ∃! p, t.isWanted (bySurvey p) r = true := by
  -- The survey is there, and so is its owner.
  obtain ⟨s, hs, hid⟩ := List.mem_map.mp (h.answered r hr)
  obtain ⟨u, hu, howner⟩ := List.mem_map.mp (h.owners s hs)
  refine ⟨(u.email, s.name), isWanted_bySurvey.mpr ⟨s, hs, u, hu, hid, howner, rfl⟩, ?_⟩
  -- There is no other survey of this id, and no other user of the owner's id.
  intro p hp
  obtain ⟨s', hs', u', hu', hid', howner', rfl⟩ := isWanted_bySurvey.mp hp
  obtain rfl := List.inj_on_of_nodup_map h.surveyIds hs' hs (hid'.trans hid.symm)
  obtain rfl := List.inj_on_of_nodup_map h.userIds hu' hu (howner'.trans howner.symm)
  rfl

/-- A stored response is listed under exactly one subject. -/
theorem existsUnique_listing (h : t.Keyed) {r : Response} (hr : r ∈ t.responses) :
    ∃! p, p ∈ t.subjects ∧ r ∈ t.listing (bySurvey p) := by
  obtain ⟨p, hp, hunique⟩ := existsUnique_bySurvey h hr
  refine ⟨p, ⟨?_, (mem_listing h).mpr ⟨hr, hp⟩⟩, ?_⟩
  · obtain ⟨s, hs, u, hu, -, -, rfl⟩ := isWanted_bySurvey.mp hp
    exact mem_subjects.mpr ⟨List.mem_map_of_mem hu, List.mem_map_of_mem hs⟩
  · intro q hq
    exact hunique q ((mem_listing h).mp hq.2).2

/-! ### Listings -/

theorem nodup_responses (h : t.Keyed) : t.responses.Nodup := h.cursors.of_map

theorem nodup_listing (h : t.Keyed) (f : Filter) : (t.listing f).Nodup :=
  (listing_perm h f).nodup_iff.mpr ((nodup_responses h).filter _)

theorem listing_all_perm (t : Tables) : (t.listing .all).Perm t.responses :=
  List.mergeSort_perm _ _

/-- The listings of all subjects. -/
def parts (t : Tables) : List (List Response) := t.subjects.map fun p => t.listing (bySurvey p)

/-- The listings of all subjects, put together, are the stored responses. -/
theorem flatten_parts_perm (h : t.Keyed) : t.parts.flatten.Perm t.responses := by
  have hnodup : t.parts.flatten.Nodup := by
    rw [parts, ← List.flatMap_def, List.nodup_flatMap]
    refine ⟨fun p _ => nodup_listing h _, (nodup_subjects h).imp ?_⟩
    -- A row under two different subjects would be wanted under both.
    intro p q hne r hp hq
    obtain ⟨hstored, hwanted⟩ := (mem_listing h).mp hp
    exact hne ((existsUnique_bySurvey h hstored).unique hwanted ((mem_listing h).mp hq).2)
  rw [List.perm_ext_iff_of_nodup hnodup (nodup_responses h)]
  intro r
  rw [parts, ← List.flatMap_def, List.mem_flatMap]
  constructor
  · rintro ⟨p, -, hr⟩
    exact ((mem_listing h).mp hr).1
  · intro hr
    exact (existsUnique_listing h hr).exists

/-- A row under a subject is listed once among all rows. -/
theorem count_listing_all (h : t.Keyed) {f : Filter} {r : Response} (hr : r ∈ t.listing f) :
    (t.listing .all).count r = 1 := by
  refine List.count_eq_one_of_mem (nodup_listing h .all) ?_
  rw [(listing_all_perm t).mem_iff]
  exact ((mem_listing h).mp hr).1

/-! ### Merging -/

theorem mergeAll_perm (parts : List (List Response)) : (mergeAll parts).Perm parts.flatten := by
  induction parts with
  | nil => exact List.Perm.refl _
  | cons part parts ih => exact (List.merge_perm_append isBefore).trans (ih.append_left part)

theorem pairwise_mergeAll {parts : List (List Response)}
    (h : ∀ part ∈ parts, part.Pairwise fun a b => isBefore a b = true) :
    (mergeAll parts).Pairwise fun a b => isBefore a b = true := by
  induction parts with
  | nil => exact List.Pairwise.nil
  | cons part parts ih =>
      have hfirst := h part List.mem_cons_self
      have hrest := ih fun p hp => h p (List.mem_cons_of_mem part hp)
      exact List.pairwise_merge isBefore_trans isBefore_total _ _ hfirst hrest

/-- The listing of everything is the merge of the listings of all subjects. -/
theorem listing_all_eq_mergeAll (h : t.Keyed) : t.listing .all = mergeAll t.parts := by
  have hparts : ∀ part ∈ t.parts, part.Pairwise fun a b => isBefore a b = true := by
    intro part hpart
    obtain ⟨p, -, rfl⟩ := List.mem_map.mp hpart
    exact pairwise_listing t _
  have hrows : (mergeAll t.parts).Perm t.responses :=
    (mergeAll_perm _).trans (flatten_parts_perm h)
  refine List.Perm.eq_of_pairwise ?_ (pairwise_listing t .all) (pairwise_mergeAll hparts)
    ((listing_all_perm t).trans hrows.symm)
  intro a b ha hb hab hba
  exact List.inj_on_of_nodup_map h.cursors ((mem_listing h).mp ha).1 (hrows.mem_iff.mp hb)
    (at_eq_of_isBefore hab hba)

end Tables

end ResponseExport.Store

namespace ResponseExport.Export.Trace

open Survey (Response Cursor Filter)
open Store (Tables bySurvey Ascending)

/-- **The stream of everything is the merge of the streams by survey.** In keyed tables each
response is wanted under exactly one address and name. The streams of all filters deliver
their listings, in ascending order. The listing of everything holds the stored responses, and it
is the merge of the listings of all subjects: each of their rows comes once in it, and each of
its rows is under one subject. -/
theorem streams_partition {t : Tables} (ht : t.Keyed) :
    (∀ r ∈ t.responses, ∃! p, t.isWanted (bySurvey p) r = true) ∧
    (∀ f, Delivers t f (t.listing f) ∧ Ascending (t.listing f)) ∧
    (t.listing .all).Perm t.responses ∧
    t.listing .all = Tables.mergeAll (t.subjects.map fun p => t.listing (bySurvey p)) ∧
    (∀ p ∈ t.subjects, ∀ r ∈ t.listing (bySurvey p), (t.listing .all).count r = 1) ∧
    (∀ r ∈ t.listing .all, ∃! p, p ∈ t.subjects ∧ r ∈ t.listing (bySurvey p)) := by
  refine ⟨?_, ?_, Tables.listing_all_perm t, Tables.listing_all_eq_mergeAll ht, ?_, ?_⟩
  · intro r hr
    exact Tables.existsUnique_bySurvey ht hr
  · intro f
    exact ⟨delivers_listing ht f, Tables.ascending_listing ht f⟩
  · intro p _ r hr
    exact Tables.count_listing_all ht hr
  · intro r hr
    exact Tables.existsUnique_listing ht ((Tables.listing_all_perm t).mem_iff.mp hr)

/-- Two owners with surveys of the same name, one of them in two versions. One respondent answers
both owners. -/
def sharedName : Tables where
  users := [⟨"o1", "a@example.com"⟩, ⟨"o2", "b@example.com"⟩]
  surveys := [⟨"s1", "o1", "Diet", "d", "2024", none⟩, ⟨"s2", "o1", "Diet", "d", "2025", none⟩,
    ⟨"s3", "o2", "Diet", "x", "2024", none⟩, ⟨"s4", "o2", "Sleep", "y", "2024", none⟩]
  responses := [("s4", "u3"), ("s3", "u1"), ("s2", "u1"), ("s1", "u2")].map fun (survey, u) =>
    { survey, respondent := u, question := "q", time := "2024-03-01T10:00:00Z" }

theorem keyed_sharedName : sharedName.Keyed where
  userIds := by decide
  emails := by decide
  surveyIds := by decide
  owners := by decide
  cursors := by decide
  answered := by decide

/-- Both versions go into one stream, and the other owner's answers to a survey of the same name
do not. -/
theorem streams_partition_shared :
    sharedName.Keyed ∧
    (sharedName.subjects.map fun p => (sharedName.listing (bySurvey p)).map Response.survey)
      = [["s2", "s1"], [], ["s3"], ["s4"]] ∧
    sharedName.listing .all
      = Tables.mergeAll (sharedName.subjects.map fun p => sharedName.listing (bySurvey p)) := by
  refine ⟨keyed_sharedName, ?_, (streams_partition keyed_sharedName).2.2.2.1⟩
  cbv

end ResponseExport.Export.Trace
