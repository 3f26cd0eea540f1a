import ResponseExport.Export.Walk
import ResponseExport.Proofs.Keyset.Order
import ResponseExport.Proofs.Store.Joins

/-!
# `ResponseExport.Proofs.Keyset.Pages`: what a page holds

The listing of the wanted responses is strictly ascending by cursor
(`ascending_listing`), because the cursors of keyed tables are unique. A page is
a window of it, and everything that a walk over pages needs to know about one
page is said here once:

* `mem_page`: its rows are stored, wanted, and behind the cursor;
* `ascending_page`, `length_page_le`: they ascend, and are no more than asked for;
* `mem_page_or_behind`: a wanted response behind the cursor is in the page, or
  the page is full and the response lies behind all of it;
* `page_append`: behind the first part of a listing starts its second part.

`endOf rows` is the cursor at the last of some rows. `cursorAfter_endOf` says
that a walk remembers nothing else: after pages with the rows `rows`, it is at
`endOf rows`.
-/

set_option autoImplicit false

namespace ResponseExport.Store

open Survey (Response Cursor Filter)

/-- The cursors of rows, in order. -/
abbrev placesOf (rows : List Response) : List Cursor := rows.map Cursor.at

/-- A response strictly before another one: the respondent decides, then the time, then the
question, then the survey. -/
def ComesBefore (a b : Response) : Prop :=
  (Text.order a.respondent b.respondent).then
    ((Text.order a.time b.time).then
      ((Text.order a.question b.question).then (Text.order a.survey b.survey))) = .lt

/-- Rows that strictly ascend. -/
def Ascending (rows : List Response) : Prop := rows.Pairwise ComesBefore

/-- Responses stand in the order of their cursors. -/
theorem comesBefore_iff (a b : Response) : ComesBefore a b ↔ Cursor.at a < Cursor.at b := by
  rw [Cursor.lt_def, Cursor.order_eq_then]
  rfl

/-- The cursor at the last of some rows, if there are any. -/
def endOf (rows : List Response) : Option Cursor := rows.getLast?.map Cursor.at

/-- A walk that has delivered `a` and then reads `b` is at the end of both. -/
theorem cursorAfter_endOf (a b : List Response) :
    Export.cursorAfter (endOf a) b = endOf (a ++ b) := by
  unfold Export.cursorAfter endOf
  cases h : b.getLast? with
  | none => rw [List.getLast?_eq_none_iff.mp h, List.append_nil]
  | some r => rw [List.getLast?_append, h]; rfl

theorem ascending_append (a b : List Response) :
    Ascending (a ++ b) ↔ Ascending a ∧ Ascending b ∧
      ∀ r ∈ a, ∀ r' ∈ b, Cursor.at r < Cursor.at r' := by
  simp only [Ascending, List.pairwise_append, comesBefore_iff]

/-- The last of ascending rows is the greatest. -/
theorem Ascending.le_last {rows : List Response} (h : Ascending rows) {last r : Response}
    (hlast : rows.getLast? = some last) (hr : r ∈ rows) :
    Cursor.at r = Cursor.at last ∨ Cursor.at r < Cursor.at last := by
  obtain ⟨init, rfl⟩ := List.getLast?_eq_some_iff.mp hlast
  rcases List.mem_append.mp hr with hr | hr
  · exact Or.inr (((ascending_append _ _).mp h).2.2 r hr last (by simp))
  · exact Or.inl (by rw [List.mem_singleton.mp hr])

/-- Ascending rows show no cursor twice. -/
theorem Ascending.nodup {rows : List Response} (h : Ascending rows) : (placesOf rows).Nodup := by
  refine List.pairwise_map.mpr (List.Pairwise.imp ?_ h)
  intro a b hlt heq
  exact Cursor.lt_irrefl _ (heq ▸ (comesBefore_iff a b).mp hlt)

/-- Behind the end of the first part of ascending rows lies the second part. -/
theorem filter_isAfter_append {a b : List Response} (h : Ascending (a ++ b)) :
    (a ++ b).filter (Tables.isAfter (endOf a)) = b := by
  obtain ⟨ha, -, hab⟩ := (ascending_append a b).mp h
  cases hlast : a.getLast? with
  | none =>
      obtain rfl := List.getLast?_eq_none_iff.mp hlast
      exact List.filter_eq_self.mpr fun _ _ => rfl
  | some last =>
      have hend : endOf a = some (Cursor.at last) := by rw [endOf, hlast]; rfl
      have hafter : ∀ r, Tables.isAfter (endOf a) r = true ↔ Cursor.at last < Cursor.at r := by
        intro r
        rw [hend, Tables.isAfter, Cursor.isBehind_iff]
      rw [List.filter_append]
      -- Nothing of `a` is behind its own end, and all of `b` is.
      have hnone : a.filter (Tables.isAfter (endOf a)) = [] := by
        rw [List.filter_eq_nil_iff]
        intro r hr
        rw [hafter]
        rcases ha.le_last hlast hr with heq | hlt
        · rw [heq]; exact Cursor.lt_irrefl _
        · exact Cursor.lt_asymm hlt
      have hall : b.filter (Tables.isAfter (endOf a)) = b := by
        rw [List.filter_eq_self]
        intro r hr
        rw [hafter]
        exact hab last (List.mem_of_getLast? hlast) r hr
      rw [hnone, hall, List.nil_append]

namespace Tables

/-- Somewhere in the tables stands a wanted response with this cursor. -/
def Holds (t : Tables) (f : Filter) (c : Cursor) : Prop :=
  ∃ r ∈ t.responses, t.isWanted f r = true ∧ Cursor.at r = c

/-- The same users, surveys and responses. The jobs may differ. -/
structure SameAnswers (t t' : Tables) : Prop where
  users : t.users = t'.users
  surveys : t.surveys = t'.surveys
  responses : t.responses = t'.responses

theorem SameAnswers.keyed {t t' : Tables} (h : t.SameAnswers t') (ht : t.Keyed) : t'.Keyed where
  userIds := h.users ▸ ht.userIds
  emails := h.users ▸ ht.emails
  surveyIds := h.surveys ▸ ht.surveyIds
  owners := h.users ▸ h.surveys ▸ ht.owners
  cursors := h.responses ▸ ht.cursors
  answered := h.surveys ▸ h.responses ▸ ht.answered

/-! ### The listing -/

theorem SameAnswers.isWanted {t t' : Tables} (h : t.SameAnswers t') (f : Filter) :
    t.isWanted f = t'.isWanted f := by
  funext r
  cases f with
  | all => rfl
  | survey owner name => simp only [Tables.isWanted, isOwned, hasEmail, h.users, h.surveys]

theorem SameAnswers.inScope {t t' : Tables} (h : t.SameAnswers t') (owner : String)
    (name : Option String) : t.inScope owner name = t'.inScope owner name := by
  simp only [Tables.inScope, ownedResponses, ownedSurveys, h.users, h.surveys, h.responses]

theorem SameAnswers.listing {t t' : Tables} (h : t.SameAnswers t') (f : Filter) :
    t.listing f = t'.listing f := by
  cases f with
  | all => rw [Tables.listing, Tables.listing, wanted, wanted, h.responses]
  | survey owner name => rw [Tables.listing, Tables.listing, wanted, wanted, h.inScope]

theorem listing_perm {t : Tables} (ht : t.Keyed) (f : Filter) :
    (t.listing f).Perm (t.responses.filter (t.isWanted f)) := by
  rw [← wanted_eq ht]
  exact List.mergeSort_perm _ _

theorem mem_listing {t : Tables} (ht : t.Keyed) {f : Filter} {r : Response} :
    r ∈ t.listing f ↔ r ∈ t.responses ∧ t.isWanted f r = true := by
  rw [(listing_perm ht f).mem_iff, List.mem_filter]

theorem length_listing {t : Tables} (ht : t.Keyed) (f : Filter) :
    (t.listing f).length = t.responses.countP (t.isWanted f) := by
  rw [(listing_perm ht f).length_eq, List.countP_eq_length_filter]

theorem isBefore_iff (a b : Response) :
    isBefore a b = true ↔ Cursor.at a < Cursor.at b ∨ Cursor.at a = Cursor.at b := by
  rw [isBefore, bne_iff_ne, ne_eq, Cursor.order_eq_gt_iff]
  constructor
  · intro h
    rcases Cursor.lt_or_eq_or_gt (Cursor.at a) (Cursor.at b) with hlt | heq | hgt
    · exact Or.inl hlt
    · exact Or.inr heq
    · exact absurd hgt h
  · rintro (hlt | heq)
    · exact Cursor.lt_asymm hlt
    · rw [heq]; exact Cursor.lt_irrefl _

theorem isBefore_trans (a b c : Response) (hab : isBefore a b = true) (hbc : isBefore b c = true) :
    isBefore a c = true := by
  rw [isBefore_iff] at hab hbc ⊢
  rcases hab with hab | hab
  · rcases hbc with hbc | hbc
    · exact Or.inl (Cursor.lt_trans hab hbc)
    · exact Or.inl (hbc ▸ hab)
  · rwa [hab]

theorem isBefore_total (a b : Response) : (isBefore a b || isBefore b a) = true := by
  rw [Bool.or_eq_true, isBefore_iff, isBefore_iff]
  rcases Cursor.lt_or_eq_or_gt (Cursor.at a) (Cursor.at b) with hlt | heq | hgt
  · exact Or.inl (Or.inl hlt)
  · exact Or.inl (Or.inr heq)
  · exact Or.inr (Or.inl hgt)

/-- Rows that are each before the other stand at one place. -/
theorem at_eq_of_isBefore {a b : Response} (hab : isBefore a b = true) (hba : isBefore b a = true) :
    Cursor.at a = Cursor.at b := by
  rw [isBefore_iff] at hab hba
  rcases hab with hlt | heq
  · rcases hba with hgt | heq
    · exact absurd hgt (Cursor.lt_asymm hlt)
    · exact heq.symm
  · exact heq

/-- A listing is sorted. -/
theorem pairwise_listing (t : Tables) (f : Filter) :
    (t.listing f).Pairwise fun a b => isBefore a b = true :=
  List.pairwise_mergeSort isBefore_trans isBefore_total _

/-- Rows at different places strictly ascend when they are sorted. -/
theorem ascending_mergeSort {rows : List Response} (h : (placesOf rows).Nodup) :
    Ascending (rows.mergeSort isBefore) := by
  have hnodup : (placesOf (rows.mergeSort isBefore)).Nodup := by
    rwa [placesOf, ((List.mergeSort_perm rows isBefore).map Cursor.at).nodup_iff]
  have hsorted := List.pairwise_mergeSort isBefore_trans isBefore_total rows
  -- A sorted list ascends strictly where no two rows are equal.
  refine (hsorted.and (List.pairwise_map.mp hnodup)).imp ?_
  rintro a b ⟨hbefore, hne⟩
  exact (comesBefore_iff a b).mpr (((isBefore_iff a b).mp hbefore).resolve_right hne)

/-- A listing strictly ascends: it is sorted, and no two responses have the same
cursor. -/
theorem ascending_listing {t : Tables} (h : t.Keyed) (f : Filter) : Ascending (t.listing f) := by
  rw [listing, wanted_eq h]
  exact ascending_mergeSort (h.cursors.sublist (List.filter_sublist.map _))

/-! ### One page -/

variable {t : Tables} {f : Filter} {after : Option Cursor} {limit : Nat}

theorem page_eq_take (hlimit : limit < noLimit) :
    t.page f after limit = ((t.listing f).filter (isAfter after)).take limit := by
  rw [page, limited, if_pos hlimit]

theorem page_sublist_listing (hlimit : limit < noLimit) :
    (t.page f after limit).Sublist (t.listing f) := by
  rw [page_eq_take hlimit]
  exact (List.take_sublist _ _).trans List.filter_sublist

/-- What a page shows is stored, wanted, and behind the cursor. -/
theorem mem_page (h : t.Keyed) {r : Response} (hlimit : limit < noLimit)
    (hr : r ∈ t.page f after limit) :
    r ∈ t.responses ∧ t.isWanted f r = true ∧ isAfter after r = true := by
  have hlisted := (mem_listing h).mp ((page_sublist_listing hlimit).subset hr)
  rw [page_eq_take hlimit] at hr
  exact ⟨hlisted.1, hlisted.2, (List.mem_filter.mp (List.mem_of_mem_take hr)).2⟩

theorem ascending_page (h : t.Keyed) (hlimit : limit < noLimit) :
    Ascending (t.page f after limit) :=
  List.Pairwise.sublist (page_sublist_listing hlimit) (ascending_listing h f)

theorem length_page_le (hlimit : limit < noLimit) : (t.page f after limit).length ≤ limit := by
  rw [page_eq_take hlimit, List.length_take]
  omega

/-- No wanted response behind the cursor is passed over: it is in the page, or
the page is full and ends before it. -/
theorem mem_page_or_behind (h : t.Keyed) (hlimit : limit < noLimit) {r : Response}
    (hr : r ∈ t.responses) (hwanted : t.isWanted f r = true) (hafter : isAfter after r = true) :
    r ∈ t.page f after limit ∨
      limit ≤ (t.page f after limit).length ∧
        ∀ r' ∈ t.page f after limit, Cursor.at r' < Cursor.at r := by
  rw [page_eq_take hlimit]
  have hmem : r ∈ (t.listing f).filter (isAfter after) :=
    List.mem_filter.mpr ⟨(mem_listing h).mpr ⟨hr, hwanted⟩, hafter⟩
  have hasc : Ascending ((t.listing f).filter (isAfter after)) :=
    List.Pairwise.sublist List.filter_sublist (ascending_listing h f)
  generalize (t.listing f).filter (isAfter after) = rows at hmem hasc
  -- The page is the first part of these rows, and the response is in one of the parts.
  rw [← List.take_append_drop limit rows] at hmem hasc
  rcases List.mem_append.mp hmem with htake | hdrop
  · exact Or.inl htake
  · have hlength : limit ≤ (rows.take limit).length := by
      have hpos := List.length_pos_of_mem hdrop
      rw [List.length_drop] at hpos
      rw [List.length_take]
      omega
    exact Or.inr ⟨hlength, fun r' hr' => ((ascending_append _ _).mp hasc).2.2 r' hr' r hdrop⟩

/-- Behind the first part of a listing, a page is the start of the second part. -/
theorem page_append (h : t.Keyed) (hlimit : limit < noLimit) {a b : List Response}
    (hab : t.listing f = a ++ b) : t.page f (endOf a) limit = b.take limit := by
  rw [page_eq_take hlimit, hab, filter_isAfter_append (hab ▸ ascending_listing h f)]

end Tables

end ResponseExport.Store
