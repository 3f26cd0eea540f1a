import Mathlib.Data.List.Nodup
import ResponseExport.Proofs.Jobs.Usable
import ResponseExport.Proofs.Keyset.Pages
import ResponseExport.Proofs.Store.Sorting
import ResponseExport.Proofs.Text.Order
import ResponseExport.Store.Forms

/-!
# `ResponseExport.Proofs.Callers.Rows`: the rows of a caller

A caller's rows are the surveys of the users with the caller's address, the
responses to these surveys, and the jobs under the address. Two states of the
tables may `Agree` on them and differ in everything else, the order of insertion
included.

Questions that are asked for a caller have the same answer in both states:
`Agree.listing_eq`, `Agree.spans_eq`, `Agree.listJobs_eq`. Rows are picked before
anything is ranked, sorted or cut, and what is sorted is known from what is picked.

Forms are the exception. Versions of a survey that have the same shortcode and the
same time of creation are listed as they were inserted, so the answer is the same
for `SameTies` (`forms_eq_of_sameTies`) and for nothing else (`sameTies_of_forms`).
-/

set_option autoImplicit false

namespace ResponseExport.Store

open Survey (Response Cursor Filter Form)

/-! ### Comparisons -/

/-- Responses are compared by their cursors. -/
def placeOrder (a b : Response) : Ordering := (Cursor.at a).order (Cursor.at b)

instance : Std.TransCmp placeOrder := transCmp_on compare fun r : Response => (Cursor.at r).key

/-- Versions are compared by shortcode, then by time of creation. -/
def versionOrder : SurveyRow → SurveyRow → Ordering :=
  compareLex (fun a b => Text.order a.shortcode b.shortcode)
    fun a b => Text.order a.created b.created

instance : Std.TransCmp versionOrder :=
  have := transCmp_on Text.order SurveyRow.shortcode
  have := transCmp_on Text.order SurveyRow.created
  inferInstanceAs (Std.TransCmp (compareLex _ _))

/-- Ties agree in shortcode and in time of creation. -/
theorem versionOrder_eq_eq {a b : SurveyRow} :
    versionOrder a b = .eq ↔ a.shortcode = b.shortcode ∧ a.created = b.created := by
  rw [versionOrder, compareLex, Ordering.then_eq_eq, Text.order_eq_eq, Text.order_eq_eq]

/-- Jobs are compared by the time at which they were written, the latest first, then by id. -/
def feedOrder : JobRow → JobRow → Ordering :=
  compareLex (fun a b => Text.order b.updated a.updated) fun a b => Text.order a.id b.id

instance : Std.TransCmp feedOrder :=
  have : Std.TransCmp fun a b => Text.order b a := Std.TransCmp.opposite
  have := transCmp_on (fun a b => Text.order b a) JobRow.updated
  have := transCmp_on Text.order JobRow.id
  inferInstanceAs (Std.TransCmp (compareLex _ _))

theorem isLE_eq (o : Ordering) : (o != .gt) = o.isLE := by
  cases o <;> rfl

theorem Tables.isBefore_eq : isBefore = fun a b => (placeOrder a b).isLE := by
  funext a b
  exact isLE_eq _

theorem SurveyRow.isBefore_eq : isBefore = fun a b => (versionOrder a b).isLE := by
  funext a b
  rw [isBefore, isLE_eq, versionOrder, compareLex]
  cases Text.order a.shortcode b.shortcode <;> rfl

theorem JobRow.isBefore_eq : isBefore = fun a b => (feedOrder a b).isLE := by
  funext a b
  rw [isBefore, isLE_eq, feedOrder, compareLex]
  cases Text.order b.updated a.updated <;> rfl

/-! ### What an answer is made of -/

namespace Tables

variable (t : Tables) (u : String)

/-- The surveys of the users with an address. -/
def surveysOf : List SurveyRow := t.surveys.filter fun s => t.hasEmail s.owner u

/-- The responses to these surveys. -/
def responsesOf : List Response := t.responses.filter (t.isOwned u none)

/-- The jobs under an address. -/
def jobsOf : List JobRow := t.jobs.filter fun j => j.user == u

theorem isOwned_eq (name : Option String) (r : Response) :
    t.isOwned u name r = (t.surveysOf u).any fun s => s.id == r.survey && isNamed name s := by
  rw [surveysOf, List.any_filter, isOwned]
  refine congrArg t.surveys.any (funext fun s => ?_)
  rw [Bool.and_comm (s.id == r.survey), Bool.and_assoc]
  rfl

/-- A response to a survey of the name is a response to a survey. -/
theorem filter_isOwned (name : Option String) :
    t.responses.filter (t.isOwned u name) = (t.responsesOf u).filter (t.isOwned u name) := by
  rw [responsesOf, List.filter_filter]
  refine List.filter_congr fun r _ => ?_
  rw [isOwned_eq, isOwned_eq, eq_comm, Bool.and_eq_left_iff_imp]
  intro h
  obtain ⟨s, hs, hwanted⟩ := List.any_eq_true.mp h
  obtain ⟨hid, -⟩ := Bool.and_eq_true_iff.mp hwanted
  exact List.any_eq_true.mpr ⟨s, hs, Bool.and_eq_true_iff.mpr ⟨hid, rfl⟩⟩

theorem listing_eq_sorted {t : Tables} (ht : t.Keyed) (u name : String) :
    t.listing (.survey u name)
      = sorted placeOrder (t.responses.filter (t.isOwned u (some name))) := by
  rw [listing, wanted_eq ht, isBefore_eq]
  rfl

theorem forms_eq_sorted {t : Tables} (ht : t.Keyed) (u name : String) :
    t.forms u name
      = numbered [] (sorted versionOrder ((t.surveysOf u).filter fun s => s.name == name)) := by
  rw [forms, versionsOf_eq ht.userIds, SurveyRow.isBefore_eq, surveysOf, List.filter_filter]
  refine congrArg (fun rows => numbered [] (sorted versionOrder rows)) ?_
  exact List.filter_congr fun s _ => Bool.and_comm _ _

/-- A form is about the survey whose row it is. -/
theorem map_survey_numbered (done rows : List SurveyRow) :
    (numbered done rows).map Form.survey = rows.map SurveyRow.id := by
  induction rows generalizing done with
  | nil => rfl
  | cons s rows ih => exact congrArg (s.id :: ·) (ih (done ++ [s]))

theorem listJobs_eq_sorted (survey : Option String) :
    t.listJobs u survey = (sorted feedOrder ((t.jobsOf u).filter fun j =>
      match survey with
      | some s => j.survey == s
      | none => true)).mapM JobRow.job := by
  rw [listJobs, JobRow.isBefore_eq, jobsOf, List.filter_filter]
  refine congrArg (fun rows => (sorted feedOrder rows).mapM JobRow.job) ?_
  exact List.filter_congr fun j _ => Bool.and_comm _ _

/-! ### Spans -/

theorem nodup_eraseDups {α : Type} [BEq α] [LawfulBEq α] (l : List α) : l.eraseDups.Nodup := by
  induction h : l.length using Nat.strongRecOn generalizing l with
  | _ n ih =>
      cases l with
      | nil => exact List.nodup_nil
      | cons a l =>
          have hlt : (l.filter fun b => !b == a).length < n := by
            rw [← h, List.length_cons]
            exact Nat.lt_succ_of_le (List.length_filter_le _ _)
          rw [List.eraseDups_cons, List.nodup_cons, List.mem_eraseDups, List.mem_filter]
          exact ⟨fun hmem => by simp at hmem, ih _ hlt _ rfl⟩

/-- The respondents of rows do not depend on the order of the rows. -/
theorem respondents_eq_of_perm {rows rows' : List Response} (h : rows.Perm rows') :
    respondents rows = respondents rows' := by
  have hperm : ((rows.map (·.respondent)).eraseDups).Perm
      ((rows'.map (·.respondent)).eraseDups) := by
    rw [List.perm_ext_iff_of_nodup (nodup_eraseDups _) (nodup_eraseDups _)]
    intro a
    rw [List.mem_eraseDups, List.mem_eraseDups, (h.map _).mem_iff]
  have hle : (fun a b => Text.order a b != .gt) = fun a b => (Text.order a b).isLE :=
    funext fun a => funext fun b => isLE_eq _
  rw [respondents, respondents, hle]
  exact sorted_eq_of_perm hperm fun a _ b _ h => Text.order_eq_eq.mp h

theorem earliest_eq (r : Response) (rows : List Response) :
    earliest r rows = least placeOrder r rows := by
  rw [earliest, isBefore_eq]
  rfl

theorem latest_eq (r : Response) (rows : List Response) :
    latest r rows = least (fun a b => placeOrder b a) r rows := by
  rw [latest, isBefore_eq]
  rfl

/-- Rows with different cursors are no ties. -/
theorem eq_of_placeOrder {rows : List Response} (h : (placesOf rows).Nodup) :
    ∀ a ∈ rows, ∀ b ∈ rows, placeOrder a b = .eq → a = b :=
  fun _ ha _ hb heq => List.inj_on_of_nodup_map h ha hb ((Cursor.order_eq_iff _ _).mp heq)

/-- The span of one respondent's rows does not depend on the order of the rows. -/
theorem spanOf_eq_of_perm {rows rows' : List Response} (h : rows.Perm rows')
    (hnodup : (placesOf rows).Nodup) {respondent : String}
    (hone : ∀ r ∈ rows, r.respondent = respondent) : spanOf rows = spanOf rows' := by
  have : Std.TransCmp fun a b => placeOrder b a := Std.TransCmp.opposite
  have hties := eq_of_placeOrder hnodup
  cases rows with
  | nil => rw [List.nil_perm.mp h]
  | cons r rows =>
      cases rows' with
      | nil => exact absurd (List.perm_nil.mp h) (List.cons_ne_nil r rows)
      | cons r' rows' =>
          have hrespondent : r.respondent = r'.respondent := by
            rw [hone r List.mem_cons_self, hone r' (h.mem_iff.mpr List.mem_cons_self)]
          have hlatest : least (fun a b => placeOrder b a) r rows
              = least (fun a b => placeOrder b a) r' rows' :=
            least_eq_of_perm h fun a ha b hb heq => (hties b hb a ha heq).symm
          rw [spanOf, spanOf, earliest_eq, earliest_eq, latest_eq, latest_eq,
            least_eq_of_perm h hties, hlatest, hrespondent]

end Tables

/-! ### Tables that agree on a caller -/

/-- Two states of the tables with the same rows of a caller: surveys, responses and jobs. -/
structure Tables.Agree (u : String) (t t' : Tables) : Prop where
  surveys : (t.surveysOf u).Perm (t'.surveysOf u)
  responses : (t.responsesOf u).Perm (t'.responsesOf u)
  jobs : (t.jobsOf u).Perm (t'.jobsOf u)

/-- Versions of a survey that only the order of insertion tells apart stand in the same order. -/
def Tables.SameTies (u name : String) (t t' : Tables) : Prop :=
  ∀ shortcode created,
    ((t.surveysOf u).filter fun s =>
        s.name == name && (s.shortcode == shortcode && s.created == created))
      = (t'.surveysOf u).filter fun s =>
        s.name == name && (s.shortcode == shortcode && s.created == created)

theorem isTie_versionOrder (a b : SurveyRow) :
    isTie versionOrder a b = (b.shortcode == a.shortcode && b.created == a.created) := by
  rw [Bool.eq_iff_iff, isTie, beq_iff_eq, versionOrder_eq_eq, Bool.and_eq_true, beq_iff_eq,
    beq_iff_eq, eq_comm, @eq_comm _ a.created]

namespace Tables

variable {u name : String} {t t' : Tables}

/-- The rows of one tie, among the versions of a name. -/
theorem filter_isTie (t : Tables) (u name : String) (a : SurveyRow) :
    ((t.surveysOf u).filter fun s => s.name == name).filter (isTie versionOrder a)
      = (t.surveysOf u).filter fun s =>
        s.name == name && (s.shortcode == a.shortcode && s.created == a.created) := by
  rw [List.filter_filter]
  simp only [isTie_versionOrder, Bool.and_comm (_ && _) (_ == name)]

theorem forms_eq_of_sameTies (ht : t.Keyed) (ht' : t'.Keyed)
    (h : (t.surveysOf u).Perm (t'.surveysOf u)) (hties : SameTies u name t t') :
    t.forms u name = t'.forms u name := by
  rw [forms_eq_sorted ht, forms_eq_sorted ht', sorted_eq_of_ties (h.filter _) fun a => ?_]
  rw [filter_isTie, filter_isTie, hties]

/-- Forms of the same surveys in the same order give away the order of the ties. -/
theorem sameTies_of_forms (ht : t.Keyed) (ht' : t'.Keyed)
    (h : (t.surveysOf u).Perm (t'.surveysOf u))
    (hforms : (t.forms u name).map Form.survey = (t'.forms u name).map Form.survey) :
    SameTies u name t t' := by
  rw [forms_eq_sorted ht, forms_eq_sorted ht', map_survey_numbered, map_survey_numbered] at hforms
  have hids : ((t.surveysOf u).map SurveyRow.id).Nodup :=
    ht.surveyIds.sublist (List.filter_sublist.map _)
  -- Surveys are told apart by their ids, so the sorted rows are the same ones.
  have hsorted : sorted versionOrder ((t.surveysOf u).filter fun s => s.name == name)
      = sorted versionOrder ((t'.surveysOf u).filter fun s => s.name == name) := by
    refine eq_of_map_eq ?_ hforms
    intro a ha b hb
    have hmem {c : SurveyRow} {rows : List SurveyRow}
        (hc : c ∈ sorted versionOrder (rows.filter fun s => s.name == name)) : c ∈ rows :=
      List.mem_of_mem_filter ((sorted_perm _ _).mem_iff.mp hc)
    exact List.inj_on_of_nodup_map hids (hmem ha) (h.mem_iff.mpr (hmem hb))
  intro shortcode created
  -- Sorting keeps ties as they were inserted.
  have hties := congrArg (List.filter (isTie versionOrder ⟨"", "", name, shortcode, created, none⟩))
    hsorted
  rwa [filter_isTie_sorted, filter_isTie_sorted, filter_isTie, filter_isTie] at hties

end Tables

namespace Tables.Agree

variable {u : String} {t t' : Tables}

theorem isOwned_eq (h : Agree u t t') (name : Option String) :
    t.isOwned u name = t'.isOwned u name := by
  funext r
  rw [Tables.isOwned_eq, Tables.isOwned_eq, h.surveys.any_eq]

theorem owned_perm (h : Agree u t t') (name : Option String) :
    (t.responses.filter (t.isOwned u name)).Perm (t'.responses.filter (t'.isOwned u name)) := by
  rw [filter_isOwned, filter_isOwned, h.isOwned_eq]
  exact h.responses.filter _

theorem nodup_owned (ht : t.Keyed) (name : Option String) :
    (placesOf (t.responses.filter (t.isOwned u name))).Nodup :=
  ht.cursors.sublist (List.filter_sublist.map _)

theorem listing_eq (h : Agree u t t') (ht : t.Keyed) (ht' : t'.Keyed) (name : String) :
    t.listing (.survey u name) = t'.listing (.survey u name) := by
  rw [listing_eq_sorted ht, listing_eq_sorted ht']
  exact sorted_eq_of_perm (h.owned_perm (some name)) (eq_of_placeOrder (nodup_owned ht _))

theorem spans_eq (h : Agree u t t') (ht : t.Keyed) (ht' : t'.Keyed) (name : Option String) :
    t.spans u name = t'.spans u name := by
  have hperm := h.owned_perm name
  rw [spans, spans, inScope_eq ht, inScope_eq ht', respondents_eq_of_perm hperm]
  refine List.filterMap_congr fun respondent _ => ?_
  exact spanOf_eq_of_perm (hperm.filter _)
    ((nodup_owned ht name).sublist (List.filter_sublist.map _))
    fun r hr => beq_iff_eq.mp (List.mem_filter.mp hr).2

theorem listJobs_eq (h : Agree u t t') (hids : (t.jobs.map JobRow.id).Nodup)
    (survey : Option String) : t.listJobs u survey = t'.listJobs u survey := by
  rw [listJobs_eq_sorted, listJobs_eq_sorted, sorted_eq_of_perm (h.jobs.filter _) ?_]
  intro a ha b hb heq
  -- Two jobs of the same time compare by id, and no two jobs have the same.
  rw [feedOrder, compareLex, Ordering.then_eq_eq] at heq
  have hmem : ∀ j ∈ t.jobsOf u, j ∈ t.jobs := fun j hj => List.mem_of_mem_filter hj
  exact List.inj_on_of_nodup_map hids (hmem a (List.mem_of_mem_filter ha))
    (hmem b (List.mem_of_mem_filter hb)) (Text.order_eq_eq.mp heq.2)

end Tables.Agree

end ResponseExport.Store
