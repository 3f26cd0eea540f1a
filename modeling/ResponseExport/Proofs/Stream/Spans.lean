import Mathlib.Data.List.SplitBy
import ResponseExport.Proofs.Callers.Rows
import ResponseExport.Proofs.Stream.ChangingTables

/-!
# `ResponseExport.Proofs.Stream.Spans`: spans can be read off a stream

A span is found by ranking each respondent's answers twice, from the first one on and
from the last one on. A stream delivers the same answers in one order. Its order begins
with the respondent, so the answers of a respondent stand next to each other: they are
one *run* of the stream (`runsOf_eq`). Within a run the rows strictly ascend, so the
least answer is the first row and the greatest is the last row (`spanOf_eq`). Ties of
time are no exception: question and survey decide them in the same way in both.

`spans_eq_runs` puts this together with what streams deliver. The runs are known to be
right by `List.splitBy_eq_iff`: there is only one way to cut a list into runs of equal
neighbours.
-/

set_option autoImplicit false

namespace ResponseExport.Store

open Survey (Response Cursor Filter Span)

/-- Rows cut into runs: neighbours with the same respondent stay together. -/
def runsOf (rows : List Response) : List (List Response) :=
  rows.splitBy fun a b => a.respondent == b.respondent

/-- What the first and the last row of a run say. -/
def spanOfEnds (run : List Response) : Option Span :=
  run.head?.bind fun first => run.getLast?.map fun last =>
    ⟨first.respondent, first.survey, first.time, first.answer, last.survey, last.time, last.answer⟩

/-- The rows of one respondent. -/
def answersOf (rows : List Response) (u : String) : List Response :=
  rows.filter fun r => r.respondent == u

namespace Tables

variable {rows : List Response}

/-! ### Respondents -/

theorem mem_respondents {u : String} :
    u ∈ respondents rows ↔ ∃ r ∈ rows, r.respondent = u := by
  rw [respondents, (List.mergeSort_perm _ _).mem_iff, List.mem_eraseDups, List.mem_map]

/-- Respondents come in strictly ascending order. -/
theorem pairwise_respondents (rows : List Response) :
    (respondents rows).Pairwise fun u v => Text.order u v = .lt := by
  have hle : (fun a b => Text.order a b != .gt) = fun a b => (Text.order a b).isLE :=
    funext fun a => funext fun b => isLE_eq _
  have hnodup : (respondents rows).Nodup :=
    (List.mergeSort_perm _ _).nodup_iff.mpr (nodup_eraseDups _)
  have hsorted : (respondents rows).Pairwise fun u v => (Text.order u v).isLE = true := by
    rw [respondents, hle]
    exact pairwise_sorted _
  refine (hsorted.and hnodup).imp ?_
  rintro u v ⟨hle, hne⟩
  cases horder : Text.order u v with
  | lt => rfl
  | eq => exact absurd (Std.LawfulEqCmp.eq_of_compare horder) hne
  | gt =>
      rw [horder] at hle
      cases hle

/-- Respondents decide first where a row stands. -/
theorem lt_of_respondent {a b : Response} (h : Text.order a.respondent b.respondent = .lt) :
    Cursor.at a < Cursor.at b := by
  rw [Cursor.lt_def, Cursor.order_eq_then]
  show (Text.order a.respondent b.respondent).then _ = _
  rw [h]
  rfl

/-! ### Runs -/

theorem mem_answersOf {u : String} {r : Response} :
    r ∈ answersOf rows u ↔ r ∈ rows ∧ r.respondent = u := by
  rw [answersOf, List.mem_filter, beq_iff_eq]

theorem ascending_answersOf (h : Ascending rows) (u : String) : Ascending (answersOf rows u) :=
  h.sublist List.filter_sublist

theorem answersOf_ne_nil {u : String} (hu : u ∈ respondents rows) : answersOf rows u ≠ [] := by
  obtain ⟨r, hr, hrespondent⟩ := mem_respondents.mp hu
  exact List.ne_nil_of_mem (mem_answersOf.mpr ⟨hr, hrespondent⟩)

/-- Put one after the other, the rows of all respondents ascend. -/
theorem ascending_flatten_answersOf (h : Ascending rows) :
    Ascending ((respondents rows).map (answersOf rows)).flatten := by
  rw [Ascending, List.pairwise_flatten]
  constructor
  · intro run hrun
    obtain ⟨u, -, rfl⟩ := List.mem_map.mp hrun
    exact ascending_answersOf h u
  · rw [List.pairwise_map]
    refine (pairwise_respondents rows).imp ?_
    intro u v huv a ha b hb
    obtain ⟨-, rfl⟩ := mem_answersOf.mp ha
    obtain ⟨-, rfl⟩ := mem_answersOf.mp hb
    exact (comesBefore_iff a b).mpr (lt_of_respondent huv)

/-- Ascending rows are the rows of the first respondent, then those of the second one, and so on. -/
theorem flatten_answersOf (h : Ascending rows) :
    ((respondents rows).map (answersOf rows)).flatten = rows := by
  have hflat := ascending_flatten_answersOf h
  have hperm : ((respondents rows).map (answersOf rows)).flatten.Perm rows := by
    rw [List.perm_ext_iff_of_nodup hflat.nodup.of_map h.nodup.of_map]
    intro r
    rw [← List.flatMap_def, List.mem_flatMap]
    constructor
    · rintro ⟨u, -, hr⟩
      exact (mem_answersOf.mp hr).1
    · intro hr
      exact ⟨r.respondent, mem_respondents.mpr ⟨r, hr, rfl⟩, mem_answersOf.mpr ⟨hr, rfl⟩⟩
  refine List.Perm.eq_of_pairwise ?_ hflat h hperm
  intro a b _ _ hab hba
  exact absurd ((comesBefore_iff b a).mp hba) (Cursor.lt_asymm ((comesBefore_iff a b).mp hab))

/-- **Each respondent is one run.** The runs of ascending rows are the rows of each respondent. -/
theorem runsOf_eq (h : Ascending rows) :
    runsOf rows = (respondents rows).map (answersOf rows) := by
  rw [runsOf, List.splitBy_eq_iff]
  refine ⟨(flatten_answersOf h).symm, ?_, ?_, ?_⟩
  · intro hnil
    obtain ⟨u, hu, hempty⟩ := List.mem_map.mp hnil
    exact answersOf_ne_nil hu hempty
  · intro run hrun
    obtain ⟨u, -, rfl⟩ := List.mem_map.mp hrun
    refine (List.pairwise_of_forall_mem_list fun a ha b hb => ?_).isChain
    rw [(mem_answersOf.mp ha).2, (mem_answersOf.mp hb).2, beq_self_eq_true]
  -- Where one run ends and the next one begins, the respondent changes.
  · refine List.Pairwise.isChain (List.pairwise_map.mpr ?_)
    refine (pairwise_respondents rows).imp_of_mem ?_
    intro u v hu hv huv
    refine ⟨answersOf_ne_nil hu, answersOf_ne_nil hv, ?_⟩
    rw [(mem_answersOf.mp (List.getLast_mem _)).2, (mem_answersOf.mp (List.head_mem _)).2,
      beq_eq_false_iff_ne]
    rintro rfl
    rw [(Std.ReflCmp.compare_self : Text.order u u = .eq)] at huv
    cases huv

/-! ### The first and the last row of a run -/

theorem isBefore_of_lt {a b : Response} (h : Cursor.at a < Cursor.at b) :
    isBefore a b = true ∧ isBefore b a = false := by
  refine ⟨(isBefore_iff a b).mpr (Or.inl h), Bool.eq_false_iff.mpr fun hba => ?_⟩
  rcases (isBefore_iff b a).mp hba with hlt | heq
  · exact Cursor.lt_asymm h hlt
  · exact Cursor.lt_irrefl _ (heq ▸ h)

/-- The least of ascending rows is the first one. -/
theorem earliest_eq_head {r : Response} (h : Ascending (r :: rows)) : earliest r rows = r := by
  induction rows with
  | nil => rfl
  | cons b rows ih =>
      have hfirst : Cursor.at r < Cursor.at b :=
        (comesBefore_iff r b).mp ((List.pairwise_cons.mp h).1 b List.mem_cons_self)
      have hrest : Ascending (r :: rows) :=
        h.sublist ((List.sublist_cons_self b rows).cons_cons r)
      rw [earliest, List.foldl_cons, if_pos (isBefore_of_lt hfirst).1]
      exact ih hrest

/-- The greatest of ascending rows is the last one. -/
theorem latest_eq_getLast {r : Response} (h : Ascending (r :: rows)) :
    some (latest r rows) = (r :: rows).getLast? := by
  induction rows generalizing r with
  | nil => rfl
  | cons b rows ih =>
      obtain ⟨hfirst, hrest⟩ := List.pairwise_cons.mp h
      have hlt : Cursor.at r < Cursor.at b := (comesBefore_iff r b).mp (hfirst b List.mem_cons_self)
      rw [latest, List.foldl_cons, if_neg (by rw [(isBefore_of_lt hlt).2]; decide),
        List.getLast?_cons_cons]
      exact ih hrest

/-- The span of ascending rows is what their ends say. -/
theorem spanOf_eq (h : Ascending rows) : spanOf rows = spanOfEnds rows := by
  cases rows with
  | nil => rfl
  | cons r rows =>
      rw [spanOf, earliest_eq_head h, spanOfEnds, List.head?_cons, Option.bind_some,
        ← latest_eq_getLast h, Option.map_some]

/-! ### All spans -/

/-- Spans do not depend on the order in which rows were inserted. -/
theorem spans_eq_of_perm {t : Tables} (ht : t.Keyed) {owner : String} {name : Option String}
    (h : rows.Perm (t.responses.filter (t.isOwned owner name))) (hasc : Ascending rows) :
    t.spans owner name = (respondents rows).filterMap fun u => spanOf (answersOf rows u) := by
  rw [spans, inScope_eq ht, ← respondents_eq_of_perm h]
  refine List.filterMap_congr fun u _ => ?_
  exact (spanOf_eq_of_perm (h.filter _) (ascending_answersOf hasc u).nodup
    fun r hr => (mem_answersOf.mp hr).2).symm

/-- A run that is not empty has a span, of its own respondent. -/
theorem exists_spanOfEnds {u : String} (hu : u ∈ respondents rows) :
    ∃ span, spanOfEnds (answersOf rows u) = some span ∧ span.respondent = u := by
  cases hrun : answersOf rows u with
  | nil => exact absurd hrun (answersOf_ne_nil hu)
  | cons r run =>
      have hr : r ∈ answersOf rows u := hrun ▸ List.mem_cons_self
      rw [spanOfEnds, List.head?_cons, Option.bind_some,
        List.getLast?_eq_some_getLast (List.cons_ne_nil r run)]
      exact ⟨_, rfl, (mem_answersOf.mp hr).2⟩

/-- If each respondent has a span of his own, the spans are as many, in the same order. -/
theorem filterMap_spans {us : List String} {span? : String → Option Span}
    (h : ∀ u ∈ us, ∃ span, span? u = some span ∧ span.respondent = u) :
    us.map span? = (us.filterMap span?).map some ∧
      (us.filterMap span?).map Span.respondent = us := by
  induction us with
  | nil => exact ⟨rfl, rfl⟩
  | cons u us ih =>
      obtain ⟨⟨span, hspan, hrespondent⟩, hrest⟩ := List.forall_mem_cons.mp h
      obtain ⟨hspans, hrespondents⟩ := ih hrest
      rw [List.map_cons, List.filterMap_cons, hspan, List.map_cons, List.map_cons, hspans,
        hrespondents, hrespondent]
      exact ⟨rfl, rfl⟩

/-- Every run has a span, and the spans are those of the respondents. -/
theorem map_spanOfEnds {t : Tables} (ht : t.Keyed) {owner : String} {name : Option String}
    (h : rows.Perm (t.responses.filter (t.isOwned owner name))) (hasc : Ascending rows) :
    (runsOf rows).map spanOfEnds = (t.spans owner name).map some ∧
      (t.spans owner name).map Span.respondent = respondents rows := by
  have hspans : t.spans owner name
      = (respondents rows).filterMap fun u => spanOfEnds (answersOf rows u) := by
    rw [spans_eq_of_perm ht h hasc]
    exact List.filterMap_congr fun u _ => spanOf_eq (ascending_answersOf hasc u)
  rw [runsOf_eq hasc, hspans, List.map_map]
  exact filterMap_spans fun u hu => exists_spanOfEnds hu

theorem SameAnswers.spans {t t' : Tables} (h : t.SameAnswers t') (owner : String)
    (name : Option String) : t.spans owner name = t'.spans owner name := by
  rw [Tables.spans, Tables.spans, h.inScope]

/-- The responses in scope, sorted, ascend. -/
theorem ascending_owned {t : Tables} (ht : t.Keyed) (owner : String) (name : Option String) :
    Ascending ((t.responses.filter (t.isOwned owner name)).mergeSort isBefore) :=
  ascending_mergeSort (ht.cursors.sublist (List.filter_sublist.map _))

end Tables

end ResponseExport.Store

namespace ResponseExport.Export.Trace

open Survey (Response Cursor Filter Span)
open Store (Tables Ascending runsOf spanOfEnds answersOf)

/-- **Spans are read off the stream.** Take keyed tables, an owner, and the name of a survey or
none. There is one order of the responses in scope that strictly ascends. If a name is given, it
is the order in which streams deliver them. Cut into runs, these rows are the rows of each
respondent in turn, respondents ascend, and the spans that the store answers with say what the
first and the last row of each run say. -/
theorem spans_eq_runs {t : Tables} (ht : t.Keyed) {store : Store}
    (hstore : t.SameAnswers store.tables) (hopen : store.isOpen = true) (owner : String)
    (name : Option String) :
    ∃ rows spans,
      rows.Perm (t.responses.filter (t.isOwned owner name)) ∧ Ascending rows ∧
      (∀ survey, name = some survey → Delivers t (.survey owner survey) rows) ∧
      store.fetchSpans owner name = .ok spans ∧
      runsOf rows = (spans.map Span.respondent).map (answersOf rows) ∧
      (spans.map Span.respondent).Pairwise (fun u v => Text.order u v = .lt) ∧
      (runsOf rows).map spanOfEnds = spans.map some := by
  have hperm := List.mergeSort_perm (t.responses.filter (t.isOwned owner name)) Tables.isBefore
  have hasc := Tables.ascending_owned ht owner name
  obtain ⟨hspans, hrespondents⟩ := Tables.map_spanOfEnds ht hperm hasc
  refine ⟨_, t.spans owner name, hperm, hasc, ?_, ?_, ?_, ?_, hspans⟩
  · rintro survey rfl
    have hdelivers := delivers_listing ht (.survey owner survey)
    rwa [Tables.listing, Tables.wanted_eq ht] at hdelivers
  · rw [Store.fetchSpans, if_pos hopen, hstore.spans]
  · rw [hrespondents]
    exact Tables.runsOf_eq hasc
  · rw [hrespondents]
    exact Tables.pairwise_respondents _

/-- Two versions of a survey, answered by one respondent at one time: both answer the first
question, and one answers a second one. Another respondent comes first in the order of texts. -/
def tiedAnswers : Tables where
  users := [⟨"o", "owner@example.com"⟩]
  surveys := [⟨"s1", "o", "Diet", "d", "2024", none⟩, ⟨"s2", "o", "Diet", "d", "2025", none⟩]
  responses := [("s1", "u2", "q2"), ("s2", "u2", "q1"), ("s1", "u10", "q1"), ("s1", "u2", "q1")].map
    fun (survey, u, question) =>
      { survey, respondent := u, question, time := "2024-03-01T10:00:00Z"
        answer := some (question ++ survey) }

theorem keyed_tiedAnswers : tiedAnswers.Keyed where
  userIds := by decide
  emails := by decide
  surveyIds := by decide
  owners := by decide
  cursors := by decide
  answered := by decide

/-- Where times are the same, the question decides, and then the survey. -/
theorem spans_eq_runs_tied :
    tiedAnswers.Keyed ∧ ∃ rows,
      Delivers tiedAnswers (.survey "owner@example.com" "Diet") rows ∧
      (runsOf rows).map spanOfEnds = [
        some ⟨"u10", "s1", "2024-03-01T10:00:00Z", some "q1s1", "s1", "2024-03-01T10:00:00Z",
          some "q1s1"⟩,
        some ⟨"u2", "s1", "2024-03-01T10:00:00Z", some "q1s1", "s1", "2024-03-01T10:00:00Z",
          some "q2s1"⟩] := by
  have hanswers : tiedAnswers.SameAnswers (Store.mk true tiedAnswers).tables := ⟨rfl, rfl, rfl⟩
  obtain ⟨rows, spans, -, -, hdelivers, hspans, -, -, hends⟩ :=
    spans_eq_runs keyed_tiedAnswers hanswers rfl "owner@example.com" (some "Diet")
  refine ⟨keyed_tiedAnswers, rows, hdelivers _ rfl, ?_⟩
  rw [Store.fetchSpans, if_pos rfl, Except.ok.injEq] at hspans
  have hscope : tiedAnswers.responses.filter (tiedAnswers.isOwned "owner@example.com" (some "Diet"))
      = tiedAnswers.responses := by
    decide +kernel
  have hrespondents : Tables.respondents tiedAnswers.responses = ["u10", "u2"] := by
    cbv
  rw [hends, ← hspans, Tables.spans, Tables.inScope_eq keyed_tiedAnswers, hscope, hrespondents]
  decide +kernel

end ResponseExport.Export.Trace
