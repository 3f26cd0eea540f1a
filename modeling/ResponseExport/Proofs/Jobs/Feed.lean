import ResponseExport.Proofs.Callers.Rows
import ResponseExport.Proofs.Jobs.Frame
import ResponseExport.Proofs.Time.Order

/-!
# `ResponseExport.Proofs.Jobs.Feed`: the status feed is chronological

A user is shown the user's jobs, those first that were written last. The table sorts by
texts, and it is the history of the table that says when a job was written. They are
brought together here for every history of operations, whatever the clock shows at
each of them, as long as it shows years of four digits. It may be set back in between.

* `lastWrite` is the time of the last operation that wrote the row of a job. An
  operation may have nothing to write: a job that is over is not moved, and an id that
  is taken gets no second job (`JobOp.writes`).
* `updated_run` carries it along a history: every row holds the text of this time.
* `IsFeed` says what a feed is, in terms of jobs and instants. `isFeed_listJobs` is the
  main result. The jobs of one survey are a part of the feed, in the same order.

Rows that are shown were sorted, and then read one by one. So statements about jobs
are statements about rows, by way of `JobRow.shown`.
-/

set_option autoImplicit false

namespace ResponseExport.Store

open Export (Job Status)
open Time (Instant)

/-! ### When a row was written -/

namespace JobOp

/-- Does an operation write a row that it finds? -/
def touches : JobOp → JobRow → Bool
  | create .., _ => false
  | move _ id _, j => j.id == id && j.isUnfinished
  | finish _ id .., j => j.id == id
  | failAll _, j => j.isUnfinished

/-- Does an operation add the row of this id? -/
def adds (s : Store) (id : String) : JobOp → Bool
  | create _ new .. => new == id && !s.tables.jobs.any fun j => j.id == id
  | _ => false

/-- Does an operation write the row of this id? -/
def writes (s : Store) (id : String) (op : JobOp) : Bool :=
  op.adds s id || s.tables.jobs.any fun j => j.id == id && op.touches j

variable {s : Store} {op : JobOp} {j : JobRow}

theorem updated_of_touches (h : op.touches j = true) : (op.rewrite j).updated = op.time := by
  cases op with
  | create now id user survey => cases h
  | move now id status =>
      rw [touches, Bool.and_eq_true, beq_iff_eq] at h
      rw [rewrite, if_pos h]
      rfl
  | finish now id link file =>
      rw [rewrite, if_pos (beq_iff_eq.mp h)]
      rfl
  | failAll now =>
      rw [touches] at h
      rw [rewrite, if_pos h]
      rfl

theorem rewrite_of_not_touches (h : op.touches j = false) : op.rewrite j = j := by
  cases op with
  | create now id user survey => rfl
  | move now id status =>
      rw [touches, ← Bool.not_eq_true, Bool.and_eq_true, beq_iff_eq] at h
      exact if_neg h
  | finish now id link file => exact if_neg (beq_eq_false_iff_ne.mp h)
  | failAll now => exact if_neg (Bool.eq_false_iff.mp h)

/-- Only one row has the id of this one, so the id is written if this row is. -/
theorem any_touches (hids : UniqueIds s) (hj : j ∈ s.tables.jobs) (op : JobOp) :
    (s.tables.jobs.any fun k => k.id == j.id && op.touches k) = op.touches j := by
  rw [Bool.eq_iff_iff, List.any_eq_true]
  constructor
  · rintro ⟨k, hk, hwritten⟩
    obtain ⟨hid, htouches⟩ := Bool.and_eq_true_iff.mp hwritten
    rwa [List.inj_on_of_nodup_map hids hk hj (beq_iff_eq.mp hid)] at htouches
  · intro htouches
    exact ⟨j, hj, Bool.and_eq_true_iff.mpr ⟨beq_self_eq_true _, htouches⟩⟩

/-- A row behind an operation was added by it, or is a rewritten one. -/
theorem adds_or_rewrite (hs : s.isOpen = true) (op : JobOp) (hj : j ∈ (apply s op).tables.jobs) :
    op.adds s j.id = true ∧ j.updated = op.time ∨
      op.adds s j.id = false ∧ ∃ before ∈ s.tables.jobs, j = op.rewrite before := by
  cases hop : op.isUpdate with
  | true =>
      rw [jobs_apply hs op hop] at hj
      obtain ⟨before, hbefore, rfl⟩ := List.mem_map.mp hj
      refine Or.inr ⟨?_, before, hbefore, rfl⟩
      cases op with
      | create now id user survey => cases hop
      | _ => rfl
  | false =>
      cases op with
      | create now id user survey =>
          rw [apply] at hj
          have hkept (hj : j ∈ s.tables.jobs) :
              (create now id user survey).adds s j.id = false := by
            have htaken : (s.tables.jobs.any fun k => k.id == j.id) = true :=
              List.any_eq_true.mpr ⟨j, hj, beq_self_eq_true _⟩
            rw [adds, htaken]
            exact Bool.and_false _
          by_cases hrow : s.HasJob id
          · rw [createJob_taken hs hrow] at hj
            exact Or.inr ⟨hkept hj, j, hj, rfl⟩
          · rw [(createJob_new hs hrow now user survey).1] at hj
            rcases List.mem_append.mp hj with hj | hj
            · exact Or.inr ⟨hkept hj, j, hj, rfl⟩
            · obtain rfl := List.mem_singleton.mp hj
              refine Or.inl ⟨?_, rfl⟩
              have hfree : (s.tables.jobs.any fun j => j.id == id) = false := by
                rw [List.any_eq_false]
                exact fun k hk hid => hrow ⟨k, hk, beq_iff_eq.mp hid⟩
              rw [adds, hfree, beq_self_eq_true]
              rfl
      | _ => cases hop

/-- One operation: a row that it writes gets its time, and any other was there before. -/
theorem updated_apply (hs : s.isOpen = true) (hids : UniqueIds s) (op : JobOp)
    (hj : j ∈ (apply s op).tables.jobs) :
    if op.writes s j.id then j.updated = op.time
    else ∃ before ∈ s.tables.jobs, before.id = j.id ∧ before.updated = j.updated := by
  rcases adds_or_rewrite hs op hj with ⟨hadds, htime⟩ | ⟨hadds, before, hbefore, rfl⟩
  · rw [writes, hadds, Bool.true_or, if_pos rfl]
    exact htime
  · rw [writes, hadds, Bool.false_or, op.rewrite_id, any_touches hids hbefore]
    cases htouches : op.touches before with
    | true => exact updated_of_touches htouches
    | false => exact ⟨before, hbefore, rfl, by rw [rewrite_of_not_touches htouches]⟩

end JobOp

/-- An operation on jobs at an instant that a clock can show. It writes the text of the instant. -/
structure Timed where
  instant : Instant
  op : JobOp
  time_eq : op.time = instant.millisText
  reading : instant.IsReading

namespace Timed

/-- The store behind operations, one after the other. -/
def run (s : Store) (history : List Timed) : Store := JobOp.run s (history.map op)

end Timed

/-- When the row of this id was last written. -/
def lastWrite (id : String) : Store → List Timed → Option Instant
  | _, [] => none
  | s, w :: later =>
    (lastWrite id (JobOp.apply s w.op) later).or
      (if w.op.writes s id then some w.instant else none)

variable {s : Store}

/-- All operations: a row has the text of the instant at which it was last written, or it was there
before and was not written. -/
theorem updated_run (hs : s.isOpen = true) (hids : JobOp.UniqueIds s) (history : List Timed)
    {j : JobRow} (hj : j ∈ (Timed.run s history).tables.jobs) :
    match lastWrite j.id s history with
    | some t => t.IsReading ∧ j.updated = t.millisText
    | none => ∃ before ∈ s.tables.jobs, before.id = j.id ∧ before.updated = j.updated := by
  induction history generalizing s with
  | nil => exact ⟨j, hj, rfl, rfl⟩
  | cons w later ih =>
      have hlater := ih ((JobOp.isOpen_apply s w.op).trans hs) (JobOp.uniqueIds_apply hids w.op) hj
      rw [lastWrite]
      cases hlast : lastWrite j.id (JobOp.apply s w.op) later with
      | some t =>
          rw [hlast] at hlater
          exact hlater
      | none =>
          -- No later operation wrote the row, so it is as this one left it.
          rw [hlast] at hlater
          obtain ⟨before, hbefore, hid, hupdated⟩ := hlater
          have hstep := JobOp.updated_apply hs hids w.op hbefore
          rw [hid, hupdated] at hstep
          rw [Option.none_or]
          split at hstep
          · rename_i hwrites
            rw [if_pos hwrites]
            exact ⟨w.reading, hstep.trans w.time_eq⟩
          · rename_i hwrites
            rw [if_neg hwrites]
            exact hstep

/-- What is written can be read. -/
theorem usable_run (h : s.Usable) (history : List Timed) : (Timed.run s history).Usable := by
  induction history generalizing s with
  | nil => exact h
  | cons w later ih =>
      refine ih (JobOp.usable_apply h w.op ?_)
      rw [w.time_eq]
      exact ⟨_, Time.read_millisText_eq w.reading⟩

/-! ### What rows show -/

/-- The job that a row shows. A row that cannot be read shows none in particular. -/
def JobRow.shown (j : JobRow) : Job where
  id := j.id
  survey := j.survey
  user := j.user
  updated := (Instant.read j.updated).toOption.getD ⟨0, 0⟩
  status := (Status.ofText? j.status).getD .failed
  link := j.link
  file := j.file

theorem JobRow.job_eq_shown {j : JobRow} (h : j.IsReadable) : j.job = .ok j.shown := by
  obtain ⟨status, hstatus⟩ := h.status
  obtain ⟨t, ht⟩ := h.updated
  rw [job, shown, hstatus, ofText?_text, ht]
  rfl

theorem mapM_job {rows : List JobRow} (h : ∀ j ∈ rows, j.IsReadable) :
    rows.mapM JobRow.job = .ok (rows.map JobRow.shown) := by
  induction rows with
  | nil => rfl
  | cons j rows ih =>
      obtain ⟨hj, hrows⟩ := List.forall_mem_cons.mp h
      rw [List.mapM_cons, JobRow.job_eq_shown hj, ih hrows]
      rfl

/-! ### The feed -/

/-- Does a job come before another in a feed? It was written later, or at the same time and has the
smaller id. -/
def Precedes (a b : Job) : Prop :=
  b.updated.order a.updated = .lt ∨ a.updated = b.updated ∧ Text.order a.id b.id = .lt

/-- The feed of a user: every job of the user once, as it is found under its id, with the time at
which it was last written, and those first that were written last. -/
structure IsFeed (s : Store) (written : String → Option Instant) (user : String)
    (feed : List Job) : Prop where
  ids : (feed.map Job.id).Perm ((s.tables.jobs.filter fun j => j.user == user).map JobRow.id)
  nodup : (feed.map Job.id).Nodup
  found : ∀ job ∈ feed, s.findJob job.id = .ok job ∧ job.user = user
  updated : ∀ job ∈ feed, ∃ t, written job.id = some t ∧ job.updated = t.toMillis
  inOrder : feed.Pairwise Precedes

/-- The rows of a table that operations have written: they can be read, and show when each was last
written. -/
structure Recorded (s : Store) (written : String → Option Instant) : Prop where
  usable : s.Usable
  updated : ∀ j ∈ s.tables.jobs, ∃ t,
    written j.id = some t ∧ t.IsReading ∧ j.updated = t.millisText

variable {written : String → Option Instant} (h : s.Recorded written)

include h

theorem Recorded.updated_shown {j : JobRow} (hj : j ∈ s.tables.jobs) :
    ∃ t, written j.id = some t ∧ t.IsReading ∧ j.updated = t.millisText ∧
      j.shown.updated = t.toMillis := by
  obtain ⟨t, hwritten, ht, hupdated⟩ := h.updated j hj
  refine ⟨t, hwritten, ht, hupdated, ?_⟩
  rw [JobRow.shown, hupdated, Time.read_millisText_eq ht]
  rfl

/-- Rows in order show jobs in order. -/
theorem Recorded.precedes {a b : JobRow} (ha : a ∈ s.tables.jobs) (hb : b ∈ s.tables.jobs)
    (hne : a.id ≠ b.id) (hle : (feedOrder a b).isLE = true) : Precedes a.shown b.shown := by
  obtain ⟨t, -, ht, hupdated, hshown⟩ := h.updated_shown ha
  obtain ⟨t', -, ht', hupdated', hshown'⟩ := h.updated_shown hb
  have htexts : Text.order b.updated a.updated = t'.toMillis.order t.toMillis := by
    rw [hupdated, hupdated', Time.order_millisText ht' ht]
  have hids : Text.order a.id b.id ≠ .eq := fun heq => hne (Text.order_eq_eq.mp heq)
  rw [feedOrder, compareLex] at hle
  rw [Precedes, hshown, hshown', ← htexts]
  cases hupdates : Text.order b.updated a.updated with
  | lt => exact Or.inl rfl
  | gt =>
      rw [hupdates] at hle
      cases hle
  | eq =>
      refine Or.inr ⟨?_, ?_⟩
      · -- Rows with the same text show the same time.
        rw [← hshown, ← hshown', JobRow.shown, JobRow.shown, Text.order_eq_eq.mp hupdates]
      · rw [hupdates] at hle
        exact (Ordering.isLE_iff_eq_lt_or_eq_eq.mp hle).resolve_right hids

/-- What is listed is what the sorted rows show. -/
theorem Recorded.listJobs_eq (user : String) (survey : Option String) :
    s.listJobs user survey = .ok ((sorted feedOrder ((s.tables.jobsOf user).filter fun j =>
      match survey with
      | some survey => j.survey == survey
      | none => true)).map JobRow.shown) := by
  rw [listJobs, if_pos h.usable.isOpen, Tables.listJobs_eq_sorted]
  refine mapM_job fun j hj => ?_
  have hmine := List.mem_of_mem_filter ((sorted_perm _ _).mem_iff.mp hj)
  exact h.usable.readable j (List.mem_of_mem_filter hmine)

theorem Recorded.isFeed (user : String) :
    s.IsFeed written user ((sorted feedOrder (s.tables.jobsOf user)).map JobRow.shown) := by
  have hperm := sorted_perm feedOrder (s.tables.jobsOf user)
  have hids : (((sorted feedOrder (s.tables.jobsOf user)).map JobRow.shown).map Job.id)
      = (sorted feedOrder (s.tables.jobsOf user)).map JobRow.id := List.map_map
  have hmem : ∀ j ∈ sorted feedOrder (s.tables.jobsOf user), j ∈ s.tables.jobs ∧ j.user = user := by
    intro j hj
    obtain ⟨hj, huser⟩ := List.mem_filter.mp (hperm.mem_iff.mp hj)
    exact ⟨hj, beq_iff_eq.mp huser⟩
  have hnodup : ((sorted feedOrder (s.tables.jobsOf user)).map JobRow.id).Nodup :=
    (hperm.map _).nodup_iff.mpr (h.usable.uniqueIds.sublist (List.filter_sublist.map _))
  refine ⟨hids ▸ hperm.map _, hids ▸ hnodup, ?_, ?_, ?_⟩
  · intro job hjob
    obtain ⟨j, hj, rfl⟩ := List.mem_map.mp hjob
    obtain ⟨hj, huser⟩ := hmem j hj
    refine ⟨?_, huser⟩
    show s.findJob j.id = _
    rw [findJob, if_pos h.usable.isOpen, Tables.findJob,
      JobOp.jobRow?_of_mem h.usable.uniqueIds hj]
    exact JobRow.job_eq_shown (h.usable.readable j hj)
  · intro job hjob
    obtain ⟨j, hj, rfl⟩ := List.mem_map.mp hjob
    obtain ⟨t, hwritten, -, -, hshown⟩ := h.updated_shown (hmem j hj).1
    exact ⟨t, hwritten, hshown⟩
  · have hdiffer := List.pairwise_map.mp hnodup
    refine List.pairwise_map.mpr (((pairwise_sorted _).and hdiffer).imp_of_mem ?_)
    intro a b ha hb hab
    exact h.precedes (hmem a ha).1 (hmem b hb).1 hab.2 hab.1

/-- The jobs of one survey are a part of the feed. -/
theorem Recorded.listJobs_survey (user survey : String) :
    s.listJobs user (some survey) = .ok
      (((sorted feedOrder (s.tables.jobsOf user)).map JobRow.shown).filter fun job =>
        job.survey == survey) := by
  have hpick : (fun job : Job => job.survey == survey) ∘ JobRow.shown
      = fun j => j.survey == survey := rfl
  rw [h.listJobs_eq, List.filter_map, filter_sorted, hpick]

omit h

/-- Operations on an empty table leave a record of when they wrote. -/
theorem recorded_run (hs : s.isOpen = true) (hempty : s.tables.jobs = []) (history : List Timed) :
    (Timed.run s history).Recorded fun id => lastWrite id s history := by
  have husable : s.Usable := by
    refine ⟨hs, ?_, ?_⟩
    · rw [JobOp.UniqueIds, hempty]
      exact List.nodup_nil
    · rw [hempty]
      exact List.forall_mem_nil _
  refine ⟨usable_run husable history, fun j hj => ?_⟩
  have hrun := updated_run hs husable.uniqueIds history hj
  split at hrun
  · rename_i t hlast
    exact ⟨t, hlast, hrun⟩
  · obtain ⟨before, hbefore, -⟩ := hrun
    rw [hempty] at hbefore
    cases hbefore

/-- **The status feed is chronological.** -/
theorem isFeed_listJobs (hs : s.isOpen = true) (hempty : s.tables.jobs = [])
    (history : List Timed) :
    (∀ user, ∃ feed, (Timed.run s history).listJobs user none = .ok feed ∧
        (Timed.run s history).IsFeed (fun id => lastWrite id s history) user feed ∧
        ∀ survey, (Timed.run s history).listJobs user (some survey)
          = .ok (feed.filter fun job => job.survey == survey)) ∧
      ∀ t t' : Instant, t.IsReading → t'.IsReading →
        Text.order t.millisText t'.millisText = t.toMillis.order t'.toMillis := by
  have h := recorded_run hs hempty history
  refine ⟨fun user => ⟨_, ?_, h.isFeed user, h.listJobs_survey user⟩,
    fun _ _ => Time.order_millisText⟩
  rw [h.listJobs_eq, List.filter_true]

/-- Two jobs are created as March begins, in the same millisecond. Then the clock is set back to the
end of 29 February, where a third one is created and the second is taken up. By the clock, the first
one was written last. -/
theorem isFeed_listJobs_setBack :
    let march : Instant := ⟨1709251200, 400000⟩
    let leapDay : Instant := ⟨1709251199, 999999999⟩
    let history : List Timed :=
      [⟨march, .create march.millisText "b" "u" "One", rfl, by decide⟩,
        ⟨march, .create march.millisText "a" "u" "Two", rfl, by decide⟩,
        ⟨leapDay, .create leapDay.millisText "c" "u" "Two", rfl, by decide⟩,
        ⟨leapDay, .move leapDay.millisText "a" .processing, rfl, by decide⟩]
    (∃ feed, (Timed.run {} history).listJobs "u" none = .ok feed ∧
        (Timed.run {} history).IsFeed (fun id => lastWrite id {} history) "u" feed ∧
        ∀ survey, (Timed.run {} history).listJobs "u" (some survey)
          = .ok (feed.filter fun job => job.survey == survey)) ∧
      ["a", "b", "c"].map (fun id => lastWrite id {} history)
        = [some leapDay, some march, some leapDay] ∧
      Text.order leapDay.millisText march.millisText = .lt := by
  intro march leapDay history
  obtain ⟨hfeeds, htexts⟩ := isFeed_listJobs (s := {}) rfl rfl history
  exact ⟨hfeeds "u", by decide +kernel, htexts leapDay march (by decide) (by decide)⟩

end ResponseExport.Store
