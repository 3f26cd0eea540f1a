import ResponseExport.Proofs.Jobs.Lifecycle
import ResponseExport.Proofs.Time.ReadBack

/-!
# `ResponseExport.Proofs.Jobs.Usable`: a table of jobs that does not fail

Every operation on the table of jobs ends with a look at the row that it was about.
So it can fail even when it has written something: the store may be closed, the row
may not be there, or what stands in it may not be readable.

`Store.Usable` says that the first and the last of these do not happen. It is kept
by all operations that write a readable time (`usable_apply`), and then moving a job
and marking it done succeed if the job is there (`moveJob_eq`, `finishJob_eq`), and
creating one succeeds if its id is not taken (`createJob_cases`).

An operation never turns a finished job into an unfinished one, and never changes
for whom or for what a job was created (`isUnfinished_of_rewrite`,
`request_rewrite`).
-/

set_option autoImplicit false

namespace ResponseExport

/-- The store with these jobs, and nothing else changed. -/
def Store.withJobs (s : Store) (jobs : List Store.JobRow) : Store :=
  { s with tables := { s.tables with jobs } }

namespace Store

open Export (Job Status Request)

/-- A time that can be read back. -/
def IsTime (text : String) : Prop := ∃ t, Time.Instant.read text = .ok t

theorem isTime_millisText {t : Time.Instant} (ht : t.HasShortYear) : IsTime t.millisText :=
  ⟨_, Time.read_millisText ht⟩

theorem ofText?_text (status : Status) : Status.ofText? status.text = some status := by
  cases status <;> decide

namespace JobRow

variable {j : JobRow}

/-- The request that a job was created for. -/
def request (j : JobRow) : Request := ⟨j.id, j.user, j.survey⟩

/-- The row of a job that was just created. -/
def new (now : String) (r : Request) : JobRow :=
  ⟨r.id, r.survey, r.user, now, Status.pending.text, none, none⟩

/-- The status is known, and the time can be read. -/
structure IsReadable (j : JobRow) : Prop where
  status : ∃ status : Status, j.status = status.text
  updated : IsTime j.updated

/-- What can be read is read. -/
theorem exists_job (h : j.IsReadable) : ∃ job, j.job = .ok job := by
  obtain ⟨status, hstatus⟩ := h.status
  obtain ⟨t, ht⟩ := h.updated
  rw [job, hstatus, ofText?_text]
  dsimp only
  rw [ht]
  exact ⟨_, rfl⟩

/-- A job that is not unfinished is done, or it has failed. -/
theorem terminal_of_finished (h : j.IsReadable) (hover : j.isUnfinished = false) :
    j.status = Status.done.text ∨ j.status = Status.failed.text := by
  obtain ⟨status, hstatus⟩ := h.status
  rw [isUnfinished, hstatus] at hover
  rw [hstatus]
  cases status with
  | pending => exact absurd hover (by decide)
  | processing => exact absurd hover (by decide)
  | done => exact Or.inl rfl
  | failed => exact Or.inr rfl

end JobRow

/-- The store is open, no two jobs have the same id, and every row can be read. -/
structure Usable (s : Store) : Prop where
  isOpen : s.isOpen = true
  uniqueIds : JobOp.UniqueIds s
  readable : ∀ j ∈ s.tables.jobs, j.IsReadable

/-- Is there a job of this id? -/
def HasJob (s : Store) (id : String) : Prop := ∃ j ∈ s.tables.jobs, j.id = id

/-- A row that is there is found, whichever it is. -/
theorem exists_findJob {t : Tables} {id : String} (hreadable : ∀ j ∈ t.jobs, j.IsReadable)
    (hrow : ∃ j ∈ t.jobs, j.id = id) : ∃ job, t.findJob id = .ok job := by
  obtain ⟨j, hj, hid⟩ := hrow
  obtain ⟨found, hfound⟩ := Option.isSome_iff_exists.mp
    (List.find?_isSome (p := fun j : JobRow => j.id == id).mpr ⟨j, hj, by simpa using hid⟩)
  obtain ⟨job, hjob⟩ := JobRow.exists_job (hreadable found (List.mem_of_find?_eq_some hfound))
  refine ⟨job, ?_⟩
  rw [Tables.findJob, Tables.jobRow?, hfound]
  exact hjob

/-- A row that is not there is not found. -/
theorem findJob_of_not_hasJob {t : Tables} {id : String} (hrow : ¬ ∃ j ∈ t.jobs, j.id = id) :
    t.findJob id = .error (.store (.notFound "export_status" id)) := by
  have hnone : t.jobRow? id = none := by
    rw [Tables.jobRow?, List.find?_eq_none]
    intro j hj hid
    exact hrow ⟨j, hj, by simpa using hid⟩
  rw [Tables.findJob, hnone]

namespace JobOp

variable {s : Store} {j : JobRow} {op : JobOp}

/-- The time that an operation writes. -/
def time : JobOp → String
  | create now .. => now
  | move now .. => now
  | finish now .. => now
  | failAll now => now

/-- Does an operation go through the rows, and add none? -/
def isUpdate : JobOp → Bool
  | create .. => false
  | _ => true

/-! ### What becomes of a row -/

theorem request_rewrite (op : JobOp) (j : JobRow) : (op.rewrite j).request = j.request := by
  cases op <;> simp only [rewrite] <;> split <;> rfl

/-- No operation takes a finished job up again. -/
theorem isUnfinished_of_rewrite (h : (op.rewrite j).isUnfinished = true) :
    j.isUnfinished = true := by
  cases op with
  | create now id user survey => exact h
  | move now id status =>
      rw [rewrite] at h
      split at h
      · rename_i hmoved
        exact hmoved.2
      · exact h
  | finish now id link file =>
      rw [rewrite] at h
      split at h
      · exact absurd h (by simp [JobRow.isUnfinished, Status.text])
      · exact h
  | failAll now =>
      rw [rewrite] at h
      split at h
      · rename_i hunfinished
        exact hunfinished
      · exact h

/-- A job that is failed or marked done is not unfinished any more. -/
theorem isUnfinished_rewrite_failed {id : String} (hid : j.id = id) (now : String) :
    ((move now id .failed).rewrite j).isUnfinished = false := by
  by_cases hunfinished : j.isUnfinished = true
  · rw [rewrite, if_pos ⟨hid, hunfinished⟩]
    rfl
  · rw [rewrite, if_neg fun h => hunfinished h.2]
    exact Bool.eq_false_iff.mpr hunfinished

theorem isUnfinished_rewrite_finish {id : String} (hid : j.id = id) (now link file : String) :
    ((finish now id link file).rewrite j).isUnfinished = false := by
  rw [rewrite, if_pos hid]
  rfl

theorem isUnfinished_rewrite_failAll (now : String) (j : JobRow) :
    ((failAll now).rewrite j).isUnfinished = false := by
  by_cases hunfinished : j.isUnfinished = true
  · rw [rewrite, if_pos hunfinished]
    rfl
  · rw [rewrite, if_neg hunfinished]
    exact Bool.eq_false_iff.mpr hunfinished

/-- Failing a job leaves what is done, and makes nothing done. -/
theorem status_rewrite_failed (now id : String) (j : JobRow) :
    ((move now id .failed).rewrite j).status = Status.failed.text ∨
      ((move now id .failed).rewrite j).status = j.status := by
  rw [rewrite]
  split
  · exact Or.inl rfl
  · exact Or.inr rfl

theorem isReadable_rewrite (op : JobOp) (hj : j.IsReadable) (htime : IsTime op.time) :
    (op.rewrite j).IsReadable := by
  cases op with
  | create now id user survey => exact hj
  | move now id status =>
      rw [rewrite]
      split
      · exact ⟨⟨status, rfl⟩, htime⟩
      · exact hj
  | finish now id link file =>
      rw [rewrite]
      split
      · exact ⟨⟨.done, rfl⟩, htime⟩
      · exact hj
  | failAll now =>
      rw [rewrite]
      split
      · exact ⟨⟨.failed, rfl⟩, htime⟩
      · exact hj

/-- A job that is not done has failed when it is marked failed: it was unfinished and is not any
more, or it had failed before. -/
theorem status_eq_of_failed {now id : String} (hj : j.IsReadable) (hnow : IsTime now)
    (hid : j.id = id) (hnot : j.status ≠ Status.done.text) :
    ((move now id .failed).rewrite j).status = Status.failed.text := by
  have hreadable := isReadable_rewrite (move now id .failed) hj hnow
  rcases JobRow.terminal_of_finished hreadable (isUnfinished_rewrite_failed hid now) with
    hdone | hfailed
  · rcases status_rewrite_failed now id j with hstatus | hstatus
    · exact hstatus
    · exact absurd (hstatus.symm.trans hdone) hnot
  · exact hfailed

/-! ### What becomes of the table -/

/-- An operation that goes through the rows changes nothing but rows. -/
theorem apply_eq_withJobs (hs : s.isOpen = true) (op : JobOp) (hop : op.isUpdate = true) :
    apply s op = s.withJobs (s.tables.jobs.map op.rewrite) := by
  cases op with
  | create now id user survey => cases hop
  | move now id status =>
      rw [apply, moveJob, if_pos hs]
      rfl
  | finish now id link file =>
      rw [apply, finishJob, if_pos hs]
      rfl
  | failAll now =>
      rw [apply, failJobs, if_pos hs]
      rfl

theorem jobs_apply (hs : s.isOpen = true) (op : JobOp) (hop : op.isUpdate = true) :
    (apply s op).tables.jobs = s.tables.jobs.map op.rewrite := by
  rw [apply_eq_withJobs hs op hop]
  rfl

theorem mem_apply_of_mem (hs : s.isOpen = true) (op : JobOp) (hj : j ∈ s.tables.jobs) :
    op.rewrite j ∈ (apply s op).tables.jobs := by
  obtain ⟨added, hjobs, -, -⟩ := exists_jobs_apply hs op
  rw [hjobs]
  exact List.mem_append_left _ (List.mem_map_of_mem hj)

/-- A row behind an operation is a rewritten one, or one that was just created. -/
theorem mem_apply (hs : s.isOpen = true) (op : JobOp) (hj : j ∈ (apply s op).tables.jobs) :
    (∃ before ∈ s.tables.jobs, j = op.rewrite before) ∨
      ∃ now r, op.time = now ∧ j = .new now r := by
  cases hop : op.isUpdate with
  | true =>
      rw [jobs_apply hs op hop] at hj
      obtain ⟨before, hbefore, rfl⟩ := List.mem_map.mp hj
      exact Or.inl ⟨before, hbefore, rfl⟩
  | false =>
      cases op with
      | create now id user survey =>
          rw [apply, createJob, if_pos hs, Tables.createJob] at hj
          split at hj
          · rename_i htables
            split at htables
            · exact Or.inl ⟨j, hj, rfl⟩
            · cases htables
          · rename_i tables htables
            split at htables
            · cases htables
            · cases htables
              rcases List.mem_append.mp hj with hj | hj
              · exact Or.inl ⟨j, hj, rfl⟩
              · exact Or.inr ⟨now, ⟨id, user, survey⟩, rfl, List.mem_singleton.mp hj⟩
      | _ => cases hop

theorem usable_apply (h : s.Usable) (op : JobOp) (htime : IsTime op.time) :
    (apply s op).Usable := by
  refine ⟨(isOpen_apply s op).trans h.isOpen, uniqueIds_apply h.uniqueIds op, fun j hj => ?_⟩
  rcases mem_apply h.isOpen op hj with ⟨before, hbefore, rfl⟩ | ⟨now, r, rfl, rfl⟩
  · exact isReadable_rewrite op (h.readable before hbefore) htime
  · exact ⟨⟨.pending, rfl⟩, htime⟩

theorem hasJob_apply (hs : s.isOpen = true) (op : JobOp) (hop : op.isUpdate = true) (id : String) :
    HasJob (apply s op) id ↔ HasJob s id := by
  rw [HasJob, jobs_apply hs op hop]
  constructor
  · rintro ⟨_, hrewritten, hid⟩
    obtain ⟨j, hj, rfl⟩ := List.mem_map.mp hrewritten
    exact ⟨j, hj, (op.rewrite_id j).symm.trans hid⟩
  · rintro ⟨j, hj, hid⟩
    exact ⟨op.rewrite j, List.mem_map_of_mem hj, (op.rewrite_id j).trans hid⟩

end JobOp

/-! ### What the operations answer -/

variable {s : Store}

/-- Moving a job that is there succeeds. -/
theorem moveJob_eq (h : s.Usable) {now : String} (hnow : IsTime now) {id : String}
    (hrow : s.HasJob id) (status : Status) :
    ∃ job, s.moveJob now id status = (JobOp.apply s (.move now id status), .ok job) := by
  have hafter := JobOp.usable_apply h (.move now id status) hnow
  obtain ⟨job, hjob⟩ := exists_findJob hafter.readable
    ((JobOp.hasJob_apply h.isOpen (.move now id status) rfl id).mpr hrow)
  refine ⟨job, ?_⟩
  rw [JobOp.apply, moveJob, if_pos h.isOpen] at hjob ⊢
  exact Prod.ext rfl hjob

/-- Marking a job done that is there succeeds. -/
theorem finishJob_eq (h : s.Usable) {now : String} (hnow : IsTime now) {id : String}
    (hrow : s.HasJob id) (link file : String) :
    ∃ job, s.finishJob now id link file
      = (JobOp.apply s (.finish now id link file), .ok job) := by
  have hafter := JobOp.usable_apply h (.finish now id link file) hnow
  obtain ⟨job, hjob⟩ := exists_findJob hafter.readable
    ((JobOp.hasJob_apply h.isOpen (.finish now id link file) rfl id).mpr hrow)
  refine ⟨job, ?_⟩
  rw [JobOp.apply, finishJob, if_pos h.isOpen] at hjob ⊢
  exact Prod.ext rfl hjob

/-- Moving a job that is not there is answered with an error. -/
theorem moveJob_of_not_hasJob (hs : s.isOpen = true) {id : String} (hrow : ¬ s.HasJob id)
    (now : String) (status : Status) :
    ∃ e, s.moveJob now id status = (JobOp.apply s (.move now id status), .error e) := by
  have hnot := fun h =>
    hrow ((JobOp.hasJob_apply hs (.move now id status) rfl id).mp h)
  rw [JobOp.apply, moveJob, if_pos hs] at hnot ⊢
  exact ⟨_, Prod.ext rfl (findJob_of_not_hasJob hnot)⟩

/-- Creating a job fails if the id is taken. Otherwise there is one row more, and it is
pending. -/
theorem createJob_cases (h : s.Usable) {now : String} (hnow : IsTime now) (r : Request) :
    (s.HasJob r.id ∧ ∃ e, s.createJob now r.id r.user r.survey = (s, .error e)) ∨
    (¬ s.HasJob r.id ∧ ∃ job, s.createJob now r.id r.user r.survey
        = (JobOp.apply s (.create now r.id r.user r.survey), .ok job) ∧
      (JobOp.apply s (.create now r.id r.user r.survey)).tables.jobs
        = s.tables.jobs ++ [.new now r]) := by
  have hreadable := (JobOp.usable_apply h (.create now r.id r.user r.survey) hnow).readable
  rw [JobOp.apply] at hreadable ⊢
  unfold createJob at hreadable ⊢
  rw [if_pos h.isOpen] at hreadable ⊢
  unfold Tables.createJob at hreadable ⊢
  by_cases htaken : (s.tables.jobs.any fun j => j.id == r.id) = true
  · rw [if_pos htaken]
    obtain ⟨j, hj, hid⟩ := List.any_eq_true.mp htaken
    exact Or.inl ⟨⟨j, hj, by simpa using hid⟩, _, rfl⟩
  · rw [if_neg htaken] at hreadable ⊢
    refine Or.inr ⟨?_, ?_⟩
    · rintro ⟨j, hj, hid⟩
      exact htaken (List.any_eq_true.mpr ⟨j, hj, by simpa using hid⟩)
    obtain ⟨job, hjob⟩ : ∃ job,
        Tables.findJob { s.tables with jobs := s.tables.jobs ++ [.new now r] } r.id = .ok job :=
      exists_findJob hreadable
        ⟨.new now r, List.mem_append_right _ (List.mem_singleton.mpr rfl), rfl⟩
    exact ⟨job, Prod.ext rfl hjob, rfl⟩

end Store

end ResponseExport
