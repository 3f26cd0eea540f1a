import ResponseExport.Proofs.Jobs.Kept

/-!
# `ResponseExport.Proofs.Jobs.Frame`: what operations on jobs leave alone

An operation on the table of jobs is about one job, except for the one that fails all
unfinished jobs. `Framed` says for each of them which rows it may change and what it
answers if there is nothing to change, and that everything else in the store stays as it
is.

Two things hold along all histories. Ids are unique (`JobOp.uniqueIds_run`), so a change
to the rows of one id is a change to one row at most. And a link never comes without
a file, nor on a row that is not done (`JobRow.IsLinked`). The latter is kept because the
operations that write another status only look for rows that are pending or processing,
and such a row has neither (`JobRow.IsLinked.blank`).
-/

set_option autoImplicit false

namespace ResponseExport.Store

open Export (Status)

/-! ### Links and files -/

/-- The link and the file are both there or both missing, and they are only there if the job is
done. -/
structure JobRow.IsLinked (j : JobRow) : Prop where
  both : j.link.isSome = j.file.isSome
  done : j.link.isSome = true → j.status = Status.done.text

/-- A job that is not over has neither a link nor a file. -/
theorem JobRow.IsLinked.blank {j : JobRow} (h : j.IsLinked) (hunfinished : j.isUnfinished = true) :
    j.link = none ∧ j.file = none := by
  have hlink : j.link.isSome = false :=
    Bool.eq_false_iff.mpr fun hsome => status_ne_of_isUnfinished hunfinished (h.done hsome)
  have hfile : j.file.isSome = false := h.both ▸ hlink
  rw [← Option.isNone_iff_eq_none, ← Option.isNone_iff_eq_none, ← Option.not_isSome,
    ← Option.not_isSome, hlink, hfile]
  exact ⟨rfl, rfl⟩

/-- A row without link and file may have any status. -/
theorem JobRow.isLinked_of_none {j : JobRow} (hlink : j.link = none) (hfile : j.file = none) :
    j.IsLinked := by
  refine ⟨by rw [hlink, hfile], fun hsome => ?_⟩
  rw [hlink] at hsome
  cases hsome

namespace JobOp

variable {s : Store} {j : JobRow}

/-- Every operation keeps link and file together, on rows that are done. -/
theorem isLinked_rewrite (op : JobOp) (h : j.IsLinked) : (op.rewrite j).IsLinked := by
  cases op with
  | create now id user survey => exact h
  | move now id status =>
      rw [rewrite]
      split
      · rename_i hmoved
        obtain ⟨hlink, hfile⟩ := h.blank hmoved.2
        exact JobRow.isLinked_of_none hlink hfile
      · exact h
  | finish now id link file =>
      rw [rewrite]
      split
      · exact ⟨rfl, fun _ => rfl⟩
      · exact h
  | failAll now =>
      rw [rewrite]
      split
      · rename_i hunfinished
        obtain ⟨hlink, hfile⟩ := h.blank hunfinished
        exact JobRow.isLinked_of_none hlink hfile
      · exact h

theorem isLinked_apply (hs : s.isOpen = true) (h : ∀ j ∈ s.tables.jobs, j.IsLinked) (op : JobOp) :
    ∀ j ∈ (apply s op).tables.jobs, j.IsLinked := by
  intro j hj
  rcases mem_apply hs op hj with ⟨before, hbefore, rfl⟩ | ⟨now, r, -, rfl⟩
  · exact isLinked_rewrite op (h before hbefore)
  · exact JobRow.isLinked_of_none rfl rfl

theorem isLinked_run (hs : s.isOpen = true) (h : ∀ j ∈ s.tables.jobs, j.IsLinked)
    (ops : List JobOp) : ∀ j ∈ (run s ops).tables.jobs, j.IsLinked := by
  induction ops generalizing s with
  | nil => exact h
  | cons op ops ih => exact ih ((isOpen_apply s op).trans hs) (isLinked_apply hs h op)

/-! ### Rows of one id -/

/-- An operation that leaves every row leaves the store. -/
theorem apply_eq_self (hs : s.isOpen = true) {op : JobOp} (hop : op.isUpdate = true)
    (hrows : ∀ j ∈ s.tables.jobs, op.rewrite j = j) : apply s op = s := by
  rw [apply_eq_withJobs hs op hop, List.map_congr_left hrows, List.map_id']
  rfl

/-- An update of a job that is not there leaves the store. -/
theorem apply_of_unknown (hs : s.isOpen = true) {op : JobOp} (hop : op.isUpdate = true) {id : String}
    (hspares : ∀ j : JobRow, j.id ≠ id → op.rewrite j = j) (hrow : ¬ s.HasJob id) :
    apply s op = s :=
  apply_eq_self hs hop fun j hj => hspares j fun hid => hrow ⟨j, hj, hid⟩

/-- Moving one job spares all others. -/
theorem move_of_ne {now id : String} {status : Status} (hne : j.id ≠ id) :
    (move now id status).rewrite j = j := if_neg fun h => hne h.1

end JobOp

/-! ### What the operations answer -/

variable {s : Store}

/-- A job that is not there is neither moved nor found. -/
theorem moveJob_unknown (hs : s.isOpen = true) {id : String} (hrow : ¬ s.HasJob id) (now : String)
    (status : Status) :
    s.moveJob now id status = (s, .error (.store (.notFound "export_status" id))) := by
  have hanswer : s.moveJob now id status = (JobOp.apply s (.move now id status),
      (JobOp.apply s (.move now id status)).tables.findJob id) := by
    rw [JobOp.apply, moveJob, if_pos hs]
  have hsame : JobOp.apply s (.move now id status) = s :=
    JobOp.apply_of_unknown hs rfl (fun _ => JobOp.move_of_ne) hrow
  rw [hanswer, hsame, findJob_of_not_hasJob hrow]

/-- A job that is not there is neither marked done nor found. -/
theorem finishJob_unknown (hs : s.isOpen = true) {id : String} (hrow : ¬ s.HasJob id)
    (now link file : String) :
    s.finishJob now id link file = (s, .error (.store (.notFound "export_status" id))) := by
  have hanswer : s.finishJob now id link file = (JobOp.apply s (.finish now id link file),
      (JobOp.apply s (.finish now id link file)).tables.findJob id) := by
    rw [JobOp.apply, finishJob, if_pos hs]
  have hsame : JobOp.apply s (.finish now id link file) = s :=
    JobOp.apply_of_unknown hs rfl (fun _ => JobOp.finish_of_ne) hrow
  rw [hanswer, hsame, findJob_of_not_hasJob hrow]

/-- Under an id that is taken, no job is created. -/
theorem createJob_taken (hs : s.isOpen = true) {id : String} (hrow : s.HasJob id)
    (now user survey : String) :
    s.createJob now id user survey = (s, .error (.store (.engine
      (.refused 1555 "UNIQUE constraint failed: export_status.export_id")))) := by
  obtain ⟨j, hj, hid⟩ := hrow
  have htaken : (s.tables.jobs.any fun j => j.id == id) = true :=
    List.any_eq_true.mpr ⟨j, hj, by simpa using hid⟩
  rw [createJob, if_pos hs, Tables.createJob, if_pos htaken]

/-- Under a new id, one pending job is added, and it is what is answered. -/
theorem createJob_new (hs : s.isOpen = true) {id : String} (hrow : ¬ s.HasJob id)
    (now user survey : String) :
    (s.createJob now id user survey).1
        = s.withJobs (s.tables.jobs ++ [⟨id, survey, user, now, "pending", none, none⟩]) ∧
      ∀ t, Time.Instant.read now = .ok t →
        (s.createJob now id user survey).2 = .ok ⟨id, survey, user, t, .pending, none, none⟩ := by
  have hfree : ¬ (s.tables.jobs.any fun j => j.id == id) = true := by
    intro htaken
    obtain ⟨j, hj, hid⟩ := List.any_eq_true.mp htaken
    exact hrow ⟨j, hj, by simpa using hid⟩
  have hfound : (s.tables.jobs ++ [(⟨id, survey, user, now, "pending", none, none⟩ : JobRow)]).find?
      (fun j : JobRow => j.id == id) = some ⟨id, survey, user, now, "pending", none, none⟩ := by
    rw [List.find?_append, List.find?_eq_none.mpr fun j hj hid => hrow ⟨j, hj, by simpa using hid⟩]
    simp
  rw [createJob, if_pos hs, Tables.createJob, if_neg hfree]
  refine ⟨rfl, fun t ht => ?_⟩
  show (Tables.findJob _ id) = _
  rw [Tables.findJob, Tables.jobRow?]
  dsimp only [Status.text]
  rw [hfound]
  dsimp only
  have hstatus : Status.ofText? "pending" = some .pending := ofText?_text .pending
  rw [JobRow.job]
  dsimp only
  rw [hstatus, ht]

theorem JobRow.isUnfinished_iff {j : JobRow} :
    j.isUnfinished = true ↔ j.status = "pending" ∨ j.status = "processing" := by
  rw [isUnfinished, Bool.or_eq_true, beq_iff_eq, beq_iff_eq]

/-- Failing all unfinished jobs changes their status and time, and counts them. -/
theorem failJobs_eq (hs : s.isOpen = true) (now : String) :
    s.failJobs now
      = (s.withJobs (s.tables.jobs.map fun j =>
          if j.status = "pending" ∨ j.status = "processing" then
            { j with updated := now, status := "error" }
          else j),
        .ok (s.tables.jobs.countP fun j => j.status = "pending" ∨ j.status = "processing")) := by
  have hcases : JobRow.isUnfinished
      = fun j => decide (j.status = "pending" ∨ j.status = "processing") :=
    funext fun j => Bool.eq_iff_iff.mpr (JobRow.isUnfinished_iff.trans decide_eq_true_iff.symm)
  rw [failJobs, if_pos hs, hcases]
  refine Prod.ext ?_ rfl
  show s.withJobs _ = _
  refine congrArg _ (List.map_congr_left fun j _ => ?_)
  simp only [JobRow.isUnfinished_iff]
  rfl

/-- Behind that no job is unfinished. -/
theorem isUnfinished_failJobs (hs : s.isOpen = true) (now : String) :
    ∀ j ∈ (s.failJobs now).1.tables.jobs, j.isUnfinished = false := by
  intro j hj
  have hjobs := JobOp.jobs_apply hs (.failAll now) rfl
  rw [JobOp.apply] at hjobs
  rw [hjobs] at hj
  obtain ⟨before, -, rfl⟩ := List.mem_map.mp hj
  exact JobOp.isUnfinished_rewrite_failAll now before

/-- If no job is unfinished, there is none to fail. -/
theorem failJobs_of_finished (hs : s.isOpen = true)
    (hover : ∀ j ∈ s.tables.jobs, j.isUnfinished = false) (now : String) :
    s.failJobs now = (s, .ok 0) := by
  have hsame : JobOp.apply s (.failAll now) = s := by
    refine JobOp.apply_eq_self hs rfl fun j hj => if_neg ?_
    rw [hover j hj]
    decide
  have hcount : s.tables.jobs.countP JobRow.isUnfinished = 0 :=
    List.countP_eq_zero.mpr fun j hj => by rw [hover j hj]; decide
  rw [JobOp.apply, failJobs, if_pos hs] at hsame
  rw [failJobs, if_pos hs, hcount]
  exact Prod.ext hsame rfl

/-! ### All operations -/

/-- What operations on the jobs of a store change, and what they leave alone. -/
structure Framed (s : Store) : Prop where
  /-- No two jobs have the same id. -/
  ids : (s.tables.jobs.map JobRow.id).Nodup
  /-- Link and file come together, on jobs that are done. -/
  linked : ∀ j ∈ s.tables.jobs, j.IsLinked
  /-- Under a new id, one pending job without link and file is added. -/
  created : ∀ now id user survey, ¬ s.HasJob id →
    (s.createJob now id user survey).1
        = s.withJobs (s.tables.jobs ++ [⟨id, survey, user, now, "pending", none, none⟩]) ∧
      ∀ t, Time.Instant.read now = .ok t →
        (s.createJob now id user survey).2 = .ok ⟨id, survey, user, t, .pending, none, none⟩
  /-- Under an id that is taken, nothing is added. -/
  refused : ∀ now id user survey, s.HasJob id → s.createJob now id user survey
    = (s, .error (.store (.engine
        (.refused 1555 "UNIQUE constraint failed: export_status.export_id"))))
  /-- Moving a job changes no other row. -/
  moved : ∀ now id status, ∃ f : JobRow → JobRow,
    (s.moveJob now id status).1 = s.withJobs (s.tables.jobs.map f) ∧
      (∀ j, (f j).id = j.id) ∧ ∀ j, j.id ≠ id → f j = j
  /-- Marking a job done changes no other row. -/
  finished : ∀ now id link file, ∃ f : JobRow → JobRow,
    (s.finishJob now id link file).1 = s.withJobs (s.tables.jobs.map f) ∧
      (∀ j, (f j).id = j.id) ∧ ∀ j, j.id ≠ id → f j = j
  /-- A job that is not there is not found, and nothing changes. -/
  unknown : ∀ now id, ¬ s.HasJob id →
    (∀ status, s.moveJob now id status = (s, .error (.store (.notFound "export_status" id)))) ∧
      ∀ link file,
        s.finishJob now id link file = (s, .error (.store (.notFound "export_status" id)))
  /-- Unfinished jobs fail and are counted, and no others change. -/
  failed : ∀ now, s.failJobs now
    = (s.withJobs (s.tables.jobs.map fun j =>
        if j.status = "pending" ∨ j.status = "processing" then
          { j with updated := now, status := "error" }
        else j),
      .ok (s.tables.jobs.countP fun j => j.status = "pending" ∨ j.status = "processing"))
  /-- After that no job is unfinished, and there is nothing left to fail. -/
  swept : ∀ now, (∀ j ∈ (s.failJobs now).1.tables.jobs,
      j.status ≠ "pending" ∧ j.status ≠ "processing") ∧
    ∀ later, (s.failJobs now).1.failJobs later = ((s.failJobs now).1, .ok 0)

/-- **Operations on jobs keep to their rows.** This holds behind any operations on an open store
without jobs, and of any next operation. -/
theorem framed_run (hs : s.isOpen = true) (hempty : s.tables.jobs = []) (ops : List JobOp) :
    (JobOp.run s ops).Framed := by
  have hopen : (JobOp.run s ops).isOpen = true := (JobOp.isOpen_run s ops).trans hs
  have hids : JobOp.UniqueIds s := by
    rw [JobOp.UniqueIds, hempty]
    exact List.nodup_nil
  have hlinked : ∀ j ∈ s.tables.jobs, j.IsLinked := by
    rw [hempty]
    exact List.forall_mem_nil _
  refine {
    ids := JobOp.uniqueIds_run hids ops
    linked := JobOp.isLinked_run hs hlinked ops
    created := fun now id user survey hrow => createJob_new hopen hrow now user survey
    refused := fun now id user survey hrow => createJob_taken hopen hrow now user survey
    moved := ?_
    finished := ?_
    unknown := fun now id hrow =>
      ⟨moveJob_unknown hopen hrow now, finishJob_unknown hopen hrow now⟩
    failed := failJobs_eq hopen
    swept := ?_ }
  · intro now id status
    exact ⟨_, JobOp.apply_eq_withJobs hopen (.move now id status) rfl, JobOp.rewrite_id _,
      fun _ => JobOp.move_of_ne⟩
  · intro now id link file
    exact ⟨_, JobOp.apply_eq_withJobs hopen (.finish now id link file) rfl, JobOp.rewrite_id _,
      fun _ => JobOp.finish_of_ne⟩
  · intro now
    have hover := isUnfinished_failJobs hopen now
    refine ⟨fun j hj => ?_, failJobs_of_finished ?_ hover⟩
    · rw [← not_or, ← JobRow.isUnfinished_iff, hover j hj]
      decide
    · exact (JobOp.isOpen_apply _ (.failAll now)).trans hopen

/-- Of three jobs the first is at work, the second is done, and the third waits: two fail. -/
theorem framed_run_three :
    let s := JobOp.run {} [.create "2024-01-01 00:00:00" "e" "owner@example.com" "Health",
      .move "2024-01-01 00:00:01" "e" .processing,
      .create "2024-01-01 00:00:02" "f" "owner@example.com" "Health",
      .finish "2024-01-01 00:00:03" "f" "/api/v1/exports/f/file" "f.csv",
      .create "2024-01-01 00:00:04" "g" "owner@example.com" "Diet"]
    s.Framed ∧ (s.failJobs "2024-01-01 00:00:05").2 = .ok 2 ∧
      (s.failJobs "2024-01-01 00:00:05").1.tables.jobs.map (fun j => (j.id, j.status))
        = [("e", "error"), ("f", "done"), ("g", "error")] :=
  ⟨framed_run (by decide) rfl _, by rfl, by decide +kernel⟩

end ResponseExport.Store
