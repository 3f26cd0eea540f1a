import ResponseExport.Store.Jobs

/-!
# `ResponseExport.Proofs.Jobs.Lifecycle`: when a finished job stays as it is

Four operations write the table of jobs. One adds a row, and three go through all
rows and rewrite some of them: `JobOp.rewrite` is what an operation makes of one
row, and `exists_jobs_apply` says that this, and at most a row with a new id, is
all that an operation does. So ids stay unique (`uniqueIds_run`, by induction over
the operations), and what becomes of a row can be read off `rewrite` alone
(`jobRow?_apply`).

Moving a job and failing the unfinished ones look at the row's status first.
Marking a job done does not: `kept_iff_of_terminal` says that a finished row is
kept by every operation except this one, and `finish_after_failure` is a failed
job that it turns into a done one.
-/

set_option autoImplicit false

namespace ResponseExport.Store

open Export (Status)

/-- An operation that writes the table of jobs, at the time `now`. -/
inductive JobOp where
  | create (now id user survey : String)
  | move (now id : String) (status : Status)
  | finish (now id link file : String)
  | failAll (now : String)

namespace JobOp

/-- The store behind an operation. -/
def apply (s : Store) : JobOp → Store
  | create now id user survey => (createJob s now id user survey).1
  | move now id status => (moveJob s now id status).1
  | finish now id link file => (finishJob s now id link file).1
  | failAll now => (failJobs s now).1

/-- The store behind operations, one after the other. -/
def run (s : Store) (ops : List JobOp) : Store := ops.foldl apply s

/-- What an operation makes of a row. -/
def rewrite : JobOp → JobRow → JobRow
  | create .., j => j
  | move now id status, j =>
    if j.id = id ∧ j.isUnfinished then { j with updated := now, status := status.text } else j
  | finish now id link file, j =>
    if j.id = id then
      { j with updated := now, status := Status.done.text, link := some link, file := some file }
    else j
  | failAll now, j =>
    if j.isUnfinished then { j with updated := now, status := Status.failed.text } else j

/-! ### What an operation does to the table -/

theorem rewrite_id (op : JobOp) (j : JobRow) : (op.rewrite j).id = j.id := by
  cases op <;> simp only [rewrite] <;> split <;> rfl

theorem map_rewrite_id (op : JobOp) (jobs : List JobRow) :
    (jobs.map op.rewrite).map JobRow.id = jobs.map JobRow.id := by
  rw [List.map_map]
  exact List.map_congr_left fun j _ => op.rewrite_id j

/-- A closed store stays as it is. -/
theorem apply_of_closed {s : Store} (hs : s.isOpen = false) (op : JobOp) : apply s op = s := by
  cases op <;> simp [apply, createJob, moveJob, finishJob, failJobs, hs]

/-- An operation rewrites the rows, and adds at most one, under a new id. -/
theorem exists_jobs_apply {s : Store} (hs : s.isOpen = true) (op : JobOp) :
    ∃ added : List JobRow, (apply s op).tables.jobs = s.tables.jobs.map op.rewrite ++ added ∧
      (added.map JobRow.id).Nodup ∧ ∀ j ∈ added, j.id ∉ s.tables.jobs.map JobRow.id := by
  cases op with
  | create now id user survey =>
      show ∃ added, (createJob s now id user survey).1.tables.jobs
        = List.map (fun j => j) _ ++ added ∧ _
      rw [List.map_id', createJob, if_pos hs, Tables.createJob]
      -- If the id is taken nothing is added, and if it is not the new row has it alone.
      by_cases htaken : (s.tables.jobs.any fun j => j.id == id) = true
      · rw [if_pos htaken]
        exact ⟨[], by simp⟩
      · rw [if_neg htaken]
        refine ⟨_, rfl, by simp, fun j hj => ?_⟩
        obtain rfl := List.mem_singleton.mp hj
        simpa using htaken
  | move now id status =>
      refine ⟨[], ?_, by simp⟩
      rw [apply, moveJob, if_pos hs, List.append_nil]
      rfl
  | finish now id link file =>
      refine ⟨[], ?_, by simp⟩
      rw [apply, finishJob, if_pos hs, List.append_nil]
      rfl
  | failAll now =>
      refine ⟨[], ?_, by simp⟩
      rw [apply, failJobs, if_pos hs, List.append_nil]
      rfl

theorem isOpen_apply (s : Store) (op : JobOp) : (apply s op).isOpen = s.isOpen := by
  cases op with
  | create now id user survey =>
      rw [apply, createJob]
      split
      · split <;> rfl
      · rfl
  | move now id status => rw [apply, moveJob]; split <;> rfl
  | finish now id link file => rw [apply, finishJob]; split <;> rfl
  | failAll now => rw [apply, failJobs]; split <;> rfl

/-! ### Ids stay unique -/

/-- No two jobs have the same id. -/
def UniqueIds (s : Store) : Prop := (s.tables.jobs.map JobRow.id).Nodup

theorem uniqueIds_apply {s : Store} (h : UniqueIds s) (op : JobOp) : UniqueIds (apply s op) := by
  cases hs : s.isOpen with
  | false => rwa [apply_of_closed hs]
  | true =>
      obtain ⟨added, hjobs, hnodup, hnew⟩ := exists_jobs_apply hs op
      rw [UniqueIds, hjobs, List.map_append, map_rewrite_id, List.nodup_append]
      refine ⟨h, hnodup, ?_⟩
      rintro id hid _ hadded rfl
      obtain ⟨j, hj, rfl⟩ := List.mem_map.mp hadded
      exact hnew j hj hid

theorem uniqueIds_run {s : Store} (h : UniqueIds s) (ops : List JobOp) :
    UniqueIds (run s ops) := by
  induction ops generalizing s with
  | nil => exact h
  | cons op ops ih => exact ih (uniqueIds_apply h op)

theorem isOpen_run (s : Store) (ops : List JobOp) : (run s ops).isOpen = s.isOpen := by
  induction ops generalizing s with
  | nil => rfl
  | cons op ops ih => exact (ih (apply s op)).trans (isOpen_apply s op)

/-- A row is found under its id. -/
theorem jobRow?_of_mem {s : Store} (h : UniqueIds s) {j : JobRow} (hj : j ∈ s.tables.jobs) :
    s.tables.jobRow? j.id = some j := by
  rw [UniqueIds] at h
  rw [Tables.jobRow?]
  generalize s.tables.jobs = jobs at h hj
  induction jobs with
  | nil => cases hj
  | cons j' jobs ih =>
      rw [List.map_cons, List.nodup_cons] at h
      rcases List.mem_cons.mp hj with rfl | hj
      · exact List.find?_cons_of_pos (beq_self_eq_true _)
      · have hne : j'.id ≠ j.id := fun heq => h.1 (heq ▸ List.mem_map_of_mem hj)
        rw [List.find?_cons_of_neg (by simpa using hne)]
        exact ih h.2 hj

/-- What becomes of a row: it is rewritten, and still found under its id. -/
theorem jobRow?_apply {s : Store} (h : UniqueIds s) (hs : s.isOpen = true) {j : JobRow}
    (hj : j ∈ s.tables.jobs) (op : JobOp) :
    (apply s op).tables.jobRow? j.id = some (op.rewrite j) := by
  obtain ⟨added, hjobs, -, -⟩ := exists_jobs_apply hs op
  have hmem : op.rewrite j ∈ (apply s op).tables.jobs := by
    rw [hjobs]
    exact List.mem_append_left _ (List.mem_map_of_mem hj)
  rw [← op.rewrite_id j]
  exact jobRow?_of_mem (uniqueIds_apply h op) hmem

/-! ### Finished jobs -/

/-- A row that is done or failed is over. -/
theorem isUnfinished_of_terminal {j : JobRow}
    (h : j.status = Status.done.text ∨ j.status = Status.failed.text) :
    j.isUnfinished = false := by
  unfold JobRow.isUnfinished
  rcases h with h | h <;> rw [h] <;> decide

/-- Only marking it done rewrites a row that is over. -/
theorem rewrite_eq_self_iff {j : JobRow} (h : j.isUnfinished = false) (op : JobOp) :
    op.rewrite j = j ↔ ∀ now link file, op = .finish now j.id link file →
      j.updated = now ∧ j.status = Status.done.text ∧ j.link = some link ∧ j.file = some file := by
  cases op with
  | create now id user survey => simp [rewrite]
  | move now id status => simp [rewrite, h]
  | failAll now => simp [rewrite, h]
  | finish now id link file =>
      by_cases hid : j.id = id
      · rw [rewrite, if_pos hid]
        constructor
        -- The operation writes four values, so the row is kept if it has all of them.
        · rintro heq _ _ _ hop
          cases hop
          rw [← heq]
          exact ⟨rfl, rfl, rfl, rfl⟩
        · intro hall
          obtain ⟨hupdated, hstatus, hlink, hfile⟩ := hall now link file (by rw [hid])
          rw [← hupdated, ← hstatus, ← hlink, ← hfile]
      · rw [rewrite, if_neg hid]
        simp only [true_iff]
        intro _ _ _ hop
        cases hop
        exact absurd rfl hid

/-- **What keeps a finished job.** Take any operations on a store without jobs, and then a
row that is done or failed. The next operation keeps this row if and only if it is not the
one that marks this job done in an open store, or it is and the row already is what would
be written. -/
theorem kept_iff_of_terminal {s : Store} (hempty : s.tables.jobs = []) (ops : List JobOp)
    {j : JobRow} (hj : j ∈ (run s ops).tables.jobs)
    (hterminal : j.status = Status.done.text ∨ j.status = Status.failed.text) (op : JobOp) :
    (apply (run s ops) op).tables.jobRow? j.id = some j ↔
      ∀ now link file, s.isOpen = true → op = .finish now j.id link file →
        j.updated = now ∧ j.status = Status.done.text ∧ j.link = some link ∧
          j.file = some file := by
  have hunique : UniqueIds (run s ops) := by
    refine uniqueIds_run ?_ ops
    rw [UniqueIds, hempty]
    exact List.nodup_nil
  have hopen := isOpen_run s ops
  cases hs : s.isOpen with
  | false =>
      rw [hs] at hopen
      rw [apply_of_closed hopen, jobRow?_of_mem hunique hj]
      simp
  | true =>
      rw [hs] at hopen
      rw [jobRow?_apply hunique hopen hj, Option.some.injEq,
        rewrite_eq_self_iff (isUnfinished_of_terminal hterminal)]
      simp

/-- A job that has failed is not moved any more. -/
theorem kept_iff_of_terminal_moved :
    let ops : List JobOp :=
      [.create "2024-03-01T10:00:00Z" "e" "u" "One", .move "2024-03-01T10:00:01Z" "e" .failed]
    let j : JobRow := ⟨"e", "One", "u", "2024-03-01T10:00:01Z", "error", none, none⟩
    j ∈ (run {} ops).tables.jobs ∧
      (apply (run {} ops) (.move "2024-03-01T10:00:02Z" "e" .pending)).tables.jobRow? "e"
        = some j := by
  intro ops j
  have hj : j ∈ (run {} ops).tables.jobs := by decide
  refine ⟨hj, (kept_iff_of_terminal (s := {}) rfl ops hj (Or.inr rfl) _).mpr ?_⟩
  intro now link file _ hop
  cases hop

/-- A job that has failed is marked done: it gets a new status, a link and a file. -/
theorem finish_after_failure :
    let s : Store := run {}
      [.create "2024-03-01T10:00:00Z" "e" "u" "One", .move "2024-03-01T10:00:01Z" "e" .failed]
    s.tables.jobRow? "e"
        = some ⟨"e", "One", "u", "2024-03-01T10:00:01Z", "error", none, none⟩ ∧
      (apply s (.finish "2024-03-01T10:00:02Z" "e" "/l" "f.csv")).tables.jobRow? "e"
        = some ⟨"e", "One", "u", "2024-03-01T10:00:02Z", "done", some "/l", some "f.csv"⟩ := by
  decide

end JobOp

end ResponseExport.Store
