import ResponseExport.Proofs.Export.Writing
import ResponseExport.Proofs.Jobs.Usable

/-!
# `ResponseExport.Proofs.Export.TaskSteps`: what one step of a task does

A task goes through its stages one step at a time. This module says once what each
step does to the service, as long as the table of jobs does not fail: the lemmas
`mark_cases`, `prepare_cases`, `complete_eq` and `fail_eq`, and
`writePage_eq` of `ResponseExport.Proofs.Export.Writing`, are one for each stage.

Put together they say that a step touches no settings of the service
(`exists_service_step`), and that it does nothing to the table of jobs, or one
operation on the task's own job, which is closed when the task ends (`store_step`).
-/

set_option autoImplicit false

namespace ResponseExport.Export

open Store (JobOp JobRow HasJob IsTime Usable)
open Csv (Writer)

/-- The table of jobs does not fail: the store can be used, and the clock shows times that can be
read back. A channel can have the size of a page. -/
structure Service.Works (s : Service) : Prop where
  usable : s.store.Usable
  clock : s.now.HasShortYear
  possible : isPossible s.pageSize = true

theorem Service.Works.isTime {s : Service} (h : s.Works) : IsTime s.stamp :=
  Store.isTime_millisText h.clock

/-- Has a task more to do? -/
def Task.isGoing (t : Task) : Bool :=
  match t.stage with
  | .over _ => false
  | .broken _ => false
  | _ => true

namespace Task

variable {s : Service} {t : Task}

/-! ### One stage after the other -/

/-- A task goes on if its job is there, and ends if it is not. -/
theorem mark_cases (h : s.Works) (t : Task) :
    (s.store.HasJob t.request.id ∧
      mark s t = ({ s with
          store := JobOp.apply s.store (.move s.stamp t.request.id .processing) },
        { t with stage := .preparing })) ∨
    (¬ s.store.HasJob t.request.id ∧ ∃ e,
      mark s t = ({ s with
          store := JobOp.apply s.store (.move s.stamp t.request.id .processing) },
        { t with stage := .over (.error e) })) := by
  rw [mark, Service.move]
  by_cases hrow : s.store.HasJob t.request.id
  · obtain ⟨job, hjob⟩ := Store.moveJob_eq h.usable h.isTime hrow .processing
    rw [hjob]
    exact Or.inl ⟨hrow, rfl⟩
  · obtain ⟨e, he⟩ := Store.moveJob_of_not_hasJob h.usable.isOpen hrow s.stamp .processing
    rw [he]
    exact Or.inr ⟨hrow, _, rfl⟩

/-- The file is made, and the header is written; or there is no file, and the directory is what it
was or has just been made. -/
theorem prepare_cases (hpossible : isPossible s.pageSize = true) (t : Task) :
    (∃ e d, (d = s.directory ∨ s.directory.make = .ok d) ∧
      prepare s t = ({ s with directory := d }, { t with stage := .failing e })) ∨
    (∃ d d' w, s.directory.make = .ok d ∧
      d.create (FileName.stored t.request.survey t.request.id s.now) = .ok d' ∧
      HasWritten [] w ∧
      prepare s t
        = (save { s with directory := d' } (FileName.stored t.request.survey t.request.id s.now) w,
          { t with
            stage := .writing (FileName.stored t.request.survey t.request.id s.now) w none })) := by
  cases hmake : s.directory.make with
  | error e =>
      refine Or.inl ⟨.io e.message, s.directory, Or.inl rfl, ?_⟩
      rw [prepare, hmake]
  | ok d =>
      cases hcreate : d.create (FileName.stored t.request.survey t.request.id s.now) with
      | error e => exact Or.inl ⟨_, d, Or.inr rfl, prepare_eq_failing t hmake hcreate⟩
      | ok d' =>
          obtain ⟨w, hw, -, hprepare⟩ := prepare_eq t hpossible hmake hcreate
          exact Or.inr ⟨d, d', w, rfl, hcreate, hw, hprepare⟩

/-- The job is marked done. -/
theorem complete_eq (h : s.Works) (hrow : s.store.HasJob t.request.id) (file : String) :
    ∃ job, complete s t file = ({ s with
        store := JobOp.apply s.store (.finish s.stamp t.request.id
          (Service.link s.baseUrl t.request.id) file) },
      { t with stage := .over (.ok job) }) := by
  obtain ⟨job, hjob⟩ := Store.finishJob_eq h.usable h.isTime hrow
    (Service.link s.baseUrl t.request.id) file
  refine ⟨job, ?_⟩
  rw [complete, Service.markDone, hjob]
  rfl

/-- The job is marked failed. -/
theorem fail_eq (h : s.Works) (hrow : s.store.HasJob t.request.id) (e : ExportError) :
    fail s t e = ({ s with
        store := JobOp.apply s.store (.move s.stamp t.request.id .failed) },
      { t with stage := .over (.error e) }) := by
  obtain ⟨job, hjob⟩ := Store.moveJob_eq h.usable h.isTime hrow .failed
  rw [fail, Service.move, hjob]

/-! ### Any step -/

/-- A step leaves the settings of a service alone. -/
theorem exists_service_step (s : Service) (t : Task) :
    ∃ store directory calls, (t.step s).1 = { s with store, directory, calls } := by
  cases hstage : t.stage with
  | marking =>
      rw [step, hstage]
      show ∃ store directory calls, (mark s t).1 = _
      rw [mark, Service.move]
      dsimp only
      split <;> rename_i hmove <;> obtain ⟨rfl, -⟩ := Prod.mk.inj hmove <;>
        exact ⟨_, _, _, rfl⟩
  | preparing =>
      rw [step, hstage]
      show ∃ store directory calls, (prepare s t).1 = _
      unfold prepare
      dsimp only
      split
      · exact ⟨_, _, _, rfl⟩
      · split
        · exact ⟨_, _, _, rfl⟩
        · split
          · split <;> exact ⟨_, _, _, rfl⟩
          · exact ⟨_, _, _, rfl⟩
  | writing file w place =>
      rw [step, hstage]
      show ∃ store directory calls, (writePage s t file w place).1 = _
      unfold writePage
      dsimp only
      split
      · exact ⟨_, _, _, rfl⟩
      · split
        · exact ⟨_, _, _, rfl⟩
        · split
          · split <;> exact ⟨_, _, _, rfl⟩
          · exact ⟨_, _, _, rfl⟩
  | finishing file stats =>
      rw [step, hstage]
      exact ⟨_, _, _, rfl⟩
  | failing e =>
      rw [step, hstage]
      show ∃ store directory calls, (fail s t e).1 = _
      rw [fail, Service.move]
      dsimp only
      split <;> rename_i hmove <;> obtain ⟨rfl, -⟩ := Prod.mk.inj hmove <;>
        exact ⟨_, _, _, rfl⟩
  | _ =>
      rw [step, hstage]
      exact ⟨_, _, _, rfl⟩

/-- An operation that goes through the rows, writes this time, and rewrites none but those of
one job. -/
structure Touches (op : JobOp) (id time : String) : Prop where
  isUpdate : op.isUpdate = true
  time_eq : op.time = time
  spares : ∀ j : JobRow, j.id ≠ id → op.rewrite j = j

theorem touches_move (now id : String) (status : Status) :
    Touches (.move now id status) id now :=
  ⟨rfl, rfl, fun _ hne => if_neg fun h => hne h.1⟩

theorem touches_finish (now id link file : String) :
    Touches (.finish now id link file) id now :=
  ⟨rfl, rfl, fun _ hne => if_neg hne⟩

/-- **What a step does to the table of jobs.** If the task's job is there, a step leaves the table
alone and the task goes on, or it is one operation on this job. If the task is over then, the
job is not unfinished any more. -/
theorem store_step (h : s.Works) (hrow : s.store.HasJob t.request.id) (hgoing : t.isGoing = true) :
    ((t.step s).1.store = s.store ∧ (t.step s).2.isGoing = true) ∨
    (∃ op, Touches op t.request.id s.stamp ∧ (t.step s).1.store = JobOp.apply s.store op ∧
      ((t.step s).2.isGoing = true ∨ (t.step s).2.isOver = true ∧
        ∀ j : JobRow, j.id = t.request.id → (op.rewrite j).isUnfinished = false)) := by
  cases hstage : t.stage with
  | marking =>
      rcases mark_cases h t with ⟨-, hmark⟩ | ⟨hnot, -⟩
      · rw [step, hstage]
        dsimp only
        rw [hmark]
        exact Or.inr ⟨_, touches_move _ _ _, rfl, Or.inl rfl⟩
      · exact absurd hrow hnot
  | preparing =>
      rw [step, hstage]
      dsimp only
      rcases prepare_cases h.possible t with ⟨e, d, -, hprepare⟩ | ⟨d, d', w, -, -, -, hprepare⟩ <;>
        rw [hprepare] <;> exact Or.inl ⟨rfl, rfl⟩
  | writing file w place =>
      rw [step, hstage]
      -- Pages go to the file, whatever the source answers, and the table is left alone.
      show ((writePage s t file w place).1.store = _ ∧ (writePage s t file w place).2.isGoing = _) ∨ _
      unfold writePage
      dsimp only
      refine Or.inl ?_
      split
      · exact ⟨rfl, rfl⟩
      · split
        · exact ⟨rfl, rfl⟩
        · split
          · split <;> exact ⟨rfl, rfl⟩
          · exact ⟨rfl, rfl⟩
  | finishing file stats =>
      obtain ⟨job, hcomplete⟩ := complete_eq h hrow file
      rw [step, hstage]
      dsimp only
      rw [hcomplete]
      exact Or.inr ⟨_, touches_finish _ _ _ _, rfl, Or.inr ⟨rfl, fun _ hid =>
        JobOp.isUnfinished_rewrite_finish hid _ _ _⟩⟩
  | failing e =>
      rw [step, hstage]
      dsimp only
      rw [fail_eq h hrow e]
      exact Or.inr ⟨_, touches_move _ _ _, rfl, Or.inr ⟨rfl, fun _ hid =>
        JobOp.isUnfinished_rewrite_failed hid _⟩⟩
  | _ =>
      rw [isGoing, hstage] at hgoing
      cases hgoing

/-- A step keeps the service working, and rewrites at most the row of the task's job. It takes
no finished job up again, and when the task ends, its job is not unfinished. -/
theorem jobs_step (h : s.Works) (hrow : s.store.HasJob t.request.id) (hgoing : t.isGoing = true) :
    (t.step s).1.Works ∧ ∃ f : JobRow → JobRow,
      (t.step s).1.store.tables.jobs = s.store.tables.jobs.map f ∧
      (∀ j, (f j).request = j.request) ∧
      (∀ j, (f j).isUnfinished = true → j.isUnfinished = true) ∧
      (∀ j, j.id ≠ t.request.id → f j = j) ∧
      ((t.step s).2.isGoing = true ∨ (t.step s).2.isOver = true ∧
        ∀ j : JobRow, j.id = t.request.id → (f j).isUnfinished = false) := by
  obtain ⟨store, directory, calls, hservice⟩ := exists_service_step s t
  have hclock : (t.step s).1.now.HasShortYear := by
    rw [hservice]
    exact h.clock
  have hpossible : isPossible (t.step s).1.pageSize = true := by
    rw [hservice]
    exact h.possible
  rcases store_step h hrow hgoing with ⟨hstore, hgoing'⟩ | ⟨op, htouches, hstore, hend⟩
  · refine ⟨⟨hstore ▸ h.usable, hclock, hpossible⟩, id, ?_, fun _ => rfl, fun _ => id,
      fun _ _ => rfl, Or.inl hgoing'⟩
    rw [hstore, List.map_id]
  · have htime : IsTime op.time := by
      rw [htouches.time_eq]
      exact h.isTime
    refine ⟨⟨?_, hclock, hpossible⟩, op.rewrite, ?_, op.request_rewrite,
      fun _ => JobOp.isUnfinished_of_rewrite, htouches.spares, hend⟩
    · rw [hstore]
      exact JobOp.usable_apply h.usable op htime
    · rw [hstore]
      exact JobOp.jobs_apply h.usable.isOpen op htouches.isUpdate

/-- A task that is refused something fails. If it was writing, its file is removed. -/
theorem fault_cases {s' : Service} {t' : Task} {message : String}
    (h : t.fault s message = some (s', t')) :
    (∃ e, t' = { t with stage := .failing e }) ∧
      (t.stage = .preparing ∧ s' = s ∨ ∃ file w place, t.stage = .writing file w place ∧
        s' = { s with directory := s.directory.remove file }) := by
  unfold fault at h
  split at h
  · rename_i hstage
    cases h
    exact ⟨⟨_, rfl⟩, Or.inl ⟨hstage, rfl⟩⟩
  · rename_i file w place hstage
    cases h
    exact ⟨⟨_, rfl⟩, Or.inr ⟨file, w, place, hstage, rfl⟩⟩
  · cases h

end Task

end ResponseExport.Export
