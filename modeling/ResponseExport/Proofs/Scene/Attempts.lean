import ResponseExport.Proofs.Export.Files
import ResponseExport.Proofs.Export.TaskSteps
import ResponseExport.Proofs.Jobs.Kept

/-!
# `ResponseExport.Proofs.Scene.Attempts`: what an attempt leaves behind

An `Attempt` is a task with what can be seen of it from outside: the name under which
it made its file, and the answers that the source gave it, in order. `Attempt.Fits`
says for each stage what the attempt has left behind so far:

* while it writes, its writer has taken all rows of all answers, and every page was
  full;
* once it is through, there is a last page that was not full, and the file of its
  name is the file of all rows that it was given;
* if it fails, there is no file of its name.

`Attempt.Result` is what one step does: it keeps this, it leaves the files of all
other names alone, and it marks no job done, except for its own at the end. There is
one lemma for each stage, and `result_step` puts them together. Whatever others do
in between, `Fits.mono` says what of it an attempt does not mind.
-/

set_option autoImplicit false

namespace ResponseExport.Export

open Survey (Response responseFile)
open Store (JobOp JobRow HasJob RowsKept)
open Csv (Writer)

/-- The rows that came with these answers. -/
def rowsOf (answers : List PageAnswer) : List Response := answers.flatMap fun a => a.toOption.getD []

/-- The source answered with a full page. -/
def IsFull (size : Nat) (answer : PageAnswer) : Prop := ∃ rows, answer = .ok rows ∧ size ≤ rows.length

/-- The source gave full pages, and at last one that is not full: there are no more rows. -/
def IsComplete (size : Nat) (answers : List PageAnswer) : Prop :=
  ∃ full last, answers = full ++ [.ok last] ∧ (∀ a ∈ full, IsFull size a) ∧ last.length < size

theorem rowsOf_concat (answers : List PageAnswer) (rows : List Response) :
    rowsOf (answers ++ [.ok rows]) = rowsOf answers ++ rows := by
  rw [rowsOf, List.flatMap_append, List.flatMap_singleton]
  rfl

/-- A task with what can be seen of it from outside. -/
structure Attempt where
  task : Task
  /-- The name under which it made its file. -/
  file : Option String := none
  /-- What the source answered it, in order. -/
  answers : List PageAnswer := []

namespace Attempt

/-- The name of the file that a task has just made or goes on writing. -/
def madeFile (t : Task) : Option String :=
  match t.stage with
  | .writing file _ _ => some file
  | _ => none

/-- What the source is asked and answers in the next step of a task. -/
def asked (s : Service) (t : Task) : List PageAnswer :=
  match t.stage with
  | .writing _ _ place => [t.answerTo s place]
  | _ => []

/-- One step of an attempt. -/
def step (s : Service) (a : Attempt) : Service × Attempt :=
  ((a.task.step s).1,
    { task := (a.task.step s).2
      file := (madeFile (a.task.step s).2).or a.file
      answers := a.answers ++ asked s a.task })

/-- The file system refuses an attempt its file, or what is to be written to it. -/
def fault (s : Service) (a : Attempt) (message : String) : Option (Service × Attempt) :=
  (a.task.fault s message).map fun (s, task) => (s, { a with task })

/-- The id of the export. -/
def id (a : Attempt) : String := a.task.request.id

/-- Did the attempt end well? -/
def isDone (a : Attempt) : Bool :=
  match a.task.stage with
  | .over (.ok _) => true
  | _ => false

/-- Did the attempt end with a failure? -/
def hasFailed (a : Attempt) : Bool :=
  match a.task.stage with
  | .over (.error _) => true
  | _ => false

/-- The file of an attempt that is through. -/
structure HasFile (s : Service) (a : Attempt) (name : String) : Prop where
  file_eq : a.file = some name
  complete : IsComplete (atLeastOne s.pageSize) a.answers
  data_eq : s.directory.data? name = some (responseFile (rowsOf a.answers))

/-- An attempt that failed has left no file. -/
def HasNoFile (s : Service) (a : Attempt) : Prop :=
  ∀ name, a.file = some name → s.directory.data? name = none

/-- An attempt that made no file has left none. -/
theorem hasNoFile_of_none {s : Service} {a : Attempt} (hnone : a.file = none) : HasNoFile s a := by
  intro name hname
  rw [hnone] at hname
  cases hname

/-- What an attempt has left behind so far. -/
def Fits (s : Service) (a : Attempt) : Prop :=
  match a.task.stage with
  | .marking => a.file = none ∧ a.answers = []
  | .preparing => s.store.HasJob a.id ∧ a.file = none ∧ a.answers = []
  | .writing name w _ => s.store.HasJob a.id ∧ a.file = some name ∧ s.directory.IsPresent ∧
      (∀ x ∈ a.answers, IsFull (atLeastOne s.pageSize) x) ∧ HasWritten (rowsOf a.answers) w
  | .finishing name _ => s.store.HasJob a.id ∧ HasFile s a name
  | .failing _ => s.store.HasJob a.id ∧ HasNoFile s a
  | .over (.ok _) => ∃ name, HasFile s a name
  | .over (.error _) => HasNoFile s a ∧ (a.file ≠ none →
      ∃ j ∈ s.store.tables.jobs, j.id = a.id ∧ j.status = Status.failed.text)
  | .broken _ => False

variable {s s' : Service} {a : Attempt}

/-- What an attempt has left behind stays there if its file is left alone, no row goes, and no
failed job is taken up again. -/
theorem Fits.mono (h : a.Fits s)
    (hdata : ∀ name, a.file = some name → s'.directory.data? name = s.directory.data? name)
    (hpresent : s.directory.IsPresent → s'.directory.IsPresent) (hsize : s'.pageSize = s.pageSize)
    (hjob : s.store.HasJob a.id → s'.store.HasJob a.id)
    (hfailed : ∀ j ∈ s.store.tables.jobs, j.id = a.id → j.status = Status.failed.text →
      j ∈ s'.store.tables.jobs) : a.Fits s' := by
  have hfile : ∀ {name}, HasFile s a name → HasFile s' a name := by
    intro name hname
    refine ⟨hname.file_eq, ?_, ?_⟩
    · rw [hsize]
      exact hname.complete
    · rw [hdata name hname.file_eq]
      exact hname.data_eq
  have hnoFile : HasNoFile s a → HasNoFile s' a := fun hnone name hname =>
    (hdata name hname).trans (hnone name hname)
  unfold Fits at h ⊢
  split at h
  · exact h
  · exact ⟨hjob h.1, h.2⟩
  · obtain ⟨hrow, hname, hdir, hfull, hwritten⟩ := h
    refine ⟨hjob hrow, hname, hpresent hdir, ?_, hwritten⟩
    rwa [hsize]
  · exact ⟨hjob h.1, hfile h.2⟩
  · exact ⟨hjob h.1, hnoFile h.2⟩
  · obtain ⟨name, hname⟩ := h
    exact ⟨name, hfile hname⟩
  · refine ⟨hnoFile h.1, fun hsome => ?_⟩
    obtain ⟨j, hj, hid, hstatus⟩ := h.2 hsome
    exact ⟨j, hfailed j hj hid hstatus, hid, hstatus⟩
  · exact h

theorem exists_file (h : a.Fits s) (hdone : a.isDone = true) : ∃ name, HasFile s a name := by
  unfold Fits at h
  unfold isDone at hdone
  split at hdone
  · rename_i hstage
    rwa [hstage] at h
  · cases hdone

theorem failed_of_fits (h : a.Fits s) (hfailed : a.hasFailed = true) :
    HasNoFile s a ∧ (a.file ≠ none →
      ∃ j ∈ s.store.tables.jobs, j.id = a.id ∧ j.status = Status.failed.text) := by
  unfold Fits at h
  unfold hasFailed at hfailed
  split at hfailed
  · rename_i hstage
    rwa [hstage] at h
  · cases hfailed

/-! ### One step -/

/-- What a step does to the table: no job is marked done, except for the attempt's own when it ends
well. -/
def MarksOwn (s s' : Service) (a' : Attempt) : Prop :=
  RowsKept s.store.tables.jobs s'.store.tables.jobs ∨
    a'.isDone = true ∧ ∃ name now, a'.file = some name ∧
      s'.store.tables.jobs = s.store.tables.jobs.map
        (JobOp.finish now a'.id (Service.link s.baseUrl a'.id) name).rewrite

/-- A job that is over stays as it is, unless it is the attempt's own. -/
theorem MarksOwn.mem {a' : Attempt} (h : MarksOwn s s' a') {j : JobRow}
    (hj : j ∈ s.store.tables.jobs) (hover : j.isUnfinished = false) (hne : j.id ≠ a'.id) :
    j ∈ s'.store.tables.jobs := by
  rcases h with hkept | ⟨-, name, now, -, hjobs⟩
  · exact hkept.kept j hj hover
  · rw [hjobs]
    exact List.mem_map.mpr ⟨j, hj, JobOp.finish_of_ne hne⟩

theorem MarksOwn.hasJob {a' : Attempt} (h : MarksOwn s s' a') {id : String}
    (hrow : s.store.HasJob id) : s'.store.HasJob id := by
  obtain ⟨j, hj, rfl⟩ := hrow
  rcases h with hkept | ⟨-, name, now, -, hjobs⟩
  · exact hkept.exists_id j hj
  · have hmem : (JobOp.finish now a'.id (Service.link s.baseUrl a'.id) name).rewrite j
        ∈ s'.store.tables.jobs := by
      rw [hjobs]
      exact List.mem_map_of_mem hj
    exact ⟨_, hmem, JobOp.rewrite_id _ j⟩

/-- What a step of an attempt comes to. -/
structure Result (s : Service) (a : Attempt) (s' : Service) (a' : Attempt) : Prop where
  works : s'.Works
  pageSize_eq : s'.pageSize = s.pageSize
  baseUrl_eq : s'.baseUrl = s.baseUrl
  request_eq : a'.task.request = a.task.request
  present : s.directory.IsPresent → s'.directory.IsPresent
  others : ∀ name, a'.file ≠ some name → s'.directory.data? name = s.directory.data? name
  named : ∀ name, a'.file = some name → a.file = some name ∨
    ∃ t, name = FileName.stored a.task.request.survey a.task.request.id t
  fits : a'.Fits s'
  rows : MarksOwn s s' a'

variable {a' : Attempt}

/-! ### One step in each stage -/

section Stages

variable {task : Task}

theorem step_eq (h : a.task.step s = (s', task)) :
    a.step s = (s', ⟨task, (madeFile task).or a.file, a.answers ++ asked s a.task⟩) := by
  rw [step, h]

theorem step_marking (hstage : a.task.stage = .marking) (h : Task.mark s a.task = (s', task)) :
    a.step s = (s', ⟨task, (madeFile task).or a.file, a.answers⟩) := by
  have hstep : a.task.step s = Task.mark s a.task := by
    rw [Task.step, hstage]
  rw [step_eq (hstep.trans h), asked, hstage, List.append_nil]

theorem step_preparing (hstage : a.task.stage = .preparing)
    (h : Task.prepare s a.task = (s', task)) :
    a.step s = (s', ⟨task, (madeFile task).or a.file, a.answers⟩) := by
  have hstep : a.task.step s = Task.prepare s a.task := by
    rw [Task.step, hstage]
  rw [step_eq (hstep.trans h), asked, hstage, List.append_nil]

/-- Only here the source is asked for rows. -/
theorem step_writing {name : String} {w : Writer} {place : Option Survey.Cursor}
    (hstage : a.task.stage = .writing name w place)
    (h : Task.writePage s a.task name w place = (s', task)) :
    a.step s
      = (s', ⟨task, (madeFile task).or a.file, a.answers ++ [a.task.answerTo s place]⟩) := by
  have hstep : a.task.step s = Task.writePage s a.task name w place := by
    rw [Task.step, hstage]
  rw [step_eq (hstep.trans h), asked, hstage]

theorem step_finishing {name : String} {stats : Csv.Stats}
    (hstage : a.task.stage = .finishing name stats)
    (h : Task.complete s a.task name = (s', task)) :
    a.step s = (s', ⟨task, (madeFile task).or a.file, a.answers⟩) := by
  have hstep : a.task.step s = Task.complete s a.task name := by
    rw [Task.step, hstage]
  rw [step_eq (hstep.trans h), asked, hstage, List.append_nil]

theorem step_failing {e : ExportError} (hstage : a.task.stage = .failing e)
    (h : Task.fail s a.task e = (s', task)) :
    a.step s = (s', ⟨task, (madeFile task).or a.file, a.answers⟩) := by
  have hstep : a.task.step s = Task.fail s a.task e := by
    rw [Task.step, hstage]
  rw [step_eq (hstep.trans h), asked, hstage, List.append_nil]

/-- An attempt that is over does nothing any more. -/
theorem step_of_over {result : Except ExportError Job} (hstage : a.task.stage = .over result) :
    a.step s = (s, a) := by
  rw [step, Task.step, asked, hstage]
  dsimp only
  rw [madeFile, hstage, List.append_nil]
  rfl

end Stages

/-! ### What a step comes to -/

/-- A step that is one operation on the table of jobs. -/
theorem result_of_store (h : s.Works) {op : JobOp} (htime : op.time = s.stamp)
    (hrequest : a'.task.request = a.task.request) (hfile : a'.file = a.file)
    (hfits : a'.Fits { s with store := JobOp.apply s.store op })
    (hrows : MarksOwn s { s with store := JobOp.apply s.store op } a') :
    Result s a { s with store := JobOp.apply s.store op } a' where
  works := ⟨JobOp.usable_apply h.usable op (htime ▸ h.isTime), h.clock, h.possible⟩
  pageSize_eq := rfl
  baseUrl_eq := rfl
  request_eq := hrequest
  present := fun hdir => hdir
  others := fun _ _ => rfl
  named := fun _ hname => Or.inl (hfile.symm.trans hname)
  fits := hfits
  rows := hrows

/-- A step that changes the directory, and leaves the table of jobs alone. -/
theorem result_of_directory (h : s.Works) {directory : Directory} {calls : Nat}
    (hrequest : a'.task.request = a.task.request)
    (hpresent : s.directory.IsPresent → directory.IsPresent)
    (hothers : ∀ name, a'.file ≠ some name → directory.data? name = s.directory.data? name)
    (hnamed : ∀ name, a'.file = some name → a.file = some name ∨
      ∃ t, name = FileName.stored a.task.request.survey a.task.request.id t)
    (hfits : a'.Fits { s with directory, calls }) : Result s a { s with directory, calls } a' where
  works := ⟨h.usable, h.clock, h.possible⟩
  pageSize_eq := rfl
  baseUrl_eq := rfl
  request_eq := hrequest
  present := hpresent
  others := hothers
  named := hnamed
  fits := hfits
  rows := Or.inl (RowsKept.refl _)

/-- An attempt that begins makes no file yet, and goes on only if its job is there. -/
theorem result_marking (h : s.Works) (hfits : a.Fits s) (hstage : a.task.stage = .marking) :
    Result s a (a.step s).1 (a.step s).2 := by
  rw [Fits, hstage] at hfits
  obtain ⟨hnone, hanswers⟩ := hfits
  let op : JobOp := .move s.stamp a.id .processing
  have hrows : RowsKept s.store.tables.jobs (JobOp.apply s.store op).tables.jobs :=
    Store.rowsKept_apply h.usable.isOpen rfl
  rcases Task.mark_cases h a.task with ⟨hrow, hmark⟩ | ⟨-, e, hmark⟩
  · rw [step_marking hstage hmark, hnone, hanswers]
    refine result_of_store h rfl rfl hnone.symm ?_ (Or.inl hrows)
    exact ⟨(JobOp.hasJob_apply h.usable.isOpen op rfl a.id).mpr hrow, rfl, rfl⟩
  · rw [step_marking hstage hmark, hnone, hanswers]
    refine result_of_store h rfl rfl hnone.symm ?_ (Or.inl hrows)
    exact ⟨hasNoFile_of_none rfl, fun hsome => absurd rfl hsome⟩

/-- An attempt makes its file and writes the header, or fails without a file. -/
theorem result_preparing (h : s.Works) (hfits : a.Fits s) (hstage : a.task.stage = .preparing) :
    Result s a (a.step s).1 (a.step s).2 := by
  rw [Fits, hstage] at hfits
  obtain ⟨hrow, hnone, hanswers⟩ := hfits
  rcases Task.prepare_cases h.possible a.task with
    ⟨e, d, hd, hprepare⟩ | ⟨d, d', w, hmake, hcreate, hw, hprepare⟩
  -- The directory may have been made, but nothing is in it that was not there before.
  · have hmade : (s.directory.IsPresent → d.IsPresent) ∧
        ∀ name, d.data? name = s.directory.data? name := by
      rcases hd with rfl | hmake
      · exact ⟨fun hdir => hdir, fun _ => rfl⟩
      · exact ⟨fun _ => (Directory.make_eq_ok hmake).1, (Directory.make_eq_ok hmake).2⟩
    rw [step_preparing hstage hprepare, hnone, hanswers]
    refine result_of_directory h rfl hmade.1 (fun name _ => hmade.2 name) (fun _ hname => ?_)
      ⟨hrow, hasNoFile_of_none rfl⟩
    cases hname
  · obtain ⟨hpresent, hcreated⟩ := Directory.create_eq_ok hcreate
    have hmade := (Directory.make_eq_ok hmake).2
    rw [step_preparing hstage hprepare, hnone, hanswers]
    refine result_of_directory h rfl (fun _ => Directory.isPresent_write hpresent _ _) ?_ ?_ ?_
    · intro name hne
      have hne' : FileName.stored a.task.request.survey a.task.request.id s.now ≠ name :=
        fun heq => hne (congrArg some heq)
      rw [Directory.data?_write_of_ne hne', hcreated name hne', hmade]
    · intro name hname
      exact Or.inr ⟨s.now, (Option.some.inj hname).symm⟩
    · exact ⟨hrow, rfl, Directory.isPresent_write hpresent _ _, List.forall_mem_nil _, hw⟩

/-- An attempt writes a page, completes its file behind the last one, or fails and removes it. -/
theorem result_writing (h : s.Works) (hfits : a.Fits s) {name : String} {w : Writer}
    {place : Option Survey.Cursor} (hstage : a.task.stage = .writing name w place) :
    Result s a (a.step s).1 (a.step s).2 := by
  rw [Fits, hstage] at hfits
  obtain ⟨hrow, hname, hpresent, hfull, hw⟩ := hfits
  -- Only the file of this name changes.
  have hother : ∀ {other : String}, a.file ≠ some other → name ≠ other := by
    rintro other hne rfl
    exact hne hname
  rcases Task.writePage_eq s a.task name place hw with ⟨e, -, hpage⟩ |
    ⟨rows, w', hrows, hlong, hw', -, hpage⟩ | ⟨rows, w', stats, hrows, hshort, hdata, -, -, hpage⟩
  -- Whatever failed, the file is removed.
  · rw [step_writing hstage hpage]
    refine result_of_directory h rfl (fun hdir => Directory.isPresent_remove hdir name)
      (fun other hne => Directory.data?_remove_of_ne (hother hne) _)
      (fun _ hfile => Or.inl hfile) ?_
    refine ⟨hrow, fun other hfile => ?_⟩
    obtain rfl := Option.some.inj (hname.symm.trans hfile)
    exact Directory.data?_remove _ _
  -- A full page: there may be more rows.
  · rw [step_writing hstage hpage, hrows]
    refine result_of_directory h rfl (fun hdir => Directory.isPresent_write hdir _ _) ?_
      (fun _ hfile => Or.inl (hname.trans hfile)) ?_
    · intro other hne
      exact Directory.data?_write_of_ne (fun heq => hne (congrArg some heq)) _ _
    · refine ⟨hrow, rfl, Directory.isPresent_write hpresent _ _, ?_, ?_⟩
      · intro x hx
        rcases List.mem_append.mp hx with hx | hx
        · exact hfull x hx
        · obtain rfl := List.mem_singleton.mp hx
          exact ⟨rows, rfl, hlong⟩
      · rw [rowsOf_concat]
        exact hw'
  -- The last page: what is written is the file of all rows.
  · rw [step_writing hstage hpage, hrows]
    refine result_of_directory h rfl (fun hdir => Directory.isPresent_write hdir _ _)
      (fun other hne => Directory.data?_write_of_ne (hother hne) _ _)
      (fun _ hfile => Or.inl hfile) ?_
    refine ⟨hrow, hname, ⟨a.answers, rows, rfl, hfull, hshort⟩, ?_⟩
    rw [rowsOf_concat, ← hdata]
    exact Directory.data?_write hpresent _ _

/-- An attempt that is through marks its job done. -/
theorem result_finishing (h : s.Works) (hfits : a.Fits s) {name : String} {stats : Csv.Stats}
    (hstage : a.task.stage = .finishing name stats) : Result s a (a.step s).1 (a.step s).2 := by
  rw [Fits, hstage] at hfits
  obtain ⟨hrow, hfile⟩ := hfits
  obtain ⟨job, hcomplete⟩ := Task.complete_eq h hrow name
  rw [step_finishing hstage hcomplete]
  refine result_of_store h rfl rfl rfl ?_ ?_
  · exact ⟨name, hfile.file_eq, hfile.complete, hfile.data_eq⟩
  · let op : JobOp := .finish s.stamp a.id (Service.link s.baseUrl a.id) name
    exact Or.inr ⟨rfl, name, s.stamp, hfile.file_eq, JobOp.jobs_apply h.usable.isOpen op rfl⟩

/-- An attempt that fails marks its job failed, unless it is over. It is not done. -/
theorem result_failing (h : s.Works) (hfits : a.Fits s) {e : ExportError}
    (hstage : a.task.stage = .failing e)
    (hnotDone : ∀ j ∈ s.store.tables.jobs, j.id = a.id → j.status ≠ Status.done.text) :
    Result s a (a.step s).1 (a.step s).2 := by
  rw [Fits, hstage] at hfits
  obtain ⟨hrow, hnoFile⟩ := hfits
  let op : JobOp := .move s.stamp a.id .failed
  rw [step_failing hstage (Task.fail_eq h hrow e)]
  refine result_of_store h rfl rfl rfl ?_ (Or.inl (Store.rowsKept_apply h.usable.isOpen rfl))
  · refine ⟨hnoFile, fun _ => ?_⟩
    obtain ⟨j, hj, hid⟩ := hrow
    exact ⟨op.rewrite j, JobOp.mem_apply_of_mem h.usable.isOpen op hj,
      (op.rewrite_id j).trans hid, JobOp.status_eq_of_failed (h.usable.readable j hj) h.isTime hid
        (hnotDone j hj hid)⟩

theorem step_of_isDone (hdone : a.isDone = true) : a.step s = (s, a) := by
  rw [isDone] at hdone
  split at hdone
  · rename_i job hstage
    exact step_of_over hstage
  · cases hdone

theorem fault_of_isDone (hdone : a.isDone = true) (message : String) :
    a.fault s message = none := by
  rw [isDone] at hdone
  split at hdone
  · rename_i job hstage
    rw [fault, Task.fault, hstage]
    rfl
  · cases hdone

/-- **What one step of an attempt comes to.** Its job may only be done if the attempt has ended
well. -/
theorem result_step (h : s.Works) (hfits : a.Fits s)
    (hnotDone : a.isDone = false → ∀ j ∈ s.store.tables.jobs, j.id = a.id →
      j.status ≠ Status.done.text) : Result s a (a.step s).1 (a.step s).2 := by
  cases hstage : a.task.stage with
  | marking => exact result_marking h hfits hstage
  | preparing => exact result_preparing h hfits hstage
  | writing name w place => exact result_writing h hfits hstage
  | finishing name stats => exact result_finishing h hfits hstage
  | failing e =>
      refine result_failing h hfits hstage (hnotDone ?_)
      rw [isDone, hstage]
  | broken name =>
      rw [Fits, hstage] at hfits
      exact hfits.elim
  | _ =>
      rw [step_of_over hstage]
      exact result_of_directory h rfl (fun hdir => hdir) (fun _ _ => rfl)
        (fun _ hfile => Or.inl hfile) hfits

/-- An attempt that is refused its file, or what is to be written to it, fails without a file. -/
theorem result_fault (h : s.Works) (hfits : a.Fits s) {message : String}
    (hfault : a.fault s message = some (s', a')) : Result s a s' a' := by
  obtain ⟨⟨service, task⟩, htask, hpair⟩ := Option.map_eq_some_iff.mp hfault
  cases hpair
  obtain ⟨⟨e, rfl⟩, ⟨hstage, rfl⟩ | ⟨name, w, place, hstage, rfl⟩⟩ := Task.fault_cases htask
  · rw [Fits, hstage] at hfits
    obtain ⟨hrow, hnone, -⟩ := hfits
    exact result_of_directory h rfl (fun hdir => hdir) (fun _ _ => rfl)
      (fun _ hfile => Or.inl hfile) ⟨hrow, hasNoFile_of_none hnone⟩
  · rw [Fits, hstage] at hfits
    obtain ⟨hrow, hname, -, -, -⟩ := hfits
    refine result_of_directory h rfl (fun hdir => Directory.isPresent_remove hdir name) ?_
      (fun _ hfile => Or.inl hfile) ⟨hrow, fun other hfile => ?_⟩
    · rintro other hne
      refine Directory.data?_remove_of_ne (fun heq => hne ?_) _
      rw [← heq]
      exact hname
    · obtain rfl := Option.some.inj (hname.symm.trans hfile)
      exact Directory.data?_remove _ _

end Attempt

end ResponseExport.Export
