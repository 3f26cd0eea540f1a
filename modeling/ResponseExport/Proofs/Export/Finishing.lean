import ResponseExport.Proofs.Export.FileNames
import ResponseExport.Proofs.Export.TaskSteps

/-!
# `ResponseExport.Proofs.Export.Finishing`: which jobs finish

A pending job is processed in steps: it is marked, its file is made, page after page
is written, and it is marked done. Nothing stops it if the store answers, the
directory can be made and a channel can have the size of a page
(`Service.IsReady`), except that a directory takes no name of more than 255 bytes.
The name of the file is longer than that if the survey's name has more than 186
characters: then the job fails, whatever its responses are.

`process_iff` says so, of all surveys. A run is followed along its steps
(`Service.after` is the service behind so many of them): `run_eq_marked` is the first
one, `exists_run_written` are those that write, by induction on what is left of the
listing, and `process_of_short` and `process_of_long` put them together.
-/

set_option autoImplicit false

namespace ResponseExport

open Export (Status)

/-! ### The row of a job -/

namespace Store

variable {s : Store} {j : JobRow} {now : String} {t : Time.Instant}

/-- A row with a status and a time that were just written can be read. -/
theorem JobRow.job_written (ht : Time.Instant.read now = .ok t) (status : Status)
    (link file : Option String) :
    JobRow.job ⟨j.id, j.survey, j.user, now, status.text, link, file⟩
      = .ok ⟨j.id, j.survey, j.user, t, status, link, file⟩ := by
  rw [JobRow.job]
  dsimp only
  rw [ofText?_text]
  dsimp only
  rw [ht]

/-- The row of an unfinished job that is moved. -/
theorem jobRow?_move (hs : s.isOpen = true) (hids : JobOp.UniqueIds s) (hj : j ∈ s.tables.jobs)
    (hunfinished : j.isUnfinished = true) (now : String) (status : Status) :
    (JobOp.apply s (.move now j.id status)).tables.jobRow? j.id
      = some ⟨j.id, j.survey, j.user, now, status.text, j.link, j.file⟩ := by
  have hrow := JobOp.jobRow?_apply hids hs hj (.move now j.id status)
  rwa [JobOp.rewrite, if_pos ⟨rfl, hunfinished⟩] at hrow

/-- The row of a job that is marked done. -/
theorem jobRow?_finish (hs : s.isOpen = true) (hids : JobOp.UniqueIds s) (hj : j ∈ s.tables.jobs)
    (now link file : String) :
    (JobOp.apply s (.finish now j.id link file)).tables.jobRow? j.id
      = some ⟨j.id, j.survey, j.user, now, Status.done.text, some link, some file⟩ := by
  have hrow := JobOp.jobRow?_apply hids hs hj (.finish now j.id link file)
  rwa [JobOp.rewrite, if_pos rfl] at hrow

/-- An unfinished job is moved, and it is answered as it stands then. -/
theorem moveJob_row (hs : s.isOpen = true) (hids : JobOp.UniqueIds s) (hj : j ∈ s.tables.jobs)
    (hunfinished : j.isUnfinished = true) (ht : Time.Instant.read now = .ok t) (status : Status) :
    s.moveJob now j.id status = (JobOp.apply s (.move now j.id status),
      .ok ⟨j.id, j.survey, j.user, t, status, j.link, j.file⟩) := by
  have hrow := jobRow?_move hs hids hj hunfinished now status
  rw [JobOp.apply, moveJob, if_pos hs] at hrow ⊢
  refine Prod.ext rfl ?_
  show Tables.findJob _ _ = _
  rw [Tables.findJob, hrow]
  exact JobRow.job_written ht status j.link j.file

/-- A job is marked done, and it is answered as it stands then. -/
theorem finishJob_row (hs : s.isOpen = true) (hids : JobOp.UniqueIds s) (hj : j ∈ s.tables.jobs)
    (ht : Time.Instant.read now = .ok t) (link file : String) :
    s.finishJob now j.id link file = (JobOp.apply s (.finish now j.id link file),
      .ok ⟨j.id, j.survey, j.user, t, .done, some link, some file⟩) := by
  have hrow := jobRow?_finish hs hids hj now link file
  rw [JobOp.apply, finishJob, if_pos hs] at hrow ⊢
  refine Prod.ext rfl ?_
  show Tables.findJob _ _ = _
  rw [Tables.findJob, hrow]
  exact JobRow.job_written ht .done (some link) (some file)

end Store

namespace Export

open Survey (Response responseFile responseTable read_responseFile)
open Store (JobOp JobRow Tables endOf cursorAfter_endOf)
open Csv (Writer)

/-! ### The service behind steps of a task -/

namespace Service

/-- The time by the clock when so many steps have been taken. -/
def timeAfter (s : Service) : (steps : Nat) → Time.Instant
  | 0 => s.now
  | steps + 1 => { s with now := s.timeAfter steps }.tick.now

/-- The service behind so many steps, which have left these tables, this directory and this count
of questions. -/
def after (s : Service) (steps : Nat) (store : Store) (directory : Directory) (calls : Nat) :
    Service :=
  { s with now := s.timeAfter steps, store, directory, calls }

end Service

namespace Task

variable {s : Service} {task : Task}

/-- A task that has more to do takes a step. -/
theorem run_succ (hgoing : task.isGoing = true) (s : Service) (steps : Nat) :
    run (steps + 1) s task = run steps (task.step s).1.tick (task.step s).2 := by
  obtain ⟨r, stage⟩ := task
  cases stage <;> first | rfl | cases hgoing

/-- A task that is over stays so. -/
theorem run_over (steps : Nat) (s : Service) (r : Request) (result : Except ExportError Job) :
    run steps s ⟨r, .over result⟩ = (s, ⟨r, .over result⟩) := by
  cases steps <;> rfl

/-! ### Page after page -/

/-- What a step that writes comes to if nothing is in its way. A full page is written, and the next
one starts behind it; or what is left of the listing is no full page, and the file is complete. -/
theorem writePage_of_open (s : Service) (task : Task) {t : Tables} (ht : t.Keyed)
    (hs : s.Serves t s.pageSize) (hpossible : isPossible s.pageSize = true)
    (hopen : s.store.isOpen = true) (file : String) {a b : List Response}
    (hab : t.listing task.filter = a ++ b) {w : Writer} (hw : HasWritten a w)
    (hsink : w.sink.IsLimitless) :
    (atLeastOne s.pageSize ≤ b.length ∧ ∃ w', HasWritten (a ++ b.take (atLeastOne s.pageSize)) w' ∧
      w'.sink.IsLimitless ∧ writePage s task file w (endOf a)
        = (save { s with calls := s.calls + 1 } file w',
          { task with stage :=
              .writing file w' (endOf (a ++ b.take (atLeastOne s.pageSize))) })) ∨
    (∃ w' stats, w'.sink.data = responseFile (a ++ b) ∧ writePage s task file w (endOf a)
      = (save { s with calls := s.calls + 1 } file w',
        { task with stage := .finishing file stats })) := by
  have hpage : answerTo s task (endOf a) = .ok (b.take (atLeastOne s.pageSize)) :=
    answerTo_eq hs ht hpossible hopen hab
  rcases writePage_eq s task file (endOf a) hw with ⟨e, herror, -⟩ |
    ⟨rows, w', hrows, hfull, hw', hsink', heq⟩ | ⟨rows, w', stats, hrows, hshort, hdata, -, -, heq⟩
  · obtain ⟨e', he'⟩ := herror hsink
    rw [hpage] at he'
    cases he'
  · obtain rfl := Except.ok.inj (hpage.symm.trans hrows)
    rw [List.length_take] at hfull
    rw [cursorAfter_endOf] at heq
    exact Or.inl ⟨by omega, w', hw', hsink' hsink, heq⟩
  · obtain rfl := Except.ok.inj (hpage.symm.trans hrows)
    rw [List.length_take] at hshort
    rw [List.take_of_length_le (by omega)] at hdata
    exact Or.inr ⟨w', stats, hdata, heq⟩

/-- **A file is written.** A task that has written a first part of the listing writes the rest of
it, in at most one step more than there are rows left. -/
theorem exists_run_written {t : Tables} (ht : t.Keyed) (hpossible : isPossible s.pageSize = true)
    {store : Store} (hsource : s.source = .table) (hanswers : t.SameAnswers store.tables)
    (hopen : store.isOpen = true) {r : Request} (file : String) {a b : List Response}
    (hab : t.listing (.survey r.user r.survey) = a ++ b) {w : Writer} (hw : HasWritten a w)
    (hsink : w.sink.IsLimitless) {d : Directory} (hd : d.IsPresent) (i calls : Nat) :
    ∃ taken d' calls' stats, taken ≤ b.length + 1 ∧
      d'.data? file = some (responseFile (t.listing (.survey r.user r.survey))) ∧
      ∀ steps, run (taken + steps) (s.after i store d calls) ⟨r, .writing file w (endOf a)⟩
        = run steps (s.after (i + taken) store d' calls') ⟨r, .finishing file stats⟩ := by
  have hpos : 1 ≤ atLeastOne s.pageSize := Nat.le_max_right _ _
  have hserves : (s.after i store d calls).Serves t s.pageSize := ⟨hsource, hanswers, rfl⟩
  rcases writePage_of_open (s.after i store d calls) ⟨r, .writing file w (endOf a)⟩ ht hserves
      hpossible hopen file hab hw hsink with ⟨hlong, w', hw', hsink', heq⟩ | ⟨w', stats, hdata, heq⟩
  · -- Behind a full page there are fewer rows left, and the rest of them is written likewise.
    have hlong' : atLeastOne s.pageSize ≤ b.length := hlong
    have hrest : (b.drop (atLeastOne s.pageSize)).length + atLeastOne s.pageSize = b.length := by
      rw [List.length_drop]
      omega
    have hab' : t.listing (.survey r.user r.survey)
        = (a ++ b.take (atLeastOne s.pageSize)) ++ b.drop (atLeastOne s.pageSize) := by
      rw [hab, List.append_assoc, List.take_append_drop]
    obtain ⟨taken, d', calls', stats, htaken, hdata, hruns⟩ :=
      exists_run_written ht hpossible hsource hanswers hopen file hab' hw' hsink'
        (Directory.isPresent_write hd file w'.sink.data) (i + 1) (calls + 1)
    refine ⟨taken + 1, d', calls', stats, by omega, hdata, fun steps => ?_⟩
    have hsplit : taken + 1 + steps = taken + steps + 1 := by omega
    have hindex : i + (taken + 1) = i + 1 + taken := by omega
    rw [hsplit, hindex, run_succ rfl, ← hruns]
    show run (taken + steps) (writePage _ _ file w (endOf a)).1.tick
      (writePage _ _ file w (endOf a)).2 = _
    rw [heq]
    rfl
  · refine ⟨1, d.write file w'.sink.data, calls + 1, stats, by omega, ?_, fun steps => ?_⟩
    · rw [Directory.data?_write hd, hdata, ← hab]
    · rw [Nat.add_comm, run_succ rfl]
      show run steps (writePage _ _ file w (endOf a)).1.tick (writePage _ _ file w (endOf a)).2 = _
      rw [heq]
      rfl
termination_by b.length

/-! ### The first step and the last -/

variable {store : Store} {j : JobRow} {i : Nat} {now : Time.Instant}

/-- A task that has written its file ends with its job marked done. -/
theorem run_finishing (hs : store.isOpen = true) (hids : JobOp.UniqueIds store)
    (hj : j ∈ store.tables.jobs) (hnow : Time.Instant.read (s.timeAfter i).millisText = .ok now)
    (d : Directory) (calls : Nat) (file : String) (stats : Csv.Stats) (steps : Nat) :
    run (steps + 1) (s.after i store d calls) ⟨j.request, .finishing file stats⟩
      = (s.after (i + 1) (JobOp.apply store (.finish (s.timeAfter i).millisText j.id
          (Service.link s.baseUrl j.id) file)) d calls,
        ⟨j.request, .over (.ok ⟨j.id, j.survey, j.user, now, .done,
          some (Service.link s.baseUrl j.id), some file⟩)⟩) := by
  have hfinish := Store.finishJob_row hs hids hj hnow (Service.link s.baseUrl j.id) file
  rw [run_succ rfl]
  show run steps (complete _ _ file).1.tick (complete _ _ file).2 = _
  rw [complete, Service.markDone]
  dsimp only [Service.after, Service.stamp, JobRow.request]
  rw [hfinish]
  exact run_over steps _ _ _

/-- A task that fails ends with its job marked failed, if it was not finished. -/
theorem run_failing (hs : store.isOpen = true) (hids : JobOp.UniqueIds store)
    (hj : j ∈ store.tables.jobs) (hunfinished : j.isUnfinished = true)
    (hnow : Time.Instant.read (s.timeAfter i).millisText = .ok now) (d : Directory) (calls : Nat)
    (e : ExportError) (steps : Nat) :
    run (steps + 1) (s.after i store d calls) ⟨j.request, .failing e⟩
      = (s.after (i + 1) (JobOp.apply store (.move (s.timeAfter i).millisText j.id .failed)) d calls,
        ⟨j.request, .over (.error e)⟩) := by
  have hmove := Store.moveJob_row hs hids hj hunfinished hnow .failed
  rw [run_succ rfl]
  show run steps (fail _ _ e).1.tick (fail _ _ e).2 = _
  rw [fail, Service.move]
  dsimp only [Service.after, Service.stamp, JobRow.request]
  rw [hmove]
  exact run_over steps _ _ _

end Task

namespace Service

/-- A service that has what it needs to process a pending job. -/
structure IsReady (s : Service) (j : JobRow) : Prop where
  isOpen : s.store.isOpen = true
  uniqueIds : JobOp.UniqueIds s.store
  keyed : s.store.tables.Keyed
  source : s.source = .table
  /-- A channel can have the size of a page. -/
  possible : isPossible s.pageSize = true
  /-- The directory is there or can be made. -/
  free : s.directory ≠ .blocked
  mem : j ∈ s.store.tables.jobs
  pending : j.status = Status.pending.text
  uuid : isUuid j.id = true
  /-- The years of the job are written with four digits. -/
  clock : ∀ steps ≤ s.taskSteps, (s.timeAfter steps).HasShortYear

/-- The name of the file of a job that is processed now. Its first step has been taken then. -/
def fileName (s : Service) (j : JobRow) : String := FileName.stored j.survey j.id (s.timeAfter 1)

/-- A job is done when it has been processed: its row and the answer have the link and the name of
its file. The file is that of all responses to its survey: a reader finds the header and the cells
of each of them. -/
structure IsDelivered (s : Service) (j : JobRow) (s' : Service)
    (result : Except ExportError Job) : Prop where
  row : ∃ now, s'.store.tables.jobRow? j.id
    = some ⟨j.id, j.survey, j.user, now, "done", some (link s.baseUrl j.id), some (s.fileName j)⟩
  answer : ∃ now, result
    = .ok ⟨j.id, j.survey, j.user, now, .done, some (link s.baseUrl j.id), some (s.fileName j)⟩
  data : s'.directory.data? (s.fileName j)
    = some (responseFile (s.store.tables.listing (.survey j.user j.survey)))
  read : (s'.directory.data? (s.fileName j)).bind (Csv.read {})
    = some (responseTable (s.store.tables.listing (.survey j.user j.survey)))

/-- A job has failed when it has been processed, because of the name of its file. At most the
directory was made. -/
structure IsRefused (s : Service) (j : JobRow) (s' : Service)
    (result : Except ExportError Job) : Prop where
  row : ∃ now, s'.store.tables.jobRow? j.id
    = some ⟨j.id, j.survey, j.user, now, "error", j.link, j.file⟩
  answer : result = .error (.io "File name too long (os error 36)")
  made : s.directory.make = .ok s'.directory

variable {s : Service} {j : JobRow}

/-- The table when a job was marked as being processed. -/
def marked (s : Service) (j : JobRow) : Store :=
  JobOp.apply s.store (.move s.stamp j.id .processing)

/-- The row of a job that is being processed. -/
def atWork (s : Service) (j : JobRow) : JobRow :=
  { j with updated := s.stamp, status := Status.processing.text }

/-- A job at work is still for the same request. -/
theorem request_atWork (s : Service) (j : JobRow) : (s.atWork j).request = j.request := by
  have hsame : ∀ now status, JobRow.request { j with updated := now, status } = j.request :=
    fun _ _ => rfl
  exact hsame _ _

theorem isUnfinished_atWork (s : Service) (j : JobRow) : (s.atWork j).isUnfinished = true := by
  rw [JobRow.isUnfinished]
  exact (by decide : (Status.processing.text == "pending" || Status.processing.text == "processing")
    = true)

namespace IsReady

theorem isUnfinished (h : s.IsReady j) : j.isUnfinished = true := by
  rw [JobRow.isUnfinished, h.pending]
  rfl

theorem read_timeAfter (h : s.IsReady j) (steps : Nat) (hsteps : steps ≤ s.taskSteps) :
    ∃ now, Time.Instant.read (s.timeAfter steps).millisText = .ok now :=
  ⟨_, Time.read_millisText (h.clock steps hsteps)⟩

theorem mem_marked (h : s.IsReady j) : s.atWork j ∈ (s.marked j).tables.jobs := by
  have hmem := JobOp.mem_apply_of_mem h.isOpen (.move s.stamp j.id .processing) h.mem
  rw [JobOp.rewrite, if_pos ⟨rfl, h.isUnfinished⟩] at hmem
  exact hmem

theorem isOpen_marked (h : s.IsReady j) : (s.marked j).isOpen = true :=
  (JobOp.isOpen_apply _ _).trans h.isOpen

theorem uniqueIds_marked (h : s.IsReady j) : JobOp.UniqueIds (s.marked j) :=
  JobOp.uniqueIds_apply h.uniqueIds _

theorem sameAnswers_marked (h : s.IsReady j) :
    s.store.tables.SameAnswers (s.marked j).tables := by
  rw [marked, JobOp.apply_eq_withJobs h.isOpen _ rfl]
  exact ⟨rfl, rfl, rfl⟩

/-- The first step marks the job. -/
theorem run_eq_marked (h : s.IsReady j) (steps : Nat) :
    (Task.new j.request).run (1 + steps) s
      = Task.run steps (s.after 1 (s.marked j) s.directory s.calls) (Task.marked j.request) := by
  obtain ⟨now, hnow⟩ : ∃ now, Time.Instant.read s.stamp = .ok now :=
    h.read_timeAfter 0 (Nat.zero_le _)
  have hmark : (Task.new j.request).step s
      = ({ s with store := s.marked j }, Task.marked j.request) := by
    show Task.mark s ⟨j.request, .marking⟩ = _
    rw [Task.mark, move]
    dsimp only [JobRow.request]
    rw [Store.moveJob_row h.isOpen h.uniqueIds h.mem h.isUnfinished hnow]
    rfl
  rw [Nat.add_comm, Task.run_succ rfl, hmark]
  rfl

/-- The directory is made, unless it is there. -/
theorem exists_make (h : s.IsReady j) : ∃ files, s.directory.make = .ok (.present files) := by
  cases hdirectory : s.directory with
  | absent => exact ⟨[], rfl⟩
  | blocked => exact absurd hdirectory h.free
  | present files => exact ⟨files, rfl⟩

/-- The name of the file fits into a directory if the survey's name has at most 186 characters. -/
theorem length_fileName (h : s.IsReady j) :
    (s.fileName j).utf8ByteSize ≤ Disk.maxName ↔ j.survey.length ≤ 186 := by
  have hclock : (s.timeAfter 1).HasShortYear :=
    h.clock 1 (Nat.le_trans (by decide) (Nat.le_add_left 8 _))
  rw [fileName, utf8ByteSize_stored j.survey h.uuid hclock, Disk.maxName]
  omega

/-- There are more steps than a task takes that reads all responses one by one. -/
theorem length_listing_lt (h : s.IsReady j) (f : Survey.Filter) :
    (s.store.tables.listing f).length + 10 ≤ s.taskSteps := by
  have hsteps : s.taskSteps = s.store.tables.responses.length + 10 := by
    rw [taskSteps, h.source]
    rfl
  rw [hsteps, (Tables.listing_perm h.keyed f).length_eq]
  exact Nat.add_le_add_right (List.length_filter_le _ _) 10

/-- If the survey's name is short, the file is made and written, and there are steps left for the
job to be marked done. -/
theorem exists_run_finishing (h : s.IsReady j) (hshort : j.survey.length ≤ 186) :
    ∃ taken d calls stats, taken + 1 ≤ s.taskSteps ∧
      d.data? (s.fileName j)
        = some (responseFile (s.store.tables.listing (.survey j.user j.survey))) ∧
      ∀ steps, (Task.new j.request).run (taken + steps) s
        = Task.run steps (s.after taken (s.marked j) d calls)
          ⟨j.request, .finishing (s.fileName j) stats⟩ := by
  obtain ⟨files, hmake⟩ := h.exists_make
  have hcreate := Directory.create_of_le (h.length_fileName.mpr hshort) files
  obtain ⟨w, hw, hsink, hprepare⟩ := Task.prepare_eq (Task.marked j.request)
    (s := s.after 1 (s.marked j) s.directory s.calls) h.possible hmake hcreate
  have hmade : (Directory.present (Directory.put (s.fileName j) [] files)).IsPresent := ⟨_, rfl⟩
  obtain ⟨taken, d, calls, stats, htaken, hdata, hwritten⟩ :=
    Task.exists_run_written (s := s) (r := j.request) h.keyed h.possible h.source
      h.sameAnswers_marked h.isOpen_marked (s.fileName j)
      (List.nil_append (s.store.tables.listing (.survey j.user j.survey))).symm hw hsink
      (Directory.isPresent_write hmade (s.fileName j) w.sink.data) 2 s.calls
  refine ⟨2 + taken, d, calls, stats, ?_, hdata, fun steps => ?_⟩
  · have hrows := h.length_listing_lt (.survey j.user j.survey)
    omega
  · have hsplit : 2 + taken + steps = 1 + (taken + steps + 1) := by omega
    rw [hsplit, h.run_eq_marked, Task.run_succ rfl]
    show Task.run (taken + steps) (Task.prepare _ _).1.tick (Task.prepare _ _).2 = _
    rw [hprepare, ← hwritten]
    rfl

end IsReady

/-- What comes out of a run that ends. -/
theorem process_eq {s s' : Service} {r : Request} {result : Except ExportError Job}
    (hrun : (Task.new r).run s.taskSteps s = (s', ⟨r, .over result⟩)) :
    s.process r = (s', some result) := by
  rw [process, hrun]

/-- A job whose survey has a short name is done when it was processed. -/
theorem process_of_short (h : s.IsReady j) (hshort : j.survey.length ≤ 186) :
    ∃ s' result, s.process j.request = (s', some result) ∧ s.IsDelivered j s' result := by
  obtain ⟨taken, d, calls, stats, htaken, hdata, hrun⟩ := h.exists_run_finishing hshort
  obtain ⟨spare, hspare⟩ := Nat.exists_eq_add_of_le htaken
  obtain ⟨now, hnow⟩ := h.read_timeAfter taken (by omega)
  have hlast := Task.run_finishing h.isOpen_marked h.uniqueIds_marked h.mem_marked hnow d calls
    (s.fileName j) stats spare
  have hsplit : s.taskSteps = taken + (spare + 1) := by omega
  have hrow := Store.jobRow?_finish h.isOpen_marked h.uniqueIds_marked h.mem_marked
    (s.timeAfter taken).millisText (link s.baseUrl j.id) (s.fileName j)
  have hover := hrun (spare + 1)
  rw [← hsplit] at hover
  -- The row at work is written out: its id is the job's.
  rw [request_atWork] at hlast
  dsimp only [atWork] at hlast hrow
  have hread := congrArg (Option.bind · (Csv.read {})) hdata
  rw [Option.bind_some, read_responseFile] at hread
  exact ⟨_, _, process_eq (hover.trans hlast), ⟨_, hrow⟩, ⟨now, rfl⟩, hdata, hread⟩

/-- A job whose survey has a long name has failed when it was processed. -/
theorem process_of_long (h : s.IsReady j) (hlong : 186 < j.survey.length) :
    ∃ s' result, s.process j.request = (s', some result) ∧ s.IsRefused j s' result := by
  obtain ⟨files, hmake⟩ := h.exists_make
  have hcreate := Directory.create_of_lt
    (Nat.not_le.mp fun hfits => Nat.not_le.mpr hlong (h.length_fileName.mp hfits)) files
  have hprepare := Task.prepare_eq_failing (Task.marked j.request)
    (s := s.after 1 (s.marked j) s.directory s.calls) hmake hcreate
  have hsteps := h.length_listing_lt (.survey j.user j.survey)
  obtain ⟨spare, hspare⟩ := Nat.exists_eq_add_of_le (by omega : 3 ≤ s.taskSteps)
  obtain ⟨now, hnow⟩ := h.read_timeAfter 2 (by omega)
  have hlast := Task.run_failing h.isOpen_marked h.uniqueIds_marked h.mem_marked
    (isUnfinished_atWork s j) hnow (.present files) s.calls (.io FileError.nameTooLong.message)
    spare
  have hrow := Store.jobRow?_move h.isOpen_marked h.uniqueIds_marked h.mem_marked
    (isUnfinished_atWork s j) (s.timeAfter 2).millisText .failed
  have hover : (Task.new j.request).run s.taskSteps s
      = Task.run (spare + 1) (s.after 2 (s.marked j) (.present files) s.calls)
        ⟨j.request, .failing (.io FileError.nameTooLong.message)⟩ := by
    have hsplit : s.taskSteps = 1 + (spare + 1 + 1) := by omega
    rw [hsplit, h.run_eq_marked, Task.run_succ rfl]
    show Task.run (spare + 1) (Task.prepare _ _).1.tick (Task.prepare _ _).2 = _
    rw [hprepare]
    rfl
  rw [request_atWork] at hlast
  dsimp only [atWork] at hlast hrow
  exact ⟨_, _, process_eq (hover.trans hlast), ⟨_, hrow⟩, rfl, hmake⟩

/-- **Which jobs finish.** A pending job of a service that is ready has a result when it was
processed. It is done with the file of all responses if and only if its survey's name has at most
186 characters. With any other name it has failed. -/
theorem process_iff (h : s.IsReady j) :
    ∃ s' result, s.process j.request = (s', some result) ∧
      (s.IsDelivered j s' result ↔ j.survey.length ≤ 186) ∧
      (s.IsRefused j s' result ↔ 186 < j.survey.length) := by
  have hapart : ∀ {s' result}, s.IsDelivered j s' result → ¬ s.IsRefused j s' result := by
    intro s' result hdelivered hrefused
    obtain ⟨now, hok⟩ := hdelivered.answer
    rw [hrefused.answer] at hok
    cases hok
  rcases Nat.lt_or_ge 186 j.survey.length with hlong | hshort
  · obtain ⟨s', result, hprocess, hrefused⟩ := process_of_long h hlong
    exact ⟨s', result, hprocess,
      iff_of_false (fun hdelivered => hapart hdelivered hrefused) (Nat.not_le.mpr hlong),
      iff_of_true hrefused hlong⟩
  · obtain ⟨s', result, hprocess, hdelivered⟩ := process_of_short h hshort
    exact ⟨s', result, hprocess, iff_of_true hdelivered hshort,
      iff_of_false (hapart hdelivered) (Nat.not_lt.mpr hshort)⟩

/-! ### One long name -/

/-- A job that waits for a survey of this name to be exported. -/
def waitingJob (survey : String) : JobRow :=
  ⟨"11111111-1111-4111-8111-111111111111", survey, "owner@example.com", "1970-01-01T00:00:00.000Z",
    "pending", none, none⟩

/-- A service with this job, and with two responses to the survey `Survey`. -/
def waitingService (survey : String) : Service where
  store := { tables := { Tables.answeredBy ["u2", "u1"] with jobs := [waitingJob survey] } }
  directory := .absent
  source := .table
  pageSize := 1
  now := ⟨0, 0⟩

theorem timeAfter_waitingService (survey : String) {steps : Nat} (hsteps : steps ≤ 12) :
    (waitingService survey).timeAfter steps = ⟨0, steps * Time.milliNanos⟩ := by
  induction steps with
  | zero => rfl
  | succ steps ih =>
      have hnanos : steps * Time.milliNanos + Time.milliNanos < Time.secondNanos := by
        rw [Time.milliNanos, Time.secondNanos]
        omega
      rw [timeAfter, ih (by omega), tick]
      dsimp only
      rw [Nat.div_eq_of_lt hnanos, Nat.mod_eq_of_lt hnanos, Nat.succ_mul]
      rfl

theorem isReady_waitingService (survey : String) :
    (waitingService survey).IsReady (waitingJob survey) where
  isOpen := rfl
  uniqueIds := List.nodup_singleton _
  keyed := by
    have hsame : (Tables.answeredBy ["u2", "u1"]).SameAnswers (waitingService survey).store.tables :=
      ⟨rfl, rfl, rfl⟩
    exact hsame.keyed (Tables.keyed_answeredBy (by decide))
  source := rfl
  possible := (by decide : isPossible 1 = true)
  free := nofun
  mem := List.mem_singleton.mpr rfl
  pending := rfl
  uuid := (by decide : isUuid "11111111-1111-4111-8111-111111111111" = true)
  clock := by
    intro steps hsteps
    have hle : steps ≤ 12 := hsteps
    rw [timeAfter_waitingService survey hle]
    refine ⟨?_, ?_, ?_⟩
    · show 0 ≤ (Time.Date.ofDays (0 / Time.daySeconds + Time.epochDay)).year
      decide
    · show (Time.Date.ofDays (0 / Time.daySeconds + Time.epochDay)).year ≤ 9999
      decide
    · show steps * Time.milliNanos < 2 * Time.secondNanos
      rw [Time.milliNanos, Time.secondNanos]
      omega

/-- The job of the survey that has responses is done. -/
theorem process_iff_waiting :
    ∃ s' result, (waitingService "Survey").process (waitingJob "Survey").request
        = (s', some result) ∧
      (waitingService "Survey").IsDelivered (waitingJob "Survey") s' result ∧
      (waitingService "Survey").fileName (waitingJob "Survey")
        = "report_Survey_19700101T000000.001Z_11111111-1111-4111-8111-111111111111.csv" := by
  obtain ⟨s', result, hprocess, hdelivered, -⟩ := process_iff (isReady_waitingService "Survey")
  exact ⟨s', result, hprocess, hdelivered.mpr (by decide), by decide +kernel⟩

/-- The job of a survey of 187 characters fails. -/
theorem process_fails_long :
    let survey := String.ofList (List.replicate 187 'x')
    (waitingService survey).IsReady (waitingJob survey) ∧
      ∃ s' now, (waitingService survey).process (waitingJob survey).request
          = (s', some (.error (.io "File name too long (os error 36)"))) ∧
        s'.store.tables.jobRow? "11111111-1111-4111-8111-111111111111"
          = some { waitingJob survey with updated := now, status := "error" } ∧
        s'.directory = .present [] := by
  intro survey
  have hready := isReady_waitingService survey
  have hlong : 186 < (waitingJob survey).survey.length := by
    show 186 < (String.ofList (List.replicate 187 'x')).length
    rw [String.length_ofList, List.length_replicate]
    decide
  obtain ⟨s', result, hprocess, ⟨now, hrow⟩, rfl, hmade⟩ := process_of_long hready hlong
  exact ⟨hready, s', now, hprocess, hrow, (Except.ok.inj hmade).symm⟩

end Service

end Export

end ResponseExport
