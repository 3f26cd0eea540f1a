import ResponseExport.Proofs.System.Filed

/-!
# `ResponseExport.Proofs.System.Unchanged`: an export of data that stays as it is

While users, surveys and responses stay as they are, all that is read of them belongs to
one listing. So the file of a job that was created and done in this time is the file of
the listing that its row names (`Filed.stored`), whatever other callers, tasks and the
rest of the world do.

A job is created and handed to the queue without pause when it is asked for by a request.
That is a run like any other one (`run_request`), except that nobody remembers the asking.
-/

set_option autoImplicit false

namespace ResponseExport

open Store (JobOp JobRow Tables)
open Survey (responseFile)

/-- An operation on the table of jobs is about no other table. -/
theorem Store.JobOp.sameAnswers_apply (s : Store) (op : JobOp) :
    s.tables.SameAnswers (apply s op).tables := by
  cases op with
  | create now id user survey =>
      rw [apply, createJob]
      split
      · unfold Tables.createJob
        split
        · exact ⟨rfl, rfl, rfl⟩
        · rename_i hcreated
          split at hcreated <;> cases hcreated
          exact ⟨rfl, rfl, rfl⟩
      · exact ⟨rfl, rfl, rfl⟩
  | move now id status =>
      rw [apply, moveJob]
      split <;> exact ⟨rfl, rfl, rfl⟩
  | finish now id link file =>
      rw [apply, finishJob]
      split <;> exact ⟨rfl, rfl, rfl⟩
  | failAll now =>
      rw [apply, failJobs]
      split <;> exact ⟨rfl, rfl, rfl⟩

namespace Export

variable {t : Tables} {pageSize : Nat}

theorem Service.Serves.apply {s : Service} (h : s.Serves t pageSize) (op : JobOp) :
    Service.Serves t pageSize { s with store := JobOp.apply s.store op } := by
  obtain ⟨husers, hsurveys, hresponses⟩ := JobOp.sameAnswers_apply s.store op
  exact ⟨h.source, ⟨h.answers.users.trans husers, h.answers.surveys.trans hsurveys,
    h.answers.responses.trans hresponses⟩, h.pageSize⟩

/-- The world around leaves users, surveys and responses as they are in `t`. -/
def SystemEvent.Keeps (t : Tables) : SystemEvent → Prop
  | .surround w => w.source = .table ∧ t.users = w.users ∧ t.surveys = w.surveys ∧
      t.responses = w.responses
  | _ => True

/-- What is known of the rows of the attempt at one request. -/
def Attempt.ReadsFor (t : Tables) (r : Request) (a : Attempt) : Prop :=
  a.task.request = r → a.Reads t

theorem Attempt.lasts_readsFor (ht : t.Keyed) (r : Request) :
    Attempt.Lasts (·.Serves t pageSize) (Attempt.ReadsFor t r) where
  new := fun r' _ => Attempt.reads_new t r'
  step := by
    intro s a hs hworks hfits h hrequest
    have hsame : a.task.request = r := (Task.request_step s a.task).symm.trans hrequest
    exact Attempt.reads_step ht hs hworks hfits (h hsame)
  fault := fun hfault _ _ => Attempt.reads_fault hfault

namespace System

variable {y y' : System}

theorem serves_askStep (hs : y.service.Serves t pageSize) (a : Asking) :
    (y.askStep a).1.service.Serves t pageSize := by
  rcases y.askStep_cases a with ⟨op, _, -, -, hstep⟩ | ⟨_, _, -, hstep⟩ | hstep <;> rw [hstep]
  · exact hs.apply op
  · exact hs
  · exact hs

/-- A step of a task is about the table of jobs and the directory. -/
theorem serves_step (h : y.Orderly) (hs : y.service.Serves t pageSize) {task : Task}
    (htask : task ∈ y.tasks) : (task.step y.service).1.Serves t pageSize := by
  obtain ⟨store, directory, calls, hservice⟩ := Task.exists_service_step y.service task
  have hstore : (task.step y.service).1.store = store := by
    rw [hservice]
  rw [hservice, ← hstore]
  rcases Task.store_step h.works (h.hasJob_of_task htask).2 (h.going task htask) with
    ⟨hsame, -⟩ | ⟨op, -, hop, -⟩
  · rw [hsame]
    exact ⟨hs.source, hs.answers, hs.pageSize⟩
  · rw [hop]
    have happlied := hs.apply op
    exact ⟨happlied.source, happlied.answers, happlied.pageSize⟩

theorem serves_next (h : y.Orderly) (hs : y.service.Serves t pageSize) {e : SystemEvent}
    (hkeeps : e.Keeps t) (he : y.next e = some y') : y'.service.Serves t pageSize := by
  cases e with
  | ask r =>
      obtain rfl := Option.some.inj he
      exact hs
  | proceed i =>
      obtain ⟨pre, a, post, -, rfl⟩ := proceed_eq_some he
      exact serves_askStep hs a
  | queue qe =>
      obtain ⟨-, queue, -, rfl⟩ := queue_eq_some he
      exact hs
  | start =>
      obtain ⟨r, queue, -, -, rfl⟩ := start_eq_some he
      exact hs
  | giveUp =>
      obtain ⟨r, queue, -, -, rfl⟩ := giveUp_eq_some he
      exact hs.apply (.move y.service.stamp r.id .failed)
  | work i =>
      obtain ⟨pre, task, post, hsplit, hend⟩ := work_eq_some he
      have htask : task ∈ y.tasks := by
        rw [hsplit]
        exact mem_middle.mpr (Or.inl rfl)
      have hstep := serves_step h hs htask
      rcases hend with ⟨-, queue, -, rfl⟩ | ⟨-, rfl⟩ <;> exact hstep
  | fault i message =>
      obtain ⟨pre, task, post, service, task', -, hfault, rfl⟩ := fault_eq_some he
      obtain ⟨-, ⟨-, rfl⟩ | ⟨_, _, _, -, rfl⟩⟩ := Task.fault_cases hfault <;>
        exact ⟨hs.source, hs.answers, hs.pageSize⟩
  | surround w =>
      obtain rfl := Option.some.inj he
      obtain ⟨hsource, husers, hsurveys, hresponses⟩ := hkeeps
      exact ⟨hsource, ⟨husers, hsurveys, hresponses⟩, hs.pageSize⟩
  | files d =>
      obtain rfl := Option.some.inj he
      exact ⟨hs.source, hs.answers, hs.pageSize⟩

theorem mem_taken_next (h : y.Orderly) {e : SystemEvent} (he : y.next e = some y') {r : Request}
    (hr : r ∈ y.queue.taken) : r ∈ y'.queue.taken := by
  rcases exists_queue_event he with hsame | ⟨qe, hqe⟩
  · rwa [hsame]
  · rw [Queue.taken_next h.sound hqe]
    exact List.mem_append_left _ hr

/-- An export was handed in, and what it is about has not changed since. -/
structure Follows (t : Tables) (pageSize : Nat) (r : Request) (y : System) : Prop where
  filed : y.Filed (Attempt.ReadsFor t r)
  serves : y.service.Serves t pageSize
  taken : r ∈ y.queue.taken

theorem follows_run (ht : t.Keyed) {r : Request} (h : y.Follows t pageSize r)
    {events : List SystemEvent} (hevents : ∀ e ∈ events, e.IsProper ∧ e.Keeps t)
    (hrun : y.run events = some y') : y'.Follows t pageSize r := by
  refine foldlM_induction (fun e he y y' hy hnext => ?_) h hrun
  obtain ⟨hproper, hkeeps⟩ := hevents e he
  exact ⟨filed_next (Attempt.lasts_readsFor ht r) hy.filed hy.serves hproper hnext,
    serves_next hy.filed.orderly hy.serves hkeeps hnext,
    mem_taken_next hy.filed.orderly hnext hy.taken⟩

/-! ### Asking without pause -/

/-- A request that is accepted without pause: its id was not taken, and there was room in the
queue. -/
theorem request_eq_ok (h : y.Orderly) {r : Request} {job : Job}
    (hrequest : y.request r = (y', .ok job)) :
    ¬ y.service.store.HasJob r.id ∧ ∃ store queue,
      y.service.create r.id r.user r.survey = ({ y.service with store }, .ok job) ∧
      store.tables.jobs = y.jobs ++ [.new y.service.stamp r] ∧
      y.queue.enqueue r = (queue, .ok ()) ∧
      y' = { y with service := Service.tick { y.service with store }, queue } := by
  unfold request at hrequest
  rcases Store.createJob_cases h.works.usable h.works.isTime r with
    ⟨-, e, hcreate⟩ | ⟨hnew, created, hcreate, hjobs⟩
  · rw [Service.create, hcreate] at hrequest
    cases hrequest
  · have hservice : y.service.create r.id r.user r.survey = ({ y.service with
        store := JobOp.apply y.service.store (.create y.service.stamp r.id r.user r.survey) },
        .ok created) := by
      rw [Service.create, hcreate]
    rw [hservice] at hrequest
    dsimp only at hrequest
    split at hrequest
    · rename_i queue hqueue
      obtain ⟨rfl, hjob⟩ := Prod.mk.inj hrequest
      obtain rfl := Except.ok.inj hjob
      exact ⟨hnew, _, queue, hservice, hjobs, hqueue, rfl⟩
    · unfold refuse at hrequest
      split at hrequest <;> cases hrequest

/-- To ask without pause is a run, but for the asking, which nobody remembers, and the time. -/
theorem run_request {r : Request} {job : Job} {service : Service} {queue : Queue}
    (hcreate : y.service.create r.id r.user r.survey = (service, .ok job))
    (hqueue : y.queue.enqueue r = (queue, .ok ())) :
    y.run [.ask r, .proceed y.askings.length, .proceed y.askings.length] = some { y with
      service, queue, askings := y.askings ++ [⟨r, .answered (.ok job)⟩] } := by
  have hlast : ∀ a : Asking, (y.askings ++ [a])[y.askings.length]? = some a := by simp
  have hset : ∀ a b : Asking,
      (y.askings ++ [a]).set y.askings.length b = y.askings ++ [b] := by simp
  have hcreated : proceed (y.ask r) y.askings.length = some { y with
      service, askings := y.askings ++ [⟨r, .queueing job⟩] } := by
    rw [proceed, ask]
    dsimp only
    rw [hlast]
    dsimp only
    rw [askStep]
    dsimp only
    rw [hcreate]
    dsimp only
    rw [hset]
  have hqueued : proceed { y with service, askings := y.askings ++ [⟨r, .queueing job⟩] }
      y.askings.length = some { y with
        service, queue, askings := y.askings ++ [⟨r, .answered (.ok job)⟩] } := by
    rw [proceed]
    dsimp only
    rw [hlast]
    dsimp only
    rw [askStep]
    dsimp only
    rw [hqueue]
    dsimp only
    rw [hset]
  -- The caller creates the job, and hands the request in.
  rw [run, List.foldlM_cons]
  show (proceed (y.ask r) y.askings.length >>= _) = _
  rw [hcreated]
  show (proceed { y with service, askings := y.askings ++ [⟨r, .queueing job⟩] }
    y.askings.length >>= _) = _
  rw [hqueued]
  rfl

/-- A caller who was told that the export is under way may be forgotten. -/
theorem Orderly.forget {r : Request} {job : Job}
    (h : Orderly { y with askings := y.askings ++ [⟨r, .answered (.ok job)⟩] }) : y.Orderly := by
  have hclaimed : claimed { y with askings := y.askings ++ [⟨r, .answered (.ok job)⟩] }
      = y.claimed := by
    rw [claimed, claimed, List.flatMap_append, List.flatMap_singleton]
    show y.askings.flatMap Asking.claims ++ [] ++ y.queue.taken = _
    rw [List.append_nil]
  have hnodup := h.ids_nodup
  have hjob := h.has_job
  rw [hclaimed] at hnodup hjob
  refine ⟨h.works, h.sound, h.going, h.running_perm, hnodup, hjob, fun j hj hopen => ?_,
    (forall_mem_concat.mp h.held).1, (forall_mem_concat.mp h.refused).1,
    (forall_mem_concat.mp h.accepted).1⟩
  rcases h.owned j hj hopen with ⟨a, ha, hheld, har⟩ | hholds
  · rcases List.mem_append.mp ha with ha | ha
    · exact Or.inl ⟨a, ha, hheld, har⟩
    · obtain rfl := List.mem_singleton.mp ha
      cases hheld
  · exact Or.inr hholds

variable {P Q : Attempt → Prop}

theorem Filed.forget {r : Request} {job : Job}
    (h : Filed P { y with askings := y.askings ++ [⟨r, .answered (.ok job)⟩] }) : y.Filed P := by
  refine ⟨h.orderly.forget, (forall_mem_concat.mp h.asked).1, h.taken, h.atWork,
    fun j hj htaken hdone => ?_⟩
  obtain ⟨hfinished, hlink, hattempt⟩ := h.done j hj htaken hdone
  exact ⟨hfinished, hlink, hattempt⟩

/-- Time passes, and the clock still shows times that can be read back. -/
theorem Filed.tick (h : y.Filed P) (hnew : ∀ r, P { task := Task.new r })
    (hclock : y.service.tick.now.HasShortYear) : y.tick.Filed P := by
  have hworks : y.service.tick.Works := ⟨h.orderly.works.usable, hclock, h.orderly.works.possible⟩
  have horderly : y.tick.Orderly :=
    h.orderly.quiet ⟨hworks, h.orderly.sound, h.orderly.going, h.orderly.running_perm, rfl, rfl,
      rfl, fun _ hr => hr⟩
  exact h.calm hnew ⟨horderly, ⟨hworks, rfl, rfl, rfl, Store.RowsKept.refl _⟩, h.asked,
    fun _ htask => Or.inl htask, fun _ hr => Or.inl hr, fun _ hr => hr⟩

/-- More may be known of an attempt if its task is at work or its job is done. -/
theorem Filed.mono (h : y.Filed P) (hwork : ∀ a : Attempt, a.task ∈ y.tasks → P a → Q a)
    (hdone : ∀ a : Attempt, (∃ j ∈ y.jobs, j.request = a.task.request ∧
      j.status = Status.done.text) → P a → Q a) : y.Filed Q := by
  refine ⟨h.orderly, h.asked, h.taken, fun task htask => ?_, fun j hj htaken hstatus => ?_⟩
  · obtain ⟨a, rfl, ha⟩ := h.atWork task htask
    exact ⟨a, rfl, { ha with holds := hwork a htask ha.holds }⟩
  · obtain ⟨hfinished, hlink, a, ha, har, ha'⟩ := h.done j hj htaken hstatus
    exact ⟨hfinished, hlink, a, { ha with holds := hdone a ⟨j, hj, har.symm, hstatus⟩ ha.holds },
      har, ha'⟩

/-- An export that is accepted begins with nothing read. -/
theorem follows_request (h : y.Filed fun _ => True) (hs : y.service.Serves t pageSize)
    {r : Request} (huuid : isUuid r.id = true) {job : Job} (hrequest : y.request r = (y', .ok job))
    (hclock : y'.service.now.HasShortYear) : y'.Follows t pageSize r := by
  obtain ⟨hnew, store, queue, hcreate, hjobs, hqueue, rfl⟩ := request_eq_ok h.orderly hrequest
  have hrun := run_request hcreate hqueue
  have hproper : ∀ e ∈ [SystemEvent.ask r, .proceed y.askings.length, .proceed y.askings.length],
      e.IsProper ∧ e.Keeps t := by
    simp [SystemEvent.IsProper, SystemEvent.Keeps, huuid]
  obtain ⟨hfiled, hserves⟩ := foldlM_induction
    (P := fun y : System => y.Filed (fun _ => True) ∧ y.service.Serves t pageSize)
    (fun e he y y' hy hnext => ⟨filed_next Attempt.lasts_true hy.1 trivial (hproper e he).1 hnext,
      serves_next hy.1.orderly hy.2 (hproper e he).2 hnext⟩) ⟨h, hs⟩ hrun
  have htaken : r ∈ queue.taken := hfiled.orderly.accepted _
    (List.mem_append_right _ (List.mem_singleton.mpr rfl)) job rfl
  -- Nobody was at work on this id, and its job is not done.
  have hfresh := h.orderly.id_ne_of_new hnew
  let accepted : System := { y with service := { y.service with store }, queue }
  have hforgotten : accepted.Filed fun _ => True := Filed.forget (y := accepted) hfiled
  have hfiled' := hforgotten.tick (fun _ => trivial) hclock
  refine ⟨hfiled'.mono (fun a ha _ har => ?_) ?_,
    ⟨hserves.source, hserves.answers, hserves.pageSize⟩, htaken⟩
  · have ht := (h.orderly.hasJob_of_task ha).1
    exact absurd (congrArg Request.id har) (hfresh _ (List.mem_append_right _ ht))
  · rintro a ⟨j, hj, hja, hdone⟩ - har
    have hjr : j.id = r.id := congrArg Request.id (hja.trans har)
    have hrows : j ∈ store.tables.jobs := hj
    rw [hjobs] at hrows
    rcases List.mem_append.mp hrows with hold | hlast
    · exact absurd ⟨j, hold, hjr⟩ hnew
    · obtain rfl := List.mem_singleton.mp hlast
      exact absurd hdone (Store.JobRow.isBlank_new _ _).status_ne

/-! ### The file of an export that is done -/

/-- What a row says of a finished export, and where its file is. -/
structure IsStored (y : System) (j : JobRow) (name : String) (data : List UInt8) : Prop where
  link_eq : j.link = some (Service.link y.service.baseUrl j.id)
  file_eq : j.file = some name
  named : ∃ t, name = FileName.stored j.survey j.id t
  short : name.utf8ByteSize ≤ Disk.maxName
  data_eq : y.service.directory.data? name = some data

/-- The file of an export that is done is that of the listing. -/
theorem Follows.stored {r : Request} (h : y.Follows t pageSize r) {j : JobRow} (hj : j ∈ y.jobs)
    (hid : j.id = r.id) (hdone : j.status = Status.done.text) :
    j.request = r ∧
      ∃ name, y.IsStored j name (responseFile (t.listing (.survey r.user r.survey))) := by
  have hrequest := h.filed.orderly.request_eq h.taken hj hid
  obtain ⟨-, hlink, a, hstands, har, hisDone, hfile⟩ :=
    h.filed.done j hj (hrequest ▸ h.taken) hdone
  obtain ⟨name, hname⟩ := Attempt.exists_file hstands.fits hisDone
  have hreads : a.Reads t := hstands.holds (har.trans hrequest)
  have hrows : rowsOf a.answers = t.listing (.survey r.user r.survey) := by
    have hfilter : a.task.filter = .survey r.user r.survey := by
      rw [Task.filter, har, hrequest]
    rw [← hfilter]
    rw [Attempt.isDone] at hisDone
    rw [Attempt.Reads] at hreads
    split at hisDone
    · rename_i hstage
      rwa [hstage] at hreads
    · cases hisDone
  refine ⟨hrequest, name, hlink, hfile.symm.trans hname.file_eq, ?_,
    hstands.short _ hname.file_eq, ?_⟩
  · obtain ⟨when, hwhen⟩ := hstands.named _ hname.file_eq
    rw [har] at hwhen
    exact ⟨when, hwhen⟩
  · rw [← hrows]
    exact hname.data_eq

end System

end Export

end ResponseExport
