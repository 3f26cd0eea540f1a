import ResponseExport.Proofs.System.Steps

/-!
# `ResponseExport.Proofs.System.Orderly`: jobs, requests and tasks fit together

An export exists three times: as a row in the table of jobs, as a request on its way
through the queue, and as a task at work. Callers, the dispatcher and the workers
change one of them at a time, so for a moment they disagree: a job is created before
its request is handed in, and it is closed before its worker reports back.

`System.Orderly` says how far they may disagree. Every unfinished job belongs to
somebody who will close it (`System.Owns`): a caller who has no answer yet, or the
queue. No two callers are after the same job, because an id that is taken is refused
when the job is created; so what one of them does to its job does not undo what
another was told.

`System.Update` is the common part of all events: rows may be rewritten, but none
becomes unfinished again, and who gives a request away has closed its job or passes
it on. `Quiet` events change no row, and a `Move` is that of one caller. Each event
is an instance of one of them but one, the creation of a job (`orderly_create`);
`orderly_next` puts them together.
-/

set_option autoImplicit false

namespace ResponseExport.Export

open scoped List
open Store (JobOp JobRow HasJob)

namespace Asking

/-- Is the caller's job created, and no answer given yet? -/
def holdsJob (a : Asking) : Bool :=
  match a.stage with
  | .queueing _ => true
  | .refusing _ => true
  | _ => false

/-- Was the caller told that the queue takes no more requests? -/
def isRefused (a : Asking) : Bool :=
  match a.stage with
  | .answered (.error (.unavailable _)) => true
  | _ => false

/-- Has the caller an answer? -/
def isAnswered (a : Asking) : Bool :=
  match a.stage with
  | .answered _ => true
  | _ => false

/-- The request, if its job was created for this caller, and the queue has not taken it. -/
def claims (a : Asking) : List Request := if a.holdsJob || a.isRefused then [a.request] else []

end Asking

namespace System

variable {y y' : System}

/-- The rows of the table of jobs. -/
def jobs (y : System) : List JobRow := y.service.store.tables.jobs

/-- The requests whose jobs were created, whatever has become of them. -/
def claimed (y : System) : List Request := y.askings.flatMap Asking.claims ++ y.queue.taken

/-- Somebody is to close the job of this request: a caller without an answer, or the queue. -/
def Owns (y : System) (r : Request) : Prop :=
  (∃ a ∈ y.askings, a.holdsJob = true ∧ a.request = r) ∨ r ∈ y.queue.holds

/-- How jobs, requests and tasks fit together, along all runs. -/
structure Orderly (y : System) : Prop where
  works : y.service.Works
  sound : y.queue.Sound
  going : ∀ t ∈ y.tasks, t.isGoing = true
  running_perm : (y.tasks.map Task.request).Perm y.queue.running
  /-- No two callers have the same job. -/
  ids_nodup : (y.claimed.map Request.id).Nodup
  has_job : ∀ r ∈ y.claimed, ∃ j ∈ y.jobs, j.request = r
  owned : ∀ j ∈ y.jobs, j.isUnfinished = true → y.Owns j.request
  held : ∀ a ∈ y.askings, a.holdsJob = true → ∀ j ∈ y.jobs, j.id = a.request.id →
    j.status ≠ Status.done.text
  refused : ∀ a ∈ y.askings, a.isRefused = true → ∀ j ∈ y.jobs, j.id = a.request.id →
    j.status = Status.failed.text
  accepted : ∀ a ∈ y.askings, ∀ job, a.stage = .answered (.ok job) → a.request ∈ y.queue.taken

/-- What most events do. They rewrite rows, but take no finished job up again. Who owned a job
that is still unfinished passes it on, and no caller's claim is new. -/
structure Update (y y' : System) (f : JobRow → JobRow) : Prop where
  works : y'.service.Works
  sound : y'.queue.Sound
  going : ∀ t ∈ y'.tasks, t.isGoing = true
  running_perm : (y'.tasks.map Task.request).Perm y'.queue.running
  jobs_eq : y'.jobs = y.jobs.map f
  request_eq : ∀ j, (f j).request = j.request
  unfinished : ∀ j, (f j).isUnfinished = true → j.isUnfinished = true
  owns : ∀ j, (f j).isUnfinished = true → y.Owns j.request → y'.Owns j.request
  claimed_perm : y'.claimed.Perm y.claimed
  held : ∀ a ∈ y'.askings, a.holdsJob = true → ∀ j ∈ y.jobs, j.id = a.request.id →
    (f j).status ≠ Status.done.text
  refused : ∀ a ∈ y'.askings, a.isRefused = true → ∀ j ∈ y.jobs, j.id = a.request.id →
    (f j).status = Status.failed.text
  accepted : ∀ a ∈ y'.askings, ∀ job, a.stage = .answered (.ok job) → a.request ∈ y'.queue.taken

theorem Orderly.update (h : y.Orderly) {f : JobRow → JobRow} (hu : Update y y' f) : y'.Orderly := by
  have hid : ∀ j, (f j).id = j.id := fun j => congrArg Request.id (hu.request_eq j)
  have hforall : ∀ {P : JobRow → Prop}, (∀ j ∈ y.jobs, P (f j)) → ∀ j ∈ y'.jobs, P j := by
    intro P hall
    rw [hu.jobs_eq]
    exact List.forall_mem_map.mpr hall
  refine ⟨hu.works, hu.sound, hu.going, hu.running_perm, ?_, ?_, ?_, ?_, ?_, hu.accepted⟩
  · exact (hu.claimed_perm.map Request.id).nodup_iff.mpr h.ids_nodup
  · intro r hr
    obtain ⟨j, hj, hjr⟩ := h.has_job r (hu.claimed_perm.mem_iff.mp hr)
    refine ⟨f j, ?_, (hu.request_eq j).trans hjr⟩
    rw [hu.jobs_eq]
    exact List.mem_map_of_mem hj
  · refine hforall fun j hj hopen => ?_
    rw [hu.request_eq]
    exact hu.owns j hopen (h.owned j hj (hu.unfinished j hopen))
  · intro a ha hheld
    exact hforall fun j hj hjid => hu.held a ha hheld j hj ((hid j).symm.trans hjid)
  · intro a ha hrefused
    exact hforall fun j hj hjid => hu.refused a ha hrefused j hj ((hid j).symm.trans hjid)

/-! ### Events that callers have no part in -/

theorem mem_claims {a : Asking} (h : a.holdsJob = true ∨ a.isRefused = true) :
    a.request ∈ a.claims := by
  rw [Asking.claims, if_pos (by simpa using h)]
  exact List.mem_singleton.mpr rfl

/-- A job that a caller claims is not one that the queue took. -/
theorem Orderly.id_ne_of_claims (h : y.Orderly) {a : Asking} (ha : a ∈ y.askings)
    (hclaims : a.holdsJob = true ∨ a.isRefused = true) {r : Request} (hr : r ∈ y.queue.taken) :
    a.request.id ≠ r.id := by
  have hnodup := h.ids_nodup
  rw [claimed, List.map_append, List.nodup_append] at hnodup
  exact hnodup.2.2 _ (List.mem_map_of_mem (List.mem_flatMap.mpr ⟨a, ha, mem_claims hclaims⟩)) _
    (List.mem_map_of_mem hr)

/-- A queue that answers nobody takes nothing. -/
theorem taken_next_eq {q q' : Queue} {e : QueueEvent} (h : q.Sound) (he : q.next e = some q')
    (hsilent : q.answersTo e = []) : q'.taken = q.taken := by
  rw [Queue.taken_next h he, hsilent]
  exact List.append_nil _

/-- A step that changes no row, and that is no caller's. -/
structure Quiet (y y' : System) : Prop where
  works : y'.service.Works
  sound : y'.queue.Sound
  going : ∀ t ∈ y'.tasks, t.isGoing = true
  running_perm : (y'.tasks.map Task.request).Perm y'.queue.running
  jobs_eq : y'.jobs = y.jobs
  askings_eq : y'.askings = y.askings
  taken_eq : y'.queue.taken = y.queue.taken
  holds : ∀ r ∈ y.queue.holds, r ∈ y'.queue.holds

theorem Orderly.quiet (h : y.Orderly) (hq : Quiet y y') : y'.Orderly := by
  refine h.update (f := id) ⟨hq.works, hq.sound, hq.going, hq.running_perm, ?_, fun _ => rfl,
    fun _ => id, ?_, ?_, ?_, ?_, ?_⟩
  · rw [hq.jobs_eq, List.map_id]
  · rintro j - (hcaller | hr)
    · exact Or.inl (hq.askings_eq ▸ hcaller)
    · exact Or.inr (hq.holds _ hr)
  · rw [claimed, claimed, hq.askings_eq, hq.taken_eq]
  · rw [hq.askings_eq]
    exact h.held
  · rw [hq.askings_eq]
    exact h.refused
  · rw [hq.askings_eq, hq.taken_eq]
    exact h.accepted

theorem orderly_queue (h : y.Orderly) {e : QueueEvent} (hsilent : e.isSilent = true) {queue : Queue}
    (he : y.queue.next e = some queue) : Orderly { y with queue } := by
  have hrunning := (Queue.next_of_silent hsilent he).1
  have htaken := taken_next_eq h.sound he (Queue.answersTo_of_silent hsilent)
  refine h.quiet ⟨h.works, Queue.sound_next h.sound he, h.going, hrunning ▸ h.running_perm, rfl,
    rfl, htaken, fun r hr => ?_⟩
  refine Queue.mem_holds_of_ne he ?_ ?_ hr
  · rintro rfl
    cases hsilent
  · rintro rfl
    cases hsilent

theorem orderly_start (h : y.Orderly) (he : y.start = some y') : y'.Orderly := by
  obtain ⟨r, queue, hdispatch, hqueue, rfl⟩ := start_eq_some he
  have hnext : y.queue.next .start = some queue := hqueue
  have hrunning : queue.running = y.queue.running ++ [r] := by
    obtain ⟨r', hdispatch', -, rfl⟩ := Queue.start_eq_some hqueue
    rw [hdispatch] at hdispatch'
    cases hdispatch'
    rfl
  refine h.quiet ⟨h.works, Queue.sound_next h.sound hnext, forall_mem_concat.mpr ⟨h.going, rfl⟩, ?_,
    rfl, rfl, taken_next_eq h.sound hnext rfl, fun _ => Queue.mem_holds_of_ne hnext nofun nofun⟩
  rw [hrunning, List.map_append]
  exact h.running_perm.append_right [r]

/-- A request that is given up leaves the queue, and its job is failed. -/
theorem orderly_giveUp (h : y.Orderly) (he : y.giveUp = some y') : y'.Orderly := by
  obtain ⟨r, queue, hdispatch, hqueue, rfl⟩ := giveUp_eq_some he
  have hnext : y.queue.next .giveUp = some queue := hqueue
  have htaken : queue.taken = y.queue.taken := taken_next_eq h.sound hnext rfl
  have hrunning : queue.running = y.queue.running := by
    obtain ⟨r', -, rfl⟩ := Queue.giveUp_eq_some hqueue
    rfl
  let op : JobOp := .move y.service.stamp r.id .failed
  have hworks : Service.Works { y.service with store := JobOp.apply y.service.store op } :=
    ⟨JobOp.usable_apply h.works.usable op h.works.isTime, h.works.clock, h.works.possible⟩
  refine h.update (f := op.rewrite) ⟨hworks, Queue.sound_next h.sound hnext, h.going,
    hrunning ▸ h.running_perm, JobOp.jobs_apply h.works.usable.isOpen op rfl, op.request_rewrite,
    fun _ => JobOp.isUnfinished_of_rewrite, ?_, ?_, ?_, ?_, ?_⟩
  · rintro j hunfinished (hcaller | hr)
    · exact Or.inl hcaller
    · rcases Queue.mem_holds_next hnext hr with hr | hfinish | ⟨-, hdispatch'⟩
      · exact Or.inr hr
      · cases hfinish
      -- The request that was given up is the one whose job was failed.
      · have hsame : j.request = r := by
          rcases hdispatch with hdispatch | hdispatch <;>
            rcases hdispatch' with hdispatch' | hdispatch' <;>
            rw [hdispatch] at hdispatch' <;> cases hdispatch' <;> rfl
        rw [JobOp.isUnfinished_rewrite_failed (congrArg Request.id hsame)] at hunfinished
        cases hunfinished
  · rw [claimed, claimed, htaken]
  · intro a ha hheld j hj hid
    rcases JobOp.status_rewrite_failed y.service.stamp r.id j with hstatus | hstatus <;>
      rw [hstatus]
    · decide
    · exact h.held a ha hheld j hj hid
  · intro a ha hrefused j hj hid
    rcases JobOp.status_rewrite_failed y.service.stamp r.id j with hstatus | hstatus <;>
      rw [hstatus]
    exact h.refused a ha hrefused j hj hid
  · rw [htaken]
    exact h.accepted

/-- A task that is over is not going on. -/
theorem isOver_of_going {t : Task} (h : t.isGoing = true) : t.isOver = false := by
  rw [Task.isGoing] at h
  rw [Task.isOver]
  split at h <;> simp_all

/-- A task's job is there, since its request was taken. -/
theorem Orderly.hasJob_of_task (h : y.Orderly) {t : Task} (ht : t ∈ y.tasks) :
    t.request ∈ y.queue.taken ∧ y.service.store.HasJob t.request.id := by
  have hrunning : t.request ∈ y.queue.running :=
    h.running_perm.mem_iff.mp (List.mem_map_of_mem ht)
  have htaken := Queue.mem_taken_of_running h.sound hrunning
  obtain ⟨j, hj, hjr⟩ := h.has_job _ (List.mem_append_right _ htaken)
  exact ⟨htaken, j, hj, congrArg Request.id hjr⟩

/-- The requests at work when one task of many has taken a step. -/
theorem Orderly.running_perm_middle (h : y.Orderly) {pre post : List Task} {t : Task}
    (hsplit : y.tasks = pre ++ t :: post) :
    (t.request :: (pre ++ post).map Task.request).Perm y.queue.running := by
  have hperm := h.running_perm
  rw [hsplit] at hperm
  exact (List.perm_middle.map Task.request).symm.trans hperm

/-- A task that takes a step may touch its own job. When it ends, the job is closed, and the
request leaves the queue. -/
theorem orderly_work (h : y.Orderly) {i : Nat} (he : y.work i = some y') : y'.Orderly := by
  obtain ⟨pre, t, post, hsplit, hend⟩ := work_eq_some he
  have ht : t ∈ y.tasks := hsplit ▸ mem_middle.mpr (Or.inl rfl)
  obtain ⟨-, hothers⟩ := forall_mem_middle.mp (hsplit ▸ h.going)
  obtain ⟨htaken, hrow⟩ := h.hasJob_of_task ht
  obtain ⟨hworks, f, hjobs, hrequest, hunfinished, hspares, hstage⟩ :=
    Task.jobs_step h.works hrow (h.going t ht)
  -- What callers were told is of other jobs than the task's, and these are spared.
  have hheld : ∀ a ∈ y.askings, a.holdsJob = true → ∀ j ∈ y.jobs, j.id = a.request.id →
      (f j).status ≠ Status.done.text := by
    intro a ha haheld j hj hid
    rw [hspares j (hid ▸ h.id_ne_of_claims ha (Or.inl haheld) htaken)]
    exact h.held a ha haheld j hj hid
  have hrefused : ∀ a ∈ y.askings, a.isRefused = true → ∀ j ∈ y.jobs, j.id = a.request.id →
      (f j).status = Status.failed.text := by
    intro a ha harefused j hj hid
    rw [hspares j (hid ▸ h.id_ne_of_claims ha (Or.inr harefused) htaken)]
    exact h.refused a ha harefused j hj hid
  rcases hend with ⟨hover, queue, hqueue, rfl⟩ | ⟨hnot, rfl⟩
  · rw [Task.request_step] at hqueue
    have hnext : y.queue.next (.finish t.request) = some queue := hqueue
    have hsame : queue.taken = y.queue.taken := taken_next_eq h.sound hnext rfl
    have hclosed : ∀ j : JobRow, j.id = t.request.id → (f j).isUnfinished = false := by
      rcases hstage with hgoing | ⟨-, hclosed⟩
      · rw [isOver_of_going hgoing] at hover
        cases hover
      · exact hclosed
    refine h.update ⟨hworks, Queue.sound_next h.sound hnext, hothers, ?_, hjobs, hrequest,
      hunfinished, ?_, ?_, hheld, hrefused, ?_⟩
    · obtain ⟨hmem, rfl⟩ := Queue.finish_eq_some hqueue
      exact (List.cons_perm_iff_perm_erase.mp (h.running_perm_middle hsplit)).2
    · rintro j hopen (hcaller | hr)
      · exact Or.inl hcaller
      -- The one request that leaves the queue is that of the closed job.
      · refine Or.inr (Queue.mem_holds_of_ne hnext ?_ nofun hr)
        intro hfinish
        rw [hclosed j (congrArg Request.id (QueueEvent.finish.inj hfinish).symm)] at hopen
        cases hopen
    · rw [claimed, claimed, hsame]
    · rw [hsame]
      exact h.accepted
  · have hgoing : (t.step y.service).2.isGoing = true := by
      rcases hstage with hgoing | ⟨hover, -⟩
      · exact hgoing
      · rw [hnot] at hover
        cases hover
    refine h.update ⟨hworks, h.sound, forall_mem_middle.mpr ⟨hgoing, hothers⟩, ?_, hjobs, hrequest,
      hunfinished, fun _ _ howned => howned, List.Perm.refl _, hheld, hrefused, h.accepted⟩
    refine (List.perm_middle.map Task.request).trans ?_
    rw [List.map_cons, Task.request_step]
    exact h.running_perm_middle hsplit

/-- A task that is refused a file goes on, to fail its job. -/
theorem orderly_fault (h : y.Orderly) {i : Nat} {message : String}
    (he : y.fault i message = some y') : y'.Orderly := by
  obtain ⟨pre, t, post, service, t', hsplit, hfault, rfl⟩ := fault_eq_some he
  obtain ⟨directory, hservice, hrequest, hgoing⟩ : ∃ directory,
      service = { y.service with directory } ∧ t'.request = t.request ∧ t'.isGoing = true := by
    obtain ⟨⟨e, rfl⟩, ⟨-, rfl⟩ | ⟨_, _, _, -, rfl⟩⟩ := Task.fault_cases hfault <;>
      exact ⟨_, rfl, rfl, rfl⟩
  obtain rfl := hservice
  obtain ⟨-, hothers⟩ := forall_mem_middle.mp (hsplit ▸ h.going)
  refine h.quiet ⟨⟨h.works.usable, h.works.clock, h.works.possible⟩, h.sound,
    forall_mem_middle.mpr ⟨hgoing, hothers⟩, ?_, rfl, rfl, rfl, fun _ hr => hr⟩
  refine (List.perm_middle.map Task.request).trans ?_
  rw [List.map_cons, hrequest]
  exact h.running_perm_middle hsplit

/-! ### Steps of callers -/

theorem orderly_ask (h : y.Orderly) (r : Request) : (y.ask r).Orderly := by
  refine h.update (f := id) ⟨h.works, h.sound, h.going, h.running_perm, (List.map_id _).symm,
    fun _ => rfl, fun _ => id, ?_, ?_, ?_, ?_, ?_⟩
  · rintro j - (⟨a, ha, hheld⟩ | hr)
    · exact Or.inl ⟨a, List.mem_append_left _ ha, hheld⟩
    · exact Or.inr hr
  · rw [claimed, claimed, ask, List.flatMap_append, List.flatMap_singleton]
    show List.Perm (y.askings.flatMap Asking.claims ++ [] ++ y.queue.taken) _
    rw [List.append_nil]
  · exact forall_mem_concat.mpr ⟨h.held, nofun⟩
  · exact forall_mem_concat.mpr ⟨h.refused, nofun⟩
  · exact forall_mem_concat.mpr ⟨h.accepted, nofun⟩

variable {pre post : List Asking} {a a' : Asking}

/-- The claims of all callers when one of them has moved on. -/
theorem flatMap_claims_perm (pre post : List Asking) (a : Asking) :
    ((pre ++ a :: post).flatMap Asking.claims).Perm
      (a.claims ++ (pre ++ post).flatMap Asking.claims) := by
  have hmiddle : (pre ++ a :: post).Perm (a :: (pre ++ post)) := List.perm_middle
  have hperm := hmiddle.flatMap_right Asking.claims
  rwa [List.flatMap_cons] at hperm

/-- Nobody claims an id without a job. -/
theorem Orderly.id_ne_of_new (h : y.Orderly) {id : String} (hnew : ¬ y.service.store.HasJob id) :
    ∀ r ∈ y.claimed, r.id ≠ id := by
  intro r hr hid
  obtain ⟨j, hj, hjr⟩ := h.has_job r hr
  exact hnew ⟨j, hj, (congrArg Request.id hjr).trans hid⟩

/-- A caller whose job is created claims it. -/
theorem claimed_create_perm (hsplit : y.askings = pre ++ a :: post) (hstage : a.stage = .creating)
    (service : Service) (job : Job) :
    claimed { y with service, askings := pre ++ { a with stage := .queueing job } :: post }
      ~ a.request :: y.claimed := by
  have hold := flatMap_claims_perm pre post a
  have hnow := flatMap_claims_perm pre post { a with stage := .queueing job }
  rw [← hsplit, Asking.claims, Asking.holdsJob, Asking.isRefused, hstage] at hold
  exact (hnow.append_right _).trans ((hold.symm.append_right y.queue.taken).cons a.request)

/-- The job of a caller is created: its id was not taken, and now the caller has to see to it. -/
theorem orderly_create (h : y.Orderly) (hsplit : y.askings = pre ++ a :: post)
    (hstage : a.stage = .creating) {job : Job} {store : Store} {row : JobRow}
    (hnew : ¬ y.service.store.HasJob a.request.id) (hstore : store.Usable)
    (hjobs : store.tables.jobs = y.jobs ++ [row]) (hrow : row.request = a.request)
    (hpending : row.status = Status.pending.text) :
    Orderly { y with
      service := { y.service with store }
      askings := pre ++ { a with stage := .queueing job } :: post } := by
  have hclaimed := claimed_create_perm hsplit hstage { y.service with store } job
  have hmem : ∀ b ∈ pre ++ post, b ∈ y.askings := by
    intro b hb
    rw [hsplit]
    exact mem_middle.mpr (Or.inr hb)
  have hforall : ∀ {P : JobRow → Prop}, (∀ j ∈ y.jobs, P j) → P row →
      ∀ j ∈ store.tables.jobs, P j := by
    intro P hold hlast
    rw [hjobs]
    exact forall_mem_concat.mpr ⟨hold, hlast⟩
  -- The new job is none that another caller was told something about.
  have hothers : ∀ b ∈ pre ++ post, b.holdsJob = true ∨ b.isRefused = true →
      row.id ≠ b.request.id := by
    intro b hb hclaims heq
    refine h.id_ne_of_new hnew b.request ?_ (heq.symm.trans (congrArg Request.id hrow))
    exact List.mem_append_left _ (List.mem_flatMap.mpr ⟨b, hmem b hb, mem_claims hclaims⟩)
  refine ⟨⟨hstore, h.works.clock, h.works.possible⟩, h.sound, h.going, h.running_perm,
    ?_, ?_, hforall ?_ ?_, ?_, ?_, ?_⟩
  · rw [(hclaimed.map Request.id).nodup_iff, List.map_cons, List.nodup_cons]
    refine ⟨?_, h.ids_nodup⟩
    intro hclash
    obtain ⟨r, hr, hrid⟩ := List.mem_map.mp hclash
    exact h.id_ne_of_new hnew r hr hrid
  · intro r hr
    show ∃ j ∈ store.tables.jobs, j.request = r
    rw [hjobs]
    rcases List.mem_cons.mp (hclaimed.mem_iff.mp hr) with rfl | hr
    · exact ⟨row, List.mem_append_right _ (List.mem_singleton.mpr rfl), hrow⟩
    · obtain ⟨j, hj, hjr⟩ := h.has_job r hr
      exact ⟨j, List.mem_append_left _ hj, hjr⟩
  · intro j hj hopen
    rcases h.owned j hj hopen with ⟨b, hb, hheld, hbr⟩ | hr
    · rcases mem_middle.mp (hsplit ▸ hb) with rfl | hb
      · rw [Asking.holdsJob, hstage] at hheld
        cases hheld
      · exact Or.inl ⟨b, mem_middle.mpr (Or.inr hb), hheld, hbr⟩
    · exact Or.inr hr
  · intro _
    exact Or.inl ⟨_, mem_middle.mpr (Or.inl rfl), rfl, hrow.symm⟩
  · refine forall_mem_middle.mpr ⟨fun _ => hforall ?_ ?_, fun b hb hheld => hforall ?_ ?_⟩
    · intro j hj hjid
      exact absurd ⟨j, hj, hjid⟩ hnew
    · intro _
      rw [hpending]
      decide
    · exact h.held b (hmem b hb) hheld
    · intro hjid
      exact absurd hjid (hothers b hb (Or.inl hheld))
  · refine forall_mem_middle.mpr ⟨nofun, fun b hb hrefused => hforall ?_ ?_⟩
    · exact h.refused b (hmem b hb) hrefused
    · intro hjid
      exact absurd hjid (hothers b hb (Or.inr hrefused))
  · exact forall_mem_middle.mpr ⟨nofun, fun b hb => h.accepted b (hmem b hb)⟩

/-- A caller moves on without a new job. Its job is still its own, or the queue's, or closed. -/
structure Move (y : System) (a : Asking) (service : Service) (queue : Queue) (a' : Asking)
    (f : JobRow → JobRow) : Prop where
  works : service.Works
  sound : queue.Sound
  running_eq : queue.running = y.queue.running
  jobs_eq : service.store.tables.jobs = y.jobs.map f
  request_eq : ∀ j, (f j).request = j.request
  unfinished : ∀ j, (f j).isUnfinished = true → j.isUnfinished = true
  status : ∀ j, (f j).status = Status.failed.text ∨ (f j).status = j.status
  holds : ∀ r ∈ y.queue.holds, r ∈ queue.holds
  taken : ∀ r ∈ y.queue.taken, r ∈ queue.taken
  same : a'.request = a.request
  claims_perm : (a'.claims ++ queue.taken).Perm (a.claims ++ y.queue.taken)
  owner : a.holdsJob = true → a'.holdsJob = true ∨ a.request ∈ queue.holds ∨
    ∀ j : JobRow, j.id = a.request.id → (f j).isUnfinished = false
  held : a'.holdsJob = true → a.holdsJob = true
  refused : a'.isRefused = true → ∀ j ∈ y.jobs, j.id = a.request.id →
    (f j).status = Status.failed.text
  accepted : ∀ job, a'.stage = .answered (.ok job) → a.request ∈ queue.taken

section

variable {service : Service} {queue : Queue} {f : JobRow → JobRow}

theorem Move.owns (hm : Move y a service queue a' f) (hsplit : y.askings = pre ++ a :: post)
    {j : JobRow} (hopen : (f j).isUnfinished = true) (howns : y.Owns j.request) :
    Owns { y with service, queue, askings := pre ++ a' :: post } j.request := by
  rcases howns with ⟨b, hb, hheld, hbr⟩ | hr
  · rcases mem_middle.mp (hsplit ▸ hb) with rfl | hb
    · rcases hm.owner hheld with hheld' | hr | hclosed
      · exact Or.inl ⟨a', mem_middle.mpr (Or.inl rfl), hheld', hm.same.trans hbr⟩
      · exact Or.inr (hbr ▸ hr)
      · rw [hclosed j (congrArg Request.id hbr).symm] at hopen
        cases hopen
    · exact Or.inl ⟨b, mem_middle.mpr (Or.inr hb), hheld, hbr⟩
  · exact Or.inr (hm.holds _ hr)

theorem Move.claimed_perm (hm : Move y a service queue a' f)
    (hsplit : y.askings = pre ++ a :: post) :
    (claimed { y with service, queue, askings := pre ++ a' :: post }).Perm y.claimed := by
  let others := (pre ++ post).flatMap Asking.claims
  -- The other callers' claims stand between the two parts that have changed.
  have hmiddle : ∀ claims taken : List Request,
      claims ++ others ++ taken ~ others ++ (claims ++ taken) := by
    intro claims taken
    rw [← List.append_assoc]
    exact List.perm_append_comm.append_right taken
  have hbefore : y.askings.flatMap Asking.claims ~ a.claims ++ others := by
    rw [hsplit]
    exact flatMap_claims_perm pre post a
  calc (pre ++ a' :: post).flatMap Asking.claims ++ queue.taken
      ~ a'.claims ++ others ++ queue.taken := (flatMap_claims_perm pre post a').append_right _
    _ ~ others ++ (a'.claims ++ queue.taken) := hmiddle _ _
    _ ~ others ++ (a.claims ++ y.queue.taken) := hm.claims_perm.append_left _
    _ ~ a.claims ++ others ++ y.queue.taken := (hmiddle _ _).symm
    _ ~ y.askings.flatMap Asking.claims ++ y.queue.taken := hbefore.symm.append_right _

theorem Orderly.move (h : y.Orderly) (hsplit : y.askings = pre ++ a :: post)
    (hm : Move y a service queue a' f) :
    Orderly { y with service, queue, askings := pre ++ a' :: post } := by
  have hold : ∀ {P : Asking → Prop}, (∀ b ∈ y.askings, P b) → P a ∧ ∀ b ∈ pre ++ post, P b := by
    intro P hall
    rw [hsplit] at hall
    exact forall_mem_middle.mp hall
  obtain ⟨haheld, hheld⟩ := hold h.held
  -- A caller may fail its job, and marks none done.
  have hnotDone : ∀ j : JobRow, j.status ≠ Status.done.text → (f j).status ≠ Status.done.text := by
    intro j hj
    rcases hm.status j with hfj | hfj <;> rw [hfj]
    · decide
    · exact hj
  refine h.update ⟨hm.works, hm.sound, h.going, hm.running_eq ▸ h.running_perm, hm.jobs_eq,
    hm.request_eq, hm.unfinished, fun _ => hm.owns hsplit, hm.claimed_perm hsplit,
    forall_mem_middle.mpr ⟨?_, ?_⟩, forall_mem_middle.mpr ⟨?_, ?_⟩, forall_mem_middle.mpr ⟨?_, ?_⟩⟩
  · intro hheld' j hj hid
    exact hnotDone j (haheld (hm.held hheld') j hj (hid.trans (congrArg Request.id hm.same)))
  · exact fun b hb hbheld j hj hid => hnotDone j (hheld b hb hbheld j hj hid)
  · intro hrefused j hj hid
    exact hm.refused hrefused j hj (hid.trans (congrArg Request.id hm.same))
  · intro b hb hbrefused j hj hid
    have hfailed := (hold h.refused).2 b hb hbrefused j hj hid
    rcases hm.status j with hfj | hfj
    · exact hfj
    · exact hfj.trans hfailed
  · intro job hjob
    rw [hm.same]
    exact hm.accepted job hjob
  · exact fun b hb job hjob => hm.taken _ ((hold h.accepted).2 b hb job hjob)

end

/-- A caller moves on, and nothing else changes. -/
theorem Orderly.move_alone (h : y.Orderly) (hsplit : y.askings = pre ++ a :: post)
    (hsame : a'.request = a.request) (hheld : a'.holdsJob = a.holdsJob)
    (hnot : a.isRefused = false) (hnot' : a'.isRefused = false)
    (haccepted : ∀ job, a'.stage ≠ .answered (.ok job)) :
    Orderly { y with askings := pre ++ a' :: post } := by
  have hclaims : a'.claims = a.claims := by
    rw [Asking.claims, Asking.claims, hheld, hnot, hnot', hsame]
  have hm : Move y a y.service y.queue a' id := by
    refine ⟨h.works, h.sound, rfl, (List.map_id _).symm, fun _ => rfl, fun _ => id,
      fun _ => Or.inr rfl, fun _ => id, fun _ => id, hsame, ?_, fun ha => Or.inl (hheld.trans ha),
      fun ha => hheld.symm.trans ha, ?_, ?_⟩
    · rw [hclaims]
    · intro hrefused
      rw [hnot'] at hrefused
      cases hrefused
    · intro job hjob
      exact absurd hjob (haccepted job)
  exact h.move hsplit hm

variable {r : Request}

/-- What the step of one caller leads to. -/
def behindAsk (y : System) (pre : List Asking) (a : Asking) (post : List Asking) : System :=
  { (y.askStep a).1 with askings := pre ++ (y.askStep a).2 :: post }

theorem orderly_creating (h : y.Orderly) (hsplit : y.askings = pre ++ ⟨r, .creating⟩ :: post) :
    (y.behindAsk pre ⟨r, .creating⟩ post).Orderly := by
  rcases Store.createJob_cases h.works.usable h.works.isTime r with
    ⟨-, e, hcreate⟩ | ⟨hnew, job, hcreate, hjobs⟩
  -- The id is taken: the caller gets an answer, and the job stays whose it was.
  · rw [behindAsk, askStep]
    dsimp only
    rw [Service.create, hcreate]
    exact h.move_alone hsplit rfl rfl rfl rfl nofun
  · rw [behindAsk, askStep]
    dsimp only
    rw [Service.create, hcreate]
    exact orderly_create h hsplit rfl hnew
      (JobOp.usable_apply h.works.usable _ h.works.isTime) hjobs rfl rfl

/-- A request that the queue takes goes from the caller to the queue. -/
theorem orderly_queueing (h : y.Orderly) {job : Job}
    (hsplit : y.askings = pre ++ ⟨r, .queueing job⟩ :: post) :
    (y.behindAsk pre ⟨r, .queueing job⟩ post).Orderly := by
  have hnext : y.queue.next (.enqueue r) = some (y.queue.enqueue r).1 := rfl
  have hsound := Queue.sound_next h.sound hnext
  have htaken := Queue.taken_next h.sound hnext
  rw [Queue.answersTo] at htaken
  have hrefused : ∀ e : ExportError,
      Orderly { y with askings := pre ++ ⟨r, .refusing e⟩ :: post } := by
    intro e
    refine h.move_alone hsplit rfl rfl rfl rfl ?_
    intro job hjob
    cases hjob
  rw [behindAsk, askStep]
  dsimp only
  rcases y.queue.enqueue_cases r with ⟨-, hq⟩ | ⟨-, -, hq⟩ | ⟨-, -, hq⟩
  · rw [hq]
    exact hrefused .channelClosed
  · rw [hq]
    exact hrefused .queueFull
  -- There is room: the queue holds the request now, and the caller does not.
  · have hholds : ∀ r' ∈ y.queue.holds, r' ∈ (y.queue.enqueue r).1.holds := by
      intro r'
      refine Queue.mem_holds_of_ne hnext ?_ ?_ <;> intro hevent <;> cases hevent
    rw [hq] at hsound htaken hholds ⊢
    let queue : Queue := { y.queue with waiting := y.queue.waiting ++ [r] }
    have hmem : r ∈ queue.holds := by
      simp [Queue.holds, queue]
    have hm : Move y ⟨r, .queueing job⟩ y.service queue ⟨r, .answered (.ok job)⟩ id := by
      refine ⟨h.works, hsound, rfl, (List.map_id _).symm, fun _ => rfl, fun _ => id,
        fun _ => Or.inr rfl, hholds, ?_, rfl, ?_, fun _ => Or.inr (Or.inl hmem), ?_, ?_, ?_⟩
      · intro r' hr'
        rw [htaken]
        exact List.mem_append_left _ hr'
      · rw [htaken]
        show (y.queue.taken ++ [r]).Perm ([r] ++ y.queue.taken)
        exact List.perm_append_comm
      · intro hheld
        cases hheld
      · intro hrefused
        cases hrefused
      · intro _ _
        rw [htaken]
        exact List.mem_append_right _ (List.mem_singleton.mpr rfl)
    exact h.move hsplit hm

/-- The job of a refused request is failed. -/
theorem orderly_refusing (h : y.Orderly) {e : ExportError}
    (hsplit : y.askings = pre ++ ⟨r, .refusing e⟩ :: post) :
    (y.behindAsk pre ⟨r, .refusing e⟩ post).Orderly := by
  have ha : ⟨r, .refusing e⟩ ∈ y.askings := hsplit ▸ mem_middle.mpr (Or.inl rfl)
  obtain ⟨j, hj, hjr⟩ := h.has_job r (List.mem_append_left _
    (List.mem_flatMap.mpr ⟨_, ha, mem_claims (Or.inl rfl)⟩))
  obtain ⟨job, hmove⟩ := Store.moveJob_eq h.works.usable h.works.isTime
    ⟨j, hj, congrArg Request.id hjr⟩ .failed
  let op : JobOp := .move y.service.stamp r.id .failed
  have hclosed : ∀ j : JobRow, j.id = r.id → (op.rewrite j).isUnfinished = false :=
    fun _ hid => JobOp.isUnfinished_rewrite_failed hid y.service.stamp
  have hfailed : ∀ j ∈ y.jobs, j.id = r.id → (op.rewrite j).status = Status.failed.text :=
    fun j hj hid => JobOp.status_eq_of_failed (h.works.usable.readable j hj) h.works.isTime hid
      (h.held _ ha rfl j hj hid)
  have hafter : (JobOp.apply y.service.store op).Usable :=
    JobOp.usable_apply h.works.usable op h.works.isTime
  have hm : Move y ⟨r, .refusing e⟩ { y.service with store := JobOp.apply y.service.store op }
      y.queue ⟨r, .answered (.error (.unavailable e.message))⟩ op.rewrite :=
    ⟨⟨hafter, h.works.clock, h.works.possible⟩, h.sound, rfl,
      JobOp.jobs_apply h.works.usable.isOpen op rfl, op.request_rewrite,
      fun _ => JobOp.isUnfinished_of_rewrite, JobOp.status_rewrite_failed _ _, fun _ => id,
      fun _ => id, rfl, List.Perm.refl _, fun _ => Or.inr (Or.inr hclosed), nofun,
      fun _ => hfailed, nofun⟩
  rw [behindAsk, askStep]
  dsimp only
  rw [refuse, Service.move, hmove]
  exact h.move hsplit hm

/-- A caller's request takes a step. -/
theorem orderly_proceed (h : y.Orderly) {i : Nat} (he : y.proceed i = some y') : y'.Orderly := by
  obtain ⟨pre, ⟨r, stage⟩, post, hsplit, rfl⟩ := proceed_eq_some he
  cases stage with
  | creating => exact orderly_creating h hsplit
  | queueing job => exact orderly_queueing h hsplit
  | refusing e => exact orderly_refusing h hsplit
  | answered result =>
      rw [askStep]
      dsimp only
      rwa [← hsplit]

/-- Every event keeps the system in order. -/
theorem orderly_next (h : y.Orderly) {e : SystemEvent} (he : y.next e = some y') : y'.Orderly := by
  cases e with
  | ask r =>
      obtain rfl := Option.some.inj he
      exact orderly_ask h r
  | proceed i => exact orderly_proceed h he
  | queue qe =>
      obtain ⟨hsilent, queue, hqueue, rfl⟩ := queue_eq_some he
      exact orderly_queue h hsilent hqueue
  | start => exact orderly_start h he
  | giveUp => exact orderly_giveUp h he
  | work i => exact orderly_work h he
  | fault i message => exact orderly_fault h he
  | surround w =>
      obtain rfl := Option.some.inj he
      exact h.quiet ⟨h.works.amid w, h.sound, h.going, h.running_perm, rfl, rfl, rfl, fun _ => id⟩
  | files d =>
      obtain rfl := Option.some.inj he
      exact h.quiet ⟨⟨h.works.usable, h.works.clock, h.works.possible⟩, h.sound, h.going,
        h.running_perm, rfl, rfl, rfl, fun _ => id⟩

end System

end ResponseExport.Export
