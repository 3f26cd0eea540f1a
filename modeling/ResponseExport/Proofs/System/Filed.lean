import ResponseExport.Proofs.Scene.Reading
import ResponseExport.Proofs.Scene.Steps
import ResponseExport.Proofs.System.Settled

/-!
# `ResponseExport.Proofs.System.Filed`: the files of a system

In a `Scene` every attempt is remembered. A `System` remembers its tasks only while
they are at work; afterwards nothing is left of one but the row of its job. So
`System.Filed` says of every task, and of every job that is done, that there is an
attempt which accounts for it: its file is in the directory, under a name that no
other attempt uses, and holds what was written to it.

As with `System.Orderly`, the events fall into two kinds. `Calm` ones are those of
callers, the dispatcher and the world around, which change no file and close no job as
done. A `Turn` is that of one task, whose result is the one of `Attempt.Result`;
ids are taken once, so what it writes and closes is its own (`Orderly.alone`).

What else is known of attempts is a parameter: any property that their steps keep
(`Attempt.Lasts`). Files are made by the service alone here (`SystemEvent.IsProper`).
-/

set_option autoImplicit false

namespace ResponseExport.Export

open Store (JobOp JobRow)

/-! ### An attempt among others -/

namespace Attempt

variable {P : Attempt → Prop} {s s' : Service} {a b b' : Attempt}

/-- What an attempt has left behind is there, under a name of its own. `P` is what else is known of
it. -/
structure Stands (P : Attempt → Prop) (s : Service) (a : Attempt) : Prop where
  fits : a.Fits s
  uuid : isUuid a.id = true
  named : ∀ name, a.file = some name →
    ∃ t, name = FileName.stored a.task.request.survey a.task.request.id t
  short : ∀ name, a.file = some name → name.utf8ByteSize ≤ Disk.maxName
  holds : P a

theorem Stands.beside (h : a.Stands P s) (hs : s.Beside s') : a.Stands P s' :=
  { h with fits := h.fits.beside hs }

/-- An attempt does not mind a step of another one, which has another id. -/
theorem Stands.aside (h : a.Stands P s) (hb : b.Stands P s) (hresult : Result s b s' b')
    (hne : a.id ≠ b.id) : a.Stands P s' := by
  have hid : b'.id = b.id := congrArg Request.id hresult.request_eq
  refine { h with
    fits := h.fits.mono ?_ hresult.present hresult.pageSize_eq hresult.rows.hasJob ?_ }
  · intro name hname
    refine hresult.others name fun hname' => ?_
    obtain ⟨t, hstored⟩ := h.named name hname
    have hstored' : ∃ t, name = FileName.stored b.task.request.survey b.task.request.id t := by
      rcases hresult.named name hname' with hold | hnew
      · exact hb.named name hold
      · exact hnew
    obtain ⟨t', hstored'⟩ := hstored'
    exact hne (stored_injective h.uuid hb.uuid (hstored.symm.trans hstored'))
  · intro j hj hjid hfailed
    exact hresult.rows.mem hj (JobOp.isUnfinished_of_terminal (Or.inr hfailed))
      (by rw [hjid, hid]; exact hne)

theorem isOver_of_isDone (h : a.isDone = true) : a.task.isOver = true := by
  rw [isDone] at h
  rw [Task.isOver]
  split at h <;> simp_all

/-- An attempt after a step of its own. -/
theorem Stands.turn (h : a.Stands P s) (hresult : Result s a s' b)
    (hfile : b.file = a.file ∨ ∃ name, b.file = some name ∧ name.utf8ByteSize ≤ Disk.maxName)
    (hP : P b) : b.Stands P s' where
  fits := hresult.fits
  uuid := by
    rw [Attempt.id, hresult.request_eq]
    exact h.uuid
  named := by
    intro name hname
    rw [hresult.request_eq]
    rcases hresult.named name hname with hold | hnew
    · exact h.named name hold
    · exact hnew
  short := by
    intro name hname
    rcases hfile with hsame | ⟨name', hname', hshort⟩
    · exact h.short name (hsame ▸ hname)
    · obtain rfl := Option.some.inj (hname'.symm.trans hname)
      exact hshort
  holds := hP

end Attempt

/-- What the steps of an attempt keep, as long as it takes them in services of this kind. -/
structure Attempt.Lasts (C : Service → Prop) (P : Attempt → Prop) : Prop where
  new : ∀ r, P { task := Task.new r }
  step : ∀ {s : Service} {a : Attempt}, C s → s.Works → a.Fits s → P a → P (a.step s).2
  fault : ∀ {s s' : Service} {a a' : Attempt} {message : String},
    a.fault s message = some (s', a') → P a → P a'

theorem Attempt.lasts_true : Attempt.Lasts (fun _ => True) fun _ => True :=
  ⟨fun _ => trivial, fun _ _ _ _ => trivial, fun _ _ => trivial⟩

/-- The ids of exports are UUIDs, and nobody but the service changes the directory of the files. -/
def SystemEvent.IsProper : SystemEvent → Prop
  | .ask r => isUuid r.id = true
  | .files _ => False
  | _ => True

namespace System

variable {P : Attempt → Prop} {y y' : System}

theorem finished_next {e : SystemEvent} (he : y.next e = some y') {r : Request}
    (hr : r ∈ y.queue.finished) : r ∈ y'.queue.finished := by
  rcases exists_queue_event he with hsame | ⟨qe, hqe⟩
  · rwa [hsame]
  · exact Queue.mem_finished_next hqe hr

/-- A job that is done was finished by a worker, and its file is that of an attempt that ended
well. -/
structure IsFiled (P : Attempt → Prop) (y : System) (j : JobRow) : Prop where
  finished : j.request ∈ y.queue.finished
  link_eq : j.link = some (Service.link y.service.baseUrl j.id)
  exists_attempt : ∃ a : Attempt, a.Stands P y.service ∧ a.task.request = j.request ∧
    a.isDone = true ∧ a.file = j.file

/-- The files of a system are where its tasks and its table of jobs say. Jobs of an earlier time are
left out. -/
structure Filed (P : Attempt → Prop) (y : System) : Prop where
  orderly : y.Orderly
  asked : ∀ a ∈ y.askings, isUuid a.request.id = true
  taken : ∀ r ∈ y.queue.taken, isUuid r.id = true
  atWork : ∀ task ∈ y.tasks, ∃ a : Attempt, a.task = task ∧ a.Stands P y.service
  done : ∀ j ∈ y.jobs, j.request ∈ y.queue.taken → j.status = Status.done.text → y.IsFiled P j

/-! ### What nobody's task does -/

/-- The step of one caller is about the table or the queue, not about tasks. -/
theorem tasks_askStep (y : System) (a : Asking) : (y.askStep a).1.tasks = y.tasks := by
  rcases y.askStep_cases a with ⟨_, _, -, -, hstep⟩ | ⟨_, _, -, hstep⟩ | hstep <;> rw [hstep]

theorem request_askStep (y : System) (a : Asking) : (y.askStep a).2.request = a.request := by
  rcases y.askStep_cases a with ⟨_, _, -, -, hstep⟩ | ⟨_, _, -, hstep⟩ | hstep <;> rw [hstep]

/-- The queue takes nothing from a caller but the request whose job was created. -/
theorem mem_taken_askStep (hsound : y.queue.Sound) {a : Asking} {r : Request}
    (hr : r ∈ (y.askStep a).1.queue.taken) :
    r ∈ y.queue.taken ∨ r = a.request ∧ a.holdsJob = true := by
  rcases y.askStep_cases a with ⟨_, _, -, -, hstep⟩ | ⟨job, _, hstage, hstep⟩ | hstep <;>
    rw [hstep] at hr
  · exact Or.inl hr
  · have hnext : y.queue.next (.enqueue a.request) = some (y.queue.enqueue a.request).1 := rfl
    rw [Queue.taken_next hsound hnext, List.mem_append] at hr
    refine hr.imp_right fun haccepted => ⟨?_, ?_⟩
    · obtain ⟨b, hb, rfl⟩ := List.mem_map.mp haccepted
      rw [List.mem_singleton.mp (List.mem_of_mem_filter hb)]
    · rw [Asking.holdsJob, hstage]
  · exact Or.inl hr

/-- What callers, the dispatcher and the world around do. Tasks may begin, and jobs may be added or
fail. -/
structure Calm (y y' : System) : Prop where
  orderly : y'.Orderly
  beside : y.service.Beside y'.service
  asked : ∀ a ∈ y'.askings, isUuid a.request.id = true
  tasks : ∀ task ∈ y'.tasks, task ∈ y.tasks ∨ ∃ r ∈ y.queue.taken, task = Task.new r
  taken : ∀ r ∈ y'.queue.taken, r ∈ y.queue.taken ∨
    isUuid r.id = true ∧ ∀ j ∈ y.jobs, j.request = r → j.status ≠ Status.done.text
  finished : ∀ r ∈ y.queue.finished, r ∈ y'.queue.finished

/-- A row that is done after others acted was done before. -/
theorem mem_of_rowsKept {before after : List JobRow} (h : Store.RowsKept before after)
    {j : JobRow} (hj : j ∈ after) (hdone : j.status = Status.done.text) : j ∈ before := by
  rcases h.source j hj with hold | hblank | ⟨_, _, -, hnot, -, -⟩
  · exact hold
  · exact absurd hdone hblank.status_ne
  · exact absurd hdone hnot

theorem Filed.calm (h : y.Filed P) (hnew : ∀ r, P { task := Task.new r }) (hc : Calm y y') :
    y'.Filed P := by
  refine ⟨hc.orderly, hc.asked, fun r hr => ?_, fun task htask => ?_, fun j hj htaken hdone => ?_⟩
  · rcases hc.taken r hr with hold | ⟨huuid, -⟩
    · exact h.taken r hold
    · exact huuid
  · rcases hc.tasks task htask with hold | ⟨r, hr, rfl⟩
    · obtain ⟨a, ha, hstands⟩ := h.atWork task hold
      exact ⟨a, ha, hstands.beside hc.beside⟩
    · refine ⟨{ task := Task.new r }, rfl, ⟨⟨rfl, rfl⟩, h.taken r hr, ?_, ?_, hnew r⟩⟩ <;>
        exact fun _ hname => nomatch hname
  · have hold : j ∈ y.jobs := mem_of_rowsKept hc.beside.rows hj hdone
    rcases hc.taken j.request htaken with htaken | ⟨-, hnot⟩
    · obtain ⟨hfinished, hlink, a, hstands, ha⟩ := h.done j hold htaken hdone
      refine ⟨hc.finished _ hfinished, ?_, a, hstands.beside hc.beside, ha⟩
      rw [hc.beside.baseUrl_eq]
      exact hlink
    · exact absurd hdone (hnot j hold rfl)

/-! ### What a task does -/

/-- No two requests that were started have the same id. -/
theorem Orderly.started_ids_nodup (h : y.Orderly) :
    ((y.queue.running ++ y.queue.finished).map Request.id).Nodup := by
  have htaken : (y.queue.taken.map Request.id).Nodup := by
    have hnodup := h.ids_nodup
    rw [claimed, List.map_append] at hnodup
    exact (List.nodup_append.mp hnodup).2.1
  rw [← (h.sound.started_perm.map Request.id).nodup_iff]
  rw [Queue.taken, List.append_assoc, List.append_assoc, List.map_append] at htaken
  exact (List.nodup_append.mp htaken).1

/-- A task has its id to itself: no other task and no finished request has it. -/
theorem Orderly.alone (h : y.Orderly) {pre post : List Task} {t : Task}
    (hsplit : y.tasks = pre ++ t :: post) :
    (∀ other ∈ pre ++ post, other.request.id ≠ t.request.id) ∧
      ∀ r ∈ y.queue.finished, r.id ≠ t.request.id := by
  have hnodup := h.started_ids_nodup
  have hperm := ((h.running_perm_middle hsplit).append_right y.queue.finished).map Request.id
  rw [← hperm.nodup_iff, List.cons_append, List.map_cons, List.nodup_cons, List.map_append,
    List.mem_append, not_or] at hnodup
  obtain ⟨⟨hothers, hfinished⟩, -⟩ := hnodup
  constructor
  · intro other hother heq
    exact hothers (heq ▸ List.mem_map_of_mem (List.mem_map_of_mem hother))
  · intro r hr heq
    exact hfinished (heq ▸ List.mem_map_of_mem hr)

/-- The row with the id of a request that was taken is the row of this request. -/
theorem Orderly.request_eq (h : y.Orderly) {r : Request} (hr : r ∈ y.queue.taken) {j : JobRow}
    (hj : j ∈ y.jobs) (hid : j.id = r.id) : j.request = r := by
  obtain ⟨j', hj', rfl⟩ := h.has_job r (List.mem_append_right _ hr)
  obtain rfl := List.inj_on_of_nodup_map h.works.usable.uniqueIds hj hj' hid
  rfl

/-- One task of many takes a step, or is refused something. -/
structure Turn (P : Attempt → Prop) (y y' : System) (pre : List Task) (a : Attempt)
    (post : List Task) (a' : Attempt) : Prop where
  orderly : y'.Orderly
  split : y.tasks = pre ++ a.task :: post
  stands : a.Stands P y.service
  result : Attempt.Result y.service a y'.service a'
  stands' : a'.Stands P y'.service
  tasks : ∀ task ∈ y'.tasks, task ∈ pre ++ post ∨ task = a'.task
  askings_eq : y'.askings = y.askings
  taken_eq : y'.queue.taken = y.queue.taken
  finished : ∀ r ∈ y.queue.finished, r ∈ y'.queue.finished
  ended : a'.isDone = true → a'.task.request ∈ y'.queue.finished

theorem Filed.turn (h : y.Filed P) {pre post : List Task} {a a' : Attempt}
    (ht : Turn P y y' pre a post a') : y'.Filed P := by
  obtain ⟨hothers, hfinished⟩ := h.orderly.alone ht.split
  have hrequest := ht.result.request_eq
  have hmem : a.task ∈ y.tasks := by
    rw [ht.split]
    exact mem_middle.mpr (Or.inl rfl)
  refine ⟨ht.orderly, ht.askings_eq ▸ h.asked, ht.taken_eq ▸ h.taken, fun task htask => ?_,
    fun j' hj' htaken hdone => ?_⟩
  · rcases ht.tasks task htask with hother | rfl
    · obtain ⟨b, rfl, hb⟩ := h.atWork task (by rw [ht.split]; exact mem_middle.mpr (Or.inr hother))
      exact ⟨b, rfl, hb.aside ht.stands ht.result (hothers _ hother)⟩
    · exact ⟨a', rfl, ht.stands'⟩
  · rw [ht.taken_eq] at htaken
    -- A job that was done before is that of another request, which had been finished.
    have hkept : j' ∈ y.jobs → y'.IsFiled P j' := by
      intro hj
      obtain ⟨hold, hlink, b, hb, hbrequest, hb'⟩ := h.done j' hj htaken hdone
      refine ⟨ht.finished _ hold, ?_, b, hb.aside ht.stands ht.result ?_, hbrequest, hb'⟩
      · rw [ht.result.baseUrl_eq]
        exact hlink
      · rw [Attempt.id, hbrequest]
        exact hfinished _ hold
    rcases ht.result.rows with hrows | ⟨hisDone, name, now, hname, hjobs⟩
    · exact hkept (mem_of_rowsKept hrows hj' hdone)
    · rw [jobs, hjobs] at hj'
      obtain ⟨j, hj, rfl⟩ := List.mem_map.mp hj'
      by_cases hown : j.id = a'.id
      -- The task's own job is done now.
      · have hj₀ : j.request = a.task.request := by
          refine h.orderly.request_eq (h.orderly.hasJob_of_task hmem).1 hj ?_
          exact hown.trans (congrArg Request.id hrequest)
        have hj₁ := (JobOp.request_rewrite
          (.finish now a'.id (Service.link y.service.baseUrl a'.id) name) j).trans
            (hj₀.trans hrequest.symm)
        refine ⟨?_, ?_, a', ht.stands', hj₁.symm, hisDone, ?_⟩
        · rw [hj₁]
          exact ht.ended hisDone
        · rw [JobOp.rewrite, if_pos hown, ht.result.baseUrl_eq]
          dsimp only
          rw [hown]
        · rw [JobOp.rewrite, if_pos hown]
          exact hname
      · rw [JobOp.finish_of_ne hown] at hkept ⊢
        exact hkept hj

/-- The job of a task is not done. -/
theorem Filed.status_ne (h : y.Filed P) {pre post : List Task} {t : Task}
    (hsplit : y.tasks = pre ++ t :: post) :
    ∀ j ∈ y.jobs, j.id = t.request.id → j.status ≠ Status.done.text := by
  intro j hj hid hdone
  have ht : t ∈ y.tasks := by
    rw [hsplit]
    exact mem_middle.mpr (Or.inl rfl)
  have htaken := (h.orderly.hasJob_of_task ht).1
  have hrequest := h.orderly.request_eq htaken hj hid
  have hfinished := (h.done j hj (hrequest ▸ htaken) hdone).finished
  exact (h.orderly.alone hsplit).2 _ hfinished hid

/-! ### Any event -/

variable {C : Service → Prop}

/-- A caller's request moves on. It is taken by the queue only while its job is not done. -/
theorem calm_proceed (h : y.Filed P) {i : Nat} (he : y.proceed i = some y') : Calm y y' := by
  have horderly := orderly_proceed h.orderly he
  have hnext : y.next (.proceed i) = some y' := he
  have hfinished : ∀ r ∈ y.queue.finished, r ∈ y'.queue.finished := fun _ => finished_next hnext
  obtain ⟨pre, a, post, hsplit, rfl⟩ := proceed_eq_some he
  obtain ⟨hown, hothers⟩ := forall_mem_middle.mp (hsplit ▸ h.asked)
  have ha : a ∈ y.askings := by
    rw [hsplit]
    exact mem_middle.mpr (Or.inl rfl)
  refine ⟨horderly, beside_askStep h.orderly.works a, ?_, ?_, ?_, hfinished⟩
  · refine forall_mem_middle.mpr ⟨?_, hothers⟩
    rw [request_askStep]
    exact hown
  · rw [tasks_askStep]
    exact fun _ htask => Or.inl htask
  · intro r hr
    rcases mem_taken_askStep h.orderly.sound hr with hold | ⟨rfl, hheld⟩
    · exact Or.inl hold
    · refine Or.inr ⟨hown, fun j hj hjr => h.orderly.held a ha hheld j hj ?_⟩
      exact congrArg Request.id hjr

theorem filed_work (hP : Attempt.Lasts C P) (h : y.Filed P) (hC : C y.service) {i : Nat}
    (he : y.work i = some y') : y'.Filed P := by
  have horderly := orderly_work h.orderly he
  have hnext : y.next (.work i) = some y' := he
  have hfinished : ∀ r ∈ y.queue.finished, r ∈ y'.queue.finished := fun _ => finished_next hnext
  have hworks := h.orderly.works
  obtain ⟨pre, t, post, hsplit, hend⟩ := work_eq_some he
  obtain ⟨a, rfl, hstands⟩ := h.atWork t (by rw [hsplit]; exact mem_middle.mpr (Or.inl rfl))
  have hresult := Attempt.result_step hworks hstands.fits fun _ => h.status_ne hsplit
  have hstands' : (a.step y.service).2.Stands P (a.step y.service).1 :=
    hstands.turn hresult (Attempt.file_step hworks hstands.fits)
      (hP.step hC hworks hstands.fits hstands.holds)
  rcases hend with ⟨hover, queue, hqueue, rfl⟩ | ⟨hnot, rfl⟩
  -- The task is over, and its worker is done with the request.
  · have hqueueNext : y.queue.next (.finish _) = some queue := hqueue
    obtain ⟨-, hqueue⟩ := Queue.finish_eq_some hqueue
    refine h.turn ⟨horderly, hsplit, hstands, hresult, hstands', fun _ htask => Or.inl htask, rfl,
      taken_next_eq h.orderly.sound hqueueNext rfl, hfinished, fun _ => ?_⟩
    rw [hqueue]
    exact List.mem_append_right _ (List.mem_singleton.mpr rfl)
  · refine h.turn ⟨horderly, hsplit, hstands, hresult, hstands',
      fun _ htask => (mem_middle.mp htask).symm, rfl, rfl, hfinished, fun hdone => ?_⟩
    have hover : (a.task.step y.service).2.isOver = true := Attempt.isOver_of_isDone hdone
    rw [hnot] at hover
    cases hover

theorem filed_fault (hP : Attempt.Lasts C P) (h : y.Filed P) {i : Nat} {message : String}
    (he : y.fault i message = some y') : y'.Filed P := by
  have horderly := orderly_fault h.orderly he
  obtain ⟨pre, t, post, service, t', hsplit, hfault, rfl⟩ := fault_eq_some he
  obtain ⟨a, rfl, hstands⟩ := h.atWork t (by rw [hsplit]; exact mem_middle.mpr (Or.inl rfl))
  have hfault' : a.fault y.service message = some (service, { a with task := t' }) := by
    rw [Attempt.fault, hfault]
    rfl
  have hresult := Attempt.result_fault h.orderly.works hstands.fits hfault'
  have hstands' := hstands.turn hresult (Or.inl rfl) (hP.fault hfault' hstands.holds)
  refine h.turn ⟨horderly, hsplit, hstands, hresult, hstands',
    fun _ htask => (mem_middle.mp htask).symm, rfl, rfl, fun _ hr => hr, fun hdone => ?_⟩
  -- The task is still to fail its job.
  have hover := isOver_of_going (horderly.going t' (mem_middle.mpr (Or.inl rfl)))
  rw [Attempt.isOver_of_isDone (a := { a with task := t' }) hdone] at hover
  cases hover

/-- Every event keeps the files of a system where they are said to be. -/
theorem filed_next (hP : Attempt.Lasts C P) (h : y.Filed P) (hC : C y.service) {e : SystemEvent}
    (hproper : e.IsProper) (he : y.next e = some y') : y'.Filed P := by
  have horderly := orderly_next h.orderly he
  have hfinished : ∀ r ∈ y.queue.finished, r ∈ y'.queue.finished := fun _ => finished_next he
  have hworks := h.orderly.works
  cases e with
  | ask r =>
      obtain rfl := Option.some.inj he
      exact h.calm hP.new ⟨horderly, hworks.beside, forall_mem_concat.mpr ⟨h.asked, hproper⟩,
        fun _ htask => Or.inl htask, fun _ hr => Or.inl hr, hfinished⟩
  | proceed i => exact h.calm hP.new (calm_proceed h he)
  | queue qe =>
      obtain ⟨hsilent, queue, hqueue, rfl⟩ := queue_eq_some he
      have htaken := taken_next_eq h.orderly.sound hqueue (Queue.answersTo_of_silent hsilent)
      exact h.calm hP.new ⟨horderly, hworks.beside, h.asked, fun _ htask => Or.inl htask,
        fun _ hr => Or.inl (htaken ▸ hr), hfinished⟩
  | start =>
      obtain ⟨r, queue, hdispatch, hqueue, rfl⟩ := start_eq_some he
      have hnext : y.queue.next .start = some queue := hqueue
      have htaken := taken_next_eq h.orderly.sound hnext rfl
      have hr : r ∈ y.queue.taken := by
        simp [Queue.taken, hdispatch, Dispatch.held]
      refine h.calm hP.new ⟨horderly, hworks.beside, h.asked, ?_, fun _ hr => Or.inl (htaken ▸ hr),
        hfinished⟩
      exact forall_mem_concat.mpr ⟨fun _ htask => Or.inl htask, Or.inr ⟨r, hr, rfl⟩⟩
  | giveUp =>
      obtain ⟨r, queue, -, hqueue, rfl⟩ := giveUp_eq_some he
      have hnext : y.queue.next .giveUp = some queue := hqueue
      have htaken := taken_next_eq h.orderly.sound hnext rfl
      exact h.calm hP.new ⟨horderly,
        hworks.beside_apply (.move y.service.stamp r.id .failed) rfl rfl, h.asked,
        fun _ htask => Or.inl htask, fun _ hr => Or.inl (htaken ▸ hr), hfinished⟩
  | work i => exact filed_work hP h hC he
  | fault i message => exact filed_fault hP h he
  | surround w =>
      obtain rfl := Option.some.inj he
      exact h.calm hP.new ⟨horderly, ⟨hworks.amid w, rfl, rfl, rfl, Store.RowsKept.refl _⟩, h.asked,
        fun _ htask => Or.inl htask, fun _ hr => Or.inl hr, hfinished⟩
  | files d => exact hproper.elim

/-- A system at rest has no files of its own yet. -/
theorem filed_rested (P : Attempt → Prop) {s : Service} (hs : s.Rested) {workers capacity : Nat}
    {q : Queue} (hq : Queue.new? workers capacity = some q) : Filed P ⟨s, q, [], []⟩ := by
  have htaken : q.taken = [] := by
    unfold Queue.new? at hq
    split at hq
    · cases hq
      rfl
    · cases hq
  refine ⟨orderly_rested hs hq, List.forall_mem_nil _, ?_, List.forall_mem_nil _, ?_⟩
  · rw [htaken]
    exact List.forall_mem_nil _
  · intro j _ hj
    rw [htaken] at hj
    cases hj

end System

end ResponseExport.Export
