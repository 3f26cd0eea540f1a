import ResponseExport.Export.System
import ResponseExport.Proofs.Export.TaskSteps
import ResponseExport.Proofs.Jobs.Kept
import ResponseExport.Proofs.Queue.Holding

/-!
# `ResponseExport.Proofs.System.Steps`: the service behind its queue, step by step

A `SystemEvent` is one step of one part of a `System`: of a caller, of the
dispatcher, of a worker and its task, or of the world around. Any interleaving of
the parts is a list of such events, and `System.run` folds over it.

Each event that can happen is inverted once (`proceed_eq_some` with `askStep_cases`,
`queue_eq_some`, `start_eq_some`, `giveUp_eq_some`, `work_eq_some`, `fault_eq_some`).
The queue inside a system does at most one `QueueEvent` in each event
(`exists_queue_event`), so a run of the system is also a run of the queue
(`exists_queue_run`).

The world may change everything that is not the service's own: users, surveys and
responses, where rows come from, the rest of the disk, and the time. It may also
change the directory of the files, and refuse files to tasks.
-/

set_option autoImplicit false

namespace ResponseExport.Export

open Store (JobOp JobRow)

/-! ### Lists with one member in the middle -/

/-- What stands at a place splits the list. -/
theorem exists_append_of_getElem? {α : Type} {l : List α} {i : Nat} {a : α} (h : l[i]? = some a) :
    ∃ pre post, l = pre ++ a :: post ∧ (∀ b, l.set i b = pre ++ b :: post) ∧
      l.eraseIdx i = pre ++ post := by
  obtain ⟨hi, ha⟩ := List.getElem?_eq_some_iff.mp h
  refine ⟨l.take i, l.drop (i + 1), ?_, ?_, ?_⟩
  · rw [← ha, List.getElem_cons_drop, List.take_append_drop]
  · intro b
    rw [List.set_eq_take_append_cons_drop, if_pos hi]
  · exact List.eraseIdx_eq_take_drop_succ l i

theorem mem_middle {α : Type} {pre post : List α} {a b : α} :
    b ∈ pre ++ a :: post ↔ b = a ∨ b ∈ pre ++ post :=
  List.perm_middle.mem_iff.trans List.mem_cons

/-- What holds of all members of a list holds of one of them and of the others. -/
theorem forall_mem_middle {α : Type} {P : α → Prop} {pre post : List α} {a : α} :
    (∀ b ∈ pre ++ a :: post, P b) ↔ P a ∧ ∀ b ∈ pre ++ post, P b := by
  rw [← List.forall_mem_cons]
  exact forall_congr' fun b => imp_congr_left List.perm_middle.mem_iff

theorem forall_mem_concat {α : Type} {P : α → Prop} {l : List α} {a : α} :
    (∀ b ∈ l ++ [a], P b) ↔ (∀ b ∈ l, P b) ∧ P a := by
  rw [List.forall_mem_append, List.forall_mem_singleton]

/-! ### What happens to a system -/

/-- What is around the service. The clock shows times that can be read back. -/
structure Surroundings where
  users : List Store.User
  surveys : List Store.SurveyRow
  responses : List Survey.Response
  source : Source
  outside : Disk
  now : Time.Instant
  clock : now.HasShortYear

/-- The service when this is around it. The jobs, and how far the source was read, stay. -/
def Service.amid (s : Service) (w : Surroundings) : Service :=
  { s with
    store := { s.store with
      tables := { s.store.tables with
        users := w.users
        surveys := w.surveys
        responses := w.responses } }
    source := w.source
    outside := w.outside
    now := w.now }

theorem Service.Works.amid {s : Service} (h : s.Works) (w : Surroundings) : (s.amid w).Works :=
  ⟨⟨h.usable.isOpen, h.usable.uniqueIds, h.usable.readable⟩, w.clock, h.possible⟩

/-- Something that happens to a system. -/
inductive SystemEvent where
  /-- A caller asks for an export. -/
  | ask (r : Request)
  /-- The caller's request at a place takes a step. -/
  | proceed (i : Nat)
  /-- The queue takes a step by itself, or is told to stop. -/
  | queue (e : QueueEvent)
  /-- The dispatcher hands its request to a worker. -/
  | start
  /-- The dispatcher gives up its request. -/
  | giveUp
  /-- The task at a place takes a step. -/
  | work (i : Nat)
  /-- The file system refuses something to the task at a place. -/
  | fault (i : Nat) (message : String)
  /-- The world around changes. -/
  | surround (w : Surroundings)
  /-- Somebody changes the directory of the files. -/
  | files (d : Directory)

namespace System

/-- The system behind an event, if the event can happen now. -/
def next (y : System) : SystemEvent → Option System
  | .ask r => some (y.ask r)
  | .proceed i => y.proceed i
  | .queue e =>
    if e.isSilent then (y.queue.next e).map fun queue => { y with queue } else none
  | .start => y.start
  | .giveUp => y.giveUp
  | .work i => y.work i
  | .fault i message => y.fault i message
  | .surround w => some { y with service := y.service.amid w }
  | .files d => some { y with service := { y.service with directory := d } }

/-- The system behind events, if they can happen in this order. -/
def run (y : System) (events : List SystemEvent) : Option System := events.foldlM next y

variable {y y' : System}

/-! ### When an event can happen, and what it does -/

/-- The step of one caller is an operation on the table of jobs, which makes no job done, or the
request is offered to the queue, or nothing is left to do. -/
theorem askStep_cases (y : System) (a : Asking) :
    (∃ op stage, op.time = y.service.stamp ∧ op.makesDone = false ∧ y.askStep a =
      ({ y with service := { y.service with store := JobOp.apply y.service.store op } },
        { a with stage })) ∨
    (∃ job stage, a.stage = .queueing job ∧
      y.askStep a = ({ y with queue := (y.queue.enqueue a.request).1 }, { a with stage })) ∨
    y.askStep a = (y, a) := by
  unfold askStep refuse
  split
  -- What the caller is answered does not matter to the table.
  · refine Or.inl
      ⟨.create y.service.stamp a.request.id a.request.user a.request.survey, ?_⟩
    split <;> rename_i hcreate <;> obtain ⟨rfl, -⟩ := Prod.mk.inj hcreate <;>
      exact ⟨_, rfl, rfl, rfl⟩
  · rename_i job hstage
    refine Or.inr (Or.inl ⟨job, ?_⟩)
    split <;> rename_i hqueue <;> rw [hqueue] <;> exact ⟨_, hstage, rfl⟩
  · refine Or.inl ⟨.move y.service.stamp a.request.id .failed, ?_⟩
    split
    rename_i hrefuse
    split at hrefuse <;> rename_i hmove <;> obtain ⟨rfl, -⟩ := Prod.mk.inj hmove <;>
      cases hrefuse <;> exact ⟨_, rfl, rfl, rfl⟩
  · exact Or.inr (Or.inr rfl)

theorem proceed_eq_some {i : Nat} (h : y.proceed i = some y') :
    ∃ pre a post, y.askings = pre ++ a :: post ∧
      y' = { (y.askStep a).1 with askings := pre ++ (y.askStep a).2 :: post } := by
  unfold proceed at h
  split at h
  · cases h
  · rename_i a ha
    obtain ⟨pre, post, hsplit, hset, -⟩ := exists_append_of_getElem? ha
    have hsame : (y.askStep a).1.askings = y.askings := by
      rcases y.askStep_cases a with ⟨_, _, -, -, hstep⟩ | ⟨_, _, -, hstep⟩ | hstep <;> rw [hstep]
    refine ⟨pre, a, post, hsplit, ?_⟩
    rw [← hset, ← hsame]
    exact (Option.some.inj h).symm

theorem queue_eq_some {e : QueueEvent} (h : y.next (.queue e) = some y') :
    e.isSilent = true ∧ ∃ queue, y.queue.next e = some queue ∧ y' = { y with queue } := by
  rw [next] at h
  split at h
  · rename_i hsilent
    obtain ⟨queue, hqueue, rfl⟩ := Option.map_eq_some_iff.mp h
    exact ⟨hsilent, queue, hqueue, rfl⟩
  · cases h

theorem start_eq_some (h : y.start = some y') :
    ∃ r queue, y.queue.dispatch = .holding r ∧ y.queue.start = some queue ∧
      y' = { y with queue, tasks := y.tasks ++ [Task.new r] } := by
  unfold start at h
  split at h
  · rename_i r queue hdispatch hqueue
    exact ⟨r, queue, hdispatch, hqueue, (Option.some.inj h).symm⟩
  · cases h

theorem giveUp_eq_some (h : y.giveUp = some y') :
    ∃ r queue, (y.queue.dispatch = .refusing r ∨ y.queue.dispatch = .clearing r) ∧
      y.queue.giveUp = some queue ∧ y' = { y with queue, service := y.service.abandon r } := by
  unfold giveUp at h
  split at h
  · rename_i r queue hdispatch hqueue
    exact ⟨r, queue, Or.inl hdispatch, hqueue, (Option.some.inj h).symm⟩
  · rename_i r queue hdispatch hqueue
    exact ⟨r, queue, Or.inr hdispatch, hqueue, (Option.some.inj h).symm⟩
  · cases h

/-- A task that ends leaves, and its worker is done with the request. -/
theorem work_eq_some {i : Nat} (h : y.work i = some y') :
    ∃ pre t post, y.tasks = pre ++ t :: post ∧
      (((t.step y.service).2.isOver = true ∧
          ∃ queue, y.queue.finish (t.step y.service).2.request = some queue ∧
            y' = { y with service := (t.step y.service).1, queue, tasks := pre ++ post }) ∨
        ((t.step y.service).2.isOver = false ∧
          y' = { y with
            service := (t.step y.service).1
            tasks := pre ++ (t.step y.service).2 :: post })) := by
  unfold work at h
  split at h
  · cases h
  · cases h
  · rename_i t hbroken ht
    obtain ⟨pre, post, hsplit, hset, herase⟩ := exists_append_of_getElem? ht
    refine ⟨pre, t, post, hsplit, ?_⟩
    dsimp only at h
    split at h
    · rename_i hover
      obtain ⟨queue, hqueue, rfl⟩ := Option.map_eq_some_iff.mp h
      exact Or.inl ⟨hover, queue, hqueue, by rw [herase]⟩
    · rename_i hover
      rw [hset] at h
      exact Or.inr ⟨Bool.eq_false_iff.mpr hover, (Option.some.inj h).symm⟩

theorem fault_eq_some {i : Nat} {message : String} (h : y.fault i message = some y') :
    ∃ pre t post service t', y.tasks = pre ++ t :: post ∧
      t.fault y.service message = some (service, t') ∧
      y' = { y with service, tasks := pre ++ t' :: post } := by
  unfold fault at h
  split at h
  · cases h
  · rename_i t ht
    obtain ⟨pre, post, hsplit, hset, -⟩ := exists_append_of_getElem? ht
    obtain ⟨⟨service, t'⟩, hfault, rfl⟩ := Option.map_eq_some_iff.mp h
    exact ⟨pre, t, post, service, t', hsplit, hfault, by rw [← hset]⟩

/-! ### The queue inside a system -/

/-- In each event the queue does one event of its own, or none. -/
theorem exists_queue_event {e : SystemEvent} (h : y.next e = some y') :
    y'.queue = y.queue ∨ ∃ qe, y.queue.next qe = some y'.queue := by
  cases e with
  | ask r =>
      obtain rfl := Option.some.inj h
      exact Or.inl rfl
  | proceed i =>
      obtain ⟨pre, a, post, -, rfl⟩ := proceed_eq_some h
      show (y.askStep a).1.queue = y.queue ∨ ∃ qe, _ = some (y.askStep a).1.queue
      rcases y.askStep_cases a with ⟨_, _, -, -, hstep⟩ | ⟨_, _, -, hstep⟩ | hstep <;> rw [hstep]
      · exact Or.inl rfl
      · exact Or.inr ⟨.enqueue a.request, rfl⟩
      · exact Or.inl rfl
  | queue qe =>
      obtain ⟨-, queue, hqueue, rfl⟩ := queue_eq_some h
      exact Or.inr ⟨qe, hqueue⟩
  | start =>
      obtain ⟨r, queue, -, hqueue, rfl⟩ := start_eq_some h
      exact Or.inr ⟨.start, hqueue⟩
  | giveUp =>
      obtain ⟨r, queue, -, hqueue, rfl⟩ := giveUp_eq_some h
      exact Or.inr ⟨.giveUp, hqueue⟩
  | work i =>
      obtain ⟨pre, t, post, -, ⟨-, queue, hqueue, rfl⟩ | ⟨-, rfl⟩⟩ := work_eq_some h
      · exact Or.inr ⟨.finish _, hqueue⟩
      · exact Or.inl rfl
  | fault i message =>
      obtain ⟨pre, t, post, service, t', -, -, rfl⟩ := fault_eq_some h
      exact Or.inl rfl
  | surround w =>
      obtain rfl := Option.some.inj h
      exact Or.inl rfl
  | files d =>
      obtain rfl := Option.some.inj h
      exact Or.inl rfl

/-- The queue inside a system only does what a queue may do by itself. -/
theorem exists_queue_run {events : List SystemEvent} (hrun : y.run events = some y') :
    ∃ queueEvents, y.queue.run queueEvents = some y'.queue := by
  induction events generalizing y with
  | nil =>
      obtain rfl := Option.some.inj hrun
      exact ⟨[], rfl⟩
  | cons e es ih =>
      rw [run, List.foldlM_cons] at hrun
      obtain ⟨mid, hmid, hrest⟩ := Option.bind_eq_some_iff.mp hrun
      obtain ⟨queueEvents, hqueue⟩ := ih hrest
      rcases exists_queue_event hmid with hsame | ⟨qe, hqe⟩
      · exact ⟨queueEvents, by rwa [hsame] at hqueue⟩
      · refine ⟨qe :: queueEvents, ?_⟩
        rw [Queue.run, List.foldlM_cons, hqe]
        exact hqueue

end System

end ResponseExport.Export
