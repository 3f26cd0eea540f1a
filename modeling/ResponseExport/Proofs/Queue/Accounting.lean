import Mathlib.Data.List.Nodup
import ResponseExport.Proofs.Queue.Steps

/-!
# `ResponseExport.Proofs.Queue.Accounting`: where every accepted request is

A `History` is a queue with the answers that its callers got. Callers, dispatcher
and workers take their steps in any order, and the queue may be told to stop at
any moment.

`requests_accounted` says where the accepted requests are at any time. In the
order in which they were accepted, they are those handed to a worker, then those
given up, then the one in the dispatcher's hand, then those in the channel. So
none is lost, none comes twice, and those given up are the last ones accepted once
the dispatcher is through.

The invariant is one equation, `Queue.taken` being that concatenation: only an
accepted request changes it, and it comes at the end (`taken_next`). The equation
needs `Queue.Sound`, since a request may be handed to a worker only as long as
nothing was given up.

Nothing of this says that the dispatcher ever gets through. It does, because its
steps and those of the workers use up `Queue.toDo` (`toDo_next`), and because a
queue that is to stop always has such a step (`exists_own_step`).
-/

set_option autoImplicit false

namespace ResponseExport.Export

namespace Queue

variable {q q' : Queue} {e : QueueEvent}

/-- What the queue ever took, in order: what was started, what was given up, and what waits. -/
def taken (q : Queue) : List Request := q.started ++ q.abandoned ++ q.dispatch.held ++ q.waiting

/-- What an event answers to a caller. -/
def answersTo (q : Queue) : QueueEvent → List (Request × Except ExportError Unit)
  | .enqueue r => [(r, (q.enqueue r).2)]
  | _ => []

end Queue

/-- A queue with the answers that its callers got so far. -/
structure History where
  queue : Queue
  /-- What was handed in, each with the answer, in the order of the answers. -/
  answers : List (Request × Except ExportError Unit) := []

/-- The requests that were answered with success. -/
def acceptedOf (answers : List (Request × Except ExportError Unit)) : List Request :=
  (answers.filter fun a => a.2.isOk).map Prod.fst

namespace Queue

variable {q q' : Queue} {e : QueueEvent}

/-- Only an accepted request changes what the queue took, and it comes at the end. -/
theorem taken_next (h : q.Sound) (he : q.next e = some q') :
    q'.taken = q.taken ++ acceptedOf (q.answersTo e) := by
  have hfits := h.place_fits
  unfold PlaceFits at hfits
  cases e with
  | enqueue r =>
      obtain rfl := Option.some.inj he
      rw [answersTo]
      rcases q.enqueue_cases r with ⟨-, hq⟩ | ⟨-, -, hq⟩ | ⟨-, -, hq⟩ <;> rw [hq]
      · simp [acceptedOf, Except.isOk, Except.toBool]
      · simp [acceptedOf, Except.isOk, Except.toBool]
      · simp [taken, acceptedOf, Except.isOk, Except.toBool]
  | receive =>
      obtain ⟨r, rest, hdispatch, hwaiting, rfl⟩ := receive_eq_some he
      simp [taken, answersTo, acceptedOf, hdispatch, hwaiting, Dispatch.held]
  | start =>
      obtain ⟨r, hdispatch, -, rfl⟩ := start_eq_some he
      -- The request leaves the hand for the end of what was started: nothing may stand between.
      rw [hdispatch] at hfits
      simp [taken, answersTo, acceptedOf, hdispatch, show q.abandoned = [] from hfits, Dispatch.held]
  | heed =>
      -- The dispatcher turns to giving up: the request in its hand counts as given up from now on.
      obtain ⟨-, ⟨hdispatch, rfl⟩ | ⟨r, hdispatch, rfl⟩⟩ := heed_eq_some he <;>
        simp [taken, answersTo, acceptedOf, hdispatch, Dispatch.held]
  | runDry =>
      obtain ⟨hdispatch, -, -, rfl⟩ := runDry_eq_some he
      simp [taken, answersTo, acceptedOf, hdispatch, Dispatch.held]
  | giveUp =>
      obtain ⟨r, hdispatch | hdispatch, rfl⟩ := giveUp_eq_some he <;>
        simp [taken, answersTo, acceptedOf, hdispatch, Dispatch.held]
  | drain =>
      obtain ⟨hdispatch, ⟨r, rest, hwaiting, rfl⟩ | ⟨hwaiting, rfl⟩⟩ := drain_eq_some he <;>
        simp [taken, answersTo, acceptedOf, hdispatch, hwaiting, Dispatch.held]
  | join =>
      obtain ⟨hdispatch, -, rfl⟩ := join_eq_some he
      simp [taken, answersTo, acceptedOf, hdispatch, Dispatch.held]
  | finish r =>
      obtain ⟨-, rfl⟩ := finish_eq_some he
      simp [taken, answersTo, acceptedOf]
  | uncount =>
      obtain ⟨n, -, rfl⟩ := uncount_eq_some he
      simp [taken, answersTo, acceptedOf]
  | release =>
      obtain ⟨n, -, rfl⟩ := release_eq_some he
      simp [taken, answersTo, acceptedOf]
  | cancel =>
      obtain rfl := Option.some.inj he
      simp [taken, answersTo, acceptedOf, cancel]
  | dropSender =>
      obtain rfl := Option.some.inj he
      simp [taken, answersTo, acceptedOf, dropSender]

/-- A dispatcher that is through stays so. -/
theorem stopped_next (hstopped : q.dispatch = .stopped) (he : q.next e = some q') :
    q'.dispatch = .stopped := by
  cases e with
  | enqueue r =>
      obtain rfl := Option.some.inj he
      rcases q.enqueue_cases r with ⟨-, hq⟩ | ⟨-, -, hq⟩ | ⟨-, -, hq⟩ <;> rw [hq] <;>
        exact hstopped
  | receive => simp [next, receive, hstopped] at he
  | start => simp [next, start, hstopped] at he
  | heed => simp [next, heed, hstopped] at he
  | runDry => simp [next, runDry, hstopped] at he
  | giveUp => simp [next, giveUp, hstopped] at he
  | drain => simp [next, drain, hstopped] at he
  | join => simp [next, join, hstopped] at he
  | finish r =>
      obtain ⟨-, rfl⟩ := finish_eq_some he
      exact hstopped
  | uncount =>
      obtain ⟨n, -, rfl⟩ := uncount_eq_some he
      exact hstopped
  | release =>
      obtain ⟨n, -, rfl⟩ := release_eq_some he
      exact hstopped
  | cancel =>
      obtain rfl := Option.some.inj he
      exact hstopped
  | dropSender =>
      obtain rfl := Option.some.inj he
      exact hstopped

/-! ### Steps are used up -/

/-- How many steps the dispatcher's place may still bring, at most. A place is worth more than
those that may follow it, and to start a request is worth what its worker has to do. -/
def placeSteps : Dispatch → Nat
  | .receiving => 3
  | .holding _ => 7
  | .refusing _ => 3
  | .draining => 2
  | .clearing _ => 3
  | .joining => 1
  | .stopped => 0

/-- How many steps dispatcher and workers can still take, at most, if nothing more is accepted. -/
def toDo (q : Queue) : Nat :=
  5 * q.waiting.length + placeSteps q.dispatch + 3 * q.running.length + 2 * q.closing + q.leaving

/-- Every step of dispatcher and workers uses up one, and an accepted request brings five. -/
theorem toDo_next (he : q.next e = some q') :
    (if e.isOwn then 1 else 0) + q'.toDo ≤ q.toDo + 5 * (acceptedOf (q.answersTo e)).length := by
  cases e with
  | enqueue r =>
      obtain rfl := Option.some.inj he
      rw [answersTo]
      rcases q.enqueue_cases r with ⟨-, hq⟩ | ⟨-, -, hq⟩ | ⟨-, -, hq⟩ <;> rw [hq] <;>
        simp [QueueEvent.isOwn, toDo, acceptedOf, Except.isOk, Except.toBool]
      omega
  | receive =>
      obtain ⟨r, rest, hdispatch, hwaiting, rfl⟩ := receive_eq_some he
      simp only [toDo, hdispatch, hwaiting, placeSteps, List.length_cons, QueueEvent.isOwn, if_true]
      omega
  | start =>
      obtain ⟨r, hdispatch, -, rfl⟩ := start_eq_some he
      simp only [toDo, hdispatch, placeSteps, List.length_append, List.length_singleton,
        QueueEvent.isOwn, if_true]
      omega
  | heed =>
      obtain ⟨-, ⟨hdispatch, rfl⟩ | ⟨r, hdispatch, rfl⟩⟩ := heed_eq_some he <;>
        simp only [toDo, hdispatch, placeSteps, QueueEvent.isOwn, if_true] <;> omega
  | runDry =>
      obtain ⟨hdispatch, -, -, rfl⟩ := runDry_eq_some he
      simp only [toDo, hdispatch, placeSteps, QueueEvent.isOwn, if_true]
      omega
  | giveUp =>
      obtain ⟨r, hdispatch | hdispatch, rfl⟩ := giveUp_eq_some he <;>
        simp only [toDo, hdispatch, placeSteps, QueueEvent.isOwn, if_true] <;> omega
  | drain =>
      obtain ⟨hdispatch, ⟨r, rest, hwaiting, rfl⟩ | ⟨hwaiting, rfl⟩⟩ := drain_eq_some he <;>
        simp only [toDo, hdispatch, hwaiting, placeSteps, List.length_cons, QueueEvent.isOwn, if_true] <;>
        omega
  | join =>
      obtain ⟨hdispatch, -, rfl⟩ := join_eq_some he
      simp only [toDo, hdispatch, placeSteps, QueueEvent.isOwn, if_true]
      omega
  | finish r =>
      -- The worker has two more steps: to be counted out, and to give its permit back.
      obtain ⟨hrunning, rfl⟩ := finish_eq_some he
      have hpos := List.length_pos_of_mem hrunning
      simp only [toDo, List.length_erase_of_mem hrunning, QueueEvent.isOwn, if_true]
      omega
  | uncount =>
      obtain ⟨n, hclosing, rfl⟩ := uncount_eq_some he
      simp only [toDo, hclosing, QueueEvent.isOwn, if_true]
      omega
  | release =>
      obtain ⟨n, hleaving, rfl⟩ := release_eq_some he
      simp only [toDo, hleaving, QueueEvent.isOwn, if_true]
      omega
  | cancel =>
      obtain rfl := Option.some.inj he
      simp [toDo, QueueEvent.isOwn, cancel]
  | dropSender =>
      obtain rfl := Option.some.inj he
      simp [toDo, QueueEvent.isOwn, dropSender]

/-- A queue that is to stop, and whose dispatcher is not through, has a step to take. -/
theorem exists_own_step (h : q.Sound) (hshutdown : q.shutdown = true)
    (hstopped : q.isStopped = false) : ∃ e, e.isOwn = true ∧ (q.next e).isSome = true := by
  cases hdispatch : q.dispatch with
  -- Where the dispatcher would wait for a caller or for a permit, it sees that it is to stop.
  | receiving => exact ⟨.heed, rfl, by simp [next, heed, hshutdown, hdispatch]⟩
  | holding r => exact ⟨.heed, rfl, by simp [next, heed, hshutdown, hdispatch]⟩
  | refusing r => exact ⟨.giveUp, rfl, by simp [next, giveUp, hdispatch]⟩
  | clearing r => exact ⟨.giveUp, rfl, by simp [next, giveUp, hdispatch]⟩
  | draining =>
      refine ⟨.drain, rfl, ?_⟩
      cases hwaiting : q.waiting <;> simp [next, drain, hdispatch, hwaiting]
  | joining =>
      -- Either a worker can go on, or there is none and all permits are back.
      cases hrunning : q.running with
      | cons r rest => exact ⟨.finish r, rfl, by simp [next, finish, hrunning]⟩
      | nil =>
          cases hclosing : q.closing with
          | succ n => exact ⟨.uncount, rfl, by simp [next, uncount, hclosing]⟩
          | zero =>
              cases hleaving : q.leaving with
              | succ n => exact ⟨.release, rfl, by simp [next, release, hleaving]⟩
              | zero =>
                  have hpermits := h.permits_eq
                  rw [hrunning, hclosing, hleaving, List.length_nil] at hpermits
                  have hjoin : q.joinCount ≤ q.permits := by
                    have hcut := Nat.mod_le q.workers joinLimit
                    rw [joinCount]
                    omega
                  exact ⟨.join, rfl, by simp [next, join, hdispatch, hjoin]⟩
  | stopped =>
      rw [isStopped, hdispatch] at hstopped
      cases hstopped

end Queue

namespace History

variable {h h' : History} {e : QueueEvent} {events : List QueueEvent}

/-- The history behind an event, if the event can happen now. -/
def next (h : History) (e : QueueEvent) : Option History :=
  (h.queue.next e).map fun queue => ⟨queue, h.answers ++ h.queue.answersTo e⟩

/-- The history behind events, if they can happen in this order. -/
def run (h : History) (events : List QueueEvent) : Option History := events.foldlM next h

/-- The requests that were accepted, in order. -/
def accepted (h : History) : List Request := acceptedOf h.answers

/-- What holds of a history along all its runs. -/
structure Consistent (workers capacity : Nat) (h : History) : Prop where
  sound : h.queue.Sound
  workers_eq : h.queue.workers = workers
  capacity_eq : h.queue.capacity = capacity
  taken_eq : h.queue.taken = h.accepted

variable {workers capacity : Nat}

theorem accepted_append (queue : Queue) (answers more : List (Request × Except ExportError Unit)) :
    accepted ⟨queue, answers ++ more⟩ = acceptedOf answers ++ acceptedOf more := by
  rw [accepted, acceptedOf, List.filter_append, List.map_append]
  rfl

theorem consistent_next (h₀ : Consistent workers capacity h) (he : h.next e = some h') :
    Consistent workers capacity h' := by
  obtain ⟨q, hq, rfl⟩ := Option.map_eq_some_iff.mp he
  obtain ⟨hworkers, hcapacity⟩ := Queue.sizes_next hq
  refine ⟨Queue.sound_next h₀.sound hq, hworkers.trans h₀.workers_eq,
    hcapacity.trans h₀.capacity_eq, ?_⟩
  rw [accepted_append]
  show q.taken = h.accepted ++ acceptedOf (h.queue.answersTo e)
  rw [Queue.taken_next h₀.sound hq, h₀.taken_eq]

theorem consistent_run (h₀ : Consistent workers capacity h) (hrun : h.run events = some h') :
    Consistent workers capacity h' :=
  foldlM_induction (fun _ _ _ _ hs he => consistent_next hs he) h₀ hrun

/-- However they are ordered, dispatcher and workers take no more steps than accepted requests
and the queue's start bring. -/
theorem steps_run (hrun : h.run events = some h') :
    events.countP QueueEvent.isOwn + h'.queue.toDo + 5 * h.accepted.length
      ≤ h.queue.toDo + 5 * h'.accepted.length := by
  induction events generalizing h with
  | nil =>
      obtain rfl := Option.some.inj hrun
      simp
  | cons e es ih =>
      rw [run, List.foldlM_cons] at hrun
      obtain ⟨mid, hmid, hrest⟩ := Option.bind_eq_some_iff.mp hrun
      have hes := ih hrest
      obtain ⟨q, hq, rfl⟩ := Option.map_eq_some_iff.mp hmid
      have he := Queue.toDo_next hq
      rw [accepted_append, List.length_append] at hes
      rw [List.countP_cons]
      change _ + 5 * (h.accepted.length + _) ≤ q.toDo + _ at hes
      omega

/-- If no two callers hand in the same request, each one is accepted once or never. -/
theorem count_accepted (hdistinct : (h.answers.map Prod.fst).Nodup)
    {a : Request × Except ExportError Unit} (ha : a ∈ h.answers) :
    h.accepted.count a.1 = if a.2.isOk then 1 else 0 := by
  by_cases hok : a.2.isOk = true
  · have hmem : a.1 ∈ h.accepted :=
      List.mem_map_of_mem (List.mem_filter.mpr ⟨ha, hok⟩)
    have honce : h.accepted.Nodup := hdistinct.sublist (List.filter_sublist.map _)
    rw [if_pos hok, List.count_eq_one_of_mem honce hmem]
  · rw [if_neg hok, List.count_eq_zero]
    intro hmem
    obtain ⟨b, hb, hba⟩ := List.mem_map.mp hmem
    obtain ⟨hb, hbok⟩ := List.mem_filter.mp hb
    -- Another answer to the same request is this answer, and this one is a refusal.
    obtain rfl := List.inj_on_of_nodup_map hdistinct hb ha hba
    exact hok hbok

/-- What is known of the requests at any time, if there are this many workers and the channel
has this size. -/
structure Accounted (workers capacity : Nat) (h : History) : Prop where
  /-- The accepted requests are, in order, those handed to a worker, those given up, the one in
  the dispatcher's hand, and those in the channel. -/
  accepted_eq : h.accepted
    = h.queue.started ++ h.queue.abandoned ++ (h.queue.dispatch.held ++ h.queue.waiting)
  /-- What was handed to a worker is at work or finished. -/
  started_perm : h.queue.started.Perm (h.queue.running ++ h.queue.finished)
  /-- A request that only one caller handed in is in one place if it was accepted, and in none
  if it was refused. -/
  each_once : (h.answers.map Prod.fst).Nodup → ∀ a ∈ h.answers,
    h.queue.started.count a.1 + h.queue.abandoned.count a.1
      + (h.queue.dispatch.held ++ h.queue.waiting).count a.1 = if a.2.isOk then 1 else 0
  running_le : h.queue.running.length ≤ workers
  waiting_le : (h.queue.dispatch.held ++ h.queue.waiting).length ≤ capacity + 1
  /-- When the dispatcher is through, nothing waits, everything was either handed to a worker or
  given up, and from then on nothing is accepted. -/
  stopped : h.queue.isStopped = true →
    h.queue.dispatch.held ++ h.queue.waiting = [] ∧
      h.accepted = h.queue.started ++ h.queue.abandoned ∧
      ∀ later h', h.run later = some h' → ∀ r, (h'.queue.enqueue r).2 = .error .channelClosed

theorem Consistent.accounted (h₀ : Consistent workers capacity h) :
    Accounted workers capacity h := by
  have hsound := h₀.sound
  have htaken : h.accepted
      = h.queue.started ++ h.queue.abandoned ++ (h.queue.dispatch.held ++ h.queue.waiting) := by
    rw [← h₀.taken_eq, Queue.taken, List.append_assoc]
  have hheld : h.queue.dispatch.held.length ≤ 1 := by
    cases h.queue.dispatch <;> simp [Dispatch.held]
  refine ⟨htaken, hsound.started_perm, ?_, ?_, ?_, ?_⟩
  -- The places are parts of one list, so a request is counted in all of them together.
  · intro hdistinct a ha
    have hcount := count_accepted hdistinct ha
    rwa [htaken, List.count_append, List.count_append] at hcount
  · have hpermits := hsound.permits_eq
    rw [h₀.workers_eq] at hpermits
    omega
  · have hwaiting := hsound.waiting_le
    rw [h₀.capacity_eq] at hwaiting
    rw [List.length_append]
    omega
  · intro hstopped
    have hdispatch : h.queue.dispatch = .stopped := by simpa [Queue.isStopped] using hstopped
    have hfits := hsound.place_fits
    rw [Queue.PlaceFits, hdispatch] at hfits
    have hnothing : h.queue.dispatch.held ++ h.queue.waiting = [] := by
      rw [hdispatch, hfits.1]
      rfl
    rw [hnothing, List.append_nil] at htaken
    refine ⟨hnothing, htaken, fun later h' hlater r => ?_⟩
    have hstays : h'.queue.dispatch = .stopped := by
      refine foldlM_induction (P := fun h : History => h.queue.dispatch = .stopped) ?_ hdispatch
        hlater
      intro e _ h₁ h₂ h₁stopped he
      obtain ⟨q, hq, rfl⟩ := Option.map_eq_some_iff.mp he
      exact Queue.stopped_next h₁stopped hq
    simp [Queue.enqueue, Queue.isClosed, hstays]

/-- **Where every accepted request is.** Take any possible numbers of workers and of places in
the channel, where zero counts as one, and any order of steps. Then the requests are
accounted for at any time. Dispatcher and workers come to an end with what is accepted, and
if the queue is to stop they cannot get stuck before the dispatcher is through. -/
theorem requests_accounted {workers capacity : Nat} (hworkers : isPossible workers = true)
    (hcapacity : isPossible capacity = true) :
    ∃ q, Queue.new? workers capacity = some q ∧
      ∀ events h, run ⟨q, []⟩ events = some h →
        Accounted (max workers 1) (max capacity 1) h ∧
        events.countP QueueEvent.isOwn ≤ 5 * h.accepted.length + 3 ∧
        (h.queue.shutdown = true → h.queue.isStopped = false →
          ∃ e, e.isOwn = true ∧ (h.next e).isSome = true) := by
  obtain ⟨q, hq⟩ : ∃ q, Queue.new? workers capacity = some q :=
    ⟨_, if_pos ⟨hworkers, hcapacity⟩⟩
  refine ⟨q, hq, fun events h hrun => ?_⟩
  have hnew := hq
  rw [Queue.new?, if_pos ⟨hworkers, hcapacity⟩] at hnew
  cases hnew
  have hconsistent : Consistent (max workers 1) (max capacity 1) h :=
    consistent_run ⟨Queue.sound_new? hq, rfl, rfl, rfl⟩ hrun
  refine ⟨hconsistent.accounted, ?_, fun hshutdown hstopped => ?_⟩
  · have hsteps := steps_run hrun
    change _ + _ + 0 ≤ 3 + _ at hsteps
    omega
  · obtain ⟨e, hown, hsome⟩ := Queue.exists_own_step hconsistent.sound hshutdown hstopped
    exact ⟨e, hown, by rwa [next, Option.isSome_map]⟩

/-- One worker, two places, and six requests. The queue is told to stop while the first one is at
work, the second one in the dispatcher's hand, and the channel full. -/
def stoppingRun : List QueueEvent :=
  let r (id : String) : Request := ⟨id, "owner@example.com", "Survey"⟩
  [.enqueue (r "a"), .receive, .start, .enqueue (r "b"), .receive, .enqueue (r "c"),
    .enqueue (r "d"), .enqueue (r "e"), .cancel, .heed, .giveUp, .enqueue (r "f"), .drain, .giveUp,
    .drain, .giveUp, .drain, .finish (r "a"), .uncount, .release, .join]

/-- The run comes to its end: one request was run, three were given up, two were refused. -/
theorem requests_accounted_stopped :
    ∃ q h, Queue.new? 1 2 = some q ∧ run ⟨q, []⟩ stoppingRun = some h ∧
      Accounted 1 2 h ∧ h.queue.isStopped = true ∧
      h.accepted.map Request.id = ["a", "b", "c", "d"] ∧
      h.queue.started.map Request.id = ["a"] ∧
      h.queue.abandoned.map Request.id = ["b", "c", "d"] := by
  obtain ⟨q, hq, hall⟩ := requests_accounted
    (show isPossible 1 = true from rfl) (show isPossible 2 = true from rfl)
  obtain rfl := Option.some.inj hq
  refine ⟨_, _, rfl, rfl, (hall stoppingRun _ rfl).1, ?_⟩
  decide

end History

end ResponseExport.Export
