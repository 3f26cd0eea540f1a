import ResponseExport.Export.Queue

/-!
# `ResponseExport.Proofs.Queue.Steps`: what one event does to a queue

Each event of a `Queue` is a partial function. The lemmas of the first section say
once, for each of them, when it can happen and what the queue is afterwards. All
later proofs about the queue start from these statements.

`Queue.next` puts the events together, so that an order of steps of callers,
dispatcher and workers is a list of `QueueEvent`s and a run of the queue is a fold
over that list. `Queue.Sound` is what holds along all runs: permits are neither
lost nor made, the count of active requests is right, and the dispatcher gives
nothing up before it has seen that the queue is to stop (`sound_next`).

`foldlM_induction` carries a property of one step through a run. It is stated for
any step function, and the runs of larger systems use it as well.
-/

set_option autoImplicit false

namespace ResponseExport.Export

open scoped List

/-- What every possible event keeps, a run keeps. -/
theorem foldlM_induction {σ ε : Type} {next : σ → ε → Option σ} {P : σ → Prop} {events : List ε}
    (hstep : ∀ e ∈ events, ∀ s s', P s → next s e = some s' → P s') {s s' : σ} (h : P s)
    (hrun : events.foldlM next s = some s') : P s' := by
  induction events generalizing s with
  | nil =>
      obtain rfl := Option.some.inj hrun
      exact h
  | cons e es ih =>
      rw [List.foldlM_cons] at hrun
      obtain ⟨mid, hmid, hrest⟩ := Option.bind_eq_some_iff.mp hrun
      have hkept := hstep e List.mem_cons_self s mid h hmid
      exact ih (fun e' he' => hstep e' (List.mem_cons_of_mem e he')) hkept hrest

/-- The request that waits in the dispatcher's hand to be started. -/
def Dispatch.held : Dispatch → List Request
  | .holding r => [r]
  | _ => []

/-- The request in the dispatcher's hand, be it to start it or to give it up. -/
def Dispatch.inHand : Dispatch → List Request
  | .holding r => [r]
  | .refusing r => [r]
  | .clearing r => [r]
  | _ => []

namespace Queue

variable {q q' : Queue}

/-! ### When an event can happen, and what it does -/

/-- A closed channel takes nothing, a full one neither, and any other one takes the request. -/
theorem enqueue_cases (q : Queue) (r : Request) :
    (q.isClosed = true ∧ q.enqueue r = (q, .error .channelClosed)) ∨
    (q.isClosed = false ∧ q.capacity ≤ q.waiting.length ∧ q.enqueue r = (q, .error .queueFull)) ∨
    (q.isClosed = false ∧ q.waiting.length < q.capacity ∧
      q.enqueue r = ({ q with waiting := q.waiting ++ [r] }, .ok ())) := by
  unfold enqueue
  cases hclosed : q.isClosed with
  | true => simp
  | false =>
      by_cases hfull : q.capacity ≤ q.waiting.length
      · simp [hfull]
      · simp [hfull, Nat.not_le.mp hfull]

theorem receive_eq_some (h : q.receive = some q') :
    ∃ r rest, q.dispatch = .receiving ∧ q.waiting = r :: rest ∧
      q' = { q with dispatch := .holding r, waiting := rest } := by
  unfold receive at h
  split at h
  · rename_i r rest hdispatch hwaiting
    exact ⟨r, rest, hdispatch, hwaiting, (Option.some.inj h).symm⟩
  · cases h

theorem start_eq_some (h : q.start = some q') :
    ∃ r, q.dispatch = .holding r ∧ 0 < q.permits ∧
      q' = { q with
        dispatch := .receiving
        permits := q.permits - 1
        active := q.active + 1
        running := q.running ++ [r]
        started := q.started ++ [r] } := by
  unfold start at h
  split at h
  · rename_i r hdispatch
    split at h
    · rename_i hfree
      exact ⟨r, hdispatch, hfree, (Option.some.inj h).symm⟩
    · cases h
  · cases h

theorem heed_eq_some (h : q.heed = some q') :
    q.shutdown = true ∧
      (q.dispatch = .receiving ∧ q' = { q with dispatch := .draining } ∨
        ∃ r, q.dispatch = .holding r ∧
          q' = { q with dispatch := .refusing r, abandoned := q.abandoned ++ [r] }) := by
  unfold heed at h
  split at h
  · rename_i hshutdown
    refine ⟨hshutdown, ?_⟩
    split at h
    · rename_i hdispatch
      exact Or.inl ⟨hdispatch, (Option.some.inj h).symm⟩
    · rename_i r hdispatch
      exact Or.inr ⟨r, hdispatch, (Option.some.inj h).symm⟩
    · cases h
  · cases h

theorem runDry_eq_some (h : q.runDry = some q') :
    q.dispatch = .receiving ∧ q.waiting = [] ∧ q.senderGone = true ∧
      q' = { q with dispatch := .draining } := by
  unfold runDry at h
  split at h
  · rename_i hdispatch hwaiting
    split at h
    · rename_i hgone
      exact ⟨hdispatch, hwaiting, hgone, (Option.some.inj h).symm⟩
    · cases h
  · cases h

theorem giveUp_eq_some (h : q.giveUp = some q') :
    ∃ r, (q.dispatch = .refusing r ∨ q.dispatch = .clearing r) ∧
      q' = { q with dispatch := .draining } := by
  unfold giveUp at h
  split at h
  · rename_i r hdispatch
    exact ⟨r, Or.inl hdispatch, (Option.some.inj h).symm⟩
  · rename_i r hdispatch
    exact ⟨r, Or.inr hdispatch, (Option.some.inj h).symm⟩
  · cases h

theorem drain_eq_some (h : q.drain = some q') :
    q.dispatch = .draining ∧
      ((∃ r rest, q.waiting = r :: rest ∧
          q' = { q with
            dispatch := .clearing r
            waiting := rest
            abandoned := q.abandoned ++ [r] }) ∨
        q.waiting = [] ∧ q' = { q with dispatch := .joining }) := by
  unfold drain at h
  split at h
  · rename_i r rest hdispatch hwaiting
    exact ⟨hdispatch, Or.inl ⟨r, rest, hwaiting, (Option.some.inj h).symm⟩⟩
  · rename_i hdispatch hwaiting
    exact ⟨hdispatch, Or.inr ⟨hwaiting, (Option.some.inj h).symm⟩⟩
  · cases h

theorem join_eq_some (h : q.join = some q') :
    q.dispatch = .joining ∧ q.joinCount ≤ q.permits ∧ q' = { q with dispatch := .stopped } := by
  unfold join at h
  split at h
  · rename_i hdispatch
    split at h
    · rename_i hfree
      exact ⟨hdispatch, hfree, (Option.some.inj h).symm⟩
    · cases h
  · cases h

theorem finish_eq_some {r : Request} (h : q.finish r = some q') :
    r ∈ q.running ∧
      q' = { q with
        running := q.running.erase r
        closing := q.closing + 1
        finished := q.finished ++ [r] } := by
  unfold finish at h
  split at h
  · rename_i hrunning
    exact ⟨List.contains_iff_mem.mp hrunning, (Option.some.inj h).symm⟩
  · cases h

theorem uncount_eq_some (h : q.uncount = some q') :
    ∃ n, q.closing = n + 1 ∧
      q' = { q with closing := n, active := q.active - 1, leaving := q.leaving + 1 } := by
  unfold uncount at h
  split at h
  · cases h
  · rename_i n hclosing
    exact ⟨n, hclosing, (Option.some.inj h).symm⟩

theorem release_eq_some (h : q.release = some q') :
    ∃ n, q.leaving = n + 1 ∧ q' = { q with leaving := n, permits := q.permits + 1 } := by
  unfold release at h
  split at h
  · cases h
  · rename_i n hleaving
    exact ⟨n, hleaving, (Option.some.inj h).symm⟩

end Queue

/-! ### Events in any order -/

/-- Something that happens to a queue. -/
inductive QueueEvent where
  /-- A caller hands in a request. -/
  | enqueue (r : Request)
  -- The dispatcher takes a step.
  | receive
  | start
  | heed
  | runDry
  | giveUp
  | drain
  | join
  -- A worker takes a step.
  | finish (r : Request)
  | uncount
  | release
  -- The queue is to stop, or its last caller goes.
  | cancel
  | dropSender
  deriving DecidableEq

/-- Is it a step of the dispatcher or of a worker? -/
def QueueEvent.isOwn : QueueEvent → Bool
  | .enqueue _ => false
  | .cancel => false
  | .dropSender => false
  | _ => true

namespace Queue

/-- The queue behind an event, if the event can happen now. -/
def next (q : Queue) : QueueEvent → Option Queue
  | .enqueue r => some (q.enqueue r).1
  | .receive => q.receive
  | .start => q.start
  | .heed => q.heed
  | .runDry => q.runDry
  | .giveUp => q.giveUp
  | .drain => q.drain
  | .join => q.join
  | .finish r => q.finish r
  | .uncount => q.uncount
  | .release => q.release
  | .cancel => some q.cancel
  | .dropSender => some q.dropSender

/-- The queue behind events, if they can happen in this order. -/
def run (q : Queue) (events : List QueueEvent) : Option Queue := events.foldlM next q

variable {q q' : Queue} {e : QueueEvent} {events : List QueueEvent}

/-- What the dispatcher's place says about the rest of the queue. It gives nothing up before
it has stopped receiving, the channel is empty before it waits for the workers, and it waits
until the permits that it counts are back. -/
def PlaceFits (q : Queue) : Prop :=
  match q.dispatch with
  | .receiving => q.abandoned = []
  | .holding _ => q.abandoned = []
  | .joining => q.waiting = []
  | .stopped => q.waiting = [] ∧ q.joinCount ≤ q.permits
  | _ => True

/-- What holds of a queue along all its runs. -/
structure Sound (q : Queue) : Prop where
  /-- Every permit is free, or it belongs to one worker. -/
  permits_eq : q.permits + q.running.length + q.closing + q.leaving = q.workers
  active_eq : q.active = q.running.length + q.closing
  waiting_le : q.waiting.length ≤ q.capacity
  started_perm : q.started.Perm (q.running ++ q.finished)
  place_fits : q.PlaceFits

/-- There is a queue for all numbers of workers, and all sizes, that there can be. -/
theorem isSome_new?_iff (workers capacity : Nat) :
    (new? workers capacity).isSome = true ↔ workers ≤ maxCapacity ∧ capacity ≤ maxCapacity := by
  rw [new?, ← isPossible_iff, ← isPossible_iff]
  split <;> simp [*]

theorem workers_new? {workers capacity : Nat} (h : new? workers capacity = some q) :
    q.workers = max workers 1 := by
  unfold new? at h
  split at h
  · cases h
    rfl
  · cases h

theorem sound_new? {workers capacity : Nat} (h : new? workers capacity = some q) : q.Sound := by
  unfold new? at h
  split at h
  · cases h
    exact ⟨rfl, rfl, Nat.zero_le _, List.Perm.nil, rfl⟩
  · cases h

/-- A queue whose channel is not closed has not begun to wait for its workers. -/
theorem placeFits_of_not_closed (hclosed : q.isClosed = false) {waiting : List Request}
    (h : q.PlaceFits) : PlaceFits { q with waiting } := by
  unfold isClosed at hclosed
  unfold PlaceFits at h ⊢
  dsimp only at h ⊢
  split at hclosed <;> simp_all

theorem sound_enqueue (h : q.Sound) (r : Request) : (q.enqueue r).1.Sound := by
  rcases q.enqueue_cases r with ⟨-, hq⟩ | ⟨-, -, hq⟩ | ⟨hopen, hroom, hq⟩ <;> rw [hq]
  · exact h
  · exact h
  · exact { h with
      waiting_le := by
        rw [List.length_append]
        exact hroom
      place_fits := placeFits_of_not_closed hopen h.place_fits }

/-- Every event keeps the queue sound. -/
theorem sound_next (h : q.Sound) (he : q.next e = some q') : q'.Sound := by
  have hpermits := h.permits_eq
  have hactive := h.active_eq
  have hfits := h.place_fits
  unfold PlaceFits at hfits
  cases e with
  | enqueue r =>
      obtain rfl := Option.some.inj he
      exact sound_enqueue h r
  | receive =>
      obtain ⟨r, rest, hdispatch, hwaiting, rfl⟩ := receive_eq_some he
      rw [hdispatch] at hfits
      have hle := h.waiting_le
      rw [hwaiting, List.length_cons] at hle
      exact { h with waiting_le := Nat.le_of_succ_le hle, place_fits := hfits }
  | start =>
      obtain ⟨r, hdispatch, hfree, rfl⟩ := start_eq_some he
      rw [hdispatch] at hfits
      -- The new worker holds the permit that is not free any more.
      refine { h with permits_eq := ?_, active_eq := ?_, started_perm := ?_, place_fits := hfits }
      · simp only [List.length_append, List.length_singleton]
        omega
      · simp only [List.length_append, List.length_singleton]
        omega
      · have hmoved : q.running ++ q.finished ++ [r] ~ q.running ++ [r] ++ q.finished := by
          rw [List.append_assoc, List.append_assoc]
          exact List.perm_append_comm.append_left _
        exact (h.started_perm.append_right [r]).trans hmoved
  | heed =>
      -- From here on requests may be given up, and the place says nothing of them.
      obtain ⟨-, ⟨-, rfl⟩ | ⟨r, -, rfl⟩⟩ := heed_eq_some he <;>
        exact { h with place_fits := trivial }
  | runDry =>
      obtain ⟨-, -, -, rfl⟩ := runDry_eq_some he
      exact { h with place_fits := trivial }
  | giveUp =>
      obtain ⟨r, -, rfl⟩ := giveUp_eq_some he
      exact { h with place_fits := trivial }
  | drain =>
      obtain ⟨-, ⟨r, rest, hwaiting, rfl⟩ | ⟨hwaiting, rfl⟩⟩ := drain_eq_some he
      · have hle := h.waiting_le
        rw [hwaiting, List.length_cons] at hle
        exact { h with waiting_le := Nat.le_of_succ_le hle, place_fits := trivial }
      -- The channel is found empty, and it is closed by now.
      · exact { h with place_fits := hwaiting }
  | join =>
      obtain ⟨hdispatch, hfree, rfl⟩ := join_eq_some he
      rw [hdispatch] at hfits
      exact { h with place_fits := ⟨hfits, hfree⟩ }
  | finish r =>
      obtain ⟨hrunning, rfl⟩ := finish_eq_some he
      have hpos := List.length_pos_of_mem hrunning
      have hlength := List.length_erase_of_mem hrunning
      refine { h with permits_eq := ?_, active_eq := ?_, started_perm := ?_ }
      · dsimp only
        omega
      · dsimp only
        omega
      -- The request moves from one list to the other.
      · have hmoved : q.running ++ q.finished ~ q.running.erase r ++ (q.finished ++ [r]) :=
          calc q.running ++ q.finished
              ~ r :: q.running.erase r ++ q.finished := (List.perm_cons_erase hrunning).append_right _
            _ ~ q.running.erase r ++ r :: q.finished := List.perm_middle.symm
            _ ~ q.running.erase r ++ (q.finished ++ [r]) :=
              (List.perm_append_singleton r q.finished).symm.append_left _
        exact h.started_perm.trans hmoved
  | uncount =>
      -- A worker that is not counted any more still has its permit.
      obtain ⟨n, hclosing, rfl⟩ := uncount_eq_some he
      refine { h with permits_eq := ?_, active_eq := ?_ } <;> dsimp only <;> omega
  | release =>
      obtain ⟨n, hleaving, rfl⟩ := release_eq_some he
      refine { h with permits_eq := ?_, place_fits := ?_ }
      · dsimp only
        omega
      -- A permit more is free, so those that were waited for are still there.
      · unfold PlaceFits
        dsimp only
        split at hfits <;> simp_all [joinCount]
        omega
  | cancel =>
      obtain rfl := Option.some.inj he
      exact { h with }
  | dropSender =>
      obtain rfl := Option.some.inj he
      exact { h with }

theorem sound_run (h : q.Sound) (hrun : q.run events = some q') : q'.Sound :=
  foldlM_induction (fun _ _ _ _ hs he => sound_next hs he) h hrun

/-- The sizes of a queue never change. -/
theorem sizes_next (he : q.next e = some q') :
    q'.workers = q.workers ∧ q'.capacity = q.capacity := by
  cases e with
  | enqueue r =>
      obtain rfl := Option.some.inj he
      rcases q.enqueue_cases r with ⟨-, hq⟩ | ⟨-, -, hq⟩ | ⟨-, -, hq⟩ <;>
        rw [hq] <;> exact ⟨rfl, rfl⟩
  | receive =>
      obtain ⟨_, _, -, -, rfl⟩ := receive_eq_some he
      exact ⟨rfl, rfl⟩
  | start =>
      obtain ⟨_, -, -, rfl⟩ := start_eq_some he
      exact ⟨rfl, rfl⟩
  | heed =>
      obtain ⟨-, ⟨-, rfl⟩ | ⟨_, -, rfl⟩⟩ := heed_eq_some he <;> exact ⟨rfl, rfl⟩
  | runDry =>
      obtain ⟨-, -, -, rfl⟩ := runDry_eq_some he
      exact ⟨rfl, rfl⟩
  | giveUp =>
      obtain ⟨_, -, rfl⟩ := giveUp_eq_some he
      exact ⟨rfl, rfl⟩
  | drain =>
      obtain ⟨-, ⟨_, _, -, rfl⟩ | ⟨-, rfl⟩⟩ := drain_eq_some he <;> exact ⟨rfl, rfl⟩
  | join =>
      obtain ⟨-, -, rfl⟩ := join_eq_some he
      exact ⟨rfl, rfl⟩
  | finish r =>
      obtain ⟨-, rfl⟩ := finish_eq_some he
      exact ⟨rfl, rfl⟩
  | uncount =>
      obtain ⟨_, -, rfl⟩ := uncount_eq_some he
      exact ⟨rfl, rfl⟩
  | release =>
      obtain ⟨_, -, rfl⟩ := release_eq_some he
      exact ⟨rfl, rfl⟩
  | cancel =>
      obtain rfl := Option.some.inj he
      exact ⟨rfl, rfl⟩
  | dropSender =>
      obtain rfl := Option.some.inj he
      exact ⟨rfl, rfl⟩

theorem workers_run (hrun : q.run events = some q') : q'.workers = q.workers :=
  foldlM_induction (P := fun q' => q'.workers = q.workers)
    (fun _ _ _ _ hs he => (sizes_next he).1.trans hs) rfl hrun

end Queue

end ResponseExport.Export
