import ResponseExport.Proofs.Queue.Accounting

/-!
# `ResponseExport.Proofs.Queue.Holding`: what the queue still has to do something about

A request that the queue took is in its channel, in the dispatcher's hand or at work
until a worker is done with it or the dispatcher has given it up: `Queue.holds`, and
`mem_holds_next` for one event. What was taken is never forgotten (`Queue.taken`),
so the one list shrinks while the other only grows.
-/

set_option autoImplicit false

namespace ResponseExport.Export

/-- A step of the queue that has nothing to do with callers, tasks or jobs. -/
def QueueEvent.isSilent : QueueEvent → Bool
  | .receive => true
  | .heed => true
  | .runDry => true
  | .drain => true
  | .join => true
  | .uncount => true
  | .release => true
  | .cancel => true
  | .dropSender => true
  | _ => false

namespace Queue

variable {q q' : Queue} {e : QueueEvent}

/-- The requests that the queue has to do something about. -/
def holds (q : Queue) : List Request := q.waiting ++ q.dispatch.inHand ++ q.running

/-- The queue keeps a request until it is done with it, or has given it up. -/
theorem mem_holds_next (he : q.next e = some q') {r : Request} (hr : r ∈ q.holds) :
    r ∈ q'.holds ∨ e = .finish r ∨
      e = .giveUp ∧ (q.dispatch = .refusing r ∨ q.dispatch = .clearing r) := by
  cases e with
  | enqueue r' =>
      obtain rfl := Option.some.inj he
      refine Or.inl ?_
      rcases q.enqueue_cases r' with ⟨-, hq⟩ | ⟨-, -, hq⟩ | ⟨-, -, hq⟩ <;> rw [hq]
      · exact hr
      · exact hr
      · simp only [holds, List.mem_append] at hr ⊢
        tauto
  | receive =>
      obtain ⟨r', rest, hdispatch, hwaiting, rfl⟩ := receive_eq_some he
      simp only [holds, hdispatch, hwaiting, Dispatch.inHand, List.mem_append, List.mem_cons]
        at hr ⊢
      tauto
  | start =>
      obtain ⟨r', hdispatch, -, rfl⟩ := start_eq_some he
      simp only [holds, hdispatch, Dispatch.inHand, List.mem_append, List.mem_singleton] at hr ⊢
      tauto
  | heed =>
      obtain ⟨-, ⟨hdispatch, rfl⟩ | ⟨r', hdispatch, rfl⟩⟩ := heed_eq_some he <;>
        simp only [holds, hdispatch, Dispatch.inHand] at hr ⊢ <;> exact Or.inl hr
  | runDry =>
      -- The hand is empty, before and after.
      obtain ⟨hdispatch, -, -, rfl⟩ := runDry_eq_some he
      simp only [holds, hdispatch, Dispatch.inHand] at hr ⊢
      exact Or.inl hr
  | giveUp =>
      obtain ⟨r', hdispatch, rfl⟩ := giveUp_eq_some he
      have hhand : q.dispatch.inHand = [r'] := by
        rcases hdispatch with hdispatch | hdispatch <;> rw [hdispatch] <;> rfl
      rw [holds, hhand] at hr
      rcases List.mem_append.mp hr with hr | hr
      · rcases List.mem_append.mp hr with hr | hr
        · exact Or.inl (List.mem_append_left _ (List.mem_append_left _ hr))
        · obtain rfl := List.mem_singleton.mp hr
          exact Or.inr (Or.inr ⟨rfl, hdispatch⟩)
      · exact Or.inl (List.mem_append_right _ hr)
  | drain =>
      obtain ⟨hdispatch, ⟨r', rest, hwaiting, rfl⟩ | ⟨hwaiting, rfl⟩⟩ := drain_eq_some he <;>
        simp only [holds, hdispatch, hwaiting, Dispatch.inHand, List.mem_append, List.mem_cons]
          at hr ⊢ <;>
        tauto
  | join =>
      obtain ⟨hdispatch, -, rfl⟩ := join_eq_some he
      simp only [holds, hdispatch, Dispatch.inHand] at hr ⊢
      exact Or.inl hr
  | finish r' =>
      obtain ⟨-, rfl⟩ := finish_eq_some he
      -- One worker is done with its request; other requests stay where they are.
      by_cases hsame : r' = r
      · exact Or.inr (Or.inl (by rw [hsame]))
      · simp only [holds, List.mem_append] at hr ⊢
        rcases hr with (hr | hr) | hr
        · exact Or.inl (Or.inl (Or.inl hr))
        · exact Or.inl (Or.inl (Or.inr hr))
        · exact Or.inl (Or.inr ((List.mem_erase_of_ne (Ne.symm hsame)).mpr hr))
  | uncount =>
      obtain ⟨n, -, rfl⟩ := uncount_eq_some he
      exact Or.inl hr
  | release =>
      obtain ⟨n, -, rfl⟩ := release_eq_some he
      exact Or.inl hr
  | cancel =>
      obtain rfl := Option.some.inj he
      exact Or.inl hr
  | dropSender =>
      obtain rfl := Option.some.inj he
      exact Or.inl hr

/-- Unless the request is finished or given up, the queue keeps it. -/
theorem mem_holds_of_ne (he : q.next e = some q') {r : Request} (hfinish : e ≠ .finish r)
    (hgiveUp : e ≠ .giveUp) (hr : r ∈ q.holds) : r ∈ q'.holds := by
  rcases mem_holds_next he hr with hr | rfl | ⟨rfl, -⟩
  · exact hr
  · exact absurd rfl hfinish
  · exact absurd rfl hgiveUp

/-- By itself, the queue answers nobody. -/
theorem answersTo_of_silent (hsilent : e.isSilent = true) : q.answersTo e = [] := by
  cases e <;> first | rfl | cases hsilent

/-- By itself, the queue starts and finishes nothing. -/
theorem next_of_silent (hsilent : e.isSilent = true) (he : q.next e = some q') :
    q'.running = q.running ∧ q'.finished = q.finished := by
  cases e with
  | receive =>
      obtain ⟨_, _, -, -, rfl⟩ := receive_eq_some he
      exact ⟨rfl, rfl⟩
  | heed => obtain ⟨-, ⟨-, rfl⟩ | ⟨_, -, rfl⟩⟩ := heed_eq_some he <;> exact ⟨rfl, rfl⟩
  | runDry =>
      obtain ⟨-, -, -, rfl⟩ := runDry_eq_some he
      exact ⟨rfl, rfl⟩
  | drain => obtain ⟨-, ⟨_, _, -, rfl⟩ | ⟨-, rfl⟩⟩ := drain_eq_some he <;> exact ⟨rfl, rfl⟩
  | join =>
      obtain ⟨-, -, rfl⟩ := join_eq_some he
      exact ⟨rfl, rfl⟩
  | uncount =>
      obtain ⟨_, -, rfl⟩ := uncount_eq_some he
      exact ⟨rfl, rfl⟩
  | release =>
      obtain ⟨_, -, rfl⟩ := release_eq_some he
      exact ⟨rfl, rfl⟩
  | cancel =>
      obtain rfl := Option.some.inj he
      exact ⟨rfl, rfl⟩
  | dropSender =>
      obtain rfl := Option.some.inj he
      exact ⟨rfl, rfl⟩
  | _ => cases hsilent

/-- The queue forgets nothing that it finished. -/
theorem mem_finished_next (he : q.next e = some q') {r : Request} (hr : r ∈ q.finished) :
    r ∈ q'.finished := by
  by_cases hsilent : e.isSilent = true
  · rw [(next_of_silent hsilent he).2]
    exact hr
  · cases e with
    | enqueue r' =>
        obtain rfl := Option.some.inj he
        rcases q.enqueue_cases r' with ⟨-, hq⟩ | ⟨-, -, hq⟩ | ⟨-, -, hq⟩ <;> rw [hq] <;> exact hr
    | start =>
        obtain ⟨_, -, -, rfl⟩ := start_eq_some he
        exact hr
    | giveUp =>
        obtain ⟨_, -, rfl⟩ := giveUp_eq_some he
        exact hr
    | finish _ =>
        obtain ⟨-, rfl⟩ := finish_eq_some he
        exact List.mem_append_left _ hr
    | _ => exact absurd rfl hsilent

/-- What is at work was taken. -/
theorem mem_taken_of_running (h : q.Sound) {r : Request} (hr : r ∈ q.running) : r ∈ q.taken := by
  have hstarted : r ∈ q.started := h.started_perm.mem_iff.mpr (List.mem_append_left _ hr)
  simp only [taken, List.mem_append]
  exact Or.inl (Or.inl (Or.inl hstarted))

end Queue

end ResponseExport.Export
