import Mathlib.Algebra.Group.Nat.Defs
import ResponseExport.Proofs.Queue.Steps

/-!
# `ResponseExport.Proofs.Queue.Stopping`: who is still at work when the dispatcher is through

A dispatcher that is to stop takes permits until it has one for every worker, and
then nobody can be at work any more. But the number of permits that it takes is
counted in 32 bits (`Queue.joinCount`), and the number of workers is not.

`idle_of_stopped` is the intended argument: the permits that the dispatcher has
found free, and those that workers hold, together are as many as there are workers.
It works if the two numbers are the same one. If there are `2^32` workers or more,
the dispatcher waits for fewer permits than were handed out, and `hastyRun` ends
with a request at work. `idle_when_stopped_iff` puts both together.
-/

set_option autoImplicit false

namespace ResponseExport.Export.Queue

variable {q q' : Queue}

/-- When the dispatcher is through, all permits but those that it did not wait for are back. -/
theorem permits_of_stopped (h : q.Sound) (hstopped : q.isStopped = true) :
    q.running.length + q.closing + q.leaving + q.joinCount ≤ q.workers := by
  have hdispatch : q.dispatch = .stopped := by simpa [isStopped] using hstopped
  have hpermits := h.permits_eq
  have hfits := h.place_fits
  rw [PlaceFits, hdispatch] at hfits
  have hjoined := hfits.2
  omega

/-- If the workers can be counted in 32 bits, nobody is at work when the dispatcher is through,
and nobody counts as being at work. -/
theorem idle_of_stopped (h : q.Sound) (hfew : q.workers < joinLimit)
    (hstopped : q.isStopped = true) : q.running = [] ∧ q.active = 0 := by
  have hall : q.joinCount = q.workers := Nat.mod_eq_of_lt hfew
  have hpermits := permits_of_stopped h hstopped
  have hactive := h.active_eq
  refine ⟨List.eq_nil_of_length_eq_zero ?_, ?_⟩ <;> omega

/-- A request is handed to a worker, and then the queue is stopped without delay. -/
def hastyRun (r : Request) : List QueueEvent :=
  [.enqueue r, .receive, .start, .cancel, .heed, .drain, .join]

/-- With too many workers to be counted, the dispatcher is through while the request is at
work. -/
theorem run_hastyRun {workers capacity : Nat} (h : new? workers capacity = some q)
    (hmany : joinLimit ≤ workers) (r : Request) :
    ∃ q', q.run (hastyRun r) = some q' ∧ q'.isStopped = true ∧ q'.running = [r] ∧
      q'.active = 1 := by
  unfold new? at h
  split at h
  · cases h
    have hroom : ¬ atLeastOne capacity ≤ 0 := by
      rw [atLeastOne]
      omega
    have hfree : 0 < atLeastOne workers := by
      rw [atLeastOne]
      omega
    -- What is cut off is one permit at least, and one is all that the request holds.
    have hjoin : atLeastOne workers % joinLimit ≤ atLeastOne workers - 1 := by
      have hcut := Nat.mod_lt (atLeastOne workers) (show 0 < joinLimit by decide)
      have hle : joinLimit ≤ atLeastOne workers := Nat.le_trans hmany (Nat.le_max_left _ _)
      omega
    let q' : Queue := {
      workers := atLeastOne workers
      capacity := atLeastOne capacity
      waiting := []
      dispatch := .stopped
      permits := atLeastOne workers - 1
      active := 1
      running := [r]
      closing := 0
      leaving := 0
      started := [r]
      abandoned := []
      finished := []
      shutdown := true
      senderGone := false }
    refine ⟨q', ?_, rfl, rfl, rfl⟩
    simp [run, hastyRun, next, enqueue, isClosed, hroom, receive, start, hfree, cancel, heed,
      drain, join, joinCount, hjoin, q']
  · cases h

/-- **When stopping waits for everybody.** Take any possible numbers of workers and of places in
the channel. When the dispatcher is through, the workers still at work are no more than those
that 32 bits leave out. So nobody is at work and nobody counts as being so, in all runs, if
and only if there are fewer than `2^32` workers. -/
theorem idle_when_stopped_iff {workers capacity : Nat} (hworkers : isPossible workers = true)
    (hcapacity : isPossible capacity = true) :
    ∃ q, new? workers capacity = some q ∧
      (∀ events q', q.run events = some q' → q'.isStopped = true →
        q'.running.length + max workers 1 % 2 ^ 32 ≤ max workers 1) ∧
      ((∀ events q', q.run events = some q' → q'.isStopped = true →
        q'.running = [] ∧ q'.active = 0) ↔ workers < 2 ^ 32) := by
  obtain ⟨q, hq⟩ : ∃ q, new? workers capacity = some q := ⟨_, if_pos ⟨hworkers, hcapacity⟩⟩
  have hnew : q.workers = max workers 1 := by
    have hq := hq
    rw [new?, if_pos ⟨hworkers, hcapacity⟩] at hq
    cases hq
    rfl
  have hsound := sound_new? hq
  refine ⟨q, hq, fun events q' hrun hstopped => ?_, fun hall => ?_, fun hfew => ?_⟩
  · have hpermits := permits_of_stopped (sound_run hsound hrun) hstopped
    rw [joinCount, workers_run hrun, hnew, joinLimit] at hpermits
    omega
  -- With more workers there is a run that ends with a request at work.
  · refine Nat.not_le.mp fun hmany => ?_
    obtain ⟨q', hrun, hstopped, hrunning, -⟩ := run_hastyRun hq hmany ⟨"", "", ""⟩
    rw [(hall _ _ hrun hstopped).1] at hrunning
    cases hrunning
  · intro events q' hrun hstopped
    refine idle_of_stopped (sound_run hsound hrun) ?_ hstopped
    rw [workers_run hrun, hnew, joinLimit]
    omega

/-- A request is at work when the queue is told to stop, and the dispatcher has to wait for it. -/
def patientRun (r : Request) : List QueueEvent :=
  [.enqueue r, .receive, .start, .cancel, .heed, .drain, .finish r, .uncount, .release, .join]

/-- Two workers, one of them at work when the queue is told to stop. -/
theorem idle_when_stopped_iff_two :
    ∃ q q', new? 2 1 = some q ∧ q.run (patientRun ⟨"a", "", ""⟩) = some q' ∧
      q'.isStopped = true ∧ q'.running = [] ∧ q'.active = 0 := by
  obtain ⟨q, hq, -, hidle⟩ := idle_when_stopped_iff
    (show isPossible 2 = true from rfl) (show isPossible 1 = true from rfl)
  have hend : ((new? 2 1).bind fun q => q.run (patientRun ⟨"a", "", ""⟩)).map isStopped
      = some true := rfl
  rw [hq] at hend
  obtain ⟨q', hrun, hstopped⟩ := Option.map_eq_some_iff.mp hend
  exact ⟨q, q', hq, hrun, hstopped, hidle.mpr (by decide) _ _ hrun hstopped⟩

/-- With `2^32` workers the dispatcher waits for none. -/
theorem stopped_while_running :
    ∃ q q', new? 4294967296 4 = some q ∧ q.run (hastyRun ⟨"a", "", ""⟩) = some q' ∧
      q'.isStopped = true ∧ q'.running = [⟨"a", "", ""⟩] ∧ q'.active = 1 := by
  obtain ⟨q', hrun⟩ := run_hastyRun (show new? 4294967296 4 = some _ from rfl) (by decide)
    ⟨"a", "", ""⟩
  exact ⟨_, q', rfl, hrun⟩

end ResponseExport.Export.Queue
