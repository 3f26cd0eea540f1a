import ResponseExport.Proofs.Queue.Stopping
import ResponseExport.Proofs.System.Orderly

/-!
# `ResponseExport.Proofs.System.Settled`: no export is left hanging

Whatever callers, the dispatcher, the workers and the world around do, in any order:
every job that is pending or processing belongs to a caller who has no answer yet, or
to a request that the queue still holds (`System.Settled`). So when the dispatcher is
through and all callers have their answers, every job is done or has failed.

The first part is `System.Orderly`, which every event keeps. The second one adds what
the queue alone guarantees: a dispatcher that is through has nothing left in its
channel, and, with fewer than `2^32` workers, nobody at work
(`Queue.idle_of_stopped`).
-/

set_option autoImplicit false

namespace ResponseExport.Export

open Store (JobOp JobRow)

/-- Nothing is left over from an earlier run. -/
structure Service.Rested (s : Service) : Prop where
  works : s.Works
  finished : ∀ j ∈ s.store.tables.jobs, j.isUnfinished = false

namespace System

/-- Every job is closed, or somebody is there who will do it. -/
structure Settled (y : System) : Prop where
  /-- A job that is pending or processing belongs to a caller who has no answer yet, or its request
  is in the channel, in the dispatcher's hand, or at work. -/
  owned : ∀ j ∈ y.jobs, j.status = Status.pending.text ∨ j.status = Status.processing.text →
    (∃ a ∈ y.askings, a.request = j.request ∧ a.holdsJob = true) ∨ j.request ∈ y.queue.waiting ∨
      j.request ∈ y.queue.dispatch.inHand ∨ j.request ∈ y.queue.running
  /-- When the dispatcher is through and every caller has an answer, all jobs are closed. -/
  closed : y.queue.isStopped = true → (∀ a ∈ y.askings, a.isAnswered = true) →
    ∀ j ∈ y.jobs, j.status = Status.done.text ∨ j.status = Status.failed.text
  /-- If a caller was told that the export is under way, the queue took the request, and there is
  the job. -/
  accepted : ∀ a ∈ y.askings, ∀ job, a.stage = .answered (.ok job) →
    a.request ∈ y.queue.taken ∧ ∃ j ∈ y.jobs, j.request = a.request
  /-- If a caller was told that the service is unavailable, the job has failed, and no request with
  its id was ever started, given up, or is still to be. -/
  refused : ∀ a ∈ y.askings, ∀ reason, a.stage = .answered (.error (.unavailable reason)) →
    (∃ j ∈ y.jobs, j.request = a.request ∧ j.status = Status.failed.text) ∧
      ∀ r ∈ y.queue.taken, r.id ≠ a.request.id

variable {y : System}

theorem Orderly.settled (h : y.Orderly) (hfew : y.queue.workers < Queue.joinLimit) : y.Settled := by
  refine ⟨fun j hj hstatus => ?_, fun hstopped hanswered j hj => ?_, fun a ha job hstage => ?_,
    fun a ha reason hstage => ?_⟩
  · have hopen : j.isUnfinished = true := by
      rcases hstatus with hstatus | hstatus <;> rw [JobRow.isUnfinished, hstatus] <;> decide
    rcases h.owned j hj hopen with ⟨a, ha, hheld, har⟩ | hr
    · exact Or.inl ⟨a, ha, har, hheld⟩
    · refine Or.inr ?_
      simpa only [Queue.holds, List.mem_append, or_assoc] using hr
  · refine JobRow.terminal_of_finished (h.works.usable.readable j hj) (Bool.eq_false_iff.mpr ?_)
    intro hopen
    have hdispatch : y.queue.dispatch = .stopped := by simpa [Queue.isStopped] using hstopped
    have hfits := h.sound.place_fits
    rw [Queue.PlaceFits, hdispatch] at hfits
    obtain ⟨hidle, -⟩ := Queue.idle_of_stopped h.sound hfew hstopped
    rcases h.owned j hj hopen with ⟨a, ha, hheld, -⟩ | hr
    · have hdone := hanswered a ha
      rw [Asking.isAnswered] at hdone
      rw [Asking.holdsJob] at hheld
      split at hheld <;> simp_all
    -- There is no place left where a request could be.
    · rw [Queue.holds, hfits.1, hdispatch, hidle] at hr
      cases hr
  · have htaken := h.accepted a ha job hstage
    exact ⟨htaken, h.has_job _ (List.mem_append_right _ htaken)⟩
  · have hrefused : a.isRefused = true := by
      rw [Asking.isRefused, hstage]
    obtain ⟨j, hj, hjr⟩ := h.has_job _ (List.mem_append_left _
      (List.mem_flatMap.mpr ⟨a, ha, mem_claims (Or.inr hrefused)⟩))
    refine ⟨⟨j, hj, hjr, h.refused a ha hrefused j hj (congrArg Request.id hjr)⟩, ?_⟩
    intro r hr
    exact (h.id_ne_of_claims ha (Or.inr hrefused) hr).symm

/-- A system at rest is in order. -/
theorem orderly_rested {s : Service} (hs : s.Rested) {workers capacity : Nat} {q : Queue}
    (hq : Queue.new? workers capacity = some q) : Orderly ⟨s, q, [], []⟩ := by
  have htaken : q.taken = [] ∧ q.running = [] := by
    unfold Queue.new? at hq
    split at hq
    · cases hq
      exact ⟨rfl, rfl⟩
    · cases hq
  have hclaimed : claimed ⟨s, q, [], []⟩ = [] := htaken.1
  have hnobody : ∀ {P : Asking → Prop}, ∀ a ∈ ([] : List Asking), P a := List.forall_mem_nil _
  refine ⟨hs.works, Queue.sound_new? hq, List.forall_mem_nil _, ?_, ?_, ?_, ?_, hnobody, hnobody,
    hnobody⟩
  · rw [htaken.2]
    exact List.Perm.nil
  · rw [hclaimed]
    exact List.nodup_nil
  · rw [hclaimed]
    exact nofun
  · intro j hj hopen
    rw [hs.finished j hj] at hopen
    cases hopen

/-- **No export is left hanging.** Take fewer than `2^32` workers, a channel of any possible size,
and a service that begins with no unfinished job and whose table of jobs does not fail. Then
every interleaving of callers, dispatcher, workers and the world around leaves every job
closed or in somebody's hands. -/
theorem no_export_hangs {workers capacity : Nat} (hfew : workers < 2 ^ 32)
    (hcapacity : isPossible capacity = true) {s : Service} (hs : s.Rested) :
    ∃ q, Queue.new? workers capacity = some q ∧
      ∀ events y, run ⟨s, q, [], []⟩ events = some y → y.Settled := by
  have hworkers : isPossible workers = true := by
    rw [isPossible, atLeastOne, maxCapacity, decide_eq_true_iff]
    omega
  obtain ⟨q, hq⟩ : ∃ q, Queue.new? workers capacity = some q :=
    ⟨_, if_pos ⟨hworkers, hcapacity⟩⟩
  have hcount : q.workers < Queue.joinLimit := by
    have hnew := hq
    rw [Queue.new?, if_pos ⟨hworkers, hcapacity⟩] at hnew
    cases hnew
    show max workers 1 < 4294967296
    omega
  refine ⟨q, hq, fun events y hrun => ?_⟩
  have horderly : y.Orderly :=
    foldlM_induction (fun _ _ _ _ hy he => orderly_next hy he) (orderly_rested hs hq) hrun
  -- The number of workers is the queue's own, and no run of a queue changes it.
  obtain ⟨queueEvents, hqueue⟩ := exists_queue_run hrun
  refine horderly.settled ?_
  rw [Queue.workers_run hqueue]
  exact hcount

/-- A service without jobs, at the start of 1970. -/
def unused : Service where
  store := {}
  directory := .absent
  source := .table
  now := ⟨0, 0⟩

/-- Three callers, one worker, and a channel of one place. The first request is at work and the
second one in the dispatcher's hand when the third one comes and the queue is told to stop. -/
def crowdedRun : List SystemEvent :=
  [.ask ⟨"a", "u", "One"⟩, .proceed 0, .proceed 0, .queue .receive, .start, .work 0,
    .ask ⟨"b", "u", "Two"⟩, .proceed 1, .proceed 1, .queue .receive,
    .ask ⟨"c", "u", "One"⟩, .proceed 2, .queue .cancel, .queue .heed, .work 0, .giveUp,
    .proceed 2, .proceed 2, .queue .drain, .work 0, .work 0, .queue .uncount, .queue .release,
    .queue .join]

/-- One export is done, one was given up, and one was refused. Nobody has to do anything more. -/
theorem no_export_hangs_crowded :
    ∃ q y, Queue.new? 1 1 = some q ∧ run ⟨unused, q, [], []⟩ crowdedRun = some y ∧ y.Settled ∧
      y.queue.isStopped = true ∧ y.askings.all Asking.isAnswered = true ∧
      y.jobs.map (fun j => (j.id, j.status)) = [("a", "done"), ("b", "error"), ("c", "error")] := by
  have hrested : unused.Rested :=
    ⟨⟨⟨rfl, List.nodup_nil, nofun⟩, ⟨by decide +kernel, by decide +kernel, by decide⟩, rfl⟩, nofun⟩
  obtain ⟨q, hq, hall⟩ := no_export_hangs (show 1 < 2 ^ 32 by decide)
    (show isPossible 1 = true from rfl) hrested
  have hend : ((Queue.new? 1 1).bind fun q => run ⟨unused, q, [], []⟩ crowdedRun).map
      (fun y => (y.queue.isStopped, y.askings.all Asking.isAnswered,
        y.jobs.map fun j => (j.id, j.status)))
      = some (true, true, [("a", "done"), ("b", "error"), ("c", "error")]) := by
    decide +kernel
  rw [hq, Option.bind_some] at hend
  obtain ⟨y, hrun, hsummary⟩ := Option.map_eq_some_iff.mp hend
  simp only [Prod.mk.injEq] at hsummary
  exact ⟨q, y, hq, hrun, hall _ _ hrun, hsummary⟩

end System

end ResponseExport.Export
