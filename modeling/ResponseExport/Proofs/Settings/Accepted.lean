import Mathlib
import ResponseExport.Export.Source
import ResponseExport.Proofs.Queue.Steps
import ResponseExport.Proofs.Stream.ReadAhead
import ResponseExport.Settings.Basic

/-!
# `ResponseExport.Proofs.Settings.Accepted`: which accepted settings can run

Settings give a queue the number of its workers, and a stream the size of its pages. Both are
read as numerals of 64 bits, and zero is refused, so the numbers of accepted settings are
between 1 and `2^64 - 1` (`ofLookup_bounds`).

What they are used for admits less: a pool of workers and a channel have room for `2^61 - 1`
(`Export.maxCapacity`). With more there is no queue or no stream, and with less there is
one, and it runs (`Queue.Runs`, `RowStream.Runs`). A queue never has a permit more than it has
workers, and never more requests in line than its channel takes. A stream never has more
rows in its channel than a page, and is never stuck.

`accepted_run_iff` puts the two bounds side by side. Settings between them are accepted and
cannot run, and `accepted_cannot_run` has some. That zero is refused matters too: a
queue or a stream would take it for one, so only positive settings are used as they are.
-/

set_option autoImplicit false

namespace ResponseExport

/-! ### Numbers -/

namespace Text

/-- A value that is read never goes above the limit. -/
theorem readDigits_le {limit acc n : Nat} {cs : List Char} (hacc : acc ≤ limit)
    (h : readDigits limit acc cs = .ok n) : n ≤ limit := by
  induction cs generalizing acc with
  | nil =>
      obtain rfl := Except.ok.inj h
      exact hacc
  | cons c cs ih =>
      unfold readDigits at h
      split at h
      · cases h
      · split at h
        · cases h
        · rename_i hle
          exact ih (Nat.not_lt.mp hle) h

theorem readNumeral_le {limit n : Nat} {s : String} (h : readNumeral limit s = .ok n) :
    n ≤ limit := by
  unfold readNumeral at h
  split at h
  · cases h
  · cases h
  · exact readDigits_le (Nat.zero_le limit) h
  · exact readDigits_le (Nat.zero_le limit) h

end Text

namespace Settings

open Export

variable {lookup : String → Option String} {s : Settings}

/-- A setting is its default, or a numeral up to the limit. -/
theorem number_le {key : String} {default limit n : Nat} (hdefault : default ≤ limit)
    (h : number lookup key default limit = .ok n) : n ≤ limit := by
  unfold number at h
  split at h
  · obtain rfl := Except.ok.inj h
    exact hdefault
  · split at h
    · rename_i hread
      obtain rfl := Except.ok.inj h
      exact Text.readNumeral_le hread
    · cases h

theorem positive_eq_ok {key : String} {n : Nat} (h : positive key n = .ok ()) : 0 < n := by
  unfold positive at h
  split at h
  · cases h
  · exact Nat.pos_of_ne_zero ‹_›

/-- What comes of a question and what is done with the answer. -/
theorem bind_eq_ok {ε α β : Type} {x : Except ε α} {f : α → Except ε β} {b : β}
    (h : x >>= f = .ok b) : ∃ a, x = .ok a ∧ f a = .ok b := by
  cases x with
  | error e => cases h
  | ok a => exact ⟨a, rfl, h⟩

/-- The numbers of accepted settings fit into 64 bits, and none of them is zero. -/
theorem ofLookup_bounds (h : ofLookup lookup = .ok s) :
    (0 < s.workers ∧ s.workers ≤ Text.max64) ∧ (0 < s.pageSize ∧ s.pageSize ≤ Text.max64) := by
  unfold ofLookup at h
  obtain ⟨maxConnections, -, h⟩ := bind_eq_ok h
  obtain ⟨pageSize, hpageSize, h⟩ := bind_eq_ok h
  obtain ⟨workers, hworkers, h⟩ := bind_eq_ok h
  obtain ⟨⟨⟩, -, h⟩ := bind_eq_ok h
  obtain ⟨⟨⟩, hpage, h⟩ := bind_eq_ok h
  obtain ⟨⟨⟩, hwork, h⟩ := bind_eq_ok h
  obtain rfl := Except.ok.inj h
  exact ⟨⟨positive_eq_ok hwork, number_le (by decide) hworkers⟩,
    positive_eq_ok hpage, number_le (by decide) hpageSize⟩

end Settings

/-! ### Queues and streams -/

namespace Export

/-- A queue runs: it never has more permits, or more requests in line, than there can be. -/
def Queue.Runs (q : Queue) : Prop :=
  ∀ events q', q.run events = some q' →
    q'.permits ≤ maxCapacity ∧ q'.waiting.length ≤ q'.capacity

/-- A stream runs, over every source: its channel never holds more than it has room for, and as
long as somebody listens, it has ended or there is a next step. -/
def RowStream.Runs (t : RowStream) : Prop :=
  ∀ (α : Type) (ask : α → Option Survey.Cursor → Nat → PageAnswer) events tr,
    Trace.run ask ⟨t, [], []⟩ events = some tr →
      tr.stream.buffer.length ≤ t.size ∧
      (tr.stream.dropped = false →
        tr.HasEnded ∨
          (tr.stream.phase = .asking ∧ ∀ x, (Trace.next ask tr (.answer x)).isSome = true) ∨
          ∃ e ∈ [StreamEvent.check, .send, .pull], (Trace.next ask tr e).isSome = true)

theorem Queue.runs_of_new? {workers capacity : Nat} {q : Queue}
    (hq : new? workers capacity = some q) : q.Runs := by
  intro events q' hrun
  have hsound := sound_run (sound_new? hq) hrun
  have hpermits := hsound.permits_eq
  rw [workers_run hrun, workers_new? hq] at hpermits
  have hmax := ((isSome_new?_iff workers capacity).mp (hq ▸ rfl)).1
  have hone : 1 ≤ maxCapacity := by decide
  exact ⟨by omega, hsound.waiting_le⟩

theorem RowStream.runs_of_new? {pageSize : Nat} {t : RowStream} (ht : new? pageSize = some t) :
    t.Runs := by
  intro α ask events tr hrun
  obtain rfl := new?_eq_some ht
  have h := Trace.readAhead_run (Trace.readAhead_start _) hrun
  refine ⟨h.buffer_le, ?_⟩
  intro hdropped
  refine Trace.hasEnded_or_next ask ?_ hdropped
  rw [h.size_eq]
  exact Nat.lt_of_lt_of_le Nat.one_pos (Nat.le_max_right _ _)

end Export

namespace Settings

variable {lookup : String → Option String} {s : Settings}

open Export

/-- There are queues with the workers of the settings, for channels of every size that a channel
can have, and they run. -/
def HasQueues (s : Settings) : Prop :=
  ∀ capacity ≤ maxCapacity, ∃ q, Queue.new? s.workers capacity = some q ∧
    q.workers = s.workers ∧ q.Runs

/-- There are streams with the pages of the settings, and they run over every source. So there are
walks with these pages, whatever they read from and whatever is wanted. -/
def HasStreams (s : Settings) : Prop :=
  (∃ t, RowStream.new? s.pageSize = some t ∧ t.size = s.pageSize ∧ t.Runs) ∧
  ∀ (source : Source) store f calls, (source.walk? store f s.pageSize calls).isSome = true

theorem hasQueues_iff (hpos : 0 < s.workers) : s.HasQueues ↔ s.workers ≤ maxCapacity := by
  constructor
  · intro h
    obtain ⟨q, hq, -⟩ := h 1 (by decide)
    exact ((Queue.isSome_new?_iff s.workers 1).mp (hq ▸ rfl)).1
  · intro hworkers capacity hcapacity
    have hsome := (Queue.isSome_new?_iff s.workers capacity).mpr ⟨hworkers, hcapacity⟩
    obtain ⟨q, hq⟩ := Option.isSome_iff_exists.mp hsome
    refine ⟨q, hq, ?_, Queue.runs_of_new? hq⟩
    rw [Queue.workers_new? hq, Nat.max_eq_left hpos]

theorem hasStreams_iff (hpos : 0 < s.pageSize) : s.HasStreams ↔ s.pageSize ≤ maxCapacity := by
  rw [← RowStream.isSome_new?_iff]
  constructor
  · rintro ⟨⟨t, ht, -⟩, -⟩
    rw [ht]
    rfl
  · intro hsome
    obtain ⟨t, ht⟩ := Option.isSome_iff_exists.mp hsome
    refine ⟨⟨t, ht, ?_, RowStream.runs_of_new? ht⟩, ?_⟩
    · obtain rfl := RowStream.new?_eq_some ht
      exact Nat.max_eq_left hpos
    · intro source store f calls
      have hpossible := (RowStream.isSome_new?_iff s.pageSize).mp hsome
      rw [Source.walk?, if_pos ((isPossible_iff _).mpr hpossible)]
      rfl

/-- **Accepted settings and what can run.** The numbers of accepted settings are positive
and fit into 64 bits. There are queues if and only if the workers are at most `2^61 - 1`, and streams
if and only if a page has at most so many rows. -/
theorem accepted_run_iff (h : ofLookup lookup = .ok s) :
    (s.HasQueues ↔ s.workers ≤ maxCapacity) ∧ (s.HasStreams ↔ s.pageSize ≤ maxCapacity) ∧
    (0 < s.workers ∧ s.workers ≤ Text.max64) ∧ (0 < s.pageSize ∧ s.pageSize ≤ Text.max64) := by
  obtain ⟨hworkers, hpageSize⟩ := ofLookup_bounds h
  exact ⟨hasQueues_iff hworkers.1, hasStreams_iff hpageSize.1, hworkers, hpageSize⟩

/-- The largest pages that there can be, with a sign in front and blanks around it. -/
theorem accepted_run_iff_largest :
    ∃ s, ofLookup (fun key => List.lookup key [("EXPORT_PAGE_SIZE", " +2305843009213693951\n")])
      = .ok s ∧ s.pageSize = maxCapacity ∧ s.workers = 2 ∧ s.HasQueues ∧ s.HasStreams := by
  have hs : ofLookup (fun key => List.lookup key [("EXPORT_PAGE_SIZE", " +2305843009213693951\n")])
      = .ok { pageSize := maxCapacity } := by
    rfl
  obtain ⟨hqueues, hstreams, -⟩ := accepted_run_iff hs
  exact ⟨_, hs, rfl, rfl, hqueues.mpr (by decide), hstreams.mpr (by decide)⟩

/-- One more is accepted, but there is neither a queue with so many workers nor a stream with so
long pages. -/
theorem accepted_cannot_run :
    ∃ s, ofLookup (fun key => List.lookup key [("EXPORT_PAGE_SIZE", "2305843009213693952"),
        ("EXPORT_WORKERS", "2305843009213693952")]) = .ok s ∧
      Queue.new? s.workers 4 = none ∧ RowStream.new? s.pageSize = none ∧
      ¬ s.HasQueues ∧ ¬ s.HasStreams := by
  have hs : ofLookup (fun key => List.lookup key [("EXPORT_PAGE_SIZE", "2305843009213693952"),
        ("EXPORT_WORKERS", "2305843009213693952")])
      = .ok { pageSize := 2305843009213693952, workers := 2305843009213693952 } := by
    rfl
  refine ⟨_, hs, rfl, rfl, ?_, ?_⟩
  · intro hqueues
    exact absurd ((hasQueues_iff (by decide)).mp hqueues) (by decide)
  · intro hstreams
    exact absurd ((hasStreams_iff (by decide)).mp hstreams) (by decide)

end Settings

end ResponseExport
