import Mathlib
import ResponseExport.Proofs.Stream.ReadAhead

/-!
# `ResponseExport.Proofs.Stream.Cancellation`: what a producer still does when nobody listens

`RowStream.check` looks whether the stream is still listened to and asks for a page, all in
one step. The consumer may go just in between. A `FineTrace` is a stream whose producer
looks in one step and asks in another, so that consumers can act between the two.

The finer steps add no runs but for that. Whoever asks later than it looked might as well have
asked at once, because nothing that a consumer does changes the question (`run_atOnce`).
And a run of the stream is a run in finer steps that asks at once (`exists_run`).

`FineTrace.rest` bounds what the producer has still to do once the consumer is gone: its steps,
its questions and its attempts to send. Every step takes from it what it does (`windsDown_next`),
so a run takes no more (`windsDown_run`), and where nothing is left the producer is over.
`producer_stops_after_drop` reads the bounds off at the moment of the drop.
-/

set_option autoImplicit false

namespace ResponseExport.Export

open Survey (Response Cursor)
open Store (Tables)

/-- The producer asks for a page, whether or not it is listened to. -/
def RowStream.ask (s : RowStream) : RowStream :=
  { s with phase := .asking, calls := s.calls ++ [⟨s.cursor, s.size⟩] }

/-- Something that happens to a stream whose producer looks and asks in two steps. -/
inductive FineEvent (α : Type) where
  | look
  | ask
  | answer (x : α)
  | send
  | pull
  | drop

namespace FineEvent

variable {α : Type}

/-- Is it a question for a page? -/
def isAsk : FineEvent α → Bool
  | .ask => true
  | _ => false

/-- Is it an attempt to send? -/
def isSend : FineEvent α → Bool
  | .send => true
  | _ => false

/-- The event of a stream whose producer asks as soon as it has looked. -/
def atOnce : FineEvent α → Option (StreamEvent α)
  | .look => some .check
  | .ask => none
  | .answer x => some (.answer x)
  | .send => some .send
  | .pull => some .pull
  | .drop => some .drop

theorem eq_ask_of_atOnce {e : FineEvent α} (h : e.atOnce = none) : e = .ask := by
  cases e <;> first | rfl | cases h

end FineEvent

/-- A stream with its history, whose producer looks and asks in two steps. -/
structure FineTrace (α : Type) where
  trace : Trace α
  /-- Has the producer found somebody who listens, and not asked yet? -/
  looked : Bool := false

/-- What a producer has still to do. -/
structure Rest where
  steps : Nat
  questions : Nat
  sends : Nat

/-- What a producer has still to do when nobody listens and it is not about to ask: it sees that
nobody does when it looks or tries to send, and then it stops. -/
def Phase.rest : Phase → Rest
  | .checking => ⟨1, 0, 0⟩
  | .asking => ⟨2, 0, 1⟩
  | .sending .. => ⟨1, 0, 1⟩
  | .failing _ => ⟨1, 0, 1⟩
  | .stopped => ⟨0, 0, 0⟩

theorem Phase.rest_of_inHand {p : Phase} (h : p.inHand ≠ []) : p.rest = ⟨1, 0, 1⟩ := by
  cases p <;> first | rfl | exact absurd rfl h

/-- Behind a page there is its first row to be sent, or less. -/
theorem RowStream.rest_pageLeft (last : Bool) (rows : List Response) :
    (pageLeft last rows).rest.steps ≤ 1 ∧ (pageLeft last rows).rest.questions = 0 ∧
      (pageLeft last rows).rest.sends ≤ 1 := by
  cases rows with
  | cons r rows => exact ⟨Nat.le_refl 1, rfl, Nat.le_refl 1⟩
  | nil =>
      cases last with
      | true => exact ⟨Nat.zero_le 1, rfl, Nat.zero_le 1⟩
      | false => exact ⟨Nat.le_refl 1, rfl, Nat.zero_le 1⟩

namespace FineTrace

variable {α : Type} (ask : α → Option Cursor → Nat → PageAnswer)

/-- The trace behind an event, if the event can happen now. A producer that has looked does
nothing else before it has asked. -/
def next (w : FineTrace α) : FineEvent α → Option (FineTrace α)
  | .look =>
    if w.looked then none
    else w.trace.stream.check.map fun s =>
      if w.trace.stream.dropped then ⟨{ w.trace with stream := s }, false⟩ else ⟨w.trace, true⟩
  | .ask =>
    if w.looked then some ⟨{ w.trace with stream := w.trace.stream.ask }, false⟩ else none
  | .answer x => if w.looked then none else (w.trace.next ask (.answer x)).map (⟨·, false⟩)
  | .send => if w.looked then none else (w.trace.next ask .send).map (⟨·, false⟩)
  | .pull => (w.trace.next ask .pull).map (⟨·, w.looked⟩)
  | .drop => (w.trace.next ask .drop).map (⟨·, w.looked⟩)

/-- The trace behind events, if they can happen in this order. -/
def run (w : FineTrace α) (events : List (FineEvent α)) : Option (FineTrace α) :=
  events.foldlM (next ask) w

/-- The trace if the producer had asked as soon as it looked. -/
def atOnce (w : FineTrace α) : Trace α :=
  if w.looked then { w.trace with stream := w.trace.stream.ask } else w.trace

/-- The producer waits: it holds a row, and the channel does not take it. -/
def IsBlocked (w : FineTrace α) : Prop := w.looked = false ∧ w.trace.stream.isBlocked = true

/-- The producer is over. -/
def IsOver (w : FineTrace α) : Prop := w.looked = false ∧ w.trace.stream.phase = .stopped

/-- What the producer has still to do when nobody listens. -/
def rest (w : FineTrace α) : Rest := if w.looked then ⟨3, 1, 1⟩ else w.trace.stream.phase.rest

variable {ask} {w w' : FineTrace α}

/-! ### The steps of the stream, made finer -/

/-- What a look does: the producer stops if nobody listens, and else it is about to ask. -/
theorem look_eq_some (h : next ask w .look = some w') :
    w.looked = false ∧ w.trace.stream.phase = .checking ∧
      (w.trace.stream.dropped = true ∧ w' = ⟨{ w.trace with
          stream := { w.trace.stream with phase := .stopped } }, false⟩ ∨
        w.trace.stream.dropped = false ∧ w' = ⟨w.trace, true⟩) := by
  rw [next] at h
  split at h
  · cases h
  · rename_i hlooked
    obtain ⟨s, hs, rfl⟩ := Option.map_eq_some_iff.mp h
    obtain ⟨hphase, ⟨hdropped, rfl⟩ | ⟨hdropped, rfl⟩⟩ := RowStream.check_eq_some hs
    · rw [if_pos hdropped]
      exact ⟨Bool.eq_false_iff.mpr hlooked, hphase, Or.inl ⟨hdropped, rfl⟩⟩
    · rw [if_neg (Bool.eq_false_iff.mp hdropped)]
      exact ⟨Bool.eq_false_iff.mpr hlooked, hphase, Or.inr ⟨hdropped, rfl⟩⟩

theorem ask_eq_some (h : next ask w .ask = some w') :
    w.looked = true ∧ w' = ⟨{ w.trace with stream := w.trace.stream.ask }, false⟩ := by
  rw [next] at h
  split at h
  · rename_i hlooked
    exact ⟨hlooked, (Option.some.inj h).symm⟩
  · cases h

theorem answer_eq_some {x : α} (h : next ask w (.answer x) = some w') :
    w.looked = false ∧ ∃ tr, w.trace.next ask (.answer x) = some tr ∧ w' = ⟨tr, false⟩ := by
  rw [next] at h
  split at h
  · cases h
  · rename_i hlooked
    obtain ⟨tr, htr, rfl⟩ := Option.map_eq_some_iff.mp h
    exact ⟨Bool.eq_false_iff.mpr hlooked, tr, htr, rfl⟩

theorem send_eq_some (h : next ask w .send = some w') :
    w.looked = false ∧ ∃ tr, w.trace.next ask .send = some tr ∧ w' = ⟨tr, false⟩ := by
  rw [next] at h
  split at h
  · cases h
  · rename_i hlooked
    obtain ⟨tr, htr, rfl⟩ := Option.map_eq_some_iff.mp h
    exact ⟨Bool.eq_false_iff.mpr hlooked, tr, htr, rfl⟩

theorem drop_eq_some (h : next ask w .drop = some w') :
    w'.trace.stream.dropped = true ∧ w'.trace.stream.buffer = [] ∧
      w'.trace.stream.calls = w.trace.stream.calls ∧ w'.rest = w.rest := by
  obtain ⟨tr, htr, rfl⟩ := Option.map_eq_some_iff.mp h
  obtain ⟨s, hs, rfl⟩ := Option.map_eq_some_iff.mp htr
  obtain ⟨-, rfl⟩ := RowStream.drop_eq_some hs
  exact ⟨rfl, rfl, rfl, rfl⟩

/-- What a consumer does is the same before and behind a question. -/
theorem next_ask_stream {tr tr' : Trace α} {e : StreamEvent α} (he : e = .pull ∨ e = .drop)
    (h : tr.next ask e = some tr') :
    Trace.next ask { tr with stream := tr.stream.ask } e
      = some { tr' with stream := tr'.stream.ask } := by
  rcases he with rfl | rfl
  · obtain ⟨⟨item, s⟩, hs, rfl⟩ := Option.map_eq_some_iff.mp h
    obtain ⟨hdropped, rest, hbuffer, rfl⟩ := RowStream.pull_eq_some hs
    simp [Trace.next, RowStream.pull, RowStream.ask, hdropped, hbuffer]
  · obtain ⟨s, hs, rfl⟩ := Option.map_eq_some_iff.mp h
    obtain ⟨hdropped, rfl⟩ := RowStream.drop_eq_some hs
    simp [Trace.next, RowStream.drop, RowStream.ask, hdropped]

/-- What a consumer does is what it would do if the producer had asked at once. -/
theorem consume_atOnce {e : StreamEvent α} (he : e = .pull ∨ e = .drop) {tr : Trace α}
    (h : w.trace.next ask e = some tr) :
    w.atOnce.next ask e = some (atOnce ⟨tr, w.looked⟩) := by
  cases hlooked : w.looked with
  | true =>
      rw [atOnce, atOnce, if_pos hlooked]
      exact next_ask_stream he h
  | false =>
      rw [atOnce, atOnce, if_neg (Bool.eq_false_iff.mp hlooked)]
      exact h

/-- Seen as if the producer asked as soon as it looked, a question is nothing. -/
theorem ask_atOnce (he : next ask w .ask = some w') : w'.atOnce = w.atOnce := by
  obtain ⟨hlooked, rfl⟩ := ask_eq_some he
  rw [atOnce, atOnce, if_pos hlooked]
  rfl

/-- And every other event is one of the stream. -/
theorem next_atOnce {e : FineEvent α} {e' : StreamEvent α} (he : next ask w e = some w')
    (hevent : e.atOnce = some e') : w.atOnce.next ask e' = some w'.atOnce := by
  cases e <;> cases hevent
  case look =>
    obtain ⟨hlooked, hphase, ⟨hdropped, rfl⟩ | ⟨hdropped, rfl⟩⟩ := look_eq_some he <;>
      simp [atOnce, hlooked, Trace.next, RowStream.check, RowStream.ask, hphase, hdropped]
  case answer x =>
    obtain ⟨hlooked, tr, htr, rfl⟩ := answer_eq_some he
    rw [atOnce, if_neg (Bool.eq_false_iff.mp hlooked)]
    exact htr
  case send =>
    obtain ⟨hlooked, tr, htr, rfl⟩ := send_eq_some he
    rw [atOnce, if_neg (Bool.eq_false_iff.mp hlooked)]
    exact htr
  case pull =>
    obtain ⟨tr, htr, rfl⟩ := Option.map_eq_some_iff.mp he
    exact consume_atOnce (Or.inl rfl) htr
  case drop =>
    obtain ⟨tr, htr, rfl⟩ := Option.map_eq_some_iff.mp he
    exact consume_atOnce (Or.inr rfl) htr

/-- A run in finer steps is a run of the stream in which the producer asks at once. -/
theorem run_atOnce {events : List (FineEvent α)} (hrun : run ask w events = some w') :
    w.atOnce.run ask (events.filterMap FineEvent.atOnce) = some w'.atOnce := by
  induction events generalizing w with
  | nil =>
      obtain rfl := Option.some.inj hrun
      rfl
  | cons e events ih =>
      rw [run, List.foldlM_cons] at hrun
      obtain ⟨mid, hmid, hrest⟩ := Option.bind_eq_some_iff.mp hrun
      cases hevent : e.atOnce with
      | none =>
          obtain rfl : e = .ask := FineEvent.eq_ask_of_atOnce hevent
          rw [List.filterMap_cons_none hevent, ← ask_atOnce hmid]
          exact ih hrest
      | some e' =>
          rw [List.filterMap_cons_some hevent, Trace.run, next_atOnce hmid hevent]
          exact ih hrest

/-- The steps that make up one event: a producer that finds somebody asks at once. -/
def stepsOf (dropped : Bool) : StreamEvent α → List (FineEvent α)
  | .check => if dropped then [.look] else [.look, .ask]
  | .answer x => [.answer x]
  | .send => [.send]
  | .pull => [.pull]
  | .drop => [.drop]

/-- One event is a run of its steps. -/
theorem run_stepsOf {tr tr' : Trace α} {e : StreamEvent α} (he : tr.next ask e = some tr') :
    run ask ⟨tr, false⟩ (stepsOf tr.stream.dropped e) = some ⟨tr', false⟩ := by
  cases e with
  | check =>
      obtain ⟨s, hs, rfl⟩ := Option.map_eq_some_iff.mp he
      obtain ⟨hphase, ⟨hdropped, rfl⟩ | ⟨hdropped, rfl⟩⟩ := RowStream.check_eq_some hs <;>
        simp [stepsOf, run, next, RowStream.check, RowStream.ask, hphase, hdropped]
  | answer x => simp [stepsOf, run, next, he]
  | send => simp [stepsOf, run, next, he]
  | pull => simp [stepsOf, run, next, he]
  | drop => simp [stepsOf, run, next, he]

/-- Every run of the stream is a run in finer steps. -/
theorem exists_run {events : List (StreamEvent α)} {tr tr' : Trace α}
    (hrun : tr.run ask events = some tr') :
    ∃ fine, fine.filterMap FineEvent.atOnce = events ∧
      run ask ⟨tr, false⟩ fine = some ⟨tr', false⟩ := by
  induction events generalizing tr with
  | nil =>
      obtain rfl := Option.some.inj hrun
      exact ⟨[], rfl, rfl⟩
  | cons e events ih =>
      rw [Trace.run] at hrun
      split at hrun
      · rename_i mid hmid
        obtain ⟨fine, hfine, hrest⟩ := ih hrun
        refine ⟨stepsOf tr.stream.dropped e ++ fine, ?_, ?_⟩
        · rw [List.filterMap_append, hfine]
          cases e <;> cases tr.stream.dropped <;> rfl
        · have hsteps := run_stepsOf hmid
          rw [run] at hsteps hrest ⊢
          rw [List.foldlM_append, hsteps]
          exact hrest
      · cases hrun

/-! ### When nobody listens -/

/-- From a stream that nobody listens to, these events take at most what the producer has still to
do there, and leave it at most the rest. Nothing is sent, and nobody takes anything. -/
structure WindsDown (w : FineTrace α) (events : List (FineEvent α)) (w' : FineTrace α) : Prop where
  dropped : w'.trace.stream.dropped = true
  buffer_eq : w'.trace.stream.buffer = w.trace.stream.buffer
  taken_eq : w'.trace.taken = w.trace.taken
  calls_eq : w'.trace.stream.calls.length
    = w.trace.stream.calls.length + events.countP FineEvent.isAsk
  steps_le : events.length + w'.rest.steps ≤ w.rest.steps
  questions_le : events.countP FineEvent.isAsk + w'.rest.questions ≤ w.rest.questions
  sends_le : events.countP FineEvent.isSend + w'.rest.sends ≤ w.rest.sends

theorem WindsDown.refl (hdropped : w.trace.stream.dropped = true) : WindsDown w [] w where
  dropped := hdropped
  buffer_eq := rfl
  taken_eq := rfl
  calls_eq := rfl
  steps_le := by simp
  questions_le := by simp
  sends_le := by simp

theorem WindsDown.cons {mid : FineTrace α} {e : FineEvent α} {events : List (FineEvent α)}
    (h : WindsDown w [e] mid) (hrest : WindsDown mid events w') :
    WindsDown w (e :: events) w' := by
  have hcalls := h.calls_eq
  have hsteps := h.steps_le
  have hquestions := h.questions_le
  have hsends := h.sends_le
  obtain ⟨hdropped, hbuffer, htaken, hcalls', hsteps', hquestions', hsends'⟩ := hrest
  rw [← List.singleton_append]
  refine ⟨hdropped, hbuffer.trans h.buffer_eq, htaken.trans h.taken_eq, ?_, ?_, ?_, ?_⟩
  · rw [List.countP_append]
    omega
  · rw [List.length_append]
    omega
  · rw [List.countP_append]
    omega
  · rw [List.countP_append]
    omega

theorem rest_of_not_looked (h : w.looked = false) : w.rest = w.trace.stream.phase.rest := by
  rw [rest, h]
  rfl

/-- What the producer does when nobody listens it need not do again. -/
theorem windsDown_next {e : FineEvent α} (hdropped : w.trace.stream.dropped = true)
    (he : next ask w e = some w') : WindsDown w [e] w' := by
  have hlistens : w.trace.stream.dropped ≠ false := by
    rw [hdropped]
    exact Bool.noConfusion
  cases e with
  | look =>
      obtain ⟨hlooked, hphase, ⟨-, rfl⟩ | ⟨hnot, -⟩⟩ := look_eq_some he
      · have hrest : w.rest = ⟨1, 0, 0⟩ := by rw [rest_of_not_looked hlooked, hphase]; rfl
        constructor <;>
          simp [hrest, rest_of_not_looked, Phase.rest, FineEvent.isAsk, FineEvent.isSend, hdropped]
      · exact absurd hnot hlistens
  | ask =>
      obtain ⟨hlooked, rfl⟩ := ask_eq_some he
      have hrest : w.rest = ⟨3, 1, 1⟩ := by rw [rest, hlooked]; rfl
      constructor <;>
        simp [hrest, rest_of_not_looked, Phase.rest, RowStream.ask, FineEvent.isAsk,
          FineEvent.isSend, hdropped]
  | answer x =>
      obtain ⟨hlooked, tr, htr, rfl⟩ := answer_eq_some he
      obtain ⟨s, hs, rfl⟩ := Option.map_eq_some_iff.mp htr
      obtain ⟨hphase, hcases⟩ := RowStream.answer_eq_some hs
      have hrest : w.rest = ⟨2, 0, 1⟩ := by rw [rest_of_not_looked hlooked, hphase]; rfl
      rcases hcases with ⟨e, -, rfl⟩ | ⟨rows, -, rfl⟩
      · constructor <;>
          simp [hrest, rest_of_not_looked, Phase.rest, FineEvent.isAsk, FineEvent.isSend, hdropped]
      · obtain ⟨hsteps, hquestions, hsends⟩ :=
          RowStream.rest_pageLeft (rows.length < w.trace.stream.size) rows
        constructor <;>
          simp [hrest, rest_of_not_looked, FineEvent.isAsk, FineEvent.isSend, hdropped,
            hquestions, hsends]
        omega
  | send =>
      obtain ⟨hlooked, tr, htr, rfl⟩ := send_eq_some he
      obtain ⟨s, hs, rfl⟩ := Option.map_eq_some_iff.mp htr
      rcases RowStream.send_eq_some hs with ⟨-, hhand, rfl⟩ | ⟨hnot, -⟩
      · have hrest : w.rest = ⟨1, 0, 1⟩ := by
          rw [rest_of_not_looked hlooked, Phase.rest_of_inHand hhand]
        constructor <;>
          simp [hrest, rest_of_not_looked, Phase.rest, FineEvent.isAsk, FineEvent.isSend, hdropped]
      · exact absurd hnot hlistens
  | pull =>
      obtain ⟨tr, htr, rfl⟩ := Option.map_eq_some_iff.mp he
      obtain ⟨⟨item, s⟩, hs, rfl⟩ := Option.map_eq_some_iff.mp htr
      exact absurd (RowStream.pull_eq_some hs).1 hlistens
  | drop =>
      obtain ⟨tr, htr, rfl⟩ := Option.map_eq_some_iff.mp he
      obtain ⟨s, hs, rfl⟩ := Option.map_eq_some_iff.mp htr
      exact absurd (RowStream.drop_eq_some hs).1 hlistens

theorem windsDown_run {events : List (FineEvent α)} (hdropped : w.trace.stream.dropped = true)
    (hrun : run ask w events = some w') : WindsDown w events w' := by
  induction events generalizing w with
  | nil =>
      obtain rfl := Option.some.inj hrun
      exact WindsDown.refl hdropped
  | cons e events ih =>
      rw [run, List.foldlM_cons] at hrun
      obtain ⟨mid, hmid, hrest⟩ := Option.bind_eq_some_iff.mp hrun
      have hfirst := windsDown_next hdropped hmid
      exact hfirst.cons (ih hfirst.dropped hrest)

/-- A producer that nobody listens to is over, or it waits for an answer, or it can take a step. -/
theorem isOver_or_next (ask : α → Option Cursor → Nat → PageAnswer)
    (hdropped : w.trace.stream.dropped = true) :
    w.IsOver ∨
      (w.looked = false ∧ w.trace.stream.phase = .asking ∧
        ∀ x, (next ask w (.answer x)).isSome = true) ∨
      ∃ e ∈ [FineEvent.look, .ask, .send], (next ask w e).isSome = true := by
  cases hlooked : w.looked with
  | true =>
      refine Or.inr (Or.inr ⟨.ask, by simp, ?_⟩)
      simp [next, hlooked]
  | false =>
      cases hphase : w.trace.stream.phase with
      | checking =>
          refine Or.inr (Or.inr ⟨.look, by simp, ?_⟩)
          simp [next, hlooked, RowStream.check, hphase, hdropped]
      | asking =>
          refine Or.inr (Or.inl ⟨rfl, rfl, ?_⟩)
          intro x
          cases ha : ask x w.trace.stream.cursor w.trace.stream.size <;>
            simp [next, hlooked, Trace.next, RowStream.answer, hphase, ha]
      | sending first rest last =>
          refine Or.inr (Or.inr ⟨.send, by simp, ?_⟩)
          simp [next, hlooked, Trace.next, RowStream.send, hphase, hdropped]
      | failing e =>
          refine Or.inr (Or.inr ⟨.send, by simp, ?_⟩)
          simp [next, hlooked, Trace.next, RowStream.send, hphase, hdropped]
      | stopped => exact Or.inl ⟨hlooked, hphase⟩

/-- The bounds of what a producer has still to do, wherever it is. -/
theorem rest_le (w : FineTrace α) :
    w.rest.steps ≤ 3 ∧ w.rest.questions ≤ 1 ∧ w.rest.sends ≤ 1 := by
  rw [rest]
  split
  · decide
  · cases w.trace.stream.phase <;> simp [Phase.rest]

/-- A producer that waits with a row has only to try to send it. -/
theorem IsBlocked.rest_eq (h : w.IsBlocked) : w.rest = ⟨1, 0, 1⟩ := by
  rw [rest_of_not_looked h.1]
  exact Phase.rest_of_inHand (RowStream.full_of_isBlocked h.2).1

/-- **Cancellation.** Over every source, with pages of every size and in any order of steps, a
producer whose consumer has gone asks for at most one more page and tries at most once to send,
which brings nothing into the channel. If it waited to send a row at that time it asks for none.
All in all it takes three steps at most, and it can take the next one, or waits for an answer,
until it is over. Seen as if it asked as soon as it looked, the run is one of the stream. -/
theorem producer_stops_after_drop {start w' : FineTrace α} {before after : List (FineEvent α)}
    (hrun : run ask start (before ++ .drop :: after) = some w') :
    ∃ w, run ask start before = some w ∧
      w'.trace.stream.calls.length ≤ w.trace.stream.calls.length + 1 ∧
      (w.IsBlocked → w'.trace.stream.calls.length = w.trace.stream.calls.length) ∧
      after.countP FineEvent.isSend ≤ 1 ∧ w'.trace.stream.buffer = [] ∧
      after.length ≤ 3 ∧
      (w'.IsOver ∨
        (w'.looked = false ∧ w'.trace.stream.phase = .asking ∧
          ∀ x, (next ask w' (.answer x)).isSome = true) ∨
        ∃ e ∈ [FineEvent.look, .ask, .send], (next ask w' e).isSome = true) ∧
      start.atOnce.run ask ((before ++ .drop :: after).filterMap FineEvent.atOnce)
        = some w'.atOnce := by
  have hatOnce := run_atOnce hrun
  rw [run, List.foldlM_append] at hrun
  obtain ⟨w, hbefore, hrun⟩ := Option.bind_eq_some_iff.mp hrun
  rw [List.foldlM_cons] at hrun
  obtain ⟨gone, hgone, hafter⟩ := Option.bind_eq_some_iff.mp hrun
  obtain ⟨hdropped, hbuffer, hcalls, hrest⟩ := drop_eq_some hgone
  have hwinds := windsDown_run hdropped hafter
  obtain ⟨hsteps, hquestions, hsends⟩ := rest_le w
  have hsteps' := hwinds.steps_le
  have hquestions' := hwinds.questions_le
  have hsends' := hwinds.sends_le
  have hasked := hwinds.calls_eq
  rw [hrest] at hsteps' hquestions' hsends'
  rw [hcalls] at hasked
  refine ⟨w, hbefore, by omega, ?_, by omega, hwinds.buffer_eq.trans hbuffer, by omega,
    isOver_or_next ask hwinds.dropped, hatOnce⟩
  intro hblocked
  rw [hblocked.rest_eq] at hquestions'
  dsimp only at hquestions'
  omega

/-- The first page of two rows is sent, and the producer has found somebody who listens. -/
def lookedRun : List (FineEvent PageAnswer) :=
  [.look, .ask, .answer (.ok (Tables.answeredBy ["u1", "u2"]).responses), .send, .send, .look]

/-- It has asked for the next page as well, got it, and waits at the full channel. -/
def blockedRun : List (FineEvent PageAnswer) :=
  lookedRun ++ [.ask, .answer (.ok (Tables.answeredBy ["u3", "u4"]).responses)]

/-- If the consumer goes when the producer has looked, one more page is asked for. If it goes when
the producer waits, none is. -/
theorem producer_stops_after_drop_between :
    ∃ s, RowStream.new? 2 = some s ∧
      (∃ w w', run (fun a _ _ => a) ⟨⟨s, [], []⟩, false⟩ lookedRun = some w ∧
        run (fun a _ _ => a) ⟨⟨s, [], []⟩, false⟩ (lookedRun ++ .drop ::
          [.ask, .answer (.ok (Tables.answeredBy ["u3", "u4"]).responses), .send]) = some w' ∧
        w'.IsOver ∧ w.trace.stream.calls.length = 1 ∧ w'.trace.stream.calls.length = 2) ∧
      ∃ w w', run (fun a _ _ => a) ⟨⟨s, [], []⟩, false⟩ blockedRun = some w ∧ w.IsBlocked ∧
        run (fun a _ _ => a) ⟨⟨s, [], []⟩, false⟩ (blockedRun ++ .drop :: [.send]) = some w' ∧
        w'.IsOver ∧ w'.trace.stream.calls.length = w.trace.stream.calls.length := by
  have hs : RowStream.new? 2 = some ⟨2, .checking, [], none, false, [], 0⟩ := rfl
  let start : FineTrace PageAnswer := ⟨⟨⟨2, .checking, [], none, false, [], 0⟩, [], []⟩, false⟩
  have hlooked : (run (fun a _ _ => a) start lookedRun).map
      (fun w => w.trace.stream.calls.length) = some 1 := rfl
  have hstopped : (run (fun a _ _ => a) start (lookedRun ++ .drop ::
      [.ask, .answer (.ok (Tables.answeredBy ["u3", "u4"]).responses), .send])).map
      (fun w => (w.looked, w.trace.stream.phase, w.trace.stream.calls.length))
      = some (false, .stopped, 2) := rfl
  have hblocked : (run (fun a _ _ => a) start blockedRun).map
      (fun w => (w.looked, w.trace.stream.isBlocked)) = some (false, true) := rfl
  have hgone : (run (fun a _ _ => a) start (blockedRun ++ .drop :: [.send])).map
      (fun w => (w.looked, w.trace.stream.phase)) = some (false, .stopped) := rfl
  obtain ⟨w₁, hw₁, hcalls₁⟩ := Option.map_eq_some_iff.mp hlooked
  obtain ⟨w₁', hw₁', hend₁⟩ := Option.map_eq_some_iff.mp hstopped
  obtain ⟨w₂, hw₂, hwaits⟩ := Option.map_eq_some_iff.mp hblocked
  obtain ⟨w₂', hw₂', hend₂⟩ := Option.map_eq_some_iff.mp hgone
  simp only [Prod.mk.injEq] at hend₁ hwaits hend₂
  obtain ⟨w, hw, -, hnone, -⟩ := producer_stops_after_drop hw₂'
  obtain rfl : w = w₂ := Option.some.inj (hw.symm.trans hw₂)
  exact ⟨_, hs, ⟨w₁, w₁', hw₁, hw₁', ⟨hend₁.1, hend₁.2.1⟩, hcalls₁, hend₁.2.2⟩,
    w, w₂', hw₂, hwaits, hw₂', hend₂, hnone hwaits⟩

end FineTrace

end ResponseExport.Export
