import ResponseExport.Proofs.Keyset.Pages
import ResponseExport.Proofs.Stream.Steps

/-!
# `ResponseExport.Proofs.Stream.Trace`: runs of a row stream

Producer, consumer and source of a row stream take their steps in any order. A
`Trace` is a stream together with what has happened to it: the answers that its
producer got, each with what the source was at that time, and the items that its
consumer took. The source is a parameter: `ask x after limit` is its answer if
it is `x` when it is asked.

`Trace.Consistent` is an invariant (`consistent_next`), which the invariants of runs
contain, each with what it says besides. It says that no item is lost, doubled
or overtaken: as long as the consumer is there, what it has taken, what waits in
the channel and what the producer holds are, in this order, the items of all
answers. And it says what the producer is at: it asks again only if all answers
were full pages, and it has stopped only if one was not, or the consumer is gone.

`asked_next` and `taken_prefix_next` say which events add a question, an answer or an
item taken. Invariants about these need no other case analysis of the events.
`progress_next` counts the events of a stream whose consumer stays, and
`hasEnded_or_next` says that such a stream is never stuck.
-/

set_option autoImplicit false

namespace ResponseExport.Export

open Survey (Response Cursor)
open Store (endOf cursorAfter_endOf)

/-- The rows of an answer. -/
def PageAnswer.rows : PageAnswer → List Response
  | .ok rows => rows
  | .error _ => []

/-- The items that an answer brings: its rows, or its error. -/
def PageAnswer.items : PageAnswer → List Item
  | .ok rows => rows.map .ok
  | .error e => [.error (.ofDomain e)]

/-- Is there another question behind this answer? Only behind a full page. -/
def PageAnswer.GoesOn (size : Nat) : PageAnswer → Prop
  | .ok rows => size ≤ rows.length
  | .error _ => False

/-- Something that happens to a stream. `answer x` is an answer of the source, which
is `x` at this moment. -/
inductive StreamEvent (α : Type) where
  | check
  | answer (x : α)
  | send
  | pull
  | drop

/-- A stream with its history. -/
structure Trace (α : Type) where
  stream : RowStream
  /-- The answers so far, each with what the source was. -/
  answers : List (α × PageAnswer) := []
  /-- The items that the consumer took, in order. -/
  taken : List Item := []

namespace Trace

variable {α : Type} (ask : α → Option Cursor → Nat → PageAnswer)

/-- The trace behind an event, if the event can happen now. -/
def next (tr : Trace α) : StreamEvent α → Option (Trace α)
  | .check => tr.stream.check.map fun s => { tr with stream := s }
  | .answer x =>
    (tr.stream.answer (ask x tr.stream.cursor tr.stream.size)).map fun s =>
      { tr with
        stream := s
        answers := tr.answers ++ [(x, ask x tr.stream.cursor tr.stream.size)] }
  | .send => tr.stream.send.map fun s => { tr with stream := s }
  | .pull =>
    tr.stream.pull.map fun (item, s) => { tr with stream := s, taken := tr.taken ++ [item] }
  | .drop => tr.stream.drop.map fun s => { tr with stream := s }

/-- The trace behind events, if they can happen in this order. -/
def run (tr : Trace α) : List (StreamEvent α) → Option (Trace α)
  | [] => some tr
  | e :: es =>
    match tr.next ask e with
    | some tr => run tr es
    | none => none

/-- What every possible event keeps, a run keeps. The property may depend on how many
events there were. -/
theorem run_induction {P : Nat → Trace α → Prop} {events : List (StreamEvent α)}
    (hstep : ∀ e ∈ events, ∀ n tr tr', P n tr → next ask tr e = some tr' → P (n + 1) tr')
    {n : Nat} {tr tr' : Trace α} (h : P n tr) (hrun : run ask tr events = some tr') :
    P (n + events.length) tr' := by
  induction events generalizing n tr with
  | nil =>
      obtain rfl := Option.some.inj hrun
      exact h
  | cons e es ih =>
      unfold run at hrun
      split at hrun
      · rename_i mid hmid
        have hmoved := ih (fun e' he' => hstep e' (List.mem_cons_of_mem e he'))
          (hstep e List.mem_cons_self n _ _ h hmid) hrun
        rwa [Nat.add_assoc, Nat.add_comm 1] at hmoved
      · cases hrun

/-- The items of all answers. -/
def items (tr : Trace α) : List Item := tr.answers.flatMap fun a => a.2.items

/-- The rows of all answers. -/
def rows (tr : Trace α) : List Response := tr.answers.flatMap fun a => a.2.rows

/-- Every answer so far was a full page. -/
def GoesOn (size : Nat) (tr : Trace α) : Prop := ∀ a ∈ tr.answers, a.2.GoesOn size

/-- Has the stream ended for a consumer that is still there? -/
def HasEnded (tr : Trace α) : Prop := tr.stream.dropped = false ∧ tr.stream.isEnded = true

/-- What the producer may be at, if `goesOn` says whether all answers were full pages. -/
def PhaseFits (goesOn : Prop) (dropped : Bool) : Phase → Prop
  | .checking => goesOn
  | .asking => goesOn
  | .sending _ _ last => last = true ↔ ¬ goesOn
  | .failing _ => ¬ goesOn
  | .stopped => dropped = true ∨ ¬ goesOn

/-- What holds of a stream along all its runs. -/
structure Consistent (size : Nat) (tr : Trace α) : Prop where
  size_eq : tr.stream.size = size
  kept : tr.stream.dropped = false →
    tr.taken ++ tr.stream.buffer ++ tr.stream.phase.inHand = tr.items
  taken_prefix : tr.taken <+: tr.items
  cursor_eq : tr.stream.cursor = endOf tr.rows
  phase_fits : PhaseFits (tr.GoesOn size) tr.stream.dropped tr.stream.phase
  calls_length : tr.stream.calls.length
    = tr.answers.length + if tr.stream.phase = .asking then 1 else 0

variable {ask} {size : Nat} {tr tr' : Trace α}

/-- The producer looks up only behind full pages. -/
theorem Consistent.goesOn_of_checking (h : Consistent size tr)
    (hphase : tr.stream.phase = .checking) : tr.GoesOn size := by
  have hfits := h.phase_fits
  rwa [hphase] at hfits

/-- It asks only behind full pages. -/
theorem Consistent.goesOn_of_asking (h : Consistent size tr)
    (hphase : tr.stream.phase = .asking) : tr.GoesOn size := by
  have hfits := h.phase_fits
  rwa [hphase] at hfits

/-- It waits for an answer if and only if there is a question more than answers. -/
theorem Consistent.asking_iff (h : Consistent size tr) :
    tr.stream.phase = .asking ↔ tr.stream.calls.length = tr.answers.length + 1 := by
  rw [h.calls_length]
  split <;> simp [*]

/-- Otherwise every question has its answer. -/
theorem Consistent.calls_of_ne_asking (h : Consistent size tr)
    (hphase : tr.stream.phase ≠ .asking) : tr.stream.calls.length = tr.answers.length := by
  rw [h.calls_length, if_neg hphase, Nat.add_zero]

theorem phaseFits_pageLeft {goesOn : Prop} {dropped last : Bool} (h : last = true ↔ ¬ goesOn)
    (rows : List Response) : PhaseFits goesOn dropped (RowStream.pageLeft last rows) := by
  cases rows with
  | cons r rest => exact h
  | nil =>
      cases last with
      | false => exact Classical.not_not.mp fun hg => Bool.false_ne_true (h.mpr hg)
      | true => exact Or.inr (h.mp rfl)

theorem pageLeft_ne_asking (last : Bool) (rows : List Response) :
    RowStream.pageLeft last rows ≠ .asking := by
  cases rows with
  | nil => cases last <;> exact Phase.noConfusion
  | cons r rest => exact Phase.noConfusion

theorem goesOn_concat {s : RowStream} {x : α} {a : PageAnswer} :
    GoesOn size { tr with stream := s, answers := tr.answers ++ [(x, a)] } ↔
      tr.GoesOn size ∧ a.GoesOn size := by
  simp only [GoesOn, List.forall_mem_append, List.forall_mem_singleton]

/-- A stream that has not begun. -/
theorem consistent_start (size : Nat) :
    Consistent (α := α) size ⟨⟨size, .checking, [], none, false, [], 0⟩, [], []⟩ where
  size_eq := rfl
  kept _ := rfl
  taken_prefix := List.nil_prefix
  cursor_eq := rfl
  phase_fits := by simp [PhaseFits, GoesOn]
  calls_length := rfl

/-- The producer looks up: nothing moves, whether it goes on or stops. -/
theorem consistent_check (h : Consistent size tr) {s : RowStream} (hs : tr.stream.check = some s) :
    Consistent size { tr with stream := s } := by
  obtain ⟨hphase, ⟨hdropped, rfl⟩ | ⟨hdropped, rfl⟩⟩ := RowStream.check_eq_some hs
  · have hcalls := h.calls_length
    rw [hphase] at hcalls
    exact { h with
      kept := fun hkept => Bool.noConfusion (hdropped.symm.trans hkept)
      phase_fits := Or.inl hdropped
      calls_length := hcalls }
  · have hkept := h.kept hdropped
    have hfits := h.phase_fits
    have hcalls := h.calls_length
    rw [hphase] at hkept hfits hcalls
    exact { h with
      kept := fun _ => hkept
      phase_fits := hfits
      calls_length := by
        rw [List.length_append, hcalls]
        rfl }

/-- An answer comes in: its items are in the producer's hand, behind all others. -/
theorem consistent_answer (h : Consistent size tr) {s : RowStream} {x : α} {a : PageAnswer}
    (hs : tr.stream.answer a = some s) :
    Consistent size { tr with stream := s, answers := tr.answers ++ [(x, a)] } := by
  obtain ⟨hphase, hcases⟩ := RowStream.answer_eq_some hs
  have hkept := h.kept
  have hgoesOn := h.goesOn_of_asking hphase
  have hcalls := h.calls_length
  rw [hphase] at hkept hcalls
  have hitems : items { tr with stream := s, answers := tr.answers ++ [(x, a)] }
      = tr.items ++ a.items := by
    simp [items]
  have hrows : rows { tr with stream := s, answers := tr.answers ++ [(x, a)] }
      = tr.rows ++ a.rows := by
    simp [rows]
  have hprefix : tr.taken <+: tr.items ++ a.items :=
    h.taken_prefix.trans (List.prefix_append _ _)
  rcases hcases with ⟨e, rfl, rfl⟩ | ⟨rows, rfl, rfl⟩
  · exact {
      size_eq := h.size_eq
      kept := fun hdropped => by
        rw [hitems, ← hkept hdropped]
        simp [Phase.inHand, PageAnswer.items]
      taken_prefix := hitems ▸ hprefix
      cursor_eq := by
        rw [hrows, h.cursor_eq]
        simp [PageAnswer.rows]
      phase_fits := by
        rw [PhaseFits, goesOn_concat]
        exact fun hall => hall.2
      calls_length := by
        rw [List.length_append, if_neg Phase.noConfusion]
        exact hcalls }
  -- The page is the last one if and only if it is not full.
  · have hlast : decide (rows.length < tr.stream.size) = true ↔
        ¬ (tr.GoesOn size ∧ PageAnswer.GoesOn size (.ok rows)) := by
      rw [h.size_eq, decide_eq_true_iff, PageAnswer.GoesOn]
      constructor
      · exact fun hlt hall => absurd hall.2 (Nat.not_le.mpr hlt)
      · exact fun hnot => Nat.not_le.mp fun hle => hnot ⟨hgoesOn, hle⟩
    exact {
      size_eq := h.size_eq
      kept := fun hdropped => by
        rw [hitems, ← hkept hdropped, RowStream.inHand_pageLeft]
        simp [Phase.inHand, PageAnswer.items]
      taken_prefix := hitems ▸ hprefix
      cursor_eq := by
        rw [hrows, ← cursorAfter_endOf, ← h.cursor_eq]
        rfl
      phase_fits := by
        rw [goesOn_concat]
        exact phaseFits_pageLeft hlast rows
      calls_length := by
        rw [List.length_append, if_neg (pageLeft_ne_asking _ _)]
        exact hcalls }

/-- The producer sends: the first item in its hand is the last one in the channel. -/
theorem consistent_send (h : Consistent size tr) {s : RowStream} (hs : tr.stream.send = some s) :
    Consistent size { tr with stream := s } := by
  have hkept := h.kept
  have hfits := h.phase_fits
  have hcalls := h.calls_length
  rcases RowStream.send_eq_some hs with ⟨hdropped, hhand, rfl⟩ | ⟨hdropped, hroom, hcases⟩
  -- Nobody listens any more. What is in hand is lost, and nothing is said about it.
  · have hnot : tr.stream.phase ≠ .asking := fun heq => hhand (by rw [heq]; rfl)
    rw [if_neg hnot] at hcalls
    exact { h with
      kept := fun hkept => Bool.noConfusion (hdropped.symm.trans hkept)
      phase_fits := Or.inl hdropped
      calls_length := hcalls }
  · rcases hcases with ⟨next, rest, last, hphase, rfl⟩ | ⟨e, hphase, rfl⟩
    · rw [hphase] at hkept hfits hcalls
      exact { h with
        kept := fun hdropped => by
          show tr.taken ++ (tr.stream.buffer ++ [.ok next]) ++ _ = tr.items
          rw [← hkept hdropped, RowStream.inHand_pageLeft]
          simp [Phase.inHand]
        phase_fits := phaseFits_pageLeft hfits rest
        calls_length := by
          rw [if_neg (pageLeft_ne_asking _ _)]
          exact hcalls }
    · rw [hphase] at hkept hfits hcalls
      exact { h with
        kept := fun hdropped => by
          show tr.taken ++ (tr.stream.buffer ++ [.error e]) ++ _ = tr.items
          rw [← hkept hdropped]
          simp [Phase.inHand]
        phase_fits := Or.inr hfits
        calls_length := hcalls }

/-- The consumer takes the oldest item of the channel. -/
theorem consistent_pull (h : Consistent size tr) {s : RowStream} {item : Item}
    (hs : tr.stream.pull = some (item, s)) :
    Consistent size { tr with stream := s, taken := tr.taken ++ [item] } := by
  obtain ⟨hdropped, rest, hbuffer, rfl⟩ := RowStream.pull_eq_some hs
  have hkept := h.kept hdropped
  rw [hbuffer] at hkept
  -- The item goes from the front of the channel to the end of what was taken.
  have hmoved : tr.taken ++ [item] ++ rest ++ tr.stream.phase.inHand = tr.items := by
    simpa using hkept
  exact { h with
    kept := fun _ => hmoved
    taken_prefix := ⟨rest ++ tr.stream.phase.inHand, by rw [← List.append_assoc]; exact hmoved⟩ }

/-- The consumer goes; what it has taken stays taken. -/
theorem consistent_drop (h : Consistent size tr) {s : RowStream} (hs : tr.stream.drop = some s) :
    Consistent size { tr with stream := s } := by
  obtain ⟨hdropped, rfl⟩ := RowStream.drop_eq_some hs
  have hfits := h.phase_fits
  rw [hdropped] at hfits
  exact { h with
    kept := fun hkept => Bool.noConfusion hkept
    phase_fits := by
      -- Only a producer that has stopped owes a reason, and now there is one.
      cases hphase : tr.stream.phase <;> rw [hphase] at hfits
      case stopped => exact Or.inl rfl
      all_goals exact hfits }

/-- Every event keeps a stream consistent. -/
theorem consistent_next {e : StreamEvent α} (h : Consistent size tr)
    (he : next ask tr e = some tr') : Consistent size tr' := by
  cases e <;> obtain ⟨s, hs, rfl⟩ := Option.map_eq_some_iff.mp he
  case check => exact consistent_check h hs
  case answer => exact consistent_answer h hs
  case send => exact consistent_send h hs
  case pull => exact consistent_pull h hs
  case drop => exact consistent_drop h hs

/-! ### What an event changes -/

/-- Only a look of the producer adds a question, at the place where it stands, and only what the
source says to a question adds an answer. -/
theorem asked_next {e : StreamEvent α} (he : next ask tr e = some tr') :
    (tr'.stream.calls = tr.stream.calls ∧ tr'.answers = tr.answers) ∨
    (tr.stream.phase = .checking ∧ tr.stream.dropped = false ∧ tr'.answers = tr.answers ∧
      tr'.stream.calls = tr.stream.calls ++ [⟨tr.stream.cursor, tr.stream.size⟩]) ∨
    (tr.stream.phase = .asking ∧ tr'.stream.calls = tr.stream.calls ∧
      ∃ x, tr'.answers = tr.answers ++ [(x, ask x tr.stream.cursor tr.stream.size)]) := by
  cases e <;> obtain ⟨s, hs, rfl⟩ := Option.map_eq_some_iff.mp he
  case check =>
    obtain ⟨hphase, ⟨-, rfl⟩ | ⟨hdropped, rfl⟩⟩ := RowStream.check_eq_some hs
    · exact Or.inl ⟨rfl, rfl⟩
    · exact Or.inr (Or.inl ⟨hphase, hdropped, rfl, rfl⟩)
  case answer x =>
    obtain ⟨hphase, ⟨e, -, rfl⟩ | ⟨rows, -, rfl⟩⟩ := RowStream.answer_eq_some hs <;>
      exact Or.inr (Or.inr ⟨hphase, rfl, x, rfl⟩)
  case send =>
    rcases RowStream.send_eq_some hs with ⟨-, -, rfl⟩ | ⟨-, -, ⟨_, _, _, -, rfl⟩ | ⟨_, -, rfl⟩⟩ <;>
      exact Or.inl ⟨rfl, rfl⟩
  case pull =>
    obtain ⟨item, s⟩ := s
    obtain ⟨-, rest, -, rfl⟩ := RowStream.pull_eq_some hs
    exact Or.inl ⟨rfl, rfl⟩
  case drop =>
    obtain ⟨-, rfl⟩ := RowStream.drop_eq_some hs
    exact Or.inl ⟨rfl, rfl⟩

/-- What the consumer has taken stays taken. -/
theorem taken_prefix_next {e : StreamEvent α} (he : next ask tr e = some tr') :
    tr.taken <+: tr'.taken := by
  cases e <;> obtain ⟨s, hs, rfl⟩ := Option.map_eq_some_iff.mp he
  case pull => exact List.prefix_append _ _
  all_goals exact List.prefix_refl _

/-! ### How far a run can go -/

/-- How much has happened: questions, answers, and twice every item, which is sent once
and taken once. -/
def progress (tr : Trace α) : Nat :=
  tr.stream.calls.length + tr.answers.length + tr.stream.buffer.length + 2 * tr.taken.length

/-- As long as the consumer stays, every event is progress by one. -/
theorem progress_next {e : StreamEvent α} (hstays : e ≠ .drop)
    (hdropped : tr.stream.dropped = false) (he : next ask tr e = some tr') :
    tr'.stream.dropped = false ∧ tr'.progress = tr.progress + 1 := by
  cases e <;> obtain ⟨s, hs, rfl⟩ := Option.map_eq_some_iff.mp he
  case check =>
    obtain ⟨-, ⟨hgone, -⟩ | ⟨-, rfl⟩⟩ := RowStream.check_eq_some hs
    · exact Bool.noConfusion (hgone.symm.trans hdropped)
    · refine ⟨hdropped, ?_⟩
      simp only [progress, List.length_append, List.length_singleton]
      omega
  case answer x =>
    obtain ⟨-, ⟨e, -, rfl⟩ | ⟨rows, -, rfl⟩⟩ := RowStream.answer_eq_some hs <;>
    · refine ⟨hdropped, ?_⟩
      simp only [progress, List.length_append, List.length_singleton]
      omega
  case send =>
    rcases RowStream.send_eq_some hs with ⟨hgone, -, -⟩ | ⟨-, -, hcases⟩
    · exact Bool.noConfusion (hgone.symm.trans hdropped)
    · rcases hcases with ⟨next, rest, last, -, rfl⟩ | ⟨e, -, rfl⟩ <;>
      · refine ⟨hdropped, ?_⟩
        simp only [progress, List.length_append, List.length_singleton]
        omega
  case pull =>
    obtain ⟨item, s⟩ := s
    obtain ⟨-, rest, hbuffer, rfl⟩ := RowStream.pull_eq_some hs
    refine ⟨hdropped, ?_⟩
    simp only [progress, hbuffer, List.length_append, List.length_cons, List.length_nil]
    omega
  case drop => exact absurd rfl hstays

theorem progress_run {events : List (StreamEvent α)} (hstays : ∀ e ∈ events, e ≠ .drop)
    (hdropped : tr.stream.dropped = false) (hrun : run ask tr events = some tr') :
    tr'.stream.dropped = false ∧ tr'.progress = tr.progress + events.length :=
  run_induction ask (P := fun n tr => tr.stream.dropped = false ∧ tr.progress = n)
    (fun e hmem _ _ _ h he => by
      obtain ⟨hundropped, hprogress⟩ := progress_next (hstays e hmem) h.1 he
      exact ⟨hundropped, hprogress.trans (congrArg (· + 1) h.2)⟩)
    ⟨hdropped, rfl⟩ hrun

/-! ### The end -/

/-- A stream that has ended has handed out the items of all answers, one of which
was not a full page. -/
theorem Consistent.of_hasEnded (h : Consistent size tr) (hend : tr.HasEnded) :
    tr.taken = tr.items ∧ ¬ tr.GoesOn size := by
  obtain ⟨hdropped, hended⟩ := hend
  simp only [RowStream.isEnded, Bool.and_eq_true, beq_iff_eq, List.isEmpty_iff] at hended
  have hkept := h.kept hdropped
  have hfits := h.phase_fits
  rw [hended.1] at hkept hfits
  rw [hended.2] at hkept
  refine ⟨by simpa [Phase.inHand] using hkept, ?_⟩
  rcases hfits with hgone | hnot
  · exact Bool.noConfusion (hdropped.symm.trans hgone)
  · exact hnot

/-- A stream that nobody has left has ended, or it waits for an answer, or its producer or its
consumer can do something. Its channel has room for one item at least. -/
theorem hasEnded_or_next (ask : α → Option Cursor → Nat → PageAnswer)
    (hsize : 0 < tr.stream.size) (hdropped : tr.stream.dropped = false) :
    tr.HasEnded ∨
      (tr.stream.phase = .asking ∧ ∀ x, (next ask tr (.answer x)).isSome = true) ∨
      ∃ e ∈ [StreamEvent.check, .send, .pull], (next ask tr e).isSome = true := by
  cases hbuffer : tr.stream.buffer with
  | cons item rest =>
      refine Or.inr (Or.inr ⟨.pull, by simp, ?_⟩)
      simp [next, RowStream.pull, hdropped, hbuffer]
  | nil =>
      -- An empty channel has room, so whoever has something to send can send it.
      have hroom : tr.stream.hasRoom = true := by
        rw [RowStream.hasRoom, hbuffer]
        exact decide_eq_true hsize
      cases hphase : tr.stream.phase with
      | checking =>
          refine Or.inr (Or.inr ⟨.check, by simp, ?_⟩)
          simp [next, RowStream.check, hphase, hdropped]
      | asking =>
          refine Or.inr (Or.inl ⟨rfl, ?_⟩)
          intro x
          cases ha : ask x tr.stream.cursor tr.stream.size <;>
            simp [next, RowStream.answer, hphase, ha]
      | sending first rest last =>
          refine Or.inr (Or.inr ⟨.send, by simp, ?_⟩)
          simp [next, RowStream.send, hphase, hdropped, hroom]
      | failing e =>
          refine Or.inr (Or.inr ⟨.send, by simp, ?_⟩)
          simp [next, RowStream.send, hphase, hdropped, hroom]
      | stopped =>
          refine Or.inl ⟨hdropped, ?_⟩
          simp [RowStream.isEnded, hphase, hbuffer]

end Trace

end ResponseExport.Export
