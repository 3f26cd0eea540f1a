import Mathlib
import ResponseExport.Proofs.Stream.ChangingTables

/-!
# `ResponseExport.Proofs.Stream.ReadAhead`: how far the producer is ahead of its consumer

As long as the consumer stays, a row that was fetched is delivered, in the channel, or
in the producer's hand (`Trace.Consistent.length_rows`). So a stream reads as far ahead as the
channel and the hand can hold. `Trace.ReadAhead` is the invariant of all runs that says so:

* `buffer_le`: the channel holds at most one page;
* `asked_le`: the producer asks with an empty hand, so what is fetched at that time is
  delivered or in the channel;
* `calls_le`: the answers to all questions but the last one are full pages, and what they
  brought is delivered or in the channel too.

The invariant needs nothing from the source. It holds behind pages that are longer than
asked for, and it goes on to hold when the consumer is gone.

A source that gives no more than it is asked for (`Obeys`) adds one page at most to what
is fetched at a question (`fetched_next`). `read_ahead_bounded` puts the bounds together, with
`k / pageSize + 2` questions when `k` rows are pulled. This is exact if the producer waits at
the full channel and all pages were of the size asked for: then fewer questions would not
have brought the rows.
-/

set_option autoImplicit false

namespace ResponseExport.Export

open Survey (Response Cursor Filter)
open Store (Tables)
open Store.Tables (noLimit length_page_le)

/-- Does the producer wait? It holds a row, and the channel does not take it. -/
def RowStream.isBlocked (s : RowStream) : Bool :=
  match s.phase with
  | .sending .. => s.send.isNone
  | _ => false

/-- Who waits is listened to, and the channel is full. -/
theorem RowStream.full_of_isBlocked {s : RowStream} (h : s.isBlocked = true) :
    s.phase.inHand ≠ [] ∧ s.phase ≠ .asking ∧ s.dropped = false ∧ s.size ≤ s.buffer.length := by
  unfold isBlocked at h
  split at h
  · rename_i first rest last hphase
    have hsend := Option.isNone_iff_eq_none.mp h
    simp only [send, hphase] at hsend
    split at hsend
    · cases hsend
    · rename_i hdropped
      split at hsend
      · cases hsend
      · rename_i hroom
        rw [hasRoom, decide_eq_true_iff, Nat.not_lt] at hroom
        rw [hphase]
        exact ⟨List.cons_ne_nil _ _, Phase.noConfusion, by simpa using hdropped, hroom⟩
  · cases h

/-- Is the answer a page of this size? -/
def PageAnswer.IsExact (size : Nat) (a : PageAnswer) : Prop :=
  a.toOption.map List.length = some size

theorem PageAnswer.IsExact.length_eq {size : Nat} {a : PageAnswer} (h : a.IsExact size) :
    a.items.length = size ∧ a.rows.length = size := by
  cases a with
  | error e => cases h
  | ok rows =>
      have hlength : rows.length = size := Option.some.inj h
      exact ⟨(List.length_map _).trans hlength, hlength⟩

namespace Trace

variable {α : Type} {ask : α → Option Cursor → Nat → PageAnswer} {size : Nat} {tr tr' : Trace α}

/-- The source, asked for this many rows, never gives more. -/
def Obeys (ask : α → Option Cursor → Nat → PageAnswer) (limit : Nat) : Prop :=
  ∀ x after, (ask x after limit).rows.length ≤ limit

/-- The store obeys, whatever is wanted of it and at all moments. -/
theorem obeys_tablesAt (f : Filter) {limit : Nat} (hpos : limit ≠ 0) (hlimit : limit < noLimit) :
    Obeys (tablesAt f) limit := by
  intro m after
  cases hrows : tablesAt f m after limit with
  | error e => exact Nat.zero_le limit
  | ok rows =>
      show rows.length ≤ limit
      rw [tablesAt_eq_ok hpos hrows]
      exact length_page_le hlimit

/-- The rows among some items. -/
abbrev rowsAmong (items : List Item) : List Response := items.filterMap Except.toOption

theorem length_rowsAmong_le (items : List Item) : (rowsAmong items).length ≤ items.length :=
  List.length_filterMap_le _ _

/-! ### What was fetched -/

/-- As long as the consumer stays, a row that was fetched is delivered, in the channel, or in the
producer's hand. -/
theorem Consistent.length_rows (h : Consistent size tr) (hdropped : tr.stream.dropped = false) :
    tr.rows.length = tr.delivered.length + (rowsAmong tr.stream.buffer).length
      + (rowsAmong tr.stream.phase.inHand).length := by
  rw [← toOption_items_trace, ← h.kept hdropped, List.filterMap_append, List.filterMap_append,
    List.length_append, List.length_append]
  rfl

/-- Full pages have `size` rows or more each. -/
theorem GoesOn.le_length_rows (h : tr.GoesOn size) :
    tr.answers.length * size ≤ tr.rows.length := by
  refine Store.le_length_flatMap ?_
  intro a ha
  have hfull := h a ha
  cases hrows : a.2 with
  | error e => rw [hrows] at hfull; exact hfull.elim
  | ok rows => rw [hrows] at hfull; exact hfull

/-- What the consumer has been given it keeps. -/
theorem length_delivered_le_next {e : StreamEvent α} (he : next ask tr e = some tr') :
    tr.delivered.length ≤ tr'.delivered.length :=
  ((taken_prefix_next he).filterMap Except.toOption).length_le

/-! ### The invariant -/

/-- How far a stream may read ahead. -/
structure ReadAhead (size : Nat) (tr : Trace α) : Prop extends Consistent size tr where
  buffer_le : tr.stream.buffer.length ≤ size
  asked_le : tr.stream.phase = .asking → tr.rows.length ≤ tr.delivered.length + size
  calls_le : (tr.stream.calls.length - 1) * size ≤ tr.delivered.length + size

theorem readAhead_start (size : Nat) :
    ReadAhead (α := α) size ⟨⟨size, .checking, [], none, false, [], 0⟩, [], []⟩ where
  toConsistent := consistent_start size
  buffer_le := Nat.zero_le size
  asked_le := Phase.noConfusion
  calls_le := by
    show (0 - 1) * size ≤ _
    omega

/-- Only a row that is sent comes into the channel, and only if there is room. -/
theorem buffer_le_next {e : StreamEvent α} (h : tr.stream.buffer.length ≤ tr.stream.size)
    (he : next ask tr e = some tr') : tr'.stream.buffer.length ≤ tr.stream.size := by
  cases e <;> obtain ⟨s, hs, rfl⟩ := Option.map_eq_some_iff.mp he
  case check =>
    obtain ⟨-, ⟨-, rfl⟩ | ⟨-, rfl⟩⟩ := RowStream.check_eq_some hs <;> exact h
  case answer x =>
    obtain ⟨-, ⟨e, -, rfl⟩ | ⟨rows, -, rfl⟩⟩ := RowStream.answer_eq_some hs <;> exact h
  case send =>
    rcases RowStream.send_eq_some hs with ⟨-, -, rfl⟩ | ⟨-, hroom, hcases⟩
    · exact h
    · rcases hcases with ⟨first, rest, last, -, rfl⟩ | ⟨e, -, rfl⟩ <;>
      · rw [List.length_append, List.length_singleton]
        exact hroom
  case pull =>
    obtain ⟨item, s⟩ := s
    obtain ⟨-, rest, hbuffer, rfl⟩ := RowStream.pull_eq_some hs
    rw [hbuffer, List.length_cons] at h
    exact Nat.le_of_succ_le h
  case drop =>
    obtain ⟨-, rfl⟩ := RowStream.drop_eq_some hs
    exact Nat.zero_le _

/-- The producer that is about to ask has an empty hand, and has fetched full pages only. -/
theorem ReadAhead.of_checking (h : ReadAhead size tr) (hdropped : tr.stream.dropped = false)
    (hphase : tr.stream.phase = .checking) :
    tr.answers.length * size ≤ tr.rows.length ∧ tr.rows.length ≤ tr.delivered.length + size := by
  have hhand : (rowsAmong tr.stream.phase.inHand).length = 0 := by
    rw [hphase]
    rfl
  have hrows := h.length_rows hdropped
  have hchannel := length_rowsAmong_le tr.stream.buffer
  have hbuffer := h.buffer_le
  exact ⟨(h.goesOn_of_checking hphase).le_length_rows, by omega⟩

/-- No event lets the producer read further ahead. -/
theorem readAhead_next {e : StreamEvent α} (h : ReadAhead size tr)
    (he : next ask tr e = some tr') : ReadAhead size tr' := by
  have hconsistent := consistent_next h.toConsistent he
  have hbuffer : tr'.stream.buffer.length ≤ size := by
    have hsize := h.size_eq
    subst hsize
    exact buffer_le_next h.buffer_le he
  have hmore := length_delivered_le_next he
  have hcalls := h.calls_le
  rcases asked_next he with ⟨hask, hanswers⟩ | ⟨hphase, hdropped, hanswers, hask⟩ |
    ⟨hphase, hask, x, hanswers⟩
  · refine ⟨hconsistent, hbuffer, ?_, ?_⟩
    · intro hphase
      -- The question was there before, and no page came since.
      rw [hconsistent.asking_iff, hask, hanswers, ← h.asking_iff] at hphase
      have hrows := h.asked_le hphase
      rw [rows, hanswers]
      exact Nat.le_trans hrows (Nat.add_le_add_right hmore size)
    · rw [hask]
      omega
  · obtain ⟨hfull, hrows⟩ := h.of_checking hdropped hphase
    refine ⟨hconsistent, hbuffer, ?_, ?_⟩
    · intro _
      rw [rows, hanswers]
      exact Nat.le_trans hrows (Nat.add_le_add_right hmore size)
    · -- All questions before have their answers, which are full pages.
      have hlength := h.calls_of_ne_asking (hphase ▸ Phase.noConfusion)
      rw [hask, List.length_append, List.length_singleton, Nat.add_sub_cancel, hlength]
      omega
  · refine ⟨hconsistent, hbuffer, ?_, ?_⟩
    · intro hphase'
      -- The question has its answer now.
      rw [hconsistent.asking_iff, hask, hanswers, List.length_append, List.length_singleton,
        h.asking_iff.mp hphase] at hphase'
      omega
    · rw [hask]
      omega

theorem readAhead_run {events : List (StreamEvent α)} (h : ReadAhead size tr)
    (hrun : run ask tr events = some tr') : ReadAhead size tr' :=
  run_induction ask (P := fun _ tr => ReadAhead size tr) (n := 0)
    (fun _ _ _ _ _ h he => readAhead_next h he) h hrun

/-- At most one question for each page that was pulled, and two more. -/
theorem ReadAhead.length_calls_le (hpos : 0 < size) (h : ReadAhead size tr) :
    tr.stream.calls.length ≤ tr.delivered.length / size + 2 := by
  have hpages := (Nat.le_div_iff_mul_le hpos).mpr h.calls_le
  rw [Nat.add_div_right _ hpos] at hpages
  omega

/-! ### Sources that give no more than they are asked for -/

/-- A question brings one page, so at most two pages are fetched and not delivered. -/
theorem fetched_next (hask : Obeys ask size) {e : StreamEvent α} (h : ReadAhead size tr)
    (hrows : tr.rows.length ≤ tr.delivered.length + 2 * size) (he : next ask tr e = some tr') :
    tr'.rows.length ≤ tr'.delivered.length + 2 * size := by
  have hmore := length_delivered_le_next he
  rcases asked_next he with ⟨-, hanswers⟩ | ⟨-, -, hanswers, -⟩ | ⟨hphase, -, x, hanswers⟩
  · rw [rows, hanswers]
    exact Nat.le_trans hrows (Nat.add_le_add_right hmore _)
  · rw [rows, hanswers]
    exact Nat.le_trans hrows (Nat.add_le_add_right hmore _)
  · have hasked := h.asked_le hphase
    have hpage := hask x tr.stream.cursor
    have hsum : tr'.rows = tr.rows ++ (ask x tr.stream.cursor size).rows := by
      simp [rows, hanswers, h.size_eq]
    rw [hsum, List.length_append]
    omega

theorem fetched_run (hask : Obeys ask size) {events : List (StreamEvent α)} (h : ReadAhead size tr)
    (hrows : tr.rows.length ≤ tr.delivered.length + 2 * size)
    (hrun : run ask tr events = some tr') :
    tr'.rows.length ≤ tr'.delivered.length + 2 * size :=
  (run_induction ask
    (P := fun _ tr => ReadAhead size tr ∧ tr.rows.length ≤ tr.delivered.length + 2 * size) (n := 0)
    (fun _ _ _ _ _ h he => ⟨readAhead_next h.1 he, fetched_next hask h.1 h.2 he⟩)
    ⟨h, hrows⟩ hrun).2

/-- Every answer so far was a page of `size` rows. -/
def AllExact (size : Nat) (tr : Trace α) : Prop := ∀ a ∈ tr.answers, a.2.IsExact size

/-- All items of such pages are rows, `size` for each answer. -/
theorem AllExact.length_eq (h : tr.AllExact size) :
    tr.items.length = tr.answers.length * size ∧ tr.rows.length = tr.answers.length * size := by
  constructor
  · rw [items, List.length_flatMap, List.map_congr_left fun a ha => (h a ha).length_eq.1,
      List.map_const', List.sum_replicate, smul_eq_mul]
  · rw [rows, List.length_flatMap, List.map_congr_left fun a ha => (h a ha).length_eq.2,
      List.map_const', List.sum_replicate, smul_eq_mul]

/-- A producer that waits behind exact pages has fetched more than the page in the channel, and
has an answer to every question. -/
theorem ReadAhead.of_isBlocked (h : ReadAhead size tr) (hblocked : tr.stream.isBlocked = true)
    (hexact : tr.AllExact size) :
    tr.delivered.length + size < tr.answers.length * size ∧
      tr.stream.calls.length = tr.answers.length := by
  obtain ⟨hhand, hphase, hdropped, hfull⟩ := RowStream.full_of_isBlocked hblocked
  refine ⟨?_, h.calls_of_ne_asking hphase⟩
  rw [h.size_eq] at hfull
  have hheld := List.length_pos_iff.mpr hhand
  -- Items are kept, and no item is anything but a row.
  have hkept := congrArg List.length (h.kept hdropped)
  rw [hexact.length_eq.1, List.length_append, List.length_append] at hkept
  have htaken : tr.delivered.length ≤ tr.taken.length := length_rowsAmong_le tr.taken
  omega

/-- A producer that waits behind exact pages has asked once for each page that was pulled, and
twice more: for the page in the channel, and for the one that it has begun to send. -/
theorem ReadAhead.length_calls_eq (h : ReadAhead size tr) (hblocked : tr.stream.isBlocked = true)
    (hexact : tr.AllExact size) (hrows : tr.rows.length ≤ tr.delivered.length + 2 * size) :
    tr.stream.calls.length = tr.delivered.length / size + 2 := by
  obtain ⟨hahead, hcalls⟩ := h.of_isBlocked hblocked hexact
  rw [hexact.length_eq.2] at hrows
  have htwo : 1 < tr.answers.length := by
    have hmore : 1 * size < tr.answers.length * size := by omega
    exact Nat.lt_of_mul_lt_mul_right hmore
  obtain ⟨n, hn⟩ := Nat.exists_eq_add_of_le' htwo
  rw [hn, Nat.add_mul] at hahead hrows
  have hpulled : tr.delivered.length / size = n := by
    refine Nat.div_eq_of_lt_le ?_ ?_
    · omega
    · rw [Nat.add_mul]
      omega
  rw [hcalls, hn, hpulled]

/-- **Bounded read-ahead.** Over every source that obeys and for every order of steps, a stream
whose consumer has pulled `k` rows has asked at most `k / pageSize + 2` times, holds at most one
page in its channel, and has fetched at most two pages more than was pulled. If the producer waits
to send a row and all pages so far were of the size asked for, it has asked exactly
`k / pageSize + 2` times. -/
theorem read_ahead_bounded {pageSize : Nat} (hpos : 1 ≤ pageSize) {s : RowStream}
    (hs : RowStream.new? pageSize = some s) {ask : α → Option Cursor → Nat → PageAnswer}
    (hask : Obeys ask pageSize) {events : List (StreamEvent α)} {tr : Trace α}
    (hrun : run ask ⟨s, [], []⟩ events = some tr) :
    let k := tr.delivered.length
    tr.stream.calls.length ≤ k / pageSize + 2 ∧
    tr.stream.buffer.length ≤ pageSize ∧
    tr.rows.length ≤ k + 2 * pageSize ∧
    (tr.stream.isBlocked = true → tr.AllExact pageSize →
      tr.stream.calls.length = k / pageSize + 2) := by
  obtain rfl := RowStream.new?_eq_some hs
  rw [Nat.max_eq_left hpos] at hrun
  have hstart := readAhead_start (α := α) pageSize
  have h := readAhead_run hstart hrun
  have hfetched := fetched_run hask hstart (Nat.zero_le _) hrun
  exact ⟨h.length_calls_le hpos, h.buffer_le, hfetched, fun hblocked hexact =>
    h.length_calls_eq hblocked hexact hfetched⟩

/-- Pages of two of six responses. Two are pulled, two wait in the channel, and the producer has
begun to send the third page. -/
def blockedRun : List (StreamEvent Moment) :=
  let m : Moment := { store := { tables := Tables.answeredBy ["u1", "u2", "u3", "u4", "u5", "u6"] } }
  [.check, .answer m, .send, .send, .check, .answer m, .pull, .send, .pull, .send, .check,
    .answer m]

/-- The producer waits, and has asked as often as it may. -/
theorem read_ahead_bounded_blocked :
    ∃ s, RowStream.new? 2 = some s ∧ ∃ tr,
      run (tablesAt .all) ⟨s, [], []⟩ blockedRun = some tr ∧
      tr.stream.isBlocked = true ∧ tr.AllExact 2 ∧ tr.delivered.length = 2 ∧
      tr.stream.calls.length = 2 / 2 + 2 ∧ tr.rows.length ≤ 2 + 2 * 2 := by
  have hs : RowStream.new? 2 = some ⟨2, .checking, [], none, false, [], 0⟩ := rfl
  have hrun : (run (tablesAt .all) ⟨⟨2, .checking, [], none, false, [], 0⟩, [], []⟩
      blockedRun).map (fun tr => (tr.stream.isBlocked, tr.delivered.length,
        tr.answers.map fun a => a.2.toOption.map List.length))
      = some (true, 2, [some 2, some 2, some 2]) := by
    cbv
  obtain ⟨tr, hrun, hend⟩ := Option.map_eq_some_iff.mp hrun
  simp only [Prod.mk.injEq] at hend
  obtain ⟨hblocked, hdelivered, hpages⟩ := hend
  have hexact : tr.AllExact 2 := by
    intro a ha
    have hpage := List.mem_map_of_mem (f := fun a => a.2.toOption.map List.length) ha
    rw [hpages] at hpage
    exact List.eq_of_mem_replicate (n := 3) hpage
  obtain ⟨-, -, hfetched, hcalls⟩ := read_ahead_bounded (by decide) hs
    (obeys_tablesAt .all (by decide) (by decide)) hrun
  rw [hdelivered] at hfetched hcalls
  exact ⟨_, hs, tr, hrun, hblocked, hexact, hdelivered, hcalls hblocked hexact, hfetched⟩

end Trace

end ResponseExport.Export
