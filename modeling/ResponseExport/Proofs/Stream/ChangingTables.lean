import Mathlib
import ResponseExport.Proofs.Keyset.Log
import ResponseExport.Proofs.Stream.Trace

/-!
# `ResponseExport.Proofs.Stream.ChangingTables`: a walk while others write

The pages of one row stream are read from the store at different moments, and in
between anybody may insert, update and delete users, surveys and responses. A
`Moment` is the store as a query finds it, and `tablesAt f` answers the stream's
questions from the moments at which they are asked.

`stream_over_changing_tables` is the main statement, over every order of steps
of producer and consumer and every sequence of moments whose tables are keyed.
Whatever is delivered strictly ascends, comes page by page from the tables of
its moment, and, when the stream ends without an error, misses no cursor that
was wanted at every moment. If the tables stay as they are, every order of steps
comes to an end, and the stream then has delivered the listing with the least
number of questions that a walk can know it by.

The induction is over the events. It carries two things: the stream is
consistent (`Trace.Consistent`), and the pages it was answered with are the log
of a walk (`Store.IsLog`). The latter needs the former, since the producer asks
at the end of all rows before, and only behind full pages.
-/

set_option autoImplicit false

namespace ResponseExport.Export

open Survey (Response Cursor Filter)
open Store (Tables PageRead rowsRead IsLog AllFull Ascending placesOf fetchPage)

/-- The store at the time of a query, and what makes the query fail, if something does. -/
structure Moment where
  store : Store
  fault : Option DomainError := none

/-- The answer to a question for wanted responses, at a moment. -/
def tablesAt (f : Filter) (m : Moment) (after : Option Cursor) (limit : Nat) : PageAnswer :=
  match m.fault with
  | some e => .error e
  | none => fetchPage m.store f after limit

/-- An answer with rows is a page of the tables at its moment. -/
theorem tablesAt_eq_ok {f : Filter} {m : Moment} {after : Option Cursor} {limit : Nat}
    {rows : List Response} (hlimit : limit ≠ 0) (h : tablesAt f m after limit = .ok rows) :
    rows = m.store.tables.page f after limit := by
  unfold tablesAt at h
  split at h
  · cases h
  · unfold fetchPage at h
    rw [if_neg hlimit] at h
    split at h
    · exact (Except.ok.inj h).symm
    · cases h

namespace Trace

/-- The pages that were read, each with the tables of its moment. -/
def reads (tr : Trace Moment) : List PageRead :=
  tr.answers.filterMap fun a => a.2.toOption.map fun rows => ⟨a.1.store.tables, rows⟩

/-- The rows that the consumer took, in order. -/
def delivered {α : Type} (tr : Trace α) : List Response := tr.taken.filterMap Except.toOption

theorem toOption_items (a : PageAnswer) : a.items.filterMap Except.toOption = a.rows := by
  cases a with
  | error e => rfl
  | ok rows =>
      rw [PageAnswer.items, PageAnswer.rows, List.filterMap_map]
      exact List.filterMap_some

theorem toOption_items_trace {α : Type} (tr : Trace α) :
    tr.items.filterMap Except.toOption = tr.rows := by
  simp [items, rows, List.filterMap_flatMap, toOption_items]

theorem rowsRead_reads (tr : Trace Moment) : rowsRead tr.reads = tr.rows := by
  unfold rowsRead reads rows
  induction tr.answers with
  | nil => rfl
  | cons a rest ih =>
      rw [List.flatMap_cons, ← ih]
      cases h : a.2 <;> simp [h, Except.toOption, PageAnswer.rows]

/-- What is delivered is the start of what was read. -/
theorem Consistent.delivered_prefix {size : Nat} {tr : Trace Moment} (h : Consistent size tr) :
    tr.delivered <+: rowsRead tr.reads := by
  rw [rowsRead_reads, ← toOption_items_trace]
  exact h.taken_prefix.filterMap Except.toOption

/-- The pages of full answers are full. -/
theorem GoesOn.allFull {size : Nat} {tr : Trace Moment} (h : tr.GoesOn size) :
    AllFull size tr.reads := by
  intro p hp
  obtain ⟨a, ha, hpage⟩ := List.mem_filterMap.mp hp
  have hfull := h a ha
  cases hrows : a.2 with
  | error e => rw [hrows] at hpage; cases hpage
  | ok rows =>
      rw [hrows] at hpage hfull
      obtain rfl := Option.some.inj hpage
      exact hfull

/-- If no answer is an error, an answer that is no full page is a short one. -/
theorem not_allFull {size : Nat} {tr : Trace Moment} (hnot : ¬ tr.GoesOn size)
    (hok : ∀ a ∈ tr.answers, ∃ rows, a.2 = .ok rows) : ¬ AllFull size tr.reads := by
  intro hfull
  apply hnot
  intro a ha
  obtain ⟨rows, hrows⟩ := hok a ha
  have hread : ⟨a.1.store.tables, rows⟩ ∈ tr.reads := by
    refine List.mem_filterMap.mpr ⟨a, ha, ?_⟩
    rw [hrows]
    rfl
  show a.2.GoesOn size
  rw [hrows]
  exact hfull _ hread

/-- A consistent stream whose pages are the log of a walk. -/
structure Logged (f : Filter) (size : Nat) (tr : Trace Moment) : Prop
    extends Consistent size tr where
  log : IsLog f size tr.reads

/-- An event adds at most one page, which starts at the end of those before. -/
theorem logged_next {f : Filter} {size : Nat} (hsize : size ≠ 0) {tr tr' : Trace Moment}
    {e : StreamEvent Moment} (hkeyed : ∀ m, e = .answer m → m.store.tables.Keyed)
    (h : Logged f size tr) (he : next (tablesAt f) tr e = some tr') : Logged f size tr' := by
  refine ⟨consistent_next h.toConsistent he, ?_⟩
  cases e <;> obtain ⟨s, hs, rfl⟩ := Option.map_eq_some_iff.mp he
  case answer m =>
    have hgoesOn := h.goesOn_of_asking (RowStream.answer_eq_some hs).1
    rw [reads, List.filterMap_append]
    cases hrows : tablesAt f m tr.stream.cursor tr.stream.size with
    | error e => simpa [Except.toOption, reads] using h.log
    | ok rows =>
        -- The cursor is at the end of all rows before, which is where a log goes on.
        rw [h.size_eq, h.cursor_eq, ← rowsRead_reads] at hrows
        have hlog := h.log.next hgoesOn.allFull (hkeyed m rfl)
        rw [← tablesAt_eq_ok hsize hrows] at hlog
        exact hlog
  all_goals exact h.log

/-- A run of a stream has the log of a walk, if all its moments have keyed tables. -/
theorem logged_run {f : Filter} {size : Nat} (hsize : size ≠ 0)
    {events : List (StreamEvent Moment)} {tr tr' : Trace Moment}
    (hkeyed : ∀ m, .answer m ∈ events → m.store.tables.Keyed) (h : Logged f size tr)
    (hrun : run (tablesAt f) tr events = some tr') : Logged f size tr' :=
  run_induction _ (P := fun _ tr => Logged f size tr) (n := 0)
    (fun _ hmem _ _ _ h he => logged_next hsize (fun m hm => hkeyed m (hm ▸ hmem)) h he) h hrun

/-- A stream that has ended without an error was answered with rows only. -/
theorem Consistent.answers_ok {size : Nat} {tr : Trace Moment} (h : Consistent size tr)
    (hend : tr.HasEnded) (herror : ∀ e, .error e ∉ tr.taken) :
    ∀ a ∈ tr.answers, ∃ rows, a.2 = .ok rows := by
  intro a ha
  cases hrows : a.2 with
  | ok rows => exact ⟨rows, rfl⟩
  | error e =>
      -- The error would be an item of this answer, and all items have been taken.
      refine absurd ?_ (herror (.ofDomain e))
      rw [(h.of_hasEnded hend).1]
      exact List.mem_flatMap.mpr ⟨a, ha, by rw [hrows]; exact List.mem_singleton.mpr rfl⟩

/-- A stream that has ended has delivered what was read. -/
theorem Consistent.delivered_eq {size : Nat} {tr : Trace Moment} (h : Consistent size tr)
    (hend : tr.HasEnded) : tr.delivered = rowsRead tr.reads := by
  rw [rowsRead_reads, ← toOption_items_trace, delivered, (h.of_hasEnded hend).1]

/-! ### Tables that stay as they are -/

/-- An event of a stream to which nothing bad happens: answers come from tables with the
users, surveys and responses of `t`, and the consumer stays. -/
def IsSteady (t : Tables) : StreamEvent Moment → Prop
  | .answer m => m.fault = none ∧ m.store.isOpen = true ∧ t.SameAnswers m.store.tables
  | .drop => False
  | _ => True

/-- What holds behind `n` steady events. -/
structure Steady (t : Tables) (f : Filter) (size n : Nat) (tr : Trace Moment) : Prop
    extends Logged f size tr where
  undropped : tr.stream.dropped = false
  answered : ∀ a ∈ tr.answers, ∃ rows, a.2 = .ok rows
  listed : ∀ p ∈ tr.reads, p.tables.listing f = t.listing f
  progressed : tr.progress = n

/-- A steady question is answered with rows. -/
theorem tablesAt_steady {t : Tables} {f : Filter} {m : Moment} (h : IsSteady t (.answer m))
    (after : Option Cursor) (limit : Nat) : ∃ rows, tablesAt f m after limit = .ok rows := by
  obtain ⟨hfault, hopen, -⟩ := h
  by_cases hlimit : limit = 0
  · refine ⟨[], ?_⟩
    rw [tablesAt, hfault, hlimit]
    rfl
  · refine ⟨m.store.tables.page f after limit, ?_⟩
    rw [tablesAt, hfault]
    show fetchPage m.store f after limit = _
    rw [fetchPage, if_neg hlimit, if_pos hopen]

/-- A steady event adds at most one page, of tables that list what `t` lists. -/
theorem steady_next {t : Tables} {f : Filter} {size n : Nat} (hsize : size ≠ 0) (ht : t.Keyed)
    {tr tr' : Trace Moment} {e : StreamEvent Moment} (hsteady : IsSteady t e)
    (h : Steady t f size n tr) (he : next (tablesAt f) tr e = some tr') :
    Steady t f size (n + 1) tr' := by
  have hkeyed : ∀ m, e = .answer m → m.store.tables.Keyed := by
    rintro m rfl
    exact hsteady.2.2.keyed ht
  have hstays : e ≠ .drop := by
    rintro rfl
    exact hsteady
  have hlogged := logged_next hsize hkeyed h.toLogged he
  obtain ⟨hundropped, hprogress⟩ := progress_next hstays h.undropped he
  refine ⟨hlogged, hundropped, ?_, ?_, hprogress.trans (congrArg (· + 1) h.progressed)⟩
  -- Answers and pages change only if the event is an answer.
  all_goals cases e <;> obtain ⟨s, -, rfl⟩ := Option.map_eq_some_iff.mp he
  case refine_1.answer m =>
    rw [List.forall_mem_append, List.forall_mem_singleton]
    exact ⟨h.answered, tablesAt_steady hsteady _ _⟩
  case refine_2.answer m =>
    obtain ⟨rows, hrows⟩ := tablesAt_steady (f := f) hsteady tr.stream.cursor tr.stream.size
    have hlists : m.store.tables.listing f = t.listing f := (hsteady.2.2.listing f).symm
    rw [reads, List.filterMap_append, hrows, List.forall_mem_append]
    exact ⟨h.listed, by simpa [Except.toOption] using hlists⟩
  all_goals first | exact h.answered | exact h.listed

theorem steady_run {t : Tables} {f : Filter} {size : Nat} (hsize : size ≠ 0) (ht : t.Keyed)
    {events : List (StreamEvent Moment)} {tr tr' : Trace Moment}
    (hsteady : ∀ e ∈ events, IsSteady t e) (h : Steady t f size 0 tr)
    (hrun : run (tablesAt f) tr events = some tr') : Steady t f size events.length tr' := by
  rw [← Nat.zero_add events.length]
  exact run_induction _ (P := fun n tr => Steady t f size n tr) (n := 0)
    (fun e hmem _ _ _ h he => steady_next hsize ht (hsteady e hmem) h he) h hrun

namespace Steady

variable {t : Tables} {f : Filter} {size n : Nat} {tr : Trace Moment}

/-- Every answer is a page. -/
theorem length_reads (h : Steady t f size n tr) : tr.reads.length = tr.answers.length := by
  have hpages : tr.reads = tr.answers.map fun a => ⟨a.1.store.tables, a.2.rows⟩ := by
    rw [reads, ← List.filterMap_eq_map']
    refine List.filterMap_congr fun a ha => ?_
    obtain ⟨rows, hrows⟩ := h.answered a ha
    rw [hrows]
    rfl
  rw [hpages, List.length_map]

/-- The items of all answers are the rows that were read. -/
theorem items_eq (h : Steady t f size n tr) : tr.items = (rowsRead tr.reads).map .ok := by
  have hitems : ∀ a ∈ tr.answers, a.2.items = a.2.rows.map .ok := by
    intro a ha
    obtain ⟨rows, hrows⟩ := h.answered a ha
    rw [hrows]
    rfl
  rw [rowsRead_reads, rows, List.map_flatMap]
  exact List.flatMap_congr hitems

/-- No more is asked than it takes to know that the end has come, and no more is sent
than is listed. -/
theorem length_le (hpos : 0 < size) (hsize : size < Tables.noLimit) (h : Steady t f size n tr) :
    n ≤ 2 * ((t.listing f).length / size + 1 + (t.listing f).length) := by
  have hanswers : tr.answers.length ≤ (t.listing f).length / size + 1 := by
    rw [← h.length_reads]
    by_cases hfull : AllFull size tr.reads
    · exact Nat.le_succ_of_le (h.log.length_le_of_allFull hsize hpos h.listed hfull)
    · exact Nat.le_of_eq (h.log.eq_listing_of_short hsize hpos h.listed hfull).2
  have hcalls : tr.stream.calls.length ≤ (t.listing f).length / size + 1 := by
    have hcalls := h.calls_length
    split at hcalls
    -- A question without its answer is one more, but then all pages so far were full.
    · rename_i hphase
      have hgoesOn := h.goesOn_of_asking hphase
      have hfull := h.log.length_le_of_allFull hsize hpos h.listed hgoesOn.allFull
      rw [h.length_reads] at hfull
      omega
    · omega
  -- What was taken or waits in the channel has been read.
  have hitems : tr.taken.length + tr.stream.buffer.length ≤ (t.listing f).length := by
    have hrows := (h.log.eq_take_listing hsize h.listed).1
    have hkept := congrArg List.length (h.kept h.undropped)
    rw [h.items_eq, hrows, List.length_append, List.length_append, List.length_map,
      List.length_take] at hkept
    omega
  have hprogress := h.progressed
  unfold progress at hprogress
  omega

/-- It goes on until it has ended. -/
theorem hasEnded_or_next (hpos : 0 < size) (h : Steady t f size n tr) :
    tr.HasEnded ∨ ∃ e, IsSteady t e ∧ (next (tablesAt f) tr e).isSome = true := by
  rcases Trace.hasEnded_or_next (tablesAt f) (h.size_eq ▸ hpos) h.undropped with
    hend | ⟨-, hanswer⟩ | ⟨e, he, hnext⟩
  · exact Or.inl hend
  -- The tables can answer as they are.
  · exact Or.inr ⟨.answer { store := { tables := t } }, ⟨rfl, rfl, rfl, rfl, rfl⟩, hanswer _⟩
  · refine Or.inr ⟨e, ?_, hnext⟩
    simp only [List.mem_cons, List.not_mem_nil, or_false] at he
    rcases he with rfl | rfl | rfl <;> trivial

/-- When it has ended, the listing is delivered, and every page that fits into it was
asked for, and one more. -/
theorem of_hasEnded (hpos : 0 < size) (hsize : size < Tables.noLimit) (h : Steady t f size n tr)
    (hend : tr.HasEnded) : tr.taken = (t.listing f).map .ok ∧
      tr.stream.calls.length = (t.listing f).length / size + 1 := by
  obtain ⟨htaken, hgoesOn⟩ := h.toConsistent.of_hasEnded hend
  obtain ⟨hrows, hreads⟩ :=
    h.log.eq_listing_of_short hsize hpos h.listed (not_allFull hgoesOn h.answered)
  refine ⟨by rw [htaken, h.items_eq, hrows], ?_⟩
  -- Nobody waits for an answer any more, so there are as many questions as answers.
  have hasking : tr.stream.phase ≠ .asking := fun hphase => hgoesOn (h.goesOn_of_asking hphase)
  rw [h.calls_of_ne_asking hasking, ← h.length_reads, hreads]

end Steady

/-- A stream that has not begun, over any tables. -/
theorem steady_new {pageSize : Nat} {s : RowStream} (hs : RowStream.new? pageSize = some s)
    (t : Tables) (f : Filter) :
    0 < s.size ∧ s.size < Tables.noLimit ∧ Steady t f s.size 0 ⟨s, [], []⟩ := by
  have hmax : pageSize ≤ maxCapacity := by
    rw [← RowStream.isSome_new?_iff, hs]
    rfl
  have hlimit : max maxCapacity 1 < Tables.noLimit := by decide
  obtain rfl := RowStream.new?_eq_some hs
  exact ⟨by dsimp only; omega, by dsimp only; omega,
    ⟨consistent_start _, .nil⟩, rfl, by simp, by simp [reads], rfl⟩

/-- Streams over tables that stay as they are deliver these rows. With pages of any size and
in any order of steps, a stream goes on until it has ended, and then its consumer has taken
the rows in this order. -/
def Delivers (t : Tables) (f : Filter) (rows : List Response) : Prop :=
  ∀ pageSize s, RowStream.new? pageSize = some s → ∀ events tr,
    (∀ e ∈ events, IsSteady t e) → run (tablesAt f) ⟨s, [], []⟩ events = some tr →
    events.length ≤ 2 * (rows.length / s.size + 1 + rows.length) ∧
    (tr.HasEnded ∨ ∃ e, IsSteady t e ∧ (next (tablesAt f) tr e).isSome = true) ∧
    (tr.HasEnded → tr.taken = rows.map .ok)

theorem delivers_listing {t : Tables} (ht : t.Keyed) (f : Filter) :
    Delivers t f (t.listing f) := by
  intro pageSize s hs events tr hsteady hrun
  obtain ⟨hpos, hsize, hstart⟩ := steady_new hs t f
  have h := steady_run (Nat.ne_of_gt hpos) ht hsteady hstart hrun
  exact ⟨h.length_le hpos hsize, h.hasEnded_or_next hpos, fun hend => (h.of_hasEnded hpos hsize hend).1⟩

/-! ### The walk -/

/-- **A walk while others write.** The first part is about every order of steps and any
keyed tables at every question: what is delivered strictly ascends, it comes from pages
whose rows were stored and wanted when they were read, and a stream that ended without
an error has delivered exactly once every cursor that was wanted at all readings.

The second part is about tables that stay as they are, with `n` wanted responses: no
order of steps goes on forever, none gets stuck, and in the end all of them are
delivered in order, with `n / pageSize + 1` questions. -/
theorem stream_over_changing_tables (f : Filter) (pageSize : Nat) (hpos : 1 ≤ pageSize)
    (hmax : pageSize ≤ maxCapacity) :
    ∃ s, RowStream.new? pageSize = some s ∧
      (∀ events tr, (∀ m, .answer m ∈ events → m.store.tables.Keyed) →
        run (tablesAt f) ⟨s, [], []⟩ events = some tr →
        Ascending tr.delivered ∧
        tr.delivered <+: rowsRead tr.reads ∧
        (∀ p ∈ tr.reads, ∀ r ∈ p.rows,
          r ∈ p.tables.responses ∧ p.tables.isWanted f r = true) ∧
        (tr.HasEnded → (∀ e, .error e ∉ tr.taken) →
          tr.delivered = rowsRead tr.reads ∧
          ∀ c, (∀ p ∈ tr.reads, p.tables.Holds f c) → (placesOf tr.delivered).count c = 1)) ∧
      (∀ (t : Tables) events tr, t.Keyed → (∀ e ∈ events, IsSteady t e) →
        run (tablesAt f) ⟨s, [], []⟩ events = some tr →
        let n := t.responses.countP (t.isWanted f)
        events.length ≤ 2 * (n / pageSize + 1 + n) ∧
        (tr.HasEnded ∨ ∃ e, IsSteady t e ∧ (next (tablesAt f) tr e).isSome = true) ∧
        (tr.HasEnded → tr.stream.calls.length = n / pageSize + 1 ∧
          ∃ rows : List Response, tr.taken = rows.map .ok ∧
            rows.Perm (t.responses.filter (t.isWanted f)) ∧ Ascending rows)) := by
  have hone : atLeastOne pageSize = pageSize := Nat.max_eq_left hpos
  have hnew : RowStream.new? pageSize
      = some ⟨pageSize, .checking, [], none, false, [], 0⟩ := by
    rw [RowStream.new?, isPossible, hone, if_pos (decide_eq_true hmax)]
  have hsize : pageSize < Tables.noLimit := Nat.lt_of_le_of_lt hmax (by decide)
  have hne : pageSize ≠ 0 := Nat.pos_iff_ne_zero.mp hpos
  have hstart : Logged f pageSize ⟨⟨pageSize, .checking, [], none, false, [], 0⟩, [], []⟩ :=
    ⟨consistent_start pageSize, .nil⟩
  refine ⟨_, hnew, ?_, ?_⟩
  · intro events tr hkeyed hrun
    have h := logged_run hne hkeyed hstart hrun
    refine ⟨?_, h.delivered_prefix, h.log.wanted hsize, ?_⟩
    · exact List.Pairwise.sublist h.delivered_prefix.sublist (h.log.ascending hsize)
    · intro hend herror
      -- The stream has stopped, and not because of an error: it was a short page.
      have hshort := not_allFull (h.of_hasEnded hend).2 (h.answers_ok hend herror)
      refine ⟨h.delivered_eq hend, fun c hc => ?_⟩
      rw [h.delivered_eq hend]
      exact h.log.count_eq_one hsize hshort hc
  · intro t events tr ht hsteady hrun
    have h : Steady t f pageSize events.length tr :=
      steady_run hne ht hsteady ⟨hstart, rfl, by simp, by simp [reads], rfl⟩ hrun
    dsimp only
    rw [← Tables.length_listing ht]
    refine ⟨h.length_le hpos hsize, h.hasEnded_or_next hpos, fun hend => ?_⟩
    obtain ⟨htaken, hcalls⟩ := h.of_hasEnded hpos hsize hend
    exact ⟨hcalls, t.listing f, htaken, Tables.listing_perm ht f, Tables.ascending_listing ht f⟩

/-- Three readings in pages of two. Behind the first one, a respondent who was delivered
is deleted, one comes who is too late to be seen, and one who is not. -/
def changingRun : List (StreamEvent Moment) :=
  let before : Moment := { store := { tables := Tables.answeredBy ["u3", "u1", "u2"] } }
  let behind : Moment := { store := { tables := Tables.answeredBy ["u0", "u3", "u1", "u4"] } }
  [.check, .answer before, .send, .send, .pull, .pull, .check, .answer behind, .send, .pull,
    .send, .pull, .check, .answer behind]

/-- The run comes to its end, and the theorem says that what it delivers ascends. -/
theorem stream_over_changing_tables_inserted :
    ∃ s, RowStream.new? 2 = some s ∧ ∃ tr,
      run (tablesAt .all) ⟨s, [], []⟩ changingRun = some tr ∧
      tr.HasEnded ∧ tr.delivered.map Response.respondent = ["u1", "u2", "u3", "u4"] ∧
      Ascending tr.delivered ∧ tr.stream.calls.length = 3 := by
  obtain ⟨s, hs, hany, -⟩ :=
    stream_over_changing_tables .all 2 (by decide) (by decide)
  obtain rfl := Option.some.inj hs
  have hrun : (run (tablesAt .all) ⟨⟨2, .checking, [], none, false, [], 0⟩, [], []⟩
      changingRun).map (fun tr => (tr.stream.dropped, tr.stream.isEnded,
        tr.delivered.map Response.respondent, tr.stream.calls.length))
      = some (false, true, ["u1", "u2", "u3", "u4"], 3) := by
    cbv
  obtain ⟨tr, hrun, hend⟩ := Option.map_eq_some_iff.mp hrun
  simp only [Prod.mk.injEq] at hend
  obtain ⟨hdropped, hended, hdelivered, hcalls⟩ := hend
  have hkeyed : ∀ m, .answer m ∈ changingRun → m.store.tables.Keyed := by
    intro m hm
    simp only [changingRun, List.mem_cons, StreamEvent.answer.injEq, reduceCtorEq, false_or,
      List.not_mem_nil, or_false] at hm
    rcases hm with rfl | rfl | rfl <;> exact Tables.keyed_answeredBy (by decide)
  exact ⟨_, hs, tr, hrun, ⟨hdropped, hended⟩, hdelivered, (hany _ tr hkeyed hrun).1, hcalls⟩

end Trace

end ResponseExport.Export
