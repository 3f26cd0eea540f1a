import Mathlib
import ResponseExport.Proofs.Stream.ReadAhead

/-!
# `ResponseExport.Proofs.Stream.AnySource`: questions, answers and items

A source may answer a question with pages of any length, longer than asked for or empty,
and with an error at any time. This module says what a stream makes of the answers, over
every source and every order of steps.

`itemsOf size answers` is what a consumer is to get: the rows of one answer after the
other, up to the first answer that is an error or has less than `size` rows, and then the
error if it is one. Answers behind that one do not count (`itemsOf_cons`), so it may
be taken of a sequence of which a stream asks for the first few only. A sequential walk
over written answers delivers the same (`items_walk_drop`).

`Trace.Matched` is the invariant of all runs. It says which questions have been asked, and
that question and answer of the same number belong together. Only two kinds of event add
a question or an answer (`asked_next`), so there are only two cases to prove. `Trace.Seen`
is what follows from it for source and consumer.

`stream_over_any_source` is the main statement. Its last part makes it more than a statement about
runs that happen to end. A stream whose consumer stays is never stuck, waits for the source only if
all answers were full pages, and takes only so many steps between two items.
-/

set_option autoImplicit false

namespace ResponseExport.Export

open Survey (Response Cursor)
open Store (Tables endOf)

/-- What a consumer is to get of some answers, with pages of `size` rows. -/
def itemsOf (size : Nat) : List PageAnswer → List Item
  | [] => []
  | .error e :: _ => [.error (.database e.message)]
  | .ok rows :: rest =>
    rows.map .ok ++ if size ≤ rows.length then itemsOf size rest else []

variable {size : Nat}

/-- An answer brings its own items first. -/
theorem items_prefix_cons (a : PageAnswer) (rest : List PageAnswer) :
    a.items <+: itemsOf size (a :: rest) := by
  cases a with
  | error e => exact List.prefix_refl _
  | ok rows => exact List.prefix_append _ _

/-- Behind full pages it goes on. -/
theorem itemsOf_append (front rest : List PageAnswer) (h : ∀ a ∈ front, a.GoesOn size) :
    itemsOf size (front ++ rest) = front.flatMap PageAnswer.items ++ itemsOf size rest := by
  induction front with
  | nil => rfl
  | cons a front ih =>
      have hfront := ih fun b hb => h b (List.mem_cons_of_mem a hb)
      have hfirst := h a List.mem_cons_self
      cases a with
      | error e => exact hfirst.elim
      | ok rows =>
          have hfull : size ≤ rows.length := hfirst
          rw [List.cons_append, itemsOf, if_pos hfull, hfront, ← List.append_assoc]
          rfl

/-- Behind any other answer it does not. -/
theorem itemsOf_cons {a : PageAnswer} (rest : List PageAnswer) (h : ¬ a.GoesOn size) :
    itemsOf size (a :: rest) = a.items := by
  cases a with
  | error e => rfl
  | ok rows =>
      have hshort : ¬ size ≤ rows.length := h
      rw [itemsOf, if_neg hshort, List.append_nil]
      rfl

/-- Answers of which all but the last one are full pages bring all their items, whatever would
come behind them. -/
theorem items_prefix_itemsOf {given answers : List PageAnswer} (hgiven : given <+: answers)
    (h : ∀ a ∈ given.dropLast, a.GoesOn size) :
    given.flatMap PageAnswer.items <+: itemsOf size answers := by
  obtain ⟨rest, rfl⟩ := hgiven
  rcases List.eq_nil_or_concat' given with rfl | ⟨front, a, rfl⟩
  · exact List.nil_prefix
  · rw [List.dropLast_concat] at h
    rw [List.append_assoc, itemsOf_append front _ h, List.flatMap_append, List.flatMap_singleton]
    exact (List.prefix_append_right_inj _).mpr (items_prefix_cons a rest)

/-- If not all of them are, it is the last one, and they bring nothing else. -/
theorem itemsOf_eq {given answers : List PageAnswer} (hgiven : given <+: answers)
    (h : ∀ a ∈ given.dropLast, a.GoesOn size) (hend : ¬ ∀ a ∈ given, a.GoesOn size) :
    itemsOf size answers = given.flatMap PageAnswer.items := by
  obtain ⟨rest, rfl⟩ := hgiven
  rcases List.eq_nil_or_concat' given with rfl | ⟨front, a, rfl⟩
  · exact absurd (List.forall_mem_nil _) hend
  -- All before the last one are full pages, so it must be the one that is not.
  · rw [List.dropLast_concat] at h
    have hlast : ¬ a.GoesOn size := by
      intro ha
      exact hend (List.forall_mem_append.mpr ⟨h, List.forall_mem_singleton.mpr ha⟩)
    rw [List.append_assoc, itemsOf_append front _ h, List.flatMap_append, List.flatMap_singleton]
    exact congrArg _ (itemsOf_cons rest hlast)

/-- A walk that starts behind some answers delivers what the others bring. -/
theorem items_walk_drop (hpos : 0 < size) (answers : List PageAnswer) (steps calls : Nat)
    (after : Option Cursor) (hsteps : (answers.drop calls).length < steps) :
    (walk (scripted answers) size steps calls after).items
      = itemsOf size (answers.drop calls) := by
  induction steps generalizing calls after with
  | zero => exact absurd hsteps (Nat.not_lt_zero _)
  | succ steps ih =>
      have hnext : scripted answers calls after size = (answers[calls]?).getD (.ok []) :=
        List.getD_eq_getElem?_getD
      rw [walk, hnext]
      cases hdrop : answers.drop calls with
      | nil =>
          have hlength : answers.length ≤ calls := List.drop_eq_nil_iff.mp hdrop
          rw [List.getElem?_eq_none hlength]
          exact congrArg Walked.items (if_pos hpos)
      | cons a rest =>
          have hat : answers[calls]? = some a := by
            rw [← List.head?_drop, hdrop]
            rfl
          have hrest : answers.drop (calls + 1) = rest := by
            rw [← List.tail_drop, hdrop]
            rfl
          rw [hdrop] at hsteps
          rw [hat, Option.getD_some]
          cases a with
          | error e => rfl
          | ok rows =>
              dsimp only
              by_cases hfull : size ≤ rows.length
              · have hwalk := ih (calls + 1) (cursorAfter after rows)
                  (hrest ▸ Nat.lt_of_succ_lt_succ hsteps)
                rw [if_neg (Nat.not_lt.mpr hfull), itemsOf, if_pos hfull, ← hrest, ← hwalk]
              · rw [if_pos (Nat.not_le.mp hfull), itemsOf, if_neg hfull, List.append_nil]

namespace Trace

variable {α : Type} {ask : α → Option Cursor → Nat → PageAnswer} {tr tr' : Trace α}

/-- The answers so far, in order. -/
def given (tr : Trace α) : List PageAnswer := tr.answers.map Prod.snd

theorem forall_mem_given {P : PageAnswer → Prop} :
    (∀ a ∈ tr.given, P a) ↔ ∀ a ∈ tr.answers, P a.2 := List.forall_mem_map

/-- The rows of the answers so far. -/
theorem flatMap_given (tr : Trace α) : tr.given.flatMap PageAnswer.rows = tr.rows :=
  List.flatMap_map ..

/-- The items of the answers so far. -/
theorem flatMap_items_given (tr : Trace α) : tr.given.flatMap PageAnswer.items = tr.items :=
  List.flatMap_map ..

/-! ### Questions and answers -/

/-- Question and answer of the same number belong together, along all runs. -/
structure Matched (ask : α → Option Cursor → Nat → PageAnswer) (size : Nat) (tr : Trace α) : Prop
    extends Consistent size tr where
  goes_on : ∀ a ∈ tr.given.dropLast, a.GoesOn size
  calls_eq : ∀ (i : Nat) (c : Call), tr.stream.calls[i]? = some c →
    c = ⟨endOf ((tr.given.take i).flatMap PageAnswer.rows), size⟩
  answered : ∀ (i : Nat) (x : α) (a : PageAnswer), tr.answers[i]? = some (x, a) →
    ∃ c, tr.stream.calls[i]? = some c ∧ a = ask x c.after c.limit

theorem matched_start (size : Nat) :
    Matched ask size ⟨⟨size, .checking, [], none, false, [], 0⟩, [], []⟩ where
  toConsistent := consistent_start size
  goes_on a ha := by simp [given] at ha
  calls_eq i c hc := by simp at hc
  answered i x a ha := by simp at ha

/-- A question is asked behind all answers. -/
theorem Matched.of_call (h : Matched ask size tr) (hphase : tr.stream.phase = .checking)
    (hconsistent : Consistent size tr') (hanswers : tr'.answers = tr.answers)
    (hcalls : tr'.stream.calls = tr.stream.calls ++ [⟨tr.stream.cursor, tr.stream.size⟩]) :
    Matched ask size tr' := by
  have hgiven : tr'.given = tr.given := by rw [given, hanswers, given]
  have hlength : tr.stream.calls.length = tr.given.length := by
    rw [h.calls_of_ne_asking (hphase ▸ Phase.noConfusion), given, List.length_map]
  refine ⟨hconsistent, ?_, ?_, ?_⟩
  · rw [hgiven]
    exact h.goes_on
  · intro i c hc
    rw [hgiven]
    rw [hcalls, List.getElem?_append] at hc
    split at hc
    · exact h.calls_eq i c hc
    -- The new question starts where the producer stands: at the end of all rows so far.
    · rename_i hlast
      obtain rfl := List.mem_singleton.mp (List.mem_of_getElem? hc)
      rw [List.take_of_length_le (by omega), flatMap_given, h.cursor_eq, h.size_eq]
  · intro i x a ha
    rw [hanswers] at ha
    obtain ⟨c, hc, hsays⟩ := h.answered i x a ha
    refine ⟨c, ?_, hsays⟩
    rw [hcalls, List.getElem?_append_left (List.getElem?_eq_some_iff.mp hc).1]
    exact hc

/-- An answer belongs to the last question. -/
theorem Matched.of_answer (h : Matched ask size tr) (hphase : tr.stream.phase = .asking)
    (hconsistent : Consistent size tr') (hcalls : tr'.stream.calls = tr.stream.calls) {x : α}
    (hanswers : tr'.answers = tr.answers ++ [(x, ask x tr.stream.cursor tr.stream.size)]) :
    Matched ask size tr' := by
  have hgiven : tr'.given = tr.given ++ [ask x tr.stream.cursor tr.stream.size] := by
    rw [given, hanswers, List.map_append]
    rfl
  have hlength : tr.stream.calls.length = tr.given.length + 1 := by
    rw [h.asking_iff.mp hphase, given, List.length_map]
  refine ⟨hconsistent, ?_, ?_, ?_⟩
  · rw [hgiven, List.dropLast_concat]
    exact forall_mem_given.mpr (h.goesOn_of_asking hphase)
  · intro i c hc
    rw [hcalls] at hc
    have hi := (List.getElem?_eq_some_iff.mp hc).1
    rw [hgiven, List.take_append_of_le_length (by omega)]
    exact h.calls_eq i c hc
  · intro i y a ha
    rw [hcalls]
    rw [hanswers, List.getElem?_append] at ha
    split at ha
    · exact h.answered i y a ha
    -- The new answer is one to where the producer stands, and so is the last question.
    · rename_i hlast
      have hbound := (List.getElem?_eq_some_iff.mp ha).1
      rw [List.length_singleton] at hbound
      obtain ⟨rfl, rfl⟩ := Prod.mk.inj (List.mem_singleton.mp (List.mem_of_getElem? ha))
      have hanswered : tr.given.length = tr.answers.length := List.length_map _
      have hcall := List.getElem?_eq_getElem (show i < tr.stream.calls.length by omega)
      refine ⟨_, hcall, ?_⟩
      rw [h.calls_eq i _ hcall, List.take_of_length_le (by omega), flatMap_given, h.cursor_eq,
        h.size_eq]

/-- Every event keeps them matched. -/
theorem matched_next {e : StreamEvent α} (h : Matched ask size tr)
    (he : next ask tr e = some tr') : Matched ask size tr' := by
  have hconsistent := consistent_next h.toConsistent he
  rcases asked_next he with ⟨hcalls, hanswers⟩ | ⟨hphase, -, hanswers, hcalls⟩ |
    ⟨hphase, hcalls, x, hanswers⟩
  · have hgiven : tr'.given = tr.given := by rw [given, hanswers, given]
    exact ⟨hconsistent, hgiven ▸ h.goes_on, hgiven ▸ hcalls ▸ h.calls_eq,
      hanswers ▸ hcalls ▸ h.answered⟩
  · exact h.of_call hphase hconsistent hanswers hcalls
  · exact h.of_answer hphase hconsistent hcalls hanswers

theorem matched_run {events : List (StreamEvent α)} (h : Matched ask size tr)
    (hrun : run ask tr events = some tr') : Matched ask size tr' :=
  run_induction ask (P := fun _ tr => Matched ask size tr) (n := 0)
    (fun _ _ _ _ _ h he => matched_next h he) h hrun

/-! ### What can be seen -/

/-- What a source sees of a stream with pages of `size` rows, and what its consumer sees. The
answers so far may be the first of any others. -/
structure Seen (ask : α → Option Cursor → Nat → PageAnswer) (size : Nat) (tr : Trace α) :
    Prop where
  /-- An answer is what the source says to the question of the same number. -/
  answered : ∀ (i : Nat) (x : α) (a : PageAnswer), tr.answers[i]? = some (x, a) →
    ∃ c, tr.stream.calls[i]? = some c ∧ a = ask x c.after c.limit
  /-- The first page is asked for from the start. -/
  first_call : ∀ c, tr.stream.calls[0]? = some c → c = ⟨none, size⟩
  /-- Any other page is asked for behind a full one, from its last row. -/
  next_call : ∀ (i : Nat) (c : Call), tr.stream.calls[i + 1]? = some c → ∃ rows r,
    tr.given[i]? = some (.ok rows) ∧ size ≤ rows.length ∧ rows.getLast? = some r ∧
      c = ⟨some (.at r), size⟩
  /-- As many items as the consumer takes are the first that the answers bring. -/
  taken_prefix : ∀ answers, tr.given <+: answers → tr.taken <+: itemsOf size answers
  /-- A consumer that takes items until the end takes all of them. -/
  taken_eq : tr.HasEnded → ∀ answers, tr.given <+: answers → tr.taken = itemsOf size answers

/-- There is a question only behind a full page. -/
theorem Matched.goesOn_of_call (h : Matched ask size tr) {i : Nat} {c : Call}
    (hc : tr.stream.calls[i + 1]? = some c) :
    ∃ a, tr.given[i]? = some a ∧ a.GoesOn size := by
  have hanswered : tr.given.length = tr.answers.length := List.length_map _
  have hbound := (List.getElem?_eq_some_iff.mp hc).1
  by_cases hphase : tr.stream.phase = .asking
  -- A question without an answer: all answers are full pages.
  · rw [h.asking_iff.mp hphase] at hbound
    have hi : i < tr.given.length := by omega
    exact ⟨tr.given[i], List.getElem?_eq_getElem hi,
      forall_mem_given.mpr (h.goesOn_of_asking hphase) _ (List.getElem_mem hi)⟩
  -- Otherwise this question has an answer, and the one before is not the last.
  · rw [h.calls_of_ne_asking hphase] at hbound
    have hi : i < tr.given.dropLast.length := by
      rw [List.length_dropLast]
      omega
    refine ⟨tr.given.dropLast[i], ?_, h.goes_on _ (List.getElem_mem hi)⟩
    rw [List.getElem_dropLast]
    exact List.getElem?_eq_getElem _

theorem Matched.next_call (hpos : 0 < size) (h : Matched ask size tr) {i : Nat} {c : Call}
    (hc : tr.stream.calls[i + 1]? = some c) : ∃ rows r,
      tr.given[i]? = some (.ok rows) ∧ size ≤ rows.length ∧ rows.getLast? = some r ∧
        c = ⟨some (.at r), size⟩ := by
  obtain ⟨a, ha, hgoesOn⟩ := h.goesOn_of_call hc
  cases a with
  | error e => exact hgoesOn.elim
  | ok rows =>
      have hfull : size ≤ rows.length := hgoesOn
      have hne : rows ≠ [] := List.ne_nil_of_length_pos (by omega)
      have hlast := List.getLast?_eq_some_getLast hne
      refine ⟨rows, rows.getLast hne, ha, hfull, hlast, ?_⟩
      rw [h.calls_eq _ c hc, List.take_add_one, ha, List.flatMap_append]
      simp [endOf, PageAnswer.rows, hlast]

theorem Matched.seen (hpos : 0 < size) (h : Matched ask size tr) : Seen ask size tr where
  answered := h.answered
  first_call c hc := h.calls_eq 0 c hc
  next_call _ _ hc := h.next_call hpos hc
  taken_prefix answers hgiven := by
    have hitems := items_prefix_itemsOf hgiven h.goes_on
    rw [flatMap_items_given] at hitems
    exact h.taken_prefix.trans hitems
  taken_eq hend answers hgiven := by
    obtain ⟨htaken, hgoesOn⟩ := h.of_hasEnded hend
    rw [itemsOf_eq hgiven h.goes_on (mt forall_mem_given.mp hgoesOn), flatMap_items_given]
    exact htaken

/-- A stream whose consumer stays has not taken many more steps than its consumer has taken
items: it cannot go on forever without handing out the next one. -/
theorem length_events_le (hpos : 0 < size) {events : List (StreamEvent α)}
    (h : ReadAhead size tr') (hstart : tr.progress = 0) (hdropped : tr.stream.dropped = false)
    (hstays : ∀ e ∈ events, e ≠ .drop) (hrun : run ask tr events = some tr') :
    events.length ≤ 2 * (tr'.taken.length / size + 2) + size + 2 * tr'.taken.length := by
  have hprogress := (progress_run hstays hdropped hrun).2
  have hcalls := h.length_calls_le hpos
  have hbuffer := h.buffer_le
  have hanswers := h.calls_length
  have hrows : tr'.delivered.length / size ≤ tr'.taken.length / size :=
    Nat.div_le_div_right (length_rowsAmong_le tr'.taken)
  rw [hstart, progress] at hprogress
  omega

/-- **Streams over any source.** There is a stream for exactly the page sizes up to the largest
channel, with zero counting as one. Whatever its source answers, and in any order of steps, it asks
for the first page from the start and for any other behind a full one. Its consumer takes what
the answers bring, in order: the first items if it takes some, and all if it goes on to the end.
As long as it stays, somebody can take a step until the end has come, and there are only so many
steps between two items. -/
theorem stream_over_any_source (pageSize : Nat) :
    ((RowStream.new? pageSize).isSome = true ↔ pageSize ≤ maxCapacity) ∧
    ∀ s, RowStream.new? pageSize = some s →
      ∀ (ask : α → Option Cursor → Nat → PageAnswer) events tr,
        run ask ⟨s, [], []⟩ events = some tr →
        let p := max pageSize 1
        Seen ask p tr ∧
        ((∀ e ∈ events, e ≠ .drop) →
          (tr.HasEnded ∨
            ((∀ a ∈ tr.given, a.GoesOn p) ∧ ∀ x, (next ask tr (.answer x)).isSome = true) ∨
            ∃ e ∈ [StreamEvent.check, .send, .pull], (next ask tr e).isSome = true) ∧
          events.length ≤ 2 * (tr.taken.length / p + 2) + p + 2 * tr.taken.length) := by
  refine ⟨RowStream.isSome_new?_iff pageSize, ?_⟩
  intro s hs ask events tr hrun
  obtain rfl := RowStream.new?_eq_some hs
  have hpos : 0 < max pageSize 1 := Nat.lt_of_lt_of_le Nat.one_pos (Nat.le_max_right _ _)
  have h := readAhead_run (readAhead_start _) hrun
  refine ⟨(matched_run (matched_start _) hrun).seen hpos, ?_⟩
  intro hstays
  refine ⟨?_, length_events_le hpos h rfl rfl hstays hrun⟩
  have hdropped := (progress_run hstays rfl hrun).1
  rcases hasEnded_or_next ask (h.size_eq ▸ hpos) hdropped with
    hend | ⟨hphase, hanswer⟩ | hnext
  · exact Or.inl hend
  · exact Or.inr (Or.inl ⟨forall_mem_given.mpr (h.goesOn_of_asking hphase), hanswer⟩)
  · exact Or.inr (Or.inr hnext)

/-- Pages of one row. The first answer has two, the second one has one, and the third one is an
error. -/
def failingRun : List (StreamEvent PageAnswer) :=
  [.check, .answer (.ok (Tables.answeredBy ["u1", "u2"]).responses), .send, .pull, .send, .pull,
    .check, .answer (.ok (Tables.answeredBy ["u3"]).responses), .send, .pull,
    .check, .answer (.error .closed), .send, .pull]

/-- Three rows and the error are taken, and nothing more is asked. -/
theorem stream_over_any_source_failing :
    ∃ s, RowStream.new? 0 = some s ∧ ∃ tr,
      run (fun a _ _ => a) ⟨s, [], []⟩ failingRun = some tr ∧ tr.HasEnded ∧
      tr.taken = (Tables.answeredBy ["u1", "u2", "u3"]).responses.map .ok
        ++ [.error (.database DomainError.closed.message)] ∧
      tr.taken = itemsOf 1 tr.given ∧ Seen (fun a _ _ => a) 1 tr := by
  have hs : RowStream.new? 0 = some ⟨1, .checking, [], none, false, [], 0⟩ := rfl
  have hrun : (run (fun a _ _ => a) ⟨⟨1, .checking, [], none, false, [], 0⟩, [], []⟩
      failingRun).map (fun tr => (tr.stream.dropped, tr.stream.isEnded, tr.taken))
      = some (false, true, (Tables.answeredBy ["u1", "u2", "u3"]).responses.map .ok
        ++ [.error (.database DomainError.closed.message)]) := by
    rfl
  obtain ⟨tr, hrun, hend⟩ := Option.map_eq_some_iff.mp hrun
  simp only [Prod.mk.injEq] at hend
  obtain ⟨hdropped, hended, htaken⟩ := hend
  obtain ⟨hseen, -⟩ := (stream_over_any_source 0).2 _ hs _ _ tr hrun
  exact ⟨_, hs, tr, hrun, ⟨hdropped, hended⟩, htaken,
    hseen.taken_eq ⟨hdropped, hended⟩ _ (List.prefix_refl _), hseen⟩

/-- There is no stream whose pages are larger than a channel can be, though such a page would
bring its rows. -/
theorem no_stream_beyond_capacity :
    RowStream.new? 2305843009213693952 = none ∧
      itemsOf 2305843009213693952 [.ok (Tables.answeredBy ["u1"]).responses]
        = (Tables.answeredBy ["u1"]).responses.map .ok := by
  refine ⟨rfl, ?_⟩
  rw [itemsOf, if_neg (by decide), List.append_nil]

end Trace

end ResponseExport.Export
