import ResponseExport.Export.RowStream

/-!
# `ResponseExport.Proofs.Stream.Steps`: what one step of a row stream does

Each event of a `RowStream` is a partial function. The lemmas of this module say
once, for each of them, when it can happen and what the stream is afterwards;
what holds along whole runs is derived from these statements alone.

`RowStream.pageLeft` is what the producer is at when it still has given rows of
a page to send, and `Phase.inHand` are the items that it holds. Both make one
statement out of the cases "more to send" and "nothing more to send".
-/

set_option autoImplicit false

namespace ResponseExport.Export

open Survey (Response Cursor)

/-- The items that the producer holds, in the order in which it sends them. -/
def Phase.inHand : Phase → List Item
  | .sending next rest _ => (next :: rest).map .ok
  | .failing e => [.error e]
  | _ => []

namespace RowStream

/-- What the producer is at with these rows of its page left. -/
def pageLeft (last : Bool) : List Response → Phase
  | [] => afterPage last
  | r :: rest => .sending r rest last

@[simp] theorem inHand_pageLeft (last : Bool) (rows : List Response) :
    (pageLeft last rows).inHand = rows.map .ok := by
  cases rows with
  | nil => cases last <;> rfl
  | cons r rest => rfl

/-- There is a stream with pages of every size that a channel can have. -/
theorem isSome_new?_iff (pageSize : Nat) :
    (new? pageSize).isSome = true ↔ pageSize ≤ maxCapacity := by
  rw [new?, ← isPossible_iff]
  cases isPossible pageSize <;> simp

variable {s s' : RowStream}

/-- A stream begins with nothing asked, sent or pulled. -/
theorem new?_eq_some {pageSize : Nat} (h : new? pageSize = some s) :
    s = ⟨max pageSize 1, .checking, [], none, false, [], 0⟩ := by
  unfold new? at h
  split at h
  · exact (Option.some.inj h).symm
  · cases h

theorem check_eq_some (h : s.check = some s') :
    s.phase = .checking ∧
      (s.dropped = true ∧ s' = { s with phase := .stopped } ∨
        s.dropped = false ∧
          s' = { s with phase := .asking, calls := s.calls ++ [⟨s.cursor, s.size⟩] }) := by
  unfold check at h
  split at h
  · rename_i hphase
    refine ⟨hphase, ?_⟩
    split at h
    · rename_i hdropped
      exact Or.inl ⟨hdropped, (Option.some.inj h).symm⟩
    · rename_i hdropped
      exact Or.inr ⟨by simpa using hdropped, (Option.some.inj h).symm⟩
  · cases h

theorem answer_eq_some {a : PageAnswer} (h : s.answer a = some s') :
    s.phase = .asking ∧
      ((∃ e, a = .error e ∧ s' = { s with phase := .failing (.ofDomain e) }) ∨
        ∃ rows, a = .ok rows ∧
          s' = { s with
            phase := pageLeft (rows.length < s.size) rows
            cursor := cursorAfter s.cursor rows }) := by
  unfold answer at h
  split at h
  · rename_i hphase
    refine ⟨hphase, ?_⟩
    cases a with
    | error e => exact Or.inl ⟨e, rfl, (Option.some.inj h).symm⟩
    | ok rows =>
        refine Or.inr ⟨rows, rfl, ?_⟩
        rw [← Option.some.inj h]
        cases rows <;> rfl
  · cases h

theorem send_eq_some (h : s.send = some s') :
    s.dropped = true ∧ s.phase.inHand ≠ [] ∧ s' = { s with phase := .stopped } ∨
      s.dropped = false ∧ s.buffer.length < s.size ∧
        ((∃ next rest last, s.phase = .sending next rest last ∧
            s' = { s with phase := pageLeft last rest, buffer := s.buffer ++ [.ok next] }) ∨
          ∃ e, s.phase = .failing e ∧
            s' = { s with phase := .stopped, buffer := s.buffer ++ [.error e] }) := by
  unfold send at h
  split at h
  · rename_i next rest last hphase
    split at h
    · rename_i hdropped
      exact Or.inl ⟨hdropped, by simp [hphase, Phase.inHand], (Option.some.inj h).symm⟩
    · rename_i hdropped
      split at h
      · rename_i hroom
        refine Or.inr ⟨by simpa using hdropped, of_decide_eq_true hroom, Or.inl ?_⟩
        refine ⟨next, rest, last, hphase, ?_⟩
        rw [← Option.some.inj h]
        cases rest <;> rfl
      · cases h
  · rename_i e hphase
    split at h
    · rename_i hdropped
      exact Or.inl ⟨hdropped, by simp [hphase, Phase.inHand], (Option.some.inj h).symm⟩
    · rename_i hdropped
      split at h
      · rename_i hroom
        refine Or.inr ⟨by simpa using hdropped, of_decide_eq_true hroom, Or.inr ?_⟩
        exact ⟨e, hphase, (Option.some.inj h).symm⟩
      · cases h
  · cases h

theorem pull_eq_some {item : Item} (h : s.pull = some (item, s')) :
    s.dropped = false ∧ ∃ rest, s.buffer = item :: rest ∧
      s' = { s with buffer := rest, pulled := s.pulled + 1 } := by
  unfold pull at h
  split at h
  · rename_i item' rest hdropped hbuffer
    simp only [Option.some.injEq, Prod.mk.injEq] at h
    obtain ⟨rfl, rfl⟩ := h
    exact ⟨hdropped, rest, hbuffer, rfl⟩
  · cases h

theorem drop_eq_some (h : s.drop = some s') :
    s.dropped = false ∧ s' = { s with dropped := true, buffer := [] } := by
  unfold drop at h
  split at h
  · cases h
  · rename_i hdropped
    exact ⟨by simpa using hdropped, (Option.some.inj h).symm⟩

end RowStream

end ResponseExport.Export
