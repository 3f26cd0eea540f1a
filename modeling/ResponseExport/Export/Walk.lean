import ResponseExport.Error.Export
import ResponseExport.Survey.Response

/-!
# `ResponseExport.Export.Walk`: all responses, page after page

A walk asks for page after page, each behind the last row of the page before, until a page is
shorter than asked for or an error comes. It delivers the rows of all pages in order, then the
error if there was one.
-/

set_option autoImplicit false

namespace ResponseExport.Export

open Survey (Response Cursor)

/-- What a walk delivers: rows, and an error at most at the end. -/
abbrev Item := Except ExportError Response

/-- What is answered to a question for a page. -/
abbrev PageAnswer := Except DomainError (List Response)

/-- Who answers: given how many questions came before, where the page starts and how many rows it
may have. -/
abbrev Pages := Nat → Option Cursor → Nat → PageAnswer

/-- The cursor behind a page: that of its last row, or the one before if it is empty. -/
def cursorAfter (before : Option Cursor) (rows : List Response) : Option Cursor :=
  match rows.getLast? with
  | some r => some (.at r)
  | none => before

/-- What a walk delivered, and how many questions were asked in all. -/
structure Walked where
  items : List Item
  calls : Nat

/-- A walk with pages of `size` rows. `steps` bounds the number of questions. -/
def walk (pages : Pages) (size : Nat) : (steps : Nat) → (calls : Nat) → Option Cursor → Walked
  | 0, calls, _ => ⟨[], calls⟩
  | steps + 1, calls, after =>
    match pages calls after size with
    | .error e => ⟨[.error (.ofDomain e)], calls + 1⟩
    | .ok rows =>
      if rows.length < size then ⟨rows.map .ok, calls + 1⟩
      else
        let rest := walk pages size steps (calls + 1) (cursorAfter after rows)
        ⟨rows.map .ok ++ rest.items, rest.calls⟩

/-- The pages that were written down beforehand; after them all pages are empty. -/
def scripted (answers : List PageAnswer) : Pages := fun i _ _ => answers.getD i (.ok [])

end ResponseExport.Export
