import ResponseExport.Export.Source
import ResponseExport.Proofs.Keyset.Pages

/-!
# `ResponseExport.Proofs.Keyset.Walk`: a walk over tables that stay as they are

`walk` has a bound on the number of questions. On an open store with keyed tables
the bound of `Source.walkSteps` is never reached: the walk delivers the listing,
and stops at the first page that is not full (`walk?_table`). The induction of
`walk_eq` is on the bound. Its invariant is that what was delivered and what is
left are, put together, the listing.
-/

set_option autoImplicit false

namespace ResponseExport.Export

open Survey (Response Cursor Filter)
open Store (Tables endOf cursorAfter_endOf fetchPage)

variable {s : Store} {f : Filter}

/-- An open store answers with a page. -/
theorem fetchPage_eq (hopen : s.isOpen = true) {limit : Nat} (hlimit : 0 < limit)
    (after : Option Cursor) : s.fetchPage f after limit = .ok (s.tables.page f after limit) := by
  rw [fetchPage, if_neg (Nat.pos_iff_ne_zero.mp hlimit), if_pos hopen]

/-- Behind the rows `a` of a listing, a walk delivers the rest of it. -/
theorem walk_eq (hopen : s.isOpen = true) (hkeyed : s.tables.Keyed) {size : Nat}
    (hpos : 0 < size) (hsize : size < Tables.noLimit) {a b : List Response}
    (hab : s.tables.listing f = a ++ b) {steps : Nat} (hsteps : b.length < steps) (calls : Nat) :
    walk (fun _ after limit => s.fetchPage f after limit) size steps calls (endOf a)
      = ⟨b.map .ok, calls + b.length / size + 1⟩ := by
  induction steps generalizing a b calls with
  | zero => exact absurd hsteps (Nat.not_lt_zero _)
  | succ steps ih =>
      rw [walk, fetchPage_eq hopen hpos, Tables.page_append hkeyed hsize hab]
      dsimp only
      by_cases hshort : b.length < size
      -- The page is all that is left, and it is short.
      · have hlength : (b.take size).length < size := by
          rw [List.length_take]
          omega
        rw [if_pos hlength, List.take_of_length_le (Nat.le_of_lt hshort),
          Nat.div_eq_of_lt hshort]
      -- The page is full: the walk goes on behind it, with fewer rows left.
      · have hfull : ¬ (b.take size).length < size := by
          rw [List.length_take]
          omega
        have hab' : s.tables.listing f = (a ++ b.take size) ++ b.drop size := by
          rw [hab, List.append_assoc, List.take_append_drop]
        have hrest : (b.drop size).length < steps := by
          rw [List.length_drop]
          omega
        have hcalls : calls + b.length / size + 1
            = calls + 1 + (b.length - size) / size + 1 := by
          rw [Nat.div_eq_sub_div hpos (Nat.not_lt.mp hshort)]
          omega
        rw [if_neg hfull, cursorAfter_endOf, ih hab' hrest, ← List.map_append,
          List.take_append_drop, List.length_drop, hcalls]

/-- A walk over the table of responses delivers the listing, with one question more than
pages fit into it. -/
theorem walk?_table (hopen : s.isOpen = true) (hkeyed : s.tables.Keyed) (f : Filter)
    {pageSize : Nat} (hpos : 1 ≤ pageSize) (hmax : pageSize ≤ maxCapacity) (calls : Nat) :
    Source.table.walk? s f pageSize calls
      = some ⟨(s.tables.listing f).map .ok,
          calls + (s.tables.listing f).length / pageSize + 1⟩ := by
  have hone : atLeastOne pageSize = pageSize := Nat.max_eq_left hpos
  have hsize : pageSize < Tables.noLimit := Nat.lt_of_le_of_lt hmax (by decide)
  have hsteps : (s.tables.listing f).length < Source.table.walkSteps s := by
    have hle := List.length_filter_le (s.tables.isWanted f) s.tables.responses
    rw [← (Tables.listing_perm hkeyed f).length_eq] at hle
    rw [Source.walkSteps]
    omega
  rw [Source.walk?, isPossible, hone, if_pos (decide_eq_true hmax)]
  exact congrArg some (walk_eq (a := []) hopen hkeyed hpos hsize rfl hsteps calls)

end ResponseExport.Export
