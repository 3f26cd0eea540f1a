import ResponseExport.Proofs.Keyset.Walk
import ResponseExport.Proofs.Stream.ChangingTables
import ResponseExport.Proofs.Survey.Tokens

/-!
# `ResponseExport.Proofs.Listing.Visits`: clients that come back with tokens

A row stream keeps its place in memory; a client of the listing gets it as a
token, and hands it back with a page size of its own choice. A `Visit` is what
such a client gets. `visit_eq` brings it to the listing of the tables by
induction on the sizes. Its invariant is the one of a walk: the client is at the
end of the first part of the listing, so that the next page starts the second.
-/

set_option autoImplicit false

namespace ResponseExport.Listing

open Survey (Response Cursor Filter)
open Store (Tables endOf Ascending)
open Export (RowStream Moment tablesAt)
open Export.Trace (IsSteady)

/-- What a client gets that goes from page to page. -/
structure Visit where
  /-- The rows of all pages, in order. -/
  rows : List ListedResponse
  /-- Was the last page shorter than asked for? -/
  ended : Bool
  deriving Repr, DecidableEq

/-- The token that a client goes on with: that of its last row. -/
def tokenAfter (before : Option String) (rows : List ListedResponse) : Option String :=
  match rows.getLast? with
  | some r => some r.token
  | none => before

/-- A client asks for pages of these sizes, from `after` on, until one is short. -/
def visit (store : Store) (f : Filter) :
    (sizes : List Nat) → (after : Option String) → Except DomainError Visit
  | [], _ => .ok ⟨[], false⟩
  | size :: sizes, after =>
    match page store f after (some size) with
    | .error e => .error e
    | .ok rows =>
      if rows.length < size then .ok ⟨rows, true⟩
      else (visit store f sizes (tokenAfter after rows)).map fun v => ⟨rows ++ v.rows, v.ended⟩

/-! ### One page -/

/-- The token behind rows that a client has; none if it has none. -/
def tokenOf (rows : List Response) : Option String := (endOf rows).map Cursor.token

theorem start_tokenOf (rows : List Response) : start (tokenOf rows) = .ok (endOf rows) := by
  rw [tokenOf]
  cases endOf rows with
  | none => rfl
  | some c => exact Cursor.start_token c

theorem tokenAfter_tokenOf (a b : List Response) :
    tokenAfter (tokenOf a) (b.map listed) = tokenOf (a ++ b) := by
  rw [tokenOf, tokenOf, ← Store.cursorAfter_endOf, tokenAfter, List.getLast?_map,
    Export.cursorAfter]
  cases b.getLast? <;> rfl

/-- The page sizes that a listing takes. -/
def IsSize (size : Nat) : Prop := 1 ≤ size ∧ size ≤ maxSize

instance (size : Nat) : Decidable (IsSize size) := inferInstanceAs (Decidable (_ ∧ _))

variable {store : Store} {f : Filter}

/-- With the token behind the first part of the listing, a page is the start of the second. -/
theorem page_tokenOf (hopen : store.isOpen = true) (hkeyed : store.tables.Keyed)
    {a b : List Response} (hab : store.tables.listing f = a ++ b) {size : Nat}
    (hsize : IsSize size) :
    page store f (tokenOf a) (some size) = .ok ((b.take size).map listed) := by
  have hlimit : size < Tables.noLimit := Nat.lt_of_le_of_lt hsize.2 (by decide)
  have hallowed : ¬ (size = 0 ∨ maxSize < size) := by
    rintro (hzero | hlarge)
    · exact Nat.ne_of_gt hsize.1 hzero
    · exact Nat.not_lt.mpr hsize.2 hlarge
  rw [page, Option.getD_some, if_neg hallowed, start_tokenOf]
  dsimp only
  rw [Export.fetchPage_eq hopen hsize.1, Tables.page_append hkeyed hlimit hab]
  rfl

/-! ### All pages -/

/-- From the end of the first part of the listing on, a client gets the rows of the second part, as
many as it asks for in all, and knows the end when there are fewer. -/
theorem visit_eq (hopen : store.isOpen = true) (hkeyed : store.tables.Keyed) {sizes : List Nat}
    (hsizes : ∀ size ∈ sizes, IsSize size) {a b : List Response}
    (hab : store.tables.listing f = a ++ b) :
    visit store f sizes (tokenOf a)
      = .ok ⟨(b.take sizes.sum).map listed, decide (b.length < sizes.sum)⟩ := by
  induction sizes generalizing a b with
  | nil => rfl
  | cons size sizes ih =>
      obtain ⟨hsize, hrest⟩ := List.forall_mem_cons.mp hsizes
      rw [visit, page_tokenOf hopen hkeyed hab hsize, List.sum_cons]
      dsimp only
      rw [List.length_map, List.length_take]
      by_cases hshort : b.length < size
      -- The page is all that is left, and more is asked for.
      · have hmore : b.length < size + sizes.sum := by omega
        rw [if_pos (by omega), List.take_of_length_le (Nat.le_of_lt hshort),
          List.take_of_length_le (Nat.le_of_lt hmore), decide_eq_true hmore]
      -- The page is full, and the client goes on at its end.
      · have hab' : store.tables.listing f = (a ++ b.take size) ++ b.drop size := by
          rw [hab, List.append_assoc, List.take_append_drop]
        have hended : (b.drop size).length < sizes.sum ↔ b.length < size + sizes.sum := by
          rw [List.length_drop]
          omega
        rw [if_neg (by omega), tokenAfter_tokenOf, ih hrest hab']
        simp only [Except.map, hended, ← List.map_append, List.take_add]

/-- A row's token names the place behind the row. -/
theorem token_listed (a : List Response) (r : Response) :
    some (listed r).token = tokenOf (a ++ [r]) := by
  rw [tokenOf, endOf, List.getLast?_concat]
  rfl

/-! ### One row -/

/-- What a row says is what was listed. -/
theorem map_response_listed (rows : List Response) :
    (rows.map listed).map ListedResponse.response = rows := by
  rw [List.map_map]
  exact List.map_id' rows

/-- A row of a page is one of the listing, with the token of its place. -/
theorem exists_of_page {after : Option String} {size : Option Nat} {shown : List ListedResponse}
    (hopen : store.isOpen = true) (hshown : page store f after size = .ok shown)
    {row : ListedResponse} (hrow : row ∈ shown) :
    ∃ r ∈ store.tables.listing f, row = listed r := by
  simp only [page] at hshown
  split at hshown
  · cases hshown
  · rename_i hallowed
    have hpos : 1 ≤ size.getD defaultSize := by omega
    have hlimit : size.getD defaultSize < Tables.noLimit :=
      Nat.lt_of_le_of_lt (m := maxSize) (by omega) (by decide)
    split at hshown
    · cases hshown
    · rw [Export.fetchPage_eq hopen hpos] at hshown
      cases hshown
      obtain ⟨r, hr, rfl⟩ := List.mem_map.mp hrow
      exact ⟨r, (Tables.page_sublist_listing hlimit).subset hr, rfl⟩

/-- The token of a row resumes right behind it: a page of any size holds the next of `rows`. -/
def Resumes (store : Store) (f : Filter) (rows : List Response) (row : ListedResponse) : Prop :=
  ∃ a b, rows = a ++ row.response :: b ∧
    ∀ size, IsSize size → ∃ next,
      page store f (some row.token) (some size) = .ok next ∧
      next.map ListedResponse.response = b.take size

theorem resumes_listed (hopen : store.isOpen = true) (hkeyed : store.tables.Keyed) {r : Response}
    (hr : r ∈ store.tables.listing f) :
    Resumes store f (store.tables.listing f) (listed r) := by
  obtain ⟨a, b, hab⟩ := List.append_of_mem hr
  refine ⟨a, b, hab, fun size hsize => ⟨(b.take size).map listed, ?_, map_response_listed _⟩⟩
  have hab' : store.tables.listing f = (a ++ [r]) ++ b := by
    rw [List.append_assoc, List.singleton_append, hab]
  rw [token_listed a r]
  exact page_tokenOf hopen hkeyed hab' hsize

/-! ### The stream -/

/-- The pages of a listing and the rows of a stream are the same rows in the same order, none
missing and none twice: for a stream with pages of any size, in every order of steps of its two
sides, and for a client that asks for pages of any sizes, one after the other. The token of any row
of any page, not only of the last one, resumes right behind it. -/
theorem pages_agree_with_stream {store : Store} (hopen : store.isOpen = true)
    (hkeyed : store.tables.Keyed) (f : Filter) :
    let rows := store.tables.listing f
    rows.Perm (store.tables.responses.filter (store.tables.isWanted f)) ∧ Ascending rows ∧
    (∀ pageSize s, RowStream.new? pageSize = some s → ∀ events tr,
      (∀ e ∈ events, IsSteady store.tables e) →
      Export.Trace.run (tablesAt f) ⟨s, [], []⟩ events = some tr →
      events.length ≤ 2 * (rows.length / s.size + 1 + rows.length) ∧
      (tr.HasEnded ∨
        ∃ e, IsSteady store.tables e ∧ (Export.Trace.next (tablesAt f) tr e).isSome = true) ∧
      (tr.HasEnded → tr.taken = rows.map .ok)) ∧
    (∀ sizes, (∀ size ∈ sizes, IsSize size) →
      ∃ v, visit store f sizes none = .ok v ∧
        v.rows.map ListedResponse.response = rows.take sizes.sum ∧
        v.ended = decide (rows.length < sizes.sum) ∧
        (rows.length < sizes.length →
          v.rows.map ListedResponse.response = rows ∧ v.ended = true)) ∧
    (∀ after size shown, page store f after size = .ok shown →
      ∀ row ∈ shown, Resumes store f rows row) := by
  intro rows
  refine ⟨Tables.listing_perm hkeyed f, Tables.ascending_listing hkeyed f,
    Export.Trace.delivers_listing hkeyed f, ?_, ?_⟩
  · intro sizes hsizes
    refine ⟨_, visit_eq (a := []) hopen hkeyed hsizes rfl, map_response_listed _, rfl, ?_⟩
    intro hlength
    -- Every page is one of at least one row, so there are more places than rows.
    have hsum : sizes.length ≤ sizes.sum :=
      List.length_le_sum_of_one_le sizes fun size hmem => (hsizes size hmem).1
    have hall : rows.length < sizes.sum := Nat.lt_of_lt_of_le hlength hsum
    refine ⟨(map_response_listed _).trans ?_, decide_eq_true hall⟩
    exact List.take_of_length_le (Nat.le_of_lt hall)
  · intro after size shown hshown row hrow
    obtain ⟨r, hr, rfl⟩ := exists_of_page hopen hshown hrow
    exact resumes_listed hopen hkeyed hr

/-- Respondents whose ids need every kind of escape, in pages of one, two and three rows. -/
theorem pages_agree_with_stream_escaped :
    let store : Store := { tables := Tables.answeredBy ["\"", "\x00,", "\\u0041", "é"] }
    let f : Filter := .survey "owner@example.com" "Survey"
    (store.tables.listing f).map (·.respondent) = ["\x00,", "\"", "\\u0041", "é"] ∧
    ∃ v, visit store f [1, 2, 3] none = .ok v ∧
      v.rows.map ListedResponse.response = store.tables.listing f ∧ v.ended = true := by
  intro store f
  have hlisting : (store.tables.listing f).map (·.respondent)
      = ["\x00,", "\"", "\\u0041", "é"] := by
    cbv
  have hlength : (store.tables.listing f).length = 4 := by
    rw [← List.length_map (·.respondent), hlisting]
    rfl
  have hopen : store.isOpen = true := rfl
  obtain ⟨v, hvisit, hrows, hended, -⟩ :=
    (pages_agree_with_stream hopen (Tables.keyed_answeredBy (by decide)) f).2.2.2.1
      [1, 2, 3] (by decide)
  refine ⟨hlisting, v, hvisit, ?_, ?_⟩
  · rw [hrows, List.take_of_length_le (by rw [hlength]; decide)]
  · rw [hended, hlength]
    rfl

end ResponseExport.Listing
