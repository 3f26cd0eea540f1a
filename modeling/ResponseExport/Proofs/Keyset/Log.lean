import ResponseExport.Proofs.Keyset.Pages

/-!
# `ResponseExport.Proofs.Keyset.Log`: pages read one after the other

A walk asks for page after page, and every page may be read from other tables
than the one before. A *log* lists the pages in order, each with the tables it
was read from: every page starts at the end of all pages before it, and all of
these were full, since a short page ends the walk.

Three facts hold of every log, whatever happened to the tables in between:

* `IsLog.ascending`: the rows of all pages strictly ascend, so none comes twice;
* `IsLog.wanted`: each row was stored and wanted when its page was read;
* `IsLog.mem_or_behind`: a cursor that was wanted at every reading is among the
  rows, or it lies behind all of them and no page was short.

The third one is an induction from the first page on: what a page leaves out
lies behind its end, and there the next page starts. If the tables never change,
the pages together are the start of the listing (`IsLog.eq_take_listing`).
-/

set_option autoImplicit false

namespace ResponseExport.Store

open Survey (Response Cursor Filter)

/-- A page that was read, with the tables from which it was read. -/
structure PageRead where
  tables : Tables
  rows : List Response

/-- The rows of pages, in order. -/
def rowsRead (reads : List PageRead) : List Response := reads.flatMap PageRead.rows

/-- Every one of these pages has as many rows as were asked for. -/
def AllFull (size : Nat) (reads : List PageRead) : Prop := ∀ p ∈ reads, size ≤ p.rows.length

/-- These are the pages of a walk in pages of `size` rows, from its start on. -/
inductive IsLog (f : Filter) (size : Nat) : List PageRead → Prop where
  | nil : IsLog f size []
  | next {reads : List PageRead} {t : Tables} :
      IsLog f size reads → AllFull size reads → t.Keyed →
      IsLog f size (reads ++ [⟨t, t.page f (endOf (rowsRead reads)) size⟩])

theorem rowsRead_concat (reads : List PageRead) (p : PageRead) :
    rowsRead (reads ++ [p]) = rowsRead reads ++ p.rows := by
  simp [rowsRead]

theorem allFull_concat (size : Nat) (reads : List PageRead) (p : PageRead) :
    AllFull size (reads ++ [p]) ↔ AllFull size reads ∧ size ≤ p.rows.length := by
  simp only [AllFull, List.forall_mem_append, List.forall_mem_singleton]

/-- Pages of at least `size` rows each have at least `size` rows for each page together. -/
theorem le_length_flatMap {α : Type} {size : Nat} {pages : List α} {rows : α → List Response}
    (h : ∀ p ∈ pages, size ≤ (rows p).length) :
    pages.length * size ≤ (pages.flatMap rows).length := by
  induction pages with
  | nil => simp
  | cons p pages ih =>
      have hp := h p List.mem_cons_self
      have hrest := ih fun q hq => h q (List.mem_cons_of_mem p hq)
      rw [List.flatMap_cons, List.length_append, List.length_cons, Nat.add_mul, Nat.one_mul]
      omega

theorem AllFull.le_length {size : Nat} {reads : List PageRead} (h : AllFull size reads) :
    reads.length * size ≤ (rowsRead reads).length :=
  le_length_flatMap h

/-- Full pages that are the start of a list do not reach beyond its end. -/
theorem AllFull.reached {size : Nat} {reads : List PageRead} {rows : List Response}
    (h : AllFull size reads) (hrows : rowsRead reads = rows.take (reads.length * size)) :
    reads.length * size ≤ rows.length ∧ (rowsRead reads).length = reads.length * size := by
  have hle := h.le_length
  rw [hrows, List.length_take] at hle ⊢
  omega

/-- Behind the end of some rows lies a cursor that is behind each of them. -/
theorem isAfter_endOf_of_forall {rows : List Response} {r : Response}
    (h : ∀ r' ∈ rows, Cursor.at r' < Cursor.at r) : Tables.isAfter (endOf rows) r = true := by
  cases hlast : rows.getLast? with
  | none => rw [endOf, hlast]; rfl
  | some last =>
      rw [endOf, hlast]
      exact (Cursor.isBehind_iff _ _).mpr (h last (List.mem_of_getLast? hlast))

/-- What lies behind the end of ascending rows lies behind each of them. -/
theorem Ascending.lt_of_isAfter {rows : List Response} (h : Ascending rows) {r r' : Response}
    (hr : Tables.isAfter (endOf rows) r = true) (hr' : r' ∈ rows) :
    Cursor.at r' < Cursor.at r := by
  cases hlast : rows.getLast? with
  | none =>
      rw [List.getLast?_eq_none_iff.mp hlast] at hr'
      cases hr'
  | some last =>
      rw [endOf, hlast] at hr
      have hbehind : Cursor.at last < Cursor.at r := (Cursor.isBehind_iff _ _).mp hr
      rcases h.le_last hlast hr' with heq | hlt
      · exact heq ▸ hbehind
      · exact Cursor.lt_trans hlt hbehind

namespace IsLog

variable {f : Filter} {size : Nat} {reads : List PageRead}

/-- The rows of all pages strictly ascend. Each page ascends, and starts behind the
end of the pages before. -/
theorem ascending (hsize : size < Tables.noLimit) (h : IsLog f size reads) :
    Ascending (rowsRead reads) := by
  induction h with
  | nil => exact List.Pairwise.nil
  | next _ _ hkeyed ih =>
      rw [rowsRead_concat, ascending_append]
      refine ⟨ih, Tables.ascending_page hkeyed hsize, ?_⟩
      -- A row of the page is behind the end of the rows before, and so behind each of them.
      intro r hr r' hr'
      exact ih.lt_of_isAfter (Tables.mem_page hkeyed hsize hr').2.2 hr

/-- Every row was stored and wanted when its page was read. -/
theorem wanted (hsize : size < Tables.noLimit) (h : IsLog f size reads) :
    ∀ p ∈ reads, ∀ r ∈ p.rows, r ∈ p.tables.responses ∧ p.tables.isWanted f r = true := by
  induction h with
  | nil => simp
  | next _ _ hkeyed ih =>
      intro p hp r hr
      rcases List.mem_append.mp hp with hp | hp
      · exact ih p hp r hr
      · obtain rfl := List.mem_singleton.mp hp
        exact ⟨(Tables.mem_page hkeyed hsize hr).1, (Tables.mem_page hkeyed hsize hr).2.1⟩

/-- A cursor that was wanted at every reading is among the rows, or it is still to
come: it lies behind all of them, and no page was short. -/
theorem mem_or_behind (hsize : size < Tables.noLimit) (h : IsLog f size reads) {c : Cursor}
    (hc : ∀ p ∈ reads, p.tables.Holds f c) :
    c ∈ placesOf (rowsRead reads) ∨
      AllFull size reads ∧ ∀ r ∈ rowsRead reads, Cursor.at r < c := by
  induction h with
  | nil => exact Or.inr ⟨by simp [AllFull], by simp [rowsRead]⟩
  | @next reads t _ hfull hkeyed ih =>
      rw [rowsRead_concat, allFull_concat, placesOf, List.map_append, List.mem_append]
      rcases ih fun p hp => hc p (List.mem_append_left _ hp) with hmem | ⟨_, hbehind⟩
      · exact Or.inl (Or.inl hmem)
      -- The cursor is behind all earlier pages, so the last one has it or is full before it.
      · obtain ⟨r, hr, hwanted, rfl⟩ := hc _ (List.mem_append_right _ List.mem_cons_self)
        rcases Tables.mem_page_or_behind hkeyed hsize hr hwanted
            (isAfter_endOf_of_forall hbehind) with hpage | ⟨hlength, hpage⟩
        · exact Or.inl (Or.inr (List.mem_map_of_mem hpage))
        · refine Or.inr ⟨⟨hfull, hlength⟩, ?_⟩
          intro r' hr'
          rcases List.mem_append.mp hr' with hr' | hr'
          · exact hbehind r' hr'
          · exact hpage r' hr'

/-- Once a short page was read, a cursor that was wanted at every reading has been
delivered, and only once. -/
theorem count_eq_one (hsize : size < Tables.noLimit) (h : IsLog f size reads)
    (hshort : ¬ AllFull size reads) {c : Cursor} (hc : ∀ p ∈ reads, p.tables.Holds f c) :
    (placesOf (rowsRead reads)).count c = 1 := by
  rcases mem_or_behind hsize h hc with hmem | ⟨hfull, -⟩
  · rw [(h.ascending hsize).nodup.count, if_pos hmem]
  · exact absurd hfull hshort

/-! ### Tables that never change

Only the listing counts, so the tables may change in all that does not touch it. -/

variable {l : List Response}

/-- Pages of the same listing are, put together, the start of it. All pages but the
last one are full. -/
theorem eq_take_listing (hsize : size < Tables.noLimit) (h : IsLog f size reads)
    (hl : ∀ p ∈ reads, p.tables.listing f = l) :
    rowsRead reads = l.take (reads.length * size) ∧ (reads.length - 1) * size ≤ l.length := by
  induction h with
  | nil => simp [rowsRead]
  | @next reads t _ hfull hkeyed ih =>
      obtain ⟨hrows, -⟩ := ih fun p hp => hl p (List.mem_append_left _ hp)
      have ht : t.listing f = l := hl _ (List.mem_append_right _ List.mem_cons_self)
      have hpage : t.page f (endOf (rowsRead reads)) size
          = (l.drop (reads.length * size)).take size := by
        rw [hrows]
        exact Tables.page_append hkeyed hsize (by rw [ht, List.take_append_drop])
      rw [rowsRead_concat, List.length_append, List.length_singleton, Nat.add_sub_cancel]
      refine ⟨?_, (hfull.reached hrows).1⟩
      rw [hpage, hrows, Nat.add_mul, Nat.one_mul, List.take_add]

/-- As long as all pages of the same listing are full, there are no more of them than
fit into it. -/
theorem length_le_of_allFull (hsize : size < Tables.noLimit) (hpos : 0 < size)
    (h : IsLog f size reads) (hl : ∀ p ∈ reads, p.tables.listing f = l)
    (hfull : AllFull size reads) : reads.length ≤ l.length / size :=
  (Nat.le_div_iff_mul_le hpos).mpr (hfull.reached (h.eq_take_listing hsize hl).1).1

/-- A walk over the same listing that has read a short page has read all of it, in one
page more than fit into it. -/
theorem eq_listing_of_short (hsize : size < Tables.noLimit) (hpos : 0 < size)
    (h : IsLog f size reads) (hl : ∀ p ∈ reads, p.tables.listing f = l)
    (hshort : ¬ AllFull size reads) : rowsRead reads = l ∧ reads.length = l.length / size + 1 := by
  obtain ⟨hrows, hreached⟩ := h.eq_take_listing hsize hl
  -- All pages but the last one are full, and it is not: so the pages reach over the end.
  have hover : l.length < reads.length * size := by
    cases h with
    | nil => exact absurd (by simp [AllFull]) hshort
    | @next reads t hlog hfull hkeyed =>
        have hlast : ¬ size ≤ (t.page f (endOf (rowsRead reads)) size).length :=
          fun hle => hshort ((allFull_concat _ _ _).mpr ⟨hfull, hle⟩)
        have hrows' := (hlog.eq_take_listing hsize fun p hp => hl p (List.mem_append_left _ hp)).1
        have hbefore := (hfull.reached hrows').2
        have htotal := congrArg List.length hrows
        rw [rowsRead_concat, List.length_append, hbefore, List.length_take] at htotal
        rw [List.length_append, List.length_singleton, Nat.add_mul, Nat.one_mul] at htotal ⊢
        dsimp only at htotal
        omega
  refine ⟨by rw [hrows, List.take_of_length_le (by omega)], ?_⟩
  -- That leaves one number of pages between the two bounds.
  have hlow : reads.length - 1 ≤ l.length / size := (Nat.le_div_iff_mul_le hpos).mpr hreached
  have hhigh : l.length / size < reads.length := (Nat.div_lt_iff_lt_mul hpos).mpr hover
  omega

end IsLog

end ResponseExport.Store
