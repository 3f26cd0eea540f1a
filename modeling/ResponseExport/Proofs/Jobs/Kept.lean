import ResponseExport.Proofs.Jobs.Usable

/-!
# `ResponseExport.Proofs.Jobs.Kept`: rows while no job is marked done

Links and files are written into a row when its job is marked done, and at no other
time. `RowsKept` says what stays of the rows between two states of the table if
nobody marks a job done in between: what is over stays as it is, no row goes, and a
row that is not done has the link and the file that it had, or is new and has none.
All operations but one are of this kind (`rowsKept_apply`); the one that is not
spares all other jobs (`JobOp.finish_of_ne`).
-/

set_option autoImplicit false

namespace ResponseExport.Store

open Export (Status)

namespace JobRow

/-- The row has neither a link nor a file, and its job is not done. -/
structure IsBlank (j : JobRow) : Prop where
  status_ne : j.status ≠ Status.done.text
  link_eq : j.link = none
  file_eq : j.file = none

theorem isBlank_new (now : String) (r : Export.Request) : (JobRow.new now r).IsBlank :=
  ⟨by show Status.pending.text ≠ Status.done.text; decide, rfl, rfl⟩

theorem status_ne_of_isUnfinished {j : JobRow} (h : j.isUnfinished = true) :
    j.status ≠ Status.done.text := by
  intro hdone
  rw [JobOp.isUnfinished_of_terminal (Or.inl hdone)] at h
  cases h

end JobRow

namespace JobOp

variable {op : JobOp}

/-- Can an operation mark a job done? -/
def makesDone : JobOp → Bool
  | move _ _ .done => true
  | finish .. => true
  | _ => false

/-- An operation that marks nothing done leaves a row, or moves a job that is not over. -/
theorem rewrite_cases (h : op.makesDone = false) (j : JobRow) :
    op.rewrite j = j ∨ j.isUnfinished = true ∧ (op.rewrite j).status ≠ Status.done.text ∧
      (op.rewrite j).link = j.link ∧ (op.rewrite j).file = j.file := by
  cases op with
  | create now id user survey => exact Or.inl rfl
  | move now id status =>
      rw [rewrite]
      split
      · rename_i hmoved
        refine Or.inr ⟨hmoved.2, ?_, rfl, rfl⟩
        show status.text ≠ _
        cases status <;> first | decide | cases h
      · exact Or.inl rfl
  | finish now id link file => cases h
  | failAll now =>
      rw [rewrite]
      split
      · rename_i hunfinished
        refine Or.inr ⟨hunfinished, ?_, rfl, rfl⟩
        show Status.failed.text ≠ _
        decide
      · exact Or.inl rfl

/-- Marking one job done spares all others. -/
theorem finish_of_ne {now id link file : String} {j : JobRow} (hne : j.id ≠ id) :
    (finish now id link file).rewrite j = j := if_neg hne

end JobOp

/-- Between these two states of the rows, no job was marked done. -/
structure RowsKept (before after : List JobRow) : Prop where
  kept : ∀ j ∈ before, j.isUnfinished = false → j ∈ after
  exists_id : ∀ j ∈ before, ∃ j' ∈ after, j'.id = j.id
  source : ∀ j' ∈ after, j' ∈ before ∨ j'.IsBlank ∨
    ∃ j ∈ before, j.status ≠ Status.done.text ∧ j'.status ≠ Status.done.text ∧
      j'.link = j.link ∧ j'.file = j.file

theorem RowsKept.refl (rows : List JobRow) : RowsKept rows rows :=
  ⟨fun _ hj _ => hj, fun j hj => ⟨j, hj, rfl⟩, fun _ hj => Or.inl hj⟩

theorem rowsKept_apply {s : Store} (hs : s.isOpen = true) {op : JobOp}
    (hop : op.makesDone = false) :
    RowsKept s.tables.jobs (JobOp.apply s op).tables.jobs := by
  refine ⟨fun j hj hover => ?_, fun j hj => ?_, fun j' hj' => ?_⟩
  · have hmem := JobOp.mem_apply_of_mem hs op hj
    rcases JobOp.rewrite_cases hop j with hsame | ⟨hunfinished, -⟩
    · rwa [hsame] at hmem
    · rw [hover] at hunfinished
      cases hunfinished
  · exact ⟨op.rewrite j, JobOp.mem_apply_of_mem hs op hj, op.rewrite_id j⟩
  · rcases JobOp.mem_apply hs op hj' with ⟨j, hj, rfl⟩ | ⟨now, r, -, rfl⟩
    · rcases JobOp.rewrite_cases hop j with hsame | ⟨hunfinished, hstatus, hlink, hfile⟩
      · rw [hsame]
        exact Or.inl hj
      · exact Or.inr (Or.inr ⟨j, hj, JobRow.status_ne_of_isUnfinished hunfinished, hstatus, hlink,
          hfile⟩)
    · exact Or.inr (Or.inl (JobRow.isBlank_new now r))

end ResponseExport.Store
