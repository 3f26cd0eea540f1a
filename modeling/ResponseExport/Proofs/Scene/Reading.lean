import ResponseExport.Proofs.Scene.Attempts

/-!
# `ResponseExport.Proofs.Scene.Reading`: what an attempt has read

`Attempt.Fits` says that the file of an attempt holds the rows that the source gave it.
If the rows come from tables that do not change, these are the rows of the listing:
`Attempt.Reads` says that what was read so far is its first part, and `reads_step`
that every step keeps this. So an attempt that ends well has read the whole listing,
and no row that it does not want.
-/

set_option autoImplicit false

namespace ResponseExport.Export.Attempt

open Store (Tables endOf cursorAfter_endOf)

/-- What the source gave an attempt is the first part of the listing, and the attempt goes on where
this ends. When it is through, it was given all of it. -/
def Reads (t : Tables) (a : Attempt) : Prop :=
  match a.task.stage with
  | .writing _ _ place => ∃ rest, t.listing a.task.filter = rowsOf a.answers ++ rest ∧
      place = endOf (rowsOf a.answers)
  | .finishing _ _ => rowsOf a.answers = t.listing a.task.filter
  | .over (.ok _) => rowsOf a.answers = t.listing a.task.filter
  | _ => True

variable {t : Tables} {pageSize : Nat} {s s' : Service} {a a' : Attempt}

theorem reads_new (t : Tables) (r : Request) : Reads t { task := Task.new r } := trivial

/-- An attempt that writes reads the next page, or the rest if it is short. -/
theorem reads_writing (ht : t.Keyed) (hs : s.Serves t pageSize) (hworks : s.Works)
    (hfits : a.Fits s) (h : a.Reads t) {name : String} {w : Csv.Writer}
    {place : Option Survey.Cursor} (hstage : a.task.stage = .writing name w place) :
    (a.step s).2.Reads t := by
  rw [Fits, hstage] at hfits
  obtain ⟨-, -, -, -, hw⟩ := hfits
  rw [Reads, hstage] at h
  obtain ⟨rest, hrest, rfl⟩ := h
  have hpage : a.task.answerTo s (endOf (rowsOf a.answers))
      = .ok (rest.take (atLeastOne s.pageSize)) :=
    Task.answerTo_eq hs ht hworks.possible hworks.usable.isOpen hrest
  rcases Task.writePage_eq s a.task name (endOf (rowsOf a.answers)) hw with ⟨e, -, hfail⟩ |
    ⟨rows, w', hrows, -, -, -, hfull⟩ | ⟨rows, w', stats, hrows, hshort, -, -, -, hlast⟩
  · rw [step_writing hstage hfail]
    trivial
  · obtain rfl := Except.ok.inj (hrows.symm.trans hpage)
    rw [step_writing hstage hfull, hpage]
    refine ⟨rest.drop (atLeastOne s.pageSize), ?_, ?_⟩
    · rw [rowsOf_concat, List.append_assoc, List.take_append_drop]
      exact hrest
    · rw [rowsOf_concat]
      exact cursorAfter_endOf _ _
  -- A short page is all that was left.
  · obtain rfl := Except.ok.inj (hrows.symm.trans hpage)
    rw [List.length_take] at hshort
    have hall : rest.take (atLeastOne s.pageSize) = rest := List.take_of_length_le (by omega)
    rw [step_writing hstage hlast, hpage, hall]
    show rowsOf (a.answers ++ [.ok rest]) = t.listing a.task.filter
    rw [rowsOf_concat]
    exact hrest.symm

/-- Every step keeps what is known of the rows that an attempt was given. -/
theorem reads_step (ht : t.Keyed) (hs : s.Serves t pageSize) (hworks : s.Works)
    (hfits : a.Fits s) (h : a.Reads t) : (a.step s).2.Reads t := by
  cases hstage : a.task.stage with
  | marking =>
      rcases Task.mark_cases hworks a.task with ⟨-, hmark⟩ | ⟨-, e, hmark⟩ <;>
        rw [step_marking hstage hmark] <;> trivial
  | preparing =>
      rw [Fits, hstage] at hfits
      obtain ⟨-, -, hanswers⟩ := hfits
      rcases Task.prepare_cases hworks.possible a.task with ⟨e, d, -, hprepare⟩ |
        ⟨d, d', w, -, -, -, hprepare⟩
      · rw [step_preparing hstage hprepare]
        trivial
      · rw [step_preparing hstage hprepare, hanswers]
        exact ⟨_, rfl, rfl⟩
  | writing name w place => exact reads_writing ht hs hworks hfits h hstage
  | finishing name stats =>
      rw [Fits, hstage] at hfits
      obtain ⟨hrow, -⟩ := hfits
      rw [Reads, hstage] at h
      obtain ⟨job, hcomplete⟩ := Task.complete_eq hworks hrow name
      rw [step_finishing hstage hcomplete]
      exact h
  | failing e =>
      rw [Fits, hstage] at hfits
      obtain ⟨hrow, -⟩ := hfits
      rw [step_failing hstage (Task.fail_eq hworks hrow e)]
      trivial
  | broken name =>
      rw [Fits, hstage] at hfits
      exact hfits.elim
  | _ => rwa [step_of_over hstage]

/-- An attempt that is refused something fails, whatever it has read. -/
theorem reads_fault {message : String} (hfault : a.fault s message = some (s', a')) :
    a'.Reads t := by
  obtain ⟨⟨service, task⟩, htask, hpair⟩ := Option.map_eq_some_iff.mp hfault
  cases hpair
  obtain ⟨⟨e, rfl⟩, -⟩ := Task.fault_cases htask
  trivial

/-! ### The name of the file -/

/-- An attempt has the file that it had, or makes one, under a name that the directory takes. -/
theorem file_step (hworks : s.Works) (hfits : a.Fits s) : (a.step s).2.file = a.file ∨
    ∃ name, (a.step s).2.file = some name ∧ name.utf8ByteSize ≤ Disk.maxName := by
  cases hstage : a.task.stage with
  | marking =>
      rcases Task.mark_cases hworks a.task with ⟨-, hmark⟩ | ⟨-, e, hmark⟩ <;>
        rw [step_marking hstage hmark] <;> exact Or.inl rfl
  | preparing =>
      rcases Task.prepare_cases hworks.possible a.task with ⟨e, d, -, hprepare⟩ |
        ⟨d, d', w, -, hcreate, -, hprepare⟩
      · rw [step_preparing hstage hprepare]
        exact Or.inl rfl
      · rw [step_preparing hstage hprepare]
        exact Or.inr ⟨_, rfl, Directory.length_le_of_create hcreate⟩
  | writing name w place =>
      rw [Fits, hstage] at hfits
      obtain ⟨-, hname, -, -, hw⟩ := hfits
      refine Or.inl ?_
      rcases Task.writePage_eq s a.task name place hw with ⟨e, -, hpage⟩ |
        ⟨rows, w', -, -, -, -, hpage⟩ | ⟨rows, w', stats, -, -, -, -, -, hpage⟩
      · rw [step_writing hstage hpage]
        rfl
      · rw [step_writing hstage hpage]
        exact hname.symm
      · rw [step_writing hstage hpage]
        rfl
  | finishing name stats =>
      rw [Fits, hstage] at hfits
      obtain ⟨hrow, -⟩ := hfits
      obtain ⟨job, hcomplete⟩ := Task.complete_eq hworks hrow name
      rw [step_finishing hstage hcomplete]
      exact Or.inl rfl
  | failing e =>
      rw [Fits, hstage] at hfits
      obtain ⟨hrow, -⟩ := hfits
      rw [step_failing hstage (Task.fail_eq hworks hrow e)]
      exact Or.inl rfl
  | broken name =>
      rw [Fits, hstage] at hfits
      exact hfits.elim
  | _ =>
      rw [step_of_over hstage]
      exact Or.inl rfl

end ResponseExport.Export.Attempt
