import ResponseExport.Export.Service
import ResponseExport.Proofs.Csv.Writing
import ResponseExport.Proofs.Keyset.Walk
import ResponseExport.Proofs.Survey.Columns

/-!
# `ResponseExport.Proofs.Export.Writing`: the file of an export

An export task takes its steps one by one, and between two of them everybody else
may act: other tasks, callers, the clock. `Task.after` is the task after steps that
it took in arbitrary services, which need not have anything to do with each other
as long as each of them `Serves` the same answers.

`Task.Fits` is the invariant: a task that is writing has written a first part of
the listing, and stands at its end. `fits_step` keeps it, `fits_after` carries it
through any number of steps, and `stored_of_finishing` says what is in the
directory when the file is complete. `exists_finishing` says that it is complete
after as many steps as there are pages, if the store stays open and the directory
takes the file.
-/

set_option autoImplicit false

namespace ResponseExport.Export

open Survey (Response Cursor Filter responseFile)
open Store (Tables endOf cursorAfter_endOf)
open Csv (Writer)

/-- A writer that has written the header and these responses. -/
abbrev HasWritten (rows : List Response) (w : Writer) : Prop :=
  Writer.Wrote {} Survey.responseColumns (rows.map Response.toRecord) w

/-- The service reads its rows from the users, surveys and responses of `t`, in pages of
this size. -/
structure Service.Serves (t : Tables) (pageSize : Nat) (s : Service) : Prop where
  source : s.source = .table
  answers : t.SameAnswers s.store.tables
  pageSize : s.pageSize = pageSize

theorem toRecords_map_ok (rows : List Response) :
    toRecords (rows.map .ok) = (rows.map Response.toRecord).map .ok := by
  rw [toRecords, List.map_map, List.map_map]
  rfl

namespace Task

/-- A task whose job is marked, and that is about to make its file. -/
def marked (r : Request) : Task := ⟨r, .preparing⟩

/-- A task after steps that it took in these services. -/
def after (task : Task) (services : List Service) : Task :=
  services.foldl (fun task s => (task.step s).2) task

/-- A task that is writing has written a first part of the listing `l`. One that has
finished its file has counted all of it. -/
def Fits (l : List Response) (task : Task) : Prop :=
  match task.stage with
  | .writing _ w place => ∃ a b, l = a ++ b ∧ place = endOf a ∧ HasWritten a w
  | .finishing _ stats => stats.records = l.length ∧ stats.bytes = (responseFile l).length
  | _ => True

variable {t : Tables} {pageSize : Nat} {s : Service} {task : Task}

/-- A step changes nothing of a task but its stage, and only a task that is writing can
complete its file. -/
theorem exists_stage_step (s : Service) (task : Task) :
    ∃ stage, (task.step s).2 = { task with stage } ∧
      ∀ file stats, stage = .finishing file stats →
        ∃ w place, task.stage = .writing file w place := by
  cases hstage : task.stage with
  | marking =>
      rw [step, hstage]
      show ∃ stage, (mark s task).2 = _ ∧ _
      unfold mark
      split <;> exact ⟨_, rfl, nofun⟩
  | preparing =>
      rw [step, hstage]
      show ∃ stage, (prepare s task).2 = _ ∧ _
      unfold prepare
      dsimp only
      split
      · exact ⟨_, rfl, nofun⟩
      · split
        · exact ⟨_, rfl, nofun⟩
        · split
          · split <;> exact ⟨_, rfl, nofun⟩
          · exact ⟨_, rfl, nofun⟩
  | writing file w place =>
      rw [step, hstage]
      show ∃ stage, (writePage s task file w place).2 = _ ∧ _
      unfold writePage
      dsimp only
      split
      · exact ⟨_, rfl, nofun⟩
      · split
        · exact ⟨_, rfl, nofun⟩
        · split
          · split
            · exact ⟨_, rfl, nofun⟩
            · refine ⟨_, rfl, ?_⟩
              intro file' stats' hfinishing
              cases hfinishing
              exact ⟨w, place, rfl⟩
          · exact ⟨_, rfl, nofun⟩
  | finishing file stats =>
      rw [step, hstage]
      exact ⟨_, rfl, nofun⟩
  | failing e =>
      rw [step, hstage]
      show ∃ stage, (fail s task e).2 = _ ∧ _
      unfold fail
      split <;> exact ⟨_, rfl, nofun⟩
  | _ =>
      rw [step, hstage]
      exact ⟨_, congrArg (Task.mk task.request) hstage, nofun⟩

/-- A step never changes what is asked for. -/
theorem request_step (s : Service) (task : Task) : (task.step s).2.request = task.request := by
  obtain ⟨stage, hstep, -⟩ := exists_stage_step s task
  rw [hstep]

/-- The first step that writes leaves a file with the header. -/
theorem fits_prepare (l : List Response) (s : Service) (task : Task) :
    Fits l (prepare s task).2 := by
  unfold prepare
  dsimp only
  split
  · trivial
  · split
    · trivial
    · split
      · split
        · rename_i w hbegin
          exact ⟨[], l, rfl, rfl, Writer.wrote_begin rfl hbegin⟩
        · trivial
      · trivial

/-- If the directory takes a file of its name, a task makes it and writes the header: a file takes
all bytes, since what the file system refuses is an event of its own. -/
theorem prepare_eq {s : Service} (task : Task) (hpossible : isPossible s.pageSize = true)
    {d d' : Directory} (hmake : s.directory.make = .ok d)
    (hcreate : d.create (FileName.stored task.request.survey task.request.id s.now) = .ok d') :
    ∃ w, HasWritten [] w ∧ w.sink.IsLimitless ∧ prepare s task
      = (save { s with directory := d' }
          (FileName.stored task.request.survey task.request.id s.now) w,
        { task with
          stage := .writing (FileName.stored task.request.survey task.request.id s.now) w none }) := by
  obtain ⟨w, hbegin, hsink⟩ := Writer.begin_limitless (w := newWriter) ofSinkFault ⟨rfl, rfl, rfl⟩
  refine ⟨w, Writer.wrote_begin rfl hbegin, hsink, ?_⟩
  rw [prepare, hmake]
  dsimp only
  rw [hcreate]
  dsimp only
  rw [if_pos hpossible, hbegin]

/-- A task that the directory does not give a file fails. -/
theorem prepare_eq_failing {s : Service} (task : Task) {d : Directory} {e : FileError}
    (hmake : s.directory.make = .ok d)
    (hcreate : d.create (FileName.stored task.request.survey task.request.id s.now) = .error e) :
    prepare s task
      = ({ s with directory := d }, { task with stage := .failing (.io e.message) }) := by
  rw [prepare, hmake]
  dsimp only
  rw [hcreate]

/-- What the source answers to a task that asks for the page behind `place`. -/
def answerTo (s : Service) (task : Task) (place : Option Cursor) : PageAnswer :=
  s.source.pages s.store task.filter s.calls place (atLeastOne s.pageSize)

/-- What a step of a task that writes comes to, whatever the source answers. A sink without
limits takes all rows, so there the step fails only if the source does. -/
theorem writePage_eq (s : Service) (task : Task) (file : String) (place : Option Cursor)
    {w : Writer} {a : List Response} (hw : HasWritten a w) :
    (∃ e, (w.sink.IsLimitless → ∃ e', answerTo s task place = .error e') ∧
      writePage s task file w place = failWriting { s with calls := s.calls + 1 } task file e) ∨
    (∃ rows w', answerTo s task place = .ok rows ∧ atLeastOne s.pageSize ≤ rows.length ∧
      HasWritten (a ++ rows) w' ∧ (w.sink.IsLimitless → w'.sink.IsLimitless) ∧
      writePage s task file w place = (save { s with calls := s.calls + 1 } file w',
        { task with stage := .writing file w' (cursorAfter place rows) })) ∨
    (∃ rows w' stats, answerTo s task place = .ok rows ∧ rows.length < atLeastOne s.pageSize ∧
      w'.sink.data = responseFile (a ++ rows) ∧ stats.records = (a ++ rows).length ∧
      stats.bytes = (responseFile (a ++ rows)).length ∧
      writePage s task file w place = (save { s with calls := s.calls + 1 } file w',
        { task with stage := .finishing file stats })) := by
  unfold writePage answerTo
  dsimp only
  cases s.source.pages s.store task.filter s.calls place (atLeastOne s.pageSize) with
  | error e => exact Or.inl ⟨_, fun _ => ⟨e, rfl⟩, rfl⟩
  | ok rows =>
      dsimp only
      rw [toRecords_map_ok]
      have hlimitless := fun h : w.sink.IsLimitless =>
        Writer.writeRecords_limitless ofSinkFault h (rows.map Response.toRecord)
      split
      · rename_i failed e hfailed
        refine Or.inl ⟨e, fun h => ?_, rfl⟩
        obtain ⟨w', hw', -⟩ := hlimitless h
        rw [hfailed] at hw'
        cases hw'
      · rename_i written hwritten
        have hpage : HasWritten (a ++ rows) written := by
          rw [HasWritten, List.map_append]
          exact Writer.wrote_writeRecords hw _ hwritten
        have hsink : w.sink.IsLimitless → written.sink.IsLimitless := by
          intro h
          obtain ⟨w', hw', hsink⟩ := hlimitless h
          rw [hwritten] at hw'
          cases hw'
          exact hsink
        split
        · rename_i hshort
          split
          · rename_i failed e hfailed
            refine Or.inl ⟨e, fun h => ?_, rfl⟩
            obtain ⟨w', stats, hw'⟩ := Writer.finish_limitless ofSinkFault (hsink h)
            rw [hfailed] at hw'
            cases hw'
          · rename_i finished stats hfinish
            obtain ⟨hdata, hrecords, hbytes⟩ := Writer.wrote_finish hpage hfinish
            rw [List.length_map] at hrecords
            exact Or.inr (Or.inr ⟨rows, finished, stats, rfl, hshort, hdata, hrecords, hbytes, rfl⟩)
        · rename_i hfull
          exact Or.inr (Or.inl ⟨rows, written, rfl, Nat.not_lt.mp hfull, hpage, hsink, rfl⟩)

/-- An open store answers a task that has read a first part of the listing with the next page. -/
theorem answerTo_eq (hs : s.Serves t pageSize) (ht : t.Keyed)
    (hpossible : isPossible s.pageSize = true) (hopen : s.store.isOpen = true)
    {a b : List Response} (hab : t.listing task.filter = a ++ b) :
    answerTo s task (endOf a) = .ok (b.take (atLeastOne s.pageSize)) := by
  have hpos : 0 < atLeastOne s.pageSize := Nat.le_max_right _ _
  have hmax : atLeastOne s.pageSize ≤ maxCapacity := of_decide_eq_true hpossible
  have hsize : atLeastOne s.pageSize < Tables.noLimit := Nat.lt_of_le_of_lt hmax (by decide)
  rw [answerTo, hs.source]
  dsimp only [Source.pages]
  rw [fetchPage_eq hopen hpos,
    Tables.page_append (hs.answers.keyed ht) hsize (hs.answers.listing task.filter ▸ hab)]

/-- What a step of a task that writes comes to, if the rows come from tables. It can fail only if
the store is closed or the sink has limits. Otherwise it goes on behind a full page, and
completes the file behind a short one. -/
theorem writePage_cases (hs : s.Serves t pageSize) (ht : t.Keyed) (hpos : 1 ≤ pageSize)
    (hmax : pageSize ≤ maxCapacity) (file : String) {w : Writer} {a b : List Response}
    (hab : t.listing task.filter = a ++ b) (hw : HasWritten a w) :
    (¬ (s.store.isOpen = true ∧ w.sink.IsLimitless) ∧
      ∃ e, (writePage s task file w (endOf a)).2.stage = .failing e) ∨
    (pageSize ≤ b.length ∧ ∃ w', HasWritten (a ++ b.take pageSize) w' ∧
      (w.sink.IsLimitless → w'.sink.IsLimitless) ∧
      (writePage s task file w (endOf a)).2.stage
        = .writing file w' (endOf (a ++ b.take pageSize))) ∨
    (b.length < pageSize ∧ ∃ stats, stats.records = (t.listing task.filter).length ∧
      stats.bytes = (responseFile (t.listing task.filter)).length ∧
      (writePage s task file w (endOf a)).2.stage = .finishing file stats ∧
      (writePage s task file w (endOf a)).1.directory
        = s.directory.write file (responseFile (t.listing task.filter))) := by
  have hone : atLeastOne s.pageSize = pageSize := by
    rw [hs.pageSize]
    exact Nat.max_eq_left hpos
  have hpossible : isPossible s.pageSize = true := by
    rw [isPossible, hone]
    exact decide_eq_true hmax
  -- An open store answers with the next page of the listing, and a closed one not at all.
  have hpage : s.store.isOpen = true → answerTo s task (endOf a) = .ok (b.take pageSize) := by
    intro hopen
    rw [answerTo_eq hs ht hpossible hopen hab, hone]
  have hrest : ∀ rows, answerTo s task (endOf a) = .ok rows → rows = b.take pageSize := by
    intro rows hrows
    cases hopen : s.store.isOpen with
    | true => exact (Except.ok.inj ((hpage hopen).symm.trans hrows)).symm
    | false =>
        rw [answerTo, hs.source, hone] at hrows
        dsimp only [Source.pages] at hrows
        rw [Store.fetchPage, if_neg (Nat.pos_iff_ne_zero.mp hpos), hopen] at hrows
        cases hrows
  rcases writePage_eq s task file (endOf a) hw with ⟨e, herror, heq⟩ |
    ⟨rows, w', hrows, hfull, hw', hsink, heq⟩ |
    ⟨rows, w', stats, hrows, hshort, hdata, hrecords, hbytes, heq⟩
  · refine Or.inl ⟨fun h => ?_, e, by rw [heq]; rfl⟩
    obtain ⟨e', he'⟩ := herror h.2
    rw [hpage h.1] at he'
    cases he'
  · obtain rfl := hrest rows hrows
    rw [hone, List.length_take] at hfull
    refine Or.inr (Or.inl ⟨by omega, w', hw', hsink, ?_⟩)
    rw [heq, ← cursorAfter_endOf]
  · obtain rfl := hrest rows hrows
    rw [hone, List.length_take] at hshort
    -- A short page is all that was left of the listing.
    have hall : b.take pageSize = b := List.take_of_length_le (by omega)
    rw [hall, ← hab] at hdata hrecords hbytes
    refine Or.inr (Or.inr ⟨by omega, stats, hrecords, hbytes, by rw [heq], ?_⟩)
    rw [heq, ← hdata]
    rfl

/-- Every step keeps what is known of a task. -/
theorem fits_step (hs : s.Serves t pageSize) (ht : t.Keyed) (hpos : 1 ≤ pageSize)
    (hmax : pageSize ≤ maxCapacity) (h : Fits (t.listing task.filter) task) :
    Fits (t.listing task.filter) (task.step s).2 := by
  unfold Fits at h
  unfold step
  cases hstage : task.stage with
  | marking =>
      show Fits _ (mark s task).2
      unfold mark
      split <;> trivial
  | preparing => exact fits_prepare _ s task
  | writing file w place =>
      rw [hstage] at h
      obtain ⟨a, b, hab, rfl, hw⟩ := h
      show Fits _ (writePage s task file w (endOf a)).2
      unfold Fits
      rcases writePage_cases hs ht hpos hmax file hab hw with
        ⟨-, e, hfailing⟩ | ⟨-, w', hw', -, hwriting⟩ | ⟨-, stats, hrecords, hbytes, hdone, -⟩
      · rw [hfailing]
        trivial
      · rw [hwriting]
        refine ⟨a ++ b.take pageSize, b.drop pageSize, ?_, rfl, hw'⟩
        rw [hab, List.append_assoc, List.take_append_drop]
      · rw [hdone]
        exact ⟨hrecords, hbytes⟩
  | finishing file stats => trivial
  | failing e =>
      show Fits _ (fail s task e).2
      unfold fail
      split <;> trivial
  -- A task that is over, or broken, stays what it is.
  | _ =>
      show Fits _ task
      rw [Fits, hstage]
      trivial

theorem request_after (task : Task) (services : List Service) :
    (task.after services).request = task.request := by
  induction services generalizing task with
  | nil => rfl
  | cons s services ih => exact (ih (task.step s).2).trans (request_step s task)

/-- A task after any number of steps, whatever happened in between. -/
theorem fits_after (ht : t.Keyed) (hpos : 1 ≤ pageSize) (hmax : pageSize ≤ maxCapacity)
    {services : List Service} (hservices : ∀ s ∈ services, s.Serves t pageSize)
    (h : Fits (t.listing task.filter) task) :
    Fits (t.listing task.filter) (task.after services) := by
  induction services generalizing task with
  | nil => exact h
  | cons s services ih =>
      obtain ⟨hs, hservices⟩ := List.forall_mem_cons.mp hservices
      have hstep := fits_step hs ht hpos hmax h
      -- The listing is the same one for the task behind the step.
      have hfilter : (task.step s).2.filter = task.filter := by
        rw [filter, filter, request_step]
      rw [← hfilter] at hstep ⊢
      exact ih hservices hstep

/-- What was put under a name is found under it. -/
theorem find?_put (file : String) (data : List UInt8) (files : List StoredFile) :
    (Directory.put file data files).find? (fun f => f.name == file) = some ⟨file, data⟩ := by
  induction files with
  | nil => simp [Directory.put]
  | cons f files ih =>
      rw [Directory.put]
      by_cases hname : f.name = file
      · simp [hname]
      · simp [hname, ih]

/-- **A finished file.** A task makes its file, and takes any number of steps while everybody
else does what they want, except to change the answers. When it then completes its file, the
file is in the directory, if there is one, it is that of the listing, and the figures
count it. -/
theorem stored_of_finishing (ht : t.Keyed) (hpos : 1 ≤ pageSize) (hmax : pageSize ≤ maxCapacity)
    {services : List Service} (hservices : ∀ s ∈ services, s.Serves t pageSize)
    (hs : s.Serves t pageSize) {files : List StoredFile} (hfiles : s.directory = .present files)
    {request : Request} {file : String} {stats : Csv.Stats}
    (h : (((marked request).after services).step s).2.stage = .finishing file stats) :
    ∃ files', (((marked request).after services).step s).1.directory = .present files' ∧
      files'.find? (fun f => f.name == file)
        = some ⟨file, responseFile (t.listing (.survey request.user request.survey))⟩ ∧
      stats.records = (t.listing (.survey request.user request.survey)).length ∧
      stats.bytes = (responseFile (t.listing (.survey request.user request.survey))).length := by
  have hfits : Fits (t.listing (marked request).filter) ((marked request).after services) :=
    fits_after ht hpos hmax hservices trivial
  have hfilter : (marked request).filter = ((marked request).after services).filter := by
    rw [filter, filter, request_after]
  have hrequest : ((marked request).after services).filter
      = .survey request.user request.survey := hfilter.symm
  rw [hfilter] at hfits
  -- From here on it only matters what the task is now.
  generalize (marked request).after services = task at h hfits hrequest
  obtain ⟨w, place, hstage⟩ : ∃ w place, task.stage = .writing file w place := by
    obtain ⟨stage, hstep, hfinishing⟩ := exists_stage_step s task
    rw [hstep] at h
    exact hfinishing file stats h
  unfold Fits at hfits
  rw [hstage] at hfits
  obtain ⟨a, b, hab, rfl, hw⟩ := hfits
  have hstep : task.step s = writePage s task file w (endOf a) := by
    rw [step, hstage]
  rw [hstep] at h ⊢
  rw [← hrequest]
  rcases writePage_cases hs ht hpos hmax file hab hw with
    ⟨-, e, hfailing⟩ | ⟨-, w', -, -, hwriting⟩ | ⟨-, stats', hrecords, hbytes, hdone, hdirectory⟩
  · rw [hfailing] at h
    cases h
  · rw [hwriting] at h
    cases h
  · rw [hdone] at h
    cases h
    rw [hfiles] at hdirectory
    exact ⟨_, hdirectory, find?_put _ _ _, hrecords, hbytes⟩

/-! ### Tasks that nothing stops -/

/-- A task that is writing, and has the rows `b` left, completes its file with the first
page that is not full. Until then it takes as many steps as there are full pages. -/
theorem exists_finishing_of_writing (ht : t.Keyed) (hpos : 1 ≤ pageSize)
    (hmax : pageSize ≤ maxCapacity) {services : List Service}
    (hservices : ∀ s ∈ services, s.Serves t pageSize ∧ s.store.isOpen = true)
    (hs : s.Serves t pageSize) (hopen : s.store.isOpen = true) {file : String} {w : Writer}
    {a b : List Response} (hstage : task.stage = .writing file w (endOf a))
    (hab : t.listing task.filter = a ++ b) (hw : HasWritten a w) (hsink : w.sink.IsLimitless)
    (hlength : services.length = b.length / pageSize) :
    ∃ stats, ((task.after services).step s).2.stage = .finishing file stats := by
  induction services generalizing task w a b with
  | nil =>
      have hshort : b.length < pageSize :=
        (Nat.div_eq_zero_iff_lt hpos).mp hlength.symm
      have hstep : task.step s = writePage s task file w (endOf a) := by
        rw [step, hstage]
      show ∃ stats, (task.step s).2.stage = _
      rw [hstep]
      rcases writePage_cases hs ht hpos hmax file hab hw with
        ⟨hnot, -⟩ | ⟨hfull, -⟩ | ⟨-, stats, -, -, hdone, -⟩
      · exact absurd ⟨hopen, hsink⟩ hnot
      · omega
      · exact ⟨stats, hdone⟩
  | cons s' services ih =>
      obtain ⟨hs', hservices⟩ := List.forall_mem_cons.mp hservices
      have hfull : pageSize ≤ b.length := by
        refine Nat.not_lt.mp fun hshort => ?_
        rw [Nat.div_eq_of_lt hshort] at hlength
        cases hlength
      have hstep : task.step s' = writePage s' task file w (endOf a) := by
        rw [step, hstage]
      have hfilter : (task.step s').2.filter = task.filter := by
        rw [filter, filter, request_step]
      rcases writePage_cases hs'.1 ht hpos hmax file hab hw with
        ⟨hnot, -⟩ | ⟨-, w', hw', hsink', hwriting⟩ | ⟨hshort, -⟩
      · exact absurd ⟨hs'.2, hsink⟩ hnot
      · have hrest : services.length = (b.drop pageSize).length / pageSize := by
          rw [Nat.div_eq_sub_div hpos hfull, List.length_cons] at hlength
          rw [List.length_drop]
          omega
        have hab' : t.listing (task.step s').2.filter
            = (a ++ b.take pageSize) ++ b.drop pageSize := by
          rw [hfilter, hab, List.append_assoc, List.take_append_drop]
        rw [← hstep] at hwriting
        exact ih hservices hwriting hab' hw' (hsink' hsink) hrest
      · omega

/-- **A file is finished.** A task that is about to make its file completes it, if the
directory takes a file of its name and the store stays open: with one step more than there
are full pages. -/
theorem exists_finishing (ht : t.Keyed) (hpos : 1 ≤ pageSize) (hmax : pageSize ≤ maxCapacity)
    {s₀ : Service} (hs₀ : s₀.Serves t pageSize) {request : Request} {d d' : Directory}
    (hmake : s₀.directory.make = .ok d)
    (hcreate : d.create (FileName.stored request.survey request.id s₀.now) = .ok d')
    {services : List Service}
    (hservices : ∀ s ∈ services, s.Serves t pageSize ∧ s.store.isOpen = true)
    (hlength : services.length
      = (t.listing (.survey request.user request.survey)).length / pageSize)
    (hs : s.Serves t pageSize) (hopen : s.store.isOpen = true) :
    ∃ stats, (((marked request).after (s₀ :: services)).step s).2.stage
      = .finishing (FileName.stored request.survey request.id s₀.now) stats := by
  have hpossible : isPossible s₀.pageSize = true := by
    rw [hs₀.pageSize, isPossible, atLeastOne, Nat.max_eq_left hpos]
    exact decide_eq_true hmax
  obtain ⟨w, hw, hsink, hprepare⟩ := prepare_eq (marked request) hpossible hmake hcreate
  have hprepared : ((marked request).step s₀).2
      = ⟨request, .writing (FileName.stored request.survey request.id s₀.now) w none⟩ :=
    congrArg Prod.snd hprepare
  rw [after, List.foldl_cons, hprepared]
  exact exists_finishing_of_writing (a := []) ht hpos hmax hservices hs hopen rfl rfl hw hsink hlength

end Task

end ResponseExport.Export
