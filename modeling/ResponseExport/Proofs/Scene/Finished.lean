import ResponseExport.Proofs.Scene.Steps

/-!
# `ResponseExport.Proofs.Scene.Finished`: a finished export is complete and stays

A job that is done has a link and a file, and no other job has either. The file is
complete: the source came to its end, and every row that it gave is in it. From then
on the row and the bytes of the file stay as they are (`finished_exports_stay`).

`Scene.Consistent` ties the three together. The table says of a job that it is done
only if there is an attempt with its id that ended well, under the name that the
table has (`RowFits`), and what this attempt has left behind is known from
`Attempt.Fits`. Two attempts never write the same file, since names of files end with
the ids of exports (`name_ne_of_ne`). So a step of one attempt leaves the others'
files alone, and as an attempt that has ended well does nothing any more, nobody is
left who would write to a finished file or mark its job done once more.

The service begins with an empty table of jobs, but with whatever stands in the
directory. A restart needs no event of its own: attempts that are cut off take no
more steps, and their jobs are failed at the start.
-/

set_option autoImplicit false

namespace ResponseExport.Export

open Store (JobOp JobRow RowsKept)
open Survey (responseTable read_responseFile)

namespace Scene

variable {x x' : Scene}

/-- A job that is done has the link and the file of an attempt that ended well. Another one has
neither. -/
structure RowFits (x : Scene) (j : JobRow) : Prop where
  done : j.status = Status.done.text → j.link = some (Service.link x.service.baseUrl j.id) ∧
    ∃ a ∈ x.attempts, a.isDone = true ∧ a.id = j.id ∧ a.file = j.file
  others : j.status ≠ Status.done.text → j.link = none ∧ j.file = none

/-- How the table of jobs, the attempts and the directory fit together, along all runs. -/
structure Consistent (x : Scene) : Prop where
  works : x.service.Works
  ids_nodup : (x.attempts.map Attempt.id).Nodup
  uuids : ∀ a ∈ x.attempts, isUuid a.id = true
  named : ∀ a ∈ x.attempts, ∀ name, a.file = some name →
    ∃ t, name = FileName.stored a.task.request.survey a.task.request.id t
  fits : ∀ a ∈ x.attempts, a.Fits x.service
  rows : ∀ j ∈ x.jobs, x.RowFits j

/-- Two attempts with the same id are the same attempt. -/
theorem Consistent.eq_of_id (h : x.Consistent) {a b : Attempt} (ha : a ∈ x.attempts)
    (hb : b ∈ x.attempts) (hid : a.id = b.id) : a = b :=
  List.inj_on_of_nodup_map h.ids_nodup ha hb hid

/-- The job of an attempt that has not ended well is not done. -/
theorem Consistent.status_ne (h : x.Consistent) {a : Attempt} (ha : a ∈ x.attempts)
    (hnot : a.isDone = false) : ∀ j ∈ x.jobs, j.id = a.id → j.status ≠ Status.done.text := by
  intro j hj hid hdone
  obtain ⟨-, b, hb, hbdone, hbid, -⟩ := (h.rows j hj).done hdone
  obtain rfl := h.eq_of_id hb ha (hbid.trans hid)
  rw [hnot] at hbdone
  cases hbdone

/-- Attempts with different ids do not have files of the same name. -/
theorem name_ne_of_ne {a b : Attempt} (ha : isUuid a.id = true) (hb : isUuid b.id = true)
    {name name' : String} {t t' : Time.Instant}
    (hname : name = FileName.stored a.task.request.survey a.task.request.id t)
    (hname' : name' = FileName.stored b.task.request.survey b.task.request.id t')
    (hne : a.id ≠ b.id) : name ≠ name' := by
  rintro rfl
  exact hne (stored_injective ha hb (hname.symm.trans hname'))

/-! ### What the table and the directory keep -/

/-- Rows that nobody marked done fit as before. -/
theorem rowFits_of_kept (h : ∀ j ∈ x.jobs, x.RowFits j) (hrows : RowsKept x.jobs x'.jobs)
    (hbase : x'.service.baseUrl = x.service.baseUrl)
    (hattempts : ∀ a ∈ x.attempts, a.isDone = true → a ∈ x'.attempts) :
    ∀ j ∈ x'.jobs, x'.RowFits j := by
  intro j' hj'
  rcases hrows.source j' hj' with hj | hblank | ⟨j, hj, hstatus, hstatus', hlink, hfile⟩
  -- A row that was there, a new one, or one that is not done, before and after.
  · refine ⟨fun hdone => ?_, (h j' hj).others⟩
    obtain ⟨hlink, a, ha, hadone, haid, hafile⟩ := (h j' hj).done hdone
    rw [hbase]
    exact ⟨hlink, a, hattempts a ha hadone, hadone, haid, hafile⟩
  · exact ⟨fun hdone => absurd hdone hblank.status_ne, fun _ => ⟨hblank.link_eq, hblank.file_eq⟩⟩
  · refine ⟨fun hdone => absurd hdone hstatus', fun _ => ?_⟩
    rw [hlink, hfile]
    exact (h j hj).others hstatus

/-- A job that was done stays done, and its file holds what it held. -/
def KeepsFinished (x x' : Scene) : Prop :=
  ∀ j ∈ x.jobs, j.status = Status.done.text → j ∈ x'.jobs ∧ ∀ name, j.file = some name →
    x'.service.directory.data? name = x.service.directory.data? name

theorem keepsFinished_refl (x : Scene) : x.KeepsFinished x := fun _ hj _ => ⟨hj, fun _ _ => rfl⟩

theorem KeepsFinished.trans {x'' : Scene} (h : x.KeepsFinished x') (h' : x'.KeepsFinished x'') :
    x.KeepsFinished x'' := by
  intro j hj hdone
  obtain ⟨hj', hdata⟩ := h j hj hdone
  obtain ⟨hj'', hdata'⟩ := h' j hj' hdone
  exact ⟨hj'', fun name hname => (hdata' name hname).trans (hdata name hname)⟩

/-! ### Events -/

theorem consistent_beside (h : x.Consistent) (hservice : x.service.Beside x'.service)
    (hattempts : x'.attempts = x.attempts) : x'.Consistent ∧ x.KeepsFinished x' := by
  constructor
  · refine ⟨hservice.works, ?_, ?_, ?_, ?_, ?_⟩
    · rw [hattempts]
      exact h.ids_nodup
    · rw [hattempts]
      exact h.uuids
    · rw [hattempts]
      exact h.named
    · rw [hattempts]
      exact fun a ha => (h.fits a ha).beside hservice
    · refine rowFits_of_kept h.rows hservice.rows hservice.baseUrl_eq fun a ha _ => ?_
      rwa [hattempts]
  · intro j hj hdone
    refine ⟨hservice.rows.kept j hj (JobOp.isUnfinished_of_terminal (Or.inl hdone)), fun _ _ => ?_⟩
    rw [hservice.directory_eq]

theorem consistent_process (h : x.Consistent) {r : Request} (huuid : isUuid r.id = true)
    (hnew : ∀ a ∈ x.attempts, a.id ≠ r.id) (hservice : x'.service = x.service)
    (hattempts : x'.attempts = x.attempts ++ [{ task := Task.new r }]) :
    x'.Consistent ∧ x.KeepsFinished x' := by
  have hall : ∀ {P : Attempt → Prop}, (∀ a ∈ x.attempts, P a) → P { task := Task.new r } →
      ∀ a ∈ x'.attempts, P a := by
    intro P hold hlast a ha
    exact forall_mem_concat.mpr ⟨hold, hlast⟩ a (hattempts ▸ ha)
  have hjobs : x'.jobs = x.jobs := by
    rw [jobs, jobs, hservice]
  constructor
  · refine ⟨hservice ▸ h.works, ?_, hall h.uuids huuid, hall h.named nofun, ?_, ?_⟩
    · rw [hattempts, List.map_append, List.nodup_append]
      refine ⟨h.ids_nodup, by simp, ?_⟩
      rintro id hid _ hlast rfl
      obtain ⟨a, ha, rfl⟩ := List.mem_map.mp hid
      exact hnew a ha (List.mem_singleton.mp hlast)
    · rw [hservice]
      exact hall h.fits ⟨rfl, rfl⟩
    · refine rowFits_of_kept h.rows (hjobs ▸ RowsKept.refl _) (by rw [hservice]) fun a ha _ => ?_
      rw [hattempts]
      exact List.mem_append_left _ ha
  · intro j hj _
    exact ⟨hjobs ▸ hj, fun _ _ => by rw [hservice]⟩

/-- One attempt of many, which has not ended well, takes a step. -/
structure Turn (x : Scene) (pre : List Attempt) (a : Attempt) (post : List Attempt) (x' : Scene)
    (a' : Attempt) : Prop where
  before : x.attempts = pre ++ a :: post
  behind : x'.attempts = pre ++ a' :: post
  unfinished : a.isDone = false
  result : Attempt.Result x.service a x'.service a'

namespace Turn

variable {pre post : List Attempt} {a a' : Attempt} (ht : Turn x pre a post x' a')
include ht

theorem mem : a ∈ x.attempts := by
  rw [ht.before]
  exact mem_middle.mpr (Or.inl rfl)

theorem id_eq : a'.id = a.id := congrArg Request.id ht.result.request_eq

theorem forall_others {P : Attempt → Prop} (h : ∀ b ∈ x.attempts, P b) :
    ∀ b ∈ pre ++ post, P b := by
  rw [ht.before] at h
  exact (forall_mem_middle.mp h).2

theorem forall_behind {P : Attempt → Prop} (hown : P a') (h : ∀ b ∈ x.attempts, P b) :
    ∀ b ∈ x'.attempts, P b := by
  rw [ht.behind]
  exact forall_mem_middle.mpr ⟨hown, ht.forall_others h⟩

/-- An attempt that has ended well is another one. -/
theorem mem_others {b : Attempt} (hb : b ∈ x.attempts) (hdone : b.isDone = true) :
    b ∈ pre ++ post := by
  rw [ht.before] at hb
  rcases mem_middle.mp hb with rfl | hb
  · rw [ht.unfinished] at hdone
    cases hdone
  · exact hb

theorem mem_behind {b : Attempt} (hb : b ∈ pre ++ post) : b ∈ x'.attempts := by
  rw [ht.behind]
  exact mem_middle.mpr (Or.inr hb)

theorem id_ne (h : x.Consistent) : ∀ b ∈ pre ++ post, b.id ≠ a'.id := by
  have hnodup := h.ids_nodup
  rw [ht.before, List.map_append, List.map_cons, List.nodup_middle, List.nodup_cons,
    ← List.map_append] at hnodup
  intro b hb heq
  exact hnodup.1 (heq.trans ht.id_eq ▸ List.mem_map_of_mem hb)

/-- The name of the attempt's file, if it has one, ends with its id. -/
theorem named (h : x.Consistent) : ∀ name, a'.file = some name →
    ∃ t, name = FileName.stored a'.task.request.survey a'.task.request.id t := by
  intro name hname
  rw [ht.result.request_eq]
  rcases ht.result.named name hname with hold | hnew
  · exact h.named a ht.mem name hold
  · exact hnew

theorem uuid (h : x.Consistent) : isUuid a'.id = true := by
  rw [ht.id_eq]
  exact h.uuids a ht.mem

/-- The files of the others stay as they are. -/
theorem data_eq (h : x.Consistent) : ∀ b ∈ pre ++ post, ∀ name, b.file = some name →
    x'.service.directory.data? name = x.service.directory.data? name := by
  intro b hb name hname
  -- If it were the attempt's own file, the two names would end with the same id.
  refine ht.result.others name fun hname' => ?_
  obtain ⟨t, hstored⟩ := ht.forall_others h.named b hb name hname
  obtain ⟨t', hstored'⟩ := ht.named h name hname'
  exact name_ne_of_ne (ht.forall_others h.uuids b hb) (ht.uuid h) hstored hstored'
    (ht.id_ne h b hb) rfl

/-- A job that is done was done by another attempt. -/
theorem exists_other (h : x.Consistent) : ∀ j ∈ x.jobs, j.status = Status.done.text →
    ∃ b ∈ pre ++ post, b.isDone = true ∧ b.id = j.id ∧ b.file = j.file := by
  intro j hj hstatus
  obtain ⟨-, b, hb, hdone, hb'⟩ := (h.rows j hj).done hstatus
  exact ⟨b, ht.mem_others hb hdone, hdone, hb'⟩

theorem rowFits (h : x.Consistent) : ∀ j ∈ x'.jobs, x'.RowFits j := by
  rcases ht.result.rows with hkept | ⟨hdone, name, now, hname, hjobs⟩
  · exact rowFits_of_kept h.rows hkept ht.result.baseUrl_eq fun b hb hbdone =>
      ht.mem_behind (ht.mem_others hb hbdone)
  · intro j' hj'
    rw [jobs, hjobs] at hj'
    obtain ⟨j, hj, rfl⟩ := List.mem_map.mp hj'
    by_cases hown : j.id = a'.id
    -- The attempt's own job is done now.
    · rw [JobOp.rewrite, if_pos hown]
      refine ⟨fun _ => ?_, fun hstatus => absurd rfl hstatus⟩
      dsimp only
      rw [hown, ht.result.baseUrl_eq]
      exact ⟨rfl, a', ht.behind ▸ mem_middle.mpr (Or.inl rfl), hdone, rfl, hname⟩
    · rw [JobOp.finish_of_ne hown]
      refine ⟨fun hstatus => ?_, (h.rows j hj).others⟩
      obtain ⟨b, hb, hb'⟩ := ht.exists_other h j hj hstatus
      rw [ht.result.baseUrl_eq]
      exact ⟨((h.rows j hj).done hstatus).1, b, ht.mem_behind hb, hb'⟩

theorem consistent (h : x.Consistent) : x'.Consistent := by
  have hresult := ht.result
  refine ⟨hresult.works, ?_, ht.forall_behind (ht.uuid h) h.uuids,
    ht.forall_behind (ht.named h) h.named, ?_, ht.rowFits h⟩
  · have hnodup := h.ids_nodup
    rw [ht.before, List.map_append, List.map_cons] at hnodup
    rw [ht.behind, List.map_append, List.map_cons, ht.id_eq]
    exact hnodup
  · rw [ht.behind]
    refine forall_mem_middle.mpr ⟨hresult.fits, fun b hb => ?_⟩
    refine (ht.forall_others h.fits b hb).mono (ht.data_eq h b hb) hresult.present
      hresult.pageSize_eq hresult.rows.hasJob fun j hj hid hfailed => ?_
    exact hresult.rows.mem hj (JobOp.isUnfinished_of_terminal (Or.inr hfailed))
      (hid ▸ ht.id_ne h b hb)

theorem keepsFinished (h : x.Consistent) : x.KeepsFinished x' := by
  intro j hj hstatus
  obtain ⟨b, hb, -, hid, hfile⟩ := ht.exists_other h j hj hstatus
  refine ⟨?_, fun name hname => ht.data_eq h b hb name (hfile.trans hname)⟩
  exact ht.result.rows.mem hj (JobOp.isUnfinished_of_terminal (Or.inl hstatus))
    (hid ▸ ht.id_ne h b hb)

end Turn

/-- Every event keeps things consistent, and what is finished. -/
theorem consistent_next (h : x.Consistent) {e : SceneEvent} (he : x.next e = some x') :
    x'.Consistent ∧ x.KeepsFinished x' := by
  rcases next_cases h.works he with ⟨hservice, hattempts⟩ |
    ⟨r, huuid, hnew, hservice, hattempts⟩ | ⟨pre, a, post, a', hsplit, hattempts, hstep⟩
  · exact consistent_beside h hservice hattempts
  · exact consistent_process h huuid hnew hservice hattempts
  · have ha : a ∈ x.attempts := by
      rw [hsplit]
      exact mem_middle.mpr (Or.inl rfl)
    cases hdone : a.isDone with
    | true =>
        -- It does nothing any more, and the file system has nothing to refuse to it.
        rcases hstep with hstep | ⟨message, hfault⟩
        · rw [Attempt.step_of_isDone hdone] at hstep
          obtain ⟨hservice, rfl⟩ := Prod.mk.inj hstep
          refine consistent_beside h (hservice ▸ h.works.beside) (hattempts.trans hsplit.symm)
        · rw [Attempt.fault_of_isDone hdone] at hfault
          cases hfault
    | false =>
        have hresult : Attempt.Result x.service a x'.service a' := by
          rcases hstep with hstep | ⟨message, hfault⟩
          · have hresult :=
              Attempt.result_step h.works (h.fits a ha) fun hnot => h.status_ne ha hnot
            rwa [hstep] at hresult
          · exact Attempt.result_fault h.works (h.fits a ha) hfault
        have hturn : Turn x pre a post x' a' := ⟨hsplit, hattempts, hdone, hresult⟩
        exact ⟨hturn.consistent h, hturn.keepsFinished h⟩

/-! ### The table and the directory agree -/

/-- The table of jobs tells the truth about the files. -/
structure Truthful (x : Scene) : Prop where
  /-- A job has a link exactly if it is done, and so it is with its file. -/
  done_iff : ∀ j ∈ x.jobs, (j.status = Status.done.text ↔ j.link.isSome = true) ∧
    (j.status = Status.done.text ↔ j.file.isSome = true)
  /-- The link of a job that is done leads to its file. The file is in the directory, and holds all
  rows that the source gave for it, of which there are no more. A reader finds the header and the
  cells of each of them. -/
  finished : ∀ j ∈ x.jobs, j.status = Status.done.text →
    j.link = some (x.service.baseUrl ++ "/" ++ j.id ++ "/file") ∧
      ∃ name, j.file = some name ∧ ∃ a ∈ x.attempts, a.id = j.id ∧ a.HasFile x.service name ∧
        (x.service.directory.data? name).bind (Csv.read {})
          = some (responseTable (rowsOf a.answers))
  /-- If an attempt fails after it has made its file, there is no file of this name, and its job has
  failed, without a link. -/
  failed : ∀ a ∈ x.attempts, a.hasFailed = true → ∀ name, a.file = some name →
    x.service.directory.data? name = none ∧
      ∃ j ∈ x.jobs, j.id = a.id ∧ j.status = Status.failed.text ∧ j.link = none ∧ j.file = none

theorem Consistent.truthful (h : x.Consistent) : x.Truthful := by
  have hfinished : ∀ j ∈ x.jobs, j.status = Status.done.text →
      j.link = some (Service.link x.service.baseUrl j.id) ∧
        ∃ name, j.file = some name ∧ ∃ a ∈ x.attempts, a.id = j.id ∧ a.HasFile x.service name ∧
          (x.service.directory.data? name).bind (Csv.read {})
            = some (responseTable (rowsOf a.answers)) := by
    intro j hj hdone
    obtain ⟨hlink, a, ha, hadone, haid, hafile⟩ := (h.rows j hj).done hdone
    obtain ⟨name, hname⟩ := Attempt.exists_file (h.fits a ha) hadone
    refine ⟨hlink, name, hafile.symm.trans hname.file_eq, a, ha, haid, hname, ?_⟩
    rw [hname.data_eq, Option.bind_some]
    exact read_responseFile _
  refine ⟨fun j hj => ?_, hfinished, fun a ha hfailed name hname => ?_⟩
  · by_cases hdone : j.status = Status.done.text
    · obtain ⟨hlink, name, hname, -⟩ := hfinished j hj hdone
      simp [hdone, hlink, hname]
    · obtain ⟨hlink, hfile⟩ := (h.rows j hj).others hdone
      simp [hdone, hlink, hfile]
  · obtain ⟨hnoFile, hjob⟩ := Attempt.failed_of_fits (h.fits a ha) hfailed
    obtain ⟨j, hj, hid, hstatus⟩ := hjob (by rw [hname]; nofun)
    refine ⟨hnoFile name hname, j, hj, hid, hstatus, (h.rows j hj).others ?_⟩
    rw [hstatus]
    decide

/-- A service without jobs is consistent, whatever is in its directory. -/
theorem consistent_new {s : Service} (hs : s.Works) (hempty : s.store.tables.jobs = []) :
    Consistent { service := s } := by
  refine ⟨hs, List.nodup_nil, List.forall_mem_nil _, List.forall_mem_nil _, List.forall_mem_nil _,
    ?_⟩
  rw [jobs, hempty]
  exact List.forall_mem_nil _

/-- **A finished export is complete and stays.** Take a service without jobs whose table of jobs
does not fail, and any interleaving of what callers, attempts and the world around do. The
table tells the truth about the files, and whatever happens later, a job that is done and
its file stay as they are. -/
theorem finished_exports_stay {s : Service} (hs : s.Works) (hempty : s.store.tables.jobs = [])
    {events : List SceneEvent} {x : Scene} (hrun : run { service := s } events = some x) :
    x.Truthful ∧ ∀ later x', x.run later = some x' → x.KeepsFinished x' := by
  have hx : x.Consistent :=
    foldlM_induction (fun _ _ _ _ hy he => (consistent_next hy he).1) (consistent_new hs hempty) hrun
  refine ⟨hx.truthful, fun later x' hlater => ?_⟩
  have hkept : x'.Consistent ∧ x.KeepsFinished x' := by
    refine foldlM_induction (P := fun y => y.Consistent ∧ x.KeepsFinished y) ?_
      ⟨hx, keepsFinished_refl x⟩ hlater
    intro e _ y y' hy he
    obtain ⟨hy', hkeeps⟩ := consistent_next hy.1 he
    exact ⟨hy', hy.2.trans hkeeps⟩
  exact hkept.2

/-- A service that is given one row for its first export, and one for its second one. -/
def oneRowEach : Service where
  store := {}
  directory := .absent
  source := .script (List.replicate 2 (.ok
    [{ survey := "s", respondent := "u", question := "q", time := "2024-03-01T10:00:00Z" }]))
  now := ⟨0, 0⟩

/-- Two exports of one survey, at the same time. The first one gets through, and the second one
fails when the disk is full. -/
def twinRun : List SceneEvent :=
  let r : Request := ⟨"0b8f8b1e-7a55-4c5e-9a37-0c6f5d1c2a01", "u", "One"⟩
  let r' : Request := ⟨"0b8f8b1e-7a55-4c5e-9a37-0c6f5d1c2a02", "u", "One"⟩
  let queue : Queue := {
    workers := 2, capacity := 2, waiting := [], dispatch := .receiving, permits := 2, active := 0,
    running := [], closing := 0, leaving := 0, started := [], abandoned := [], finished := [],
    shutdown := false, senderGone := false }
  [.ask r, .proceed 0 queue, .ask r', .proceed 1 queue, .proceed 0 queue, .proceed 1 queue,
    .process r, .work 0, .process r', .work 0, .work 1, .work 1, .work 0, .work 0,
    .fault 1 "disk full", .work 1]

/-- The first export is done, and has the only file. The second one has left nothing. -/
theorem finished_exports_stay_twins :
    ∃ x, run { service := oneRowEach } twinRun = some x ∧ x.Truthful ∧
      (∀ later x', x.run later = some x' → x.KeepsFinished x') ∧
      x.jobs.map JobRow.status = ["done", "error"] ∧
      x.attempts.map (fun a => (a.file.isSome, a.hasFailed)) = [(true, false), (true, true)] ∧
      (x.service.directory.files?.map List.length) = some 1 := by
  have hworks : oneRowEach.Works :=
    ⟨⟨rfl, List.nodup_nil, nofun⟩, ⟨by decide +kernel, by decide +kernel, by decide⟩, rfl⟩
  have hend : (run { service := oneRowEach } twinRun).map (fun x =>
      (x.jobs.map JobRow.status, x.attempts.map (fun a => (a.file.isSome, a.hasFailed)),
        x.service.directory.files?.map List.length))
      = some (["done", "error"], [(true, false), (true, true)], some 1) := by
    decide +kernel
  obtain ⟨x, hrun, hsummary⟩ := Option.map_eq_some_iff.mp hend
  simp only [Prod.mk.injEq] at hsummary
  obtain ⟨htruthful, hlater⟩ := finished_exports_stay hworks rfl hrun
  exact ⟨x, hrun, htruthful, hlater, hsummary⟩

end Scene

end ResponseExport.Export
