import ResponseExport.Http.Answer
import ResponseExport.Proofs.Callers.Rows
import ResponseExport.Proofs.Keyset.Walk
import ResponseExport.Proofs.Survey.Columns

/-!
# `ResponseExport.Proofs.Callers.Isolation`: callers do not see each other

Two services may agree on what is a caller's own, and differ in everything else:
other users and their surveys, the answers of the same respondents to them, other
jobs, the rest of the disk, the clock, the page size, and the order in which rows
were inserted. Then the caller gets the same replies from both, with one exception
(`callers_are_isolated`): form data tell the order in which tied versions of a survey
were inserted (`callers_tell_insertions_apart`).

The queries are in `Proofs.Callers.Rows`. What is left is the file of an export,
which is looked up by its id first and only then asked for its owner. So what is
said of a job of somebody else has to be what is said of no job at all.
-/

set_option autoImplicit false

namespace ResponseExport.Export

open Store (JobRow Tables JobOp)

/-- A service whose tables are as the rules of the tables and the service itself leave them: keys
are respected, and every job has one of the four statuses and a time that can be read. -/
structure Service.Lawful (s : Service) : Prop where
  source : s.source = .table
  keyed : s.store.tables.Keyed
  uniqueIds : JobOp.UniqueIds s.store
  readable : ∀ j ∈ s.store.tables.jobs, j.IsReadable

/-- What reading a file that a service finds under a name gives. -/
def Service.contents (s : Service) (name : String) :
    Except FileError (Except FileError (List UInt8)) :=
  (s.directory.locate s.outside name).map Target.read

/-- Two services that agree on what is a caller's own: the rows, and the files that the caller's
jobs name. Both stores are open or both closed, and both page sizes can be had or neither. -/
structure Service.Agree (u : String) (s s' : Service) : Prop where
  lawful : s.Lawful
  lawful' : s'.Lawful
  isOpen : s.store.isOpen = s'.store.isOpen
  possible : isPossible s.pageSize = isPossible s'.pageSize
  tables : Tables.Agree u s.store.tables s'.store.tables
  files : ∀ j ∈ s.store.tables.jobsOf u, ∀ name, j.file = some name →
    s.contents name = s'.contents name

/-! ### The file of an export -/

theorem text_of_ofText? {text : String} {status : Status} (h : Status.ofText? text = some status) :
    status.text = text := by
  rw [Status.ofText?] at h
  repeat' split at h
  all_goals cases h
  all_goals exact ‹text = _›.symm

/-- What a job says is what stands in its row. -/
theorem job_eq_ok {j : JobRow} {job : Job} (h : j.job = .ok job) :
    job.user = j.user ∧ job.file = j.file ∧ job.status.text = j.status := by
  rw [JobRow.job] at h
  split at h
  · cases h
  · rename_i status hstatus
    split at h
    · cases h
    · obtain rfl := Except.ok.inj h
      exact ⟨rfl, rfl, text_of_ofText? hstatus⟩

namespace Service

variable {u : String} {s s' : Service}

theorem findJob_eq (hopen : s.store.isOpen = true) (id : String) :
    s.store.findJob id = s.store.tables.findJob id := by
  rw [Store.findJob, if_pos hopen]

/-- The row of a job is found under its id, and read. -/
theorem Lawful.exists_job (h : s.Lawful) {j : JobRow} (hj : j ∈ s.store.tables.jobs) :
    ∃ job, s.store.tables.findJob j.id = .ok job ∧ j.job = .ok job := by
  obtain ⟨job, hjob⟩ := Store.JobRow.exists_job (h.readable j hj)
  refine ⟨job, ?_, hjob⟩
  rw [Tables.findJob, JobOp.jobRow?_of_mem h.uniqueIds hj]
  exact hjob

/-- An id of no job, of somebody else's job and of an unfinished job all look the same. -/
theorem Lawful.openFile_eq_notFinished (h : s.Lawful) (hopen : s.store.isOpen = true) {id : String}
    (hnot : ∀ j ∈ s.store.tables.jobs, j.id = id → j.user ≠ u ∨ j.status ≠ Status.done.text) :
    s.openFile u id = .error (notFinished id) := by
  rw [openFile, findJob_eq hopen]
  by_cases hrow : ∃ j ∈ s.store.tables.jobs, j.id = id
  · obtain ⟨j, hj, rfl⟩ := hrow
    obtain ⟨job, hfound, hjob⟩ := h.exists_job hj
    obtain ⟨huser, -, hstatus⟩ := job_eq_ok hjob
    have hrefused : job.user ≠ u ∨ job.status ≠ .done := by
      rcases hnot j hj rfl with hother | hunfinished
      · exact Or.inl (huser ▸ hother)
      · exact Or.inr fun hdone => hunfinished (by rw [← hstatus, hdone])
    rw [hfound]
    dsimp only
    rw [if_pos hrefused]
  · rw [Store.findJob_of_not_hasJob hrow]

/-- The rows of a caller's own job, and of no other, are known from what is the caller's. -/
theorem Agree.mem_jobs (h : s.Agree u s') {j : JobRow} (hj : j ∈ s.store.tables.jobs)
    (huser : j.user = u) : j ∈ s'.store.tables.jobs := by
  have hown : j ∈ s.store.tables.jobsOf u := List.mem_filter.mpr ⟨hj, beq_iff_eq.mpr huser⟩
  exact List.mem_of_mem_filter (h.tables.jobs.mem_iff.mp hown)

theorem Agree.mem_jobs' (h : s.Agree u s') {j : JobRow} (hj : j ∈ s'.store.tables.jobs)
    (huser : j.user = u) : j ∈ s.store.tables.jobs := by
  have hown : j ∈ s'.store.tables.jobsOf u := List.mem_filter.mpr ⟨hj, beq_iff_eq.mpr huser⟩
  exact List.mem_of_mem_filter (h.tables.jobs.mem_iff.mpr hown)

/-- Opening the file of an export and reading it gives the same in both services. -/
theorem Agree.openFile_eq (h : s.Agree u s') (id : String) :
    (s.openFile u id).map (fun p => (p.1, p.2.read))
      = (s'.openFile u id).map fun p => (p.1, p.2.read) := by
  cases hopen : s.store.isOpen with
  | false =>
      have hopen' := h.isOpen.symm.trans hopen
      simp only [openFile, Store.findJob, hopen, hopen']
      rfl
  | true =>
      have hopen' := h.isOpen.symm.trans hopen
      by_cases hown : ∃ j ∈ s.store.tables.jobs, j.id = id ∧ j.user = u
      -- The caller's own job is there in both, and its file gives the same.
      · obtain ⟨j, hj, rfl, huser⟩ := hown
        obtain ⟨job, hfound, hjob⟩ := h.lawful.exists_job hj
        obtain ⟨job', hfound', hjob'⟩ := h.lawful'.exists_job (h.mem_jobs hj huser)
        obtain rfl := Except.ok.inj (hjob.symm.trans hjob')
        obtain ⟨-, hfile, -⟩ := job_eq_ok hjob
        rw [openFile, openFile, findJob_eq hopen, findJob_eq hopen', hfound, hfound']
        dsimp only
        split
        · rfl
        · cases hname : job.file with
          | none => rfl
          | some name =>
              have hown : j ∈ s.store.tables.jobsOf u :=
                List.mem_filter.mpr ⟨hj, beq_iff_eq.mpr huser⟩
              have hread := h.files j hown name (hfile.symm.trans hname)
              rw [contents, contents] at hread
              dsimp only
              cases htarget : s.directory.locate s.outside name <;>
                cases htarget' : s'.directory.locate s'.outside name <;>
                rw [htarget, htarget'] at hread
              · obtain rfl := Except.error.inj hread
                rename_i e
                cases e <;> rfl
              · cases hread
              · cases hread
              · exact congrArg (fun data => Except.ok (name, data)) (Except.ok.inj hread)
      -- Any other id is that of somebody else's job or of none, each in its own way.
      · have hnone : ∀ j ∈ s.store.tables.jobs, j.id = id →
            j.user ≠ u ∨ j.status ≠ Status.done.text :=
          fun j hj hid => Or.inl fun huser => hown ⟨j, hj, hid, huser⟩
        have hnone' : ∀ j ∈ s'.store.tables.jobs, j.id = id →
            j.user ≠ u ∨ j.status ≠ Status.done.text :=
          fun j hj hid => Or.inl fun huser => hown ⟨j, h.mem_jobs' hj huser, hid, huser⟩
        rw [h.lawful.openFile_eq_notFinished hopen hnone,
          h.lawful'.openFile_eq_notFinished hopen' hnone']

/-! ### Rows -/

theorem Agree.fetchPage_eq (h : s.Agree u s') (name : String) (after : Option Survey.Cursor)
    (limit : Nat) :
    s.store.fetchPage (.survey u name) after limit
      = s'.store.fetchPage (.survey u name) after limit := by
  rw [Store.fetchPage, Store.fetchPage, h.isOpen, Tables.page, Tables.page,
    h.tables.listing_eq h.lawful.keyed h.lawful'.keyed]

theorem Agree.fetchSpans_eq (h : s.Agree u s') (name : Option String) :
    s.store.fetchSpans u name = s'.store.fetchSpans u name := by
  rw [Store.fetchSpans, Store.fetchSpans, h.isOpen,
    h.tables.spans_eq h.lawful.keyed h.lawful'.keyed]

theorem Agree.list_eq (h : s.Agree u s') (survey : Option String) :
    s.list u survey = s'.list u survey := by
  rw [list, list, Store.listJobs, Store.listJobs, h.isOpen,
    h.tables.listJobs_eq h.lawful.uniqueIds]

theorem walk?_atLeastOne (store : Store) (f : Survey.Filter) (pageSize calls : Nat) :
    Source.table.walk? store f pageSize calls
      = Source.table.walk? store f (atLeastOne pageSize) calls := by
  have hone : atLeastOne (atLeastOne pageSize) = atLeastOne pageSize :=
    Nat.max_eq_left (Nat.le_max_right pageSize 1)
  rw [Source.walk?, Source.walk?, isPossible, isPossible, hone]

/-- The items of a download: the listing, or the fault of a closed store. -/
theorem Lawful.rows?_eq (h : s.Lawful) (f : Survey.Filter)
    (hpossible : isPossible s.pageSize = true) :
    (s.rows? f).map (·.2) = some (if s.store.isOpen then (s.store.tables.listing f).map .ok
      else [.error (.ofDomain (Store.queryClosed "Failed to fetch responses"))]) := by
  have hpos : 1 ≤ atLeastOne s.pageSize := Nat.le_max_right _ _
  rw [rows?, h.source]
  cases hopen : s.store.isOpen with
  | true =>
      rw [walk?_atLeastOne, walk?_table hopen h.keyed f hpos (of_decide_eq_true hpossible)]
      rfl
  | false =>
      have hclosed : s.store.fetchPage f none (atLeastOne s.pageSize)
          = .error (Store.queryClosed "Failed to fetch responses") := by
        rw [Store.fetchPage, if_neg (Nat.ne_of_gt hpos), if_neg (by rw [hopen]; decide)]
      rw [Source.walk?, if_pos hpossible, Source.walkSteps, walk, Source.pages]
      dsimp only
      rw [hclosed]
      rfl

theorem Agree.rows?_eq (h : s.Agree u s') (name : String) :
    (s.rows? (.survey u name)).map (·.2) = (s'.rows? (.survey u name)).map (·.2) := by
  cases hpossible : isPossible s.pageSize with
  | true =>
      rw [h.lawful.rows?_eq _ hpossible, h.lawful'.rows?_eq _ (h.possible ▸ hpossible), h.isOpen,
        h.tables.listing_eq h.lawful.keyed h.lawful'.keyed]
  | false =>
      have hpossible' : isPossible s'.pageSize = false := h.possible ▸ hpossible
      rw [rows?, rows?, Source.walk?, Source.walk?, hpossible, hpossible']
      rfl

end Service

end ResponseExport.Export

namespace ResponseExport.Http

open Export (Service System Status isPossible)
open Store (Tables)
open Store.Tables (SameTies)
open Survey (formFile ids_eq_of_formFile)

/-- What a caller gets to see of a reply: its status, its body, and what cut the body short. -/
def Reply.shown (r : Reply) : Nat × List UInt8 × Option String := (r.status, r.body, r.fault)

/-- The name of a file is not shown; it tells the time. -/
theorem shown_attachment (name : String) (body : List UInt8) (fault : Option String) :
    (reply (.ok (.attachment name body fault))).shown = (200, body, fault) := rfl

theorem shown_responsesReply (s s' : Service) (survey : String) (items : List Export.Item) :
    (reply (responsesReply s survey items)).shown
      = (reply (responsesReply s' survey items)).shown := by
  have hfile : (reply (.ok (responsesFile (Export.FileName.report survey s.now) items))).shown
      = (reply (.ok (responsesFile (Export.FileName.report survey s'.now) items))).shown := by
    rw [responsesFile, responsesFile, shown_attachment, shown_attachment]
  cases items with
  | nil => exact hfile
  | cons item items =>
      cases item with
      | error e => rfl
      | ok r => exact hfile

theorem forms_eq (s : Service) (u : String) {name : String} {q : Query}
    (hq : q.requiredSurvey = .ok name) :
    forms s u q = ((s.store.fetchForms u name).mapError .domain).map fun rows =>
      .attachment (Export.FileName.forms name s.now) (formFile rows) none := by
  simp only [forms, hq, bind, Except.bind, pure, Except.pure]
  cases s.store.fetchForms u name <;> simp only [Except.mapError, Except.map, formFile]

/-- The reply to a request for form data shows the file. -/
theorem shown_forms {s : Service} (hs : s.store.isOpen = true) (owner : String) {name : String}
    {q : Query} (hq : q.requiredSurvey = .ok name) :
    (reply (forms s owner q)).shown = (200, formFile (s.store.tables.forms owner name), none) := by
  rw [forms_eq s owner hq, Store.fetchForms, if_pos hs]
  exact shown_attachment _ _ _

theorem parameters_eq {r : Request} {u : String} (hcaller : r.caller = .ok u) (listing : Bool) :
    parameters listing r = (Query.read listing r.target).map fun q => (u, q) := by
  rw [parameters, hcaller]
  rfl

section

variable {u : String} {s s' : Service} (h : s.Agree u s')
include h

theorem listing_agree (q : Query) : listing s u q = listing s' u q := by
  have hpage : ∀ name, Listing.page s.store (.survey u name) q.after q.pageSize
      = Listing.page s'.store (.survey u name) q.after q.pageSize := by
    intro name
    rw [Listing.page, Listing.page]
    simp only [h.fetchPage_eq]
  rw [listing, listing]
  simp only [hpage]

theorem spans_agree (q : Query) : spans s u q = spans s' u q := by
  rw [spans, spans, h.fetchSpans_eq]

theorem status_agree (q : Query) : status s u q = status s' u q := by
  rw [status, status, h.list_eq]

/-- Form data are shown alike if tied versions stand in the same order, and not otherwise. -/
theorem forms_agree_iff (q : Query) :
    (reply (forms s u q)).shown = (reply (forms s' u q)).shown ↔
      ∀ name, q.requiredSurvey = .ok name → s.store.isOpen = true →
        SameTies u name s.store.tables s'.store.tables := by
  cases hq : q.requiredSurvey with
  | error e =>
      refine iff_of_true ?_ fun _ hname => nomatch hname
      simp only [forms, hq, bind, Except.bind]
  | ok name =>
      cases hopen : s.store.isOpen with
      | false =>
          refine iff_of_true ?_ fun _ _ hfalse => nomatch hfalse
          have hopen' := h.isOpen.symm.trans hopen
          rw [forms_eq s u hq, forms_eq s' u hq, Store.fetchForms, Store.fetchForms, hopen, hopen']
          simp only [Except.mapError, Except.map, Bool.false_eq_true, if_false]
      | true =>
          have hopen' := h.isOpen.symm.trans hopen
          rw [shown_forms hopen u hq, shown_forms hopen' u hq]
          constructor
          · intro hshown _ hname _
            obtain rfl := Except.ok.inj hname
            -- The file is read back, so it gives away the ids of the forms in their order.
            exact Tables.sameTies_of_forms h.lawful.keyed h.lawful'.keyed h.tables.surveys
              (ids_eq_of_formFile (congrArg (·.2.1) hshown))
          · intro hties
            rw [Tables.forms_eq_of_sameTies h.lawful.keyed h.lawful'.keyed h.tables.surveys
              (hties name rfl rfl)]

theorem responses_agree (q : Query) :
    (responses s u q).map (fun p => (reply p.2).shown)
      = (responses s' u q).map fun p => (reply p.2).shown := by
  rw [responses, responses]
  cases q.requiredSurvey with
  | error e => rfl
  | ok name =>
      have hshown : ∀ t : Service,
          ((t.rows? (.survey u name)).map fun p => (p.1, responsesReply t name p.2)).map
              (fun p => (reply p.2).shown)
            = ((t.rows? (.survey u name)).map (·.2)).map
              fun items => (reply (responsesReply s name items)).shown := by
        intro t
        rw [Option.map_map, Option.map_map]
        refine congrFun (congrArg Option.map (funext fun p => ?_)) _
        exact shown_responsesReply t s name p.2
      exact (hshown s).trans ((congrArg _ (h.rows?_eq name)).trans (hshown s').symm)

theorem file_agree (id : String) : file s u id = file s' u id := by
  rw [file, file]
  cases exportId id with
  | error e => rfl
  | ok id =>
      have hopen := h.openFile_eq id
      cases hs : s.openFile u id with
      | error e =>
          cases hs' : s'.openFile u id with
          | error e' =>
              rw [hs, hs'] at hopen
              cases hopen
              simp only [bind, Except.bind, hs, hs']
          | ok p' =>
              rw [hs, hs'] at hopen
              cases hopen
      | ok p =>
          cases hs' : s'.openFile u id with
          | error e' =>
              rw [hs, hs'] at hopen
              cases hopen
          | ok p' =>
              rw [hs, hs'] at hopen
              injection hopen with hpair
              injection hpair with hname hdata
              simp only [bind, Except.bind, hs, hs', hname, hdata]

/-- The same question, whatever is asked for but form data, is answered alike. -/
theorem read_agree {r : Request} (hcaller : r.caller = .ok u) {resource : Resource}
    (hne : resource ≠ .forms) :
    (read s false resource r).map (fun p => (reply p.2).shown)
      = (read s' false resource r).map fun p => (reply p.2).shown := by
  cases resource with
  | health => rfl
  | file id =>
      rw [read, read, hcaller]
      simp only [Except.bind, Option.map_some, file_agree h]
  | listing =>
      rw [read, read, parameters_eq hcaller]
      cases Query.read true r.target with
      | error e => simp only [Except.map, Except.bind, Option.map_some]
      | ok q => simp only [Except.map, Except.bind, Option.map_some, listing_agree h]
  | forms => exact absurd rfl hne
  | spans =>
      rw [read, read, parameters_eq hcaller]
      cases Query.read false r.target with
      | error e => simp only [Except.map, Except.bind, Option.map_some]
      | ok q => simp only [Except.map, Except.bind, Option.map_some, spans_agree h]
  | status =>
      rw [read, read, parameters_eq hcaller]
      cases Query.read false r.target with
      | error e => simp only [Except.map, Except.bind, Option.map_some]
      | ok q => simp only [Except.map, Except.bind, Option.map_some, status_agree h]
  | responses =>
      rw [read, read, parameters_eq hcaller]
      cases Query.read false r.target with
      | error e => rfl
      | ok q => exact responses_agree h q

/-- The question for form data is answered alike exactly when the tied versions of the survey that
is asked for stand in the same order. -/
theorem read_forms_iff {r : Request} (hcaller : r.caller = .ok u) :
    (read s false .forms r).map (fun p => (reply p.2).shown)
        = (read s' false .forms r).map (fun p => (reply p.2).shown) ↔
      ∀ q name, Query.read false r.target = .ok q → q.requiredSurvey = .ok name →
        s.store.isOpen = true → SameTies u name s.store.tables s'.store.tables := by
  rw [read, read, parameters_eq hcaller]
  cases Query.read false r.target with
  | error e =>
      refine iff_of_true ?_ fun _ _ hread => nomatch hread
      simp only [Except.map, Except.bind, Option.map_some]
  | ok q =>
      simp only [Except.map, Except.bind, Option.map_some, Option.some_inj, forms_agree_iff h]
      exact ⟨fun hall _ name hread hname => hall name (Except.ok.inj hread ▸ hname),
        fun hall name => hall q name rfl⟩

end

/-- A question is answered if the rows can be read in pages of the set size. -/
theorem read_isSome {s : Service} (h : s.Lawful) (hpossible : isPossible s.pageSize = true)
    (resource : Resource) (r : Request) : (read s false resource r).isSome = true := by
  cases resource with
  | responses =>
      rw [read]
      cases parameters false r with
      | error e => rfl
      | ok p =>
          show (responses s p.1 p.2).isSome = true
          rw [responses]
          cases p.2.requiredSurvey with
          | error e => rfl
          | ok name =>
              have hrows := congrArg Option.isSome (h.rows?_eq (.survey p.1 name) hpossible)
              rw [Option.isSome_map] at hrows
              dsimp only
              rw [Option.isSome_map, hrows]
              rfl
  | _ => rfl

/-- The reply to a caller who asks for the file of an export that is not to be shown. -/
theorem file_eq_notFinished {s : Service} (h : s.Lawful) {u part id : String}
    (hopen : s.store.isOpen = true) (hid : exportId part = .ok id)
    (hnot : ∀ j ∈ s.store.tables.jobs, j.id = id → j.user ≠ u ∨ j.status ≠ Status.done.text) :
    reply (file s u part) = .plain 404 ("No finished export " ++ id) := by
  rw [file, hid]
  show reply (s.openFile u id >>= _) = _
  rw [h.openFile_eq_notFinished hopen hnot]
  rfl

/-! ### Requests -/

/-- What a caller reads is answered by the route. -/
theorem handle_get {r : Request} (hget : r.method = "GET") (y : System) (fresh : String) :
    (handle y fresh r).map (·.2) =
      match Route.ofPath? r.target.path with
      | none => some (.plain 404 r.target.text)
      | some .request => some (.notAllowed Route.request.methods)
      | some (.resource resource) => (read y.service false resource r).map fun p => reply p.2 := by
  rw [handle]
  cases Route.ofPath? r.target.path with
  | none => rfl
  | some route =>
      cases route with
      | request =>
          rw [hget]
          rfl
      | resource resource =>
          have haction : (Route.resource resource).action r.method = .answer := by
            rw [hget]
            rfl
          dsimp only
          rw [haction]
          dsimp only
          rw [Option.map_map]
          rfl

/-- Callers get to see what is their own, and nothing else: two services that agree on a caller's
rows and files answer all that the caller may read with the same status and the same body. The one
exception are form data, which are the same exactly if the tied versions of the survey were inserted
in the same order. An id of no job, of a job of somebody else, and of an unfinished job get the same
reply. -/
theorem callers_are_isolated {u : String} {y y' : System} (h : y.service.Agree u y'.service)
    {r : Request} (hget : r.method = "GET") (hcaller : r.caller = .ok u) (fresh fresh' : String) :
    (((handle y fresh r).map (·.2)).map Reply.shown
        = ((handle y' fresh' r).map (·.2)).map Reply.shown ↔
      ∀ q name, Route.ofPath? r.target.path = some (.resource .forms) →
        Query.read false r.target = .ok q → q.requiredSurvey = .ok name →
        y.service.store.isOpen = true →
        SameTies u name y.service.store.tables y'.service.store.tables) ∧
    (isPossible y.service.pageSize = true → (handle y fresh r).isSome = true) ∧
    (∀ part id, Route.ofPath? r.target.path = some (.resource (.file part)) →
      exportId part = .ok id → y.service.store.isOpen = true →
      (∀ j ∈ y.service.store.tables.jobs, j.id = id →
        j.user ≠ u ∨ j.status ≠ Status.done.text) →
      (handle y fresh r).map (·.2) = some (.plain 404 ("No finished export " ++ id))) := by
  refine ⟨?_, fun hpossible => ?_, fun part id hpath hid hopen hnot => ?_⟩
  · rw [handle_get hget, handle_get hget]
    cases hroute : Route.ofPath? r.target.path with
    | none => exact iff_of_true rfl fun _ _ hforms => nomatch hforms
    | some route =>
        cases route with
        | request => exact iff_of_true rfl fun _ _ hforms => nomatch hforms
        | resource resource =>
            dsimp only
            rw [Option.map_map, Option.map_map]
            by_cases hforms : resource = .forms
            · obtain rfl := hforms
              refine (read_forms_iff h hcaller).trans ?_
              exact ⟨fun hall q name _ => hall q name, fun hall q name => hall q name rfl⟩
            · refine iff_of_true (read_agree h hcaller hforms) fun _ _ hsome => ?_
              exact absurd (Route.resource.inj (Option.some.inj hsome)) hforms
  · rw [← Option.isSome_map (f := (·.2)), handle_get hget]
    split
    · rfl
    · rfl
    · rw [Option.isSome_map]
      exact read_isSome h.lawful hpossible _ r
  · rw [handle_get hget, hpath]
    simp only [read, hcaller, Except.bind, Option.map_some]
    rw [file_eq_notFinished h.lawful hopen hid hnot]

/-- Two owners, `a` and `b`, with a survey of the same name each. One respondent has answered both,
and each of the owners has a finished export. -/
def twoOwners : Service where
  store := { tables := {
    users := [⟨"a", "a@example.com"⟩, ⟨"b", "b@example.com"⟩]
    surveys := [
      ⟨"sa", "a", "Survey", "sc", "2024", none⟩, ⟨"sb", "b", "Survey", "sc", "2023", none⟩]
    responses := [
      { survey := "sb", respondent := "p", question := "q", time := "2023-03-01T10:00:00Z" },
      { survey := "sa", respondent := "p", question := "q", time := "2024-03-01T10:00:00Z" }]
    jobs := [
      ⟨"jb", "Survey", "b@example.com", Time.Instant.millisText ⟨0, 0⟩, "done", none, some "b.csv"⟩,
      ⟨"ja", "Survey", "a@example.com", Time.Instant.millisText ⟨0, 0⟩, "done", none,
        some "a.csv"⟩] } }
  directory := .present [⟨"b.csv", [98]⟩, ⟨"a.csv", [97]⟩]
  source := .table
  now := ⟨0, 0⟩

/-- The first owner alone, at another time and with another page size. -/
def oneOwner : Service where
  store := { tables := {
    users := [⟨"a", "a@example.com"⟩]
    surveys := [⟨"sa", "a", "Survey", "sc", "2024", none⟩]
    responses := [
      { survey := "sa", respondent := "p", question := "q", time := "2024-03-01T10:00:00Z" }]
    jobs := [
      ⟨"ja", "Survey", "a@example.com", Time.Instant.millisText ⟨0, 0⟩, "done", none,
        some "a.csv"⟩] } }
  directory := .present [⟨"a.csv", [97]⟩]
  source := .table
  pageSize := 1
  now := ⟨1000, 0⟩

theorem agree_owners : twoOwners.Agree "a@example.com" oneOwner := by
  have hclock : Time.Instant.HasShortYear ⟨0, 0⟩ :=
    ⟨by decide +kernel, by decide +kernel, by decide⟩
  have hreadable : ∀ id survey user link file, Store.JobRow.IsReadable
      ⟨id, survey, user, Time.Instant.millisText ⟨0, 0⟩, "done", link, file⟩ :=
    fun _ _ _ _ _ => ⟨⟨.done, rfl⟩, Store.isTime_millisText hclock⟩
  have hjobs : twoOwners.store.tables.jobsOf "a@example.com"
      = oneOwner.store.tables.jobsOf "a@example.com" := rfl
  have hids : ∀ s : Service, (s.store.tables.jobs.map Store.JobRow.id).Nodup →
      Store.JobOp.UniqueIds s.store := fun _ h => h
  refine ⟨⟨rfl, ?_, hids _ (by decide), ?_⟩, ⟨rfl, ?_, hids _ (by decide), ?_⟩, rfl, rfl,
    ⟨?_, ?_, ?_⟩, ?_⟩
  · exact ⟨by decide, by decide, by decide, by decide, by decide, by decide⟩
  · intro j hj
    simp only [twoOwners, List.mem_cons, List.not_mem_nil, or_false] at hj
    rcases hj with rfl | rfl <;> exact hreadable _ _ _ _ _
  · exact ⟨by decide, by decide, by decide, by decide, by decide, by decide⟩
  · intro j hj
    obtain rfl := List.mem_singleton.mp hj
    exact hreadable _ _ _ _ _
  · exact List.Perm.of_eq rfl
  · exact List.Perm.of_eq rfl
  · exact List.Perm.of_eq hjobs
  · intro j hj name hname
    obtain rfl := List.mem_singleton.mp (hjobs ▸ hj)
    obtain rfl := Option.some.inj hname
    rfl

/-- A queue at rest. -/
def idle : Export.Queue := {
  workers := 1, capacity := 1, waiting := [], dispatch := .receiving, permits := 1, active := 0,
  running := [], closing := 0, leaving := 0, started := [], abandoned := [], finished := [],
  shutdown := false, senderGone := false }

/-- The first owner downloads the responses and the form data, and asks for the second owner's
export by its id. -/
theorem callers_are_isolated_owners :
    let request : String → Request := fun target =>
      ⟨"GET", .ofText target, [("x-user-email", "a@example.com")]⟩
    let answer : Service → String → Option Reply := fun s target =>
      (handle ⟨s, idle, [], []⟩ "" (request target)).map (·.2)
    twoOwners.store ≠ oneOwner.store ∧
    (answer twoOwners "/api/v1/responses/csv?survey=Survey").map Reply.shown
      = (answer oneOwner "/api/v1/responses/csv?survey=Survey").map Reply.shown ∧
    (answer twoOwners "/api/v1/responses/form-data?survey=Survey").map Reply.shown
      = (answer oneOwner "/api/v1/responses/form-data?survey=Survey").map Reply.shown ∧
    answer twoOwners "/api/v1/exports/jb/file" = some (.plain 404 "No finished export jb") := by
  intro request answer
  have hcaller : ∀ target, (request target).caller = .ok "a@example.com" := by
    intro target
    have hheader : (request target).header? Request.callerHeader = some "a@example.com" := by
      simp [request, Request.header?, Request.callerHeader]
    simp only [Request.caller, hheader]
    rfl
  have hagree : (System.mk twoOwners idle [] []).service.Agree "a@example.com"
      (System.mk oneOwner idle [] []).service := agree_owners
  have h := fun target => callers_are_isolated hagree (r := request target) rfl (hcaller target)
    "" ""
  have hsurveys : twoOwners.store.tables.surveysOf "a@example.com"
      = oneOwner.store.tables.surveysOf "a@example.com" := rfl
  have hties : ∀ name,
      SameTies "a@example.com" name twoOwners.store.tables oneOwner.store.tables := by
    intro name shortcode created
    rw [hsurveys]
  refine ⟨by decide, (h _).1.mpr fun _ name _ _ _ _ => hties name,
    (h _).1.mpr fun _ name _ _ _ _ => hties name, (h _).2.2 "jb" "jb" ?_ ?_ rfl ?_⟩
  · decide +kernel
  · decide +kernel
  · decide

/-- A service for one owner, with these surveys. -/
def ownerOf (surveys : List Store.SurveyRow) : Service where
  store := { tables := { users := [⟨"user-1", "owner@example.com"⟩], surveys } }
  directory := .present []
  source := .table
  now := ⟨0, 0⟩

/-- Two versions of the same day, inserted in one order and in the other. All rows and files are the
same, and the owner sees other form data. -/
theorem callers_tell_insertions_apart :
    let a : Store.SurveyRow :=
      ⟨"survey-a", "user-1", "Baseline", "base", "2024-01-01T00:00:00Z", none⟩
    let b : Store.SurveyRow :=
      ⟨"survey-b", "user-1", "Baseline", "base", "2024-01-01T00:00:00Z", none⟩
    let request : Request := ⟨"GET", .ofText "/api/v1/responses/form-data?survey=Baseline",
      [("x-user-email", "owner@example.com")]⟩
    let shown (surveys : List Store.SurveyRow) : Option (Nat × List UInt8 × Option String) :=
      ((handle ⟨ownerOf surveys, idle, [], []⟩ "" request).map (·.2)).map Reply.shown
    (ownerOf [b, a]).Agree "owner@example.com" (ownerOf [a, b]) ∧
      request.caller = .ok "owner@example.com" ∧ shown [b, a] ≠ shown [a, b] := by
  intro a b request shown
  have hkeyed : ∀ surveys, (surveys.map Store.SurveyRow.id).Nodup →
      (∀ s ∈ surveys, s.owner = "user-1") → (ownerOf surveys).Lawful := by
    intro surveys hids howner
    refine ⟨rfl, ⟨by simp [ownerOf], by simp [ownerOf], hids, ?_, List.nodup_nil,
      List.forall_mem_nil _⟩, List.nodup_nil, List.forall_mem_nil _⟩
    intro s hs
    rw [howner s hs]
    exact List.mem_singleton.mpr rfl
  have hagree : (ownerOf [b, a]).Agree "owner@example.com" (ownerOf [a, b]) :=
    ⟨hkeyed _ (by decide) (by simp [a, b]), hkeyed _ (by decide) (by simp [a, b]), rfl, rfl,
      ⟨List.Perm.swap a b [], List.Perm.refl _, List.Perm.refl _⟩, List.forall_mem_nil _⟩
  have hcaller : request.caller = .ok "owner@example.com" := by
    have hheader : request.header? Request.callerHeader = some "owner@example.com" := by
      simp [request, Request.header?, Request.callerHeader]
    simp only [Request.caller, hheader]
    rfl
  refine ⟨hagree, hcaller, fun hsame => ?_⟩
  have hroute : Route.ofPath? request.target.path = some (.resource .forms) := by decide +kernel
  simp only [shown, handle_get (r := request) rfl, hroute, Option.map_map] at hsame
  have hties := (read_forms_iff hagree hcaller).mp hsame { survey := some "Baseline" } "Baseline"
    rfl (by decide) rfl "base" "2024-01-01T00:00:00Z"
  revert hties
  decide

end ResponseExport.Http
