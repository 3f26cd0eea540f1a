import ResponseExport.Proofs.Http.ExportFiles

/-!
# `ResponseExport.Proofs.Http.SurveyParameter`: one parameter, two names

A request for an export and one for a download name their survey by the same
parameter. Both refuse one that is blank. The download takes the blanks off both
ends; the export only looks whether anything is left without them, and keeps the name
as it came. So the two mean different surveys as soon as there is a blank at an end,
and their files differ unless both surveys have no responses
(`file_eq_download_iff`).
-/

set_option autoImplicit false

namespace ResponseExport

open Store (JobRow Tables)

namespace Export

open Survey (Response responseFile read_responseFile cellsOf)

/-! ### Files of different surveys -/

/-- The cells of responses can be told from their file. -/
theorem cells_eq_of_file_eq {rows rows' : List Response}
    (h : responseFile rows = responseFile rows') : rows.map cellsOf = rows'.map cellsOf := by
  have hread := read_responseFile rows
  rw [h, read_responseFile, Option.some_inj] at hread
  have htexts : Function.Injective fun cells : List String => cells.map Text.bytes :=
    List.map_injective_iff.mpr fun _ _ => Text.bytes_injective
  exact (List.tail_eq_of_cons_eq (List.map_injective_iff.mpr htexts hread)).symm

/-- A response is wanted under one name only. -/
theorem name_eq_of_isWanted {t : Tables} (ht : t.Keyed) {u v n : String} {r r' : Response}
    (hr : t.isWanted (.survey u v) r = true) (hr' : t.isWanted (.survey u n) r' = true)
    (hsurvey : r.survey = r'.survey) : v = n := by
  have hname : ∀ {name : String} {r : Response}, t.isWanted (.survey u name) r = true →
      ∃ s ∈ t.surveys, s.id = r.survey ∧ s.name = name := by
    intro name r hwanted
    rw [Tables.isWanted, Tables.isOwned, List.any_eq_true] at hwanted
    obtain ⟨s, hs, hmatch⟩ := hwanted
    simp only [Bool.and_eq_true, beq_iff_eq] at hmatch
    exact ⟨s, hs, hmatch.1.1, hmatch.2⟩
  obtain ⟨s, hs, hid, rfl⟩ := hname hr
  obtain ⟨s', hs', hid', rfl⟩ := hname hr'
  rw [List.inj_on_of_nodup_map ht.surveyIds hs hs' (hid.trans (hsurvey.trans hid'.symm))]

/-- The files of two surveys of a user are the same only if nobody answered either of them. -/
theorem file_eq_iff {t : Tables} (ht : t.Keyed) (u v n : String) :
    responseFile (t.listing (.survey u v)) = responseFile (t.listing (.survey u n)) ↔
      v = n ∨ t.listing (.survey u v) = [] ∧ t.listing (.survey u n) = [] := by
  have hsame : ∀ {v n : String}, (t.listing (.survey u v)).map cellsOf
      = (t.listing (.survey u n)).map cellsOf → v ≠ n → t.listing (.survey u v) = [] := by
    intro v n hcells hne
    refine List.eq_nil_iff_forall_not_mem.mpr fun r hr => hne ?_
    have hmem : cellsOf r ∈ (t.listing (.survey u n)).map cellsOf := hcells ▸ List.mem_map_of_mem hr
    obtain ⟨r', hr', hcell⟩ := List.mem_map.mp hmem
    have hsurvey : r.survey = r'.survey := by
      simp only [cellsOf, List.cons.injEq] at hcell
      exact hcell.2.2.1.symm
    exact name_eq_of_isWanted ht ((Tables.mem_listing ht).mp hr).2
      ((Tables.mem_listing ht).mp hr').2 hsurvey
  constructor
  · intro hfile
    by_cases hname : v = n
    · exact Or.inl hname
    · have hcells := cells_eq_of_file_eq hfile
      exact Or.inr ⟨hsame hcells hname, hsame hcells.symm (Ne.symm hname)⟩
  · rintro (rfl | ⟨hv, hn⟩)
    · rfl
    · rw [hv, hn]

end Export

namespace Http

open Export (Service System SystemEvent Status isUuid)
open Survey (responseFile)

/-! ### The two routes -/

/-- A request of this caller that gives the parameter `survey` this value. -/
structure Request.Asks (r : Request) (method path caller survey : String) : Prop where
  method_eq : r.method = method
  path_eq : r.target.path = path
  caller_eq : r.caller = .ok caller
  exists_query : ∃ q, Query.read false r.target = .ok q ∧ q.survey = some survey

/-- No fault is reported as the creation of something. -/
theorem status_ofError_ne (e : ServiceError) : (Reply.ofError e).status ≠ 201 := by
  have hstatus : (Reply.ofError e).status = e.status := by
    rw [Reply.ofError]
    split <;> rfl
  rw [hstatus]
  unfold ServiceError.status
  split <;> decide

theorem handle_request {r : Request} {u v : String} (hpost : r.Asks "POST" "/api/v1/exports" u v)
    (y : System) (fresh : String) : ∃ q : Query, q.survey = some v ∧
      handle y fresh r = some ((request y fresh u q).1, reply (request y fresh u q).2) := by
  obtain ⟨hmethod, hpath, hcaller, q, hread, hv⟩ := hpost
  have hroute : Route.ofPath? "/api/v1/exports" = some .request := by
    decide +kernel
  have haction : Route.request.action "POST" = .answer := rfl
  refine ⟨q, hv, ?_⟩
  rw [handle, hpath, hroute, hmethod]
  dsimp only
  rw [haction, ask, parameters_eq hcaller, hread]
  rfl

/-- The blanks around a name count for nothing but whether there is a name. -/
theorem request_eq (y : System) (fresh u : String) {q : Query} {v : String}
    (hv : q.survey = some v) : request y fresh u q = if Text.trim v = "" then
      (y, .error Query.noSurvey) else ((y.request ⟨fresh, u, v⟩).1,
        (y.request ⟨fresh, u, v⟩).2.map fun job => accepted job.id) := by
  unfold request
  rw [Export.survey?_eq hv, hv]
  by_cases hblank : Text.trim v = ""
  · rw [if_pos hblank, if_pos hblank]
  · rw [if_neg hblank, if_neg hblank]
    dsimp only
    split <;> rename_i heq <;> rw [heq] <;> rfl

/-- An export that is accepted is one of the survey as it was named, which is more than blanks. -/
theorem request_of_accepted {y y' : System} {fresh : String} {r : Request} {u v : String}
    (hpost : r.Asks "POST" "/api/v1/exports" u v) {answer : Reply}
    (haccepted : handle y fresh r = some (y', answer)) (hstatus : answer.status = 201) :
    Text.trim v ≠ "" ∧ ∃ job, y.request ⟨fresh, u, v⟩ = (y', .ok job) := by
  obtain ⟨q, hv, hhandle⟩ := handle_request hpost y fresh
  have hrequest := request_eq y fresh u hv
  obtain ⟨rfl, rfl⟩ := Prod.mk.inj (Option.some.inj (hhandle.symm.trans haccepted))
  by_cases hblank : Text.trim v = ""
  · rw [hrequest, if_pos hblank] at hstatus
    exact absurd hstatus (status_ofError_ne _)
  · rw [if_neg hblank] at hrequest
    refine ⟨hblank, ?_⟩
    rw [hrequest] at hstatus ⊢
    cases hanswer : (y.request ⟨fresh, u, v⟩).2 with
    | error e =>
        rw [hanswer] at hstatus
        exact absurd hstatus (status_ofError_ne _)
    | ok job => exact ⟨job, Prod.ext rfl hanswer⟩

/-- The job `j` was asked for in `y`, and is done in `z`.

* `source`, `keyed`: rows come from tables that respect their keys;
* `uuid`, `asked`, `accepted`, `created`: the request for the export is accepted, and its job
  has the id of `j`;
* `clock`: the clock shows times that can be read back;
* `unchanged`, `run`: while users, surveys and responses stay as they are, anything else
  happens, in any order;
* `mem`, `done`: the job is done;
* `room`: the path of the directory leaves room for names of files. -/
structure Exported (caller survey : String) (y y' z : System) (post : Request) (answer : Reply)
    (later : List SystemEvent) (j : JobRow) : Prop where
  source : y.service.source = .table
  keyed : y.service.store.tables.Keyed
  uuid : isUuid j.id = true
  asked : post.Asks "POST" "/api/v1/exports" caller survey
  accepted : handle y j.id post = some (y', answer)
  created : answer.status = 201
  clock : y'.service.now.HasShortYear
  unchanged : ∀ e ∈ later, e.IsProper ∧ e.Keeps y.service.store.tables
  run : y'.run later = some z
  mem : j ∈ z.jobs
  done : j.status = Status.done.text
  room : (Disk.pathOf z.service.outside.here).utf8ByteSize + 1 + Disk.maxName ≤ Disk.maxPath

/-- **One parameter, two names.** Take any run up to a request for an export that is accepted, and
any run from there to where its job is done, in which the answers stay as they are. The link gives
the caller the file of the survey as it was named in the request. The download with the same
parameter is that of the survey whose name has no blanks around it. So the two are the same
exactly if there are no blanks, or nobody answered either survey. -/
theorem file_eq_download_iff {s : Service} (hs : s.Rested) {workers capacity : Nat}
    {queue : Export.Queue} (hqueue : Export.Queue.new? workers capacity = some queue)
    {before : List SystemEvent} (hbefore : ∀ e ∈ before, e.IsProper) {y : System}
    (hrun : System.run ⟨s, queue, [], []⟩ before = some y) {u v : String} {y' z : System}
    {post : Request} {answer : Reply} {later : List SystemEvent} {j : JobRow}
    (h : Exported u v y y' z post answer later j) {get : Request} (hget : get.method = "GET")
    (hcaller : get.caller = .ok u)
    (hlink : get.target.path = "/api/v1/exports/" ++ j.id ++ "/file") {csv : Request}
    (hcsv : csv.Asks "GET" "/api/v1/responses/csv" u v) (fresh fresh' : String) :
    j.link = some (z.service.baseUrl ++ "/" ++ j.id ++ "/file") ∧
      ∃ name name' data data',
        (handle z fresh get).map (·.2) = some (.attachment name data none) ∧
        (handle z fresh' csv).map (·.2) = some (.attachment name' data' none) ∧
        (data = data' ↔ v = Text.trim v ∨
          z.service.store.tables.listing (.survey u v) = [] ∧
            z.service.store.tables.listing (.survey u (Text.trim v)) = []) := by
  -- Whatever happened before, files are where they are said to be, and nothing is known of rows.
  have hfiled : y.Filed fun _ => True := Export.foldlM_induction
    (fun e he _ _ hy hnext =>
      System.filed_next Export.Attempt.lasts_true hy trivial (hbefore e he) hnext)
    (System.filed_rested _ hs hqueue) hrun
  obtain ⟨hvisible, job, hrequest⟩ := request_of_accepted h.asked h.accepted h.created
  have hserves : y.service.Serves y.service.store.tables y.service.pageSize :=
    ⟨h.source, ⟨rfl, rfl, rfl⟩, rfl⟩
  -- From the request on, tables do not change, so the attempt at it reads one listing.
  have hfollows := System.follows_run h.keyed
    (System.follows_request hfiled hserves h.uuid hrequest h.clock) h.unchanged h.run
  have hworks := hfollows.filed.orderly.works
  have hanswers := hfollows.serves.answers
  obtain ⟨hjob, name, hstored⟩ := hfollows.stored h.mem rfl h.done
  have huser : j.user = u := congrArg Export.Request.user hjob
  have hfile := handle_file hworks h.mem h.done h.uuid hstored h.room hget (huser ▸ hcaller) hlink
    fresh
  -- The download reads the same tables, under the name without blanks.
  have hlawful : z.service.Lawful := ⟨hfollows.serves.source, hanswers.keyed h.keyed,
    hworks.usable.uniqueIds, hworks.usable.readable⟩
  obtain ⟨hmethod, hpath, hcaller', q, hread, hv⟩ := hcsv
  have hdownload := handle_responses hlawful hworks.usable.isOpen hworks.possible hmethod hpath
    hcaller' hread (Export.requiredSurvey_eq hv hvisible) fresh'
  rw [hanswers.listing (.survey u v)] at hfile
  exact ⟨hstored.link_eq, name, _, _, _, hfile, hdownload,
    Export.file_eq_iff hlawful.keyed u v (Text.trim v)⟩

/-! ### An export of one answer -/

/-- A service with one response to the survey `Survey`. -/
def oneAnswer : Service where
  store := { tables := Tables.answeredBy ["u1"] }
  directory := .absent
  source := .table
  now := ⟨0, 0⟩

theorem rested_oneAnswer : oneAnswer.Rested :=
  ⟨⟨⟨rfl, List.nodup_nil, nofun⟩, ⟨by decide +kernel, by decide +kernel, by decide⟩, rfl⟩, nofun⟩

/-- A request of the owner of that survey. -/
def owners (method path : String) (query : Option String) : Request :=
  ⟨method, ⟨"", path, query⟩, [("x-user-email", "owner@example.com")]⟩

theorem caller_owners (method path : String) (query : Option String) :
    (owners method path query).caller = .ok "owner@example.com" := by
  have hheader : (owners method path query).header? Request.callerHeader
      = some "owner@example.com" := by
    simp [owners, Request.header?, Request.callerHeader]
  rw [Request.caller, hheader]
  decide +kernel

/-- The survey that is named by a query. -/
def surveyOf? (query : String) : Option String :=
  (Query.read false ⟨"", "", some query⟩).toOption.bind Query.survey

theorem asks_owners (method path : String) {query survey : String}
    (hsurvey : surveyOf? query = some survey) :
    (owners method path (some query)).Asks method path "owner@example.com" survey := by
  refine ⟨rfl, rfl, caller_owners method path (some query), ?_⟩
  obtain ⟨q, hq, hname⟩ := Option.bind_eq_some_iff.mp hsurvey
  refine ⟨q, ?_, hname⟩
  -- Only the query of the target is read.
  change (Query.read false ⟨"", path, some query⟩).toOption = some q at hq
  cases hread : Query.read false ⟨"", path, some query⟩ with
  | error e =>
      rw [hread] at hq
      cases hq
  | ok q' =>
      rw [hread] at hq
      cases hq
      exact hread

/-- The request for the file of an export. -/
def fileRequest (id : String) : Request :=
  owners "GET" ("/api/v1/exports/" ++ id ++ "/file") none

/-- The request for the responses to a survey. -/
def downloadRequest (query : String) : Request :=
  owners "GET" "/api/v1/responses/csv" (some query)

/-- The id of the only export. -/
def onlyExport : String := "0b8f8b1e-7a55-4c5e-9a37-0c6f5d1c2a01"

/-- The queue hands a request on, and its task works to the end. -/
def toTheEnd : List SystemEvent :=
  [.queue .receive, .start, .work 0, .work 0, .work 0, .work 0]

/-- The export when it is accepted, the answer, and the export at the end. -/
def exported? (query : String) : Option (System × Reply × System) :=
  (Export.Queue.new? 1 1).bind fun queue =>
    (handle ⟨oneAnswer, queue, [], []⟩ onlyExport
      (owners "POST" "/api/v1/exports" (some query))).bind fun p =>
        (p.1.run toTheEnd).map fun z => (p.1, p.2, z)

/-- What tells whether the export was accepted and is done. -/
def outcome (p : System × Reply × System) :
    Nat × Time.Instant × String × List (String × String) :=
  (p.2.1.status, p.1.service.now, Disk.pathOf p.2.2.service.outside.here,
    p.2.2.jobs.map fun j => (j.id, j.status))

theorem exists_exported {query survey : String} (hsurvey : surveyOf? query = some survey)
    (hend : (exported? query).map outcome =
      some (201, ⟨0, 1000000⟩, Disk.pathOf oneAnswer.outside.here, [(onlyExport, "done")])) :
    ∃ queue y answer z j, Export.Queue.new? 1 1 = some queue ∧
      Exported "owner@example.com" survey ⟨oneAnswer, queue, [], []⟩ y z
        (owners "POST" "/api/v1/exports" (some query)) answer toTheEnd j ∧
      j.id = onlyExport ∧ exported? query = some (y, answer, z) := by
  obtain ⟨⟨y, answer, z⟩, hexported, houtcome⟩ := Option.map_eq_some_iff.mp hend
  simp only [outcome, Prod.mk.injEq, List.map_eq_singleton_iff] at houtcome
  obtain ⟨hstatus, hnow, hroom, j, hj, hid, hdone⟩ := houtcome
  obtain ⟨queue, hqueue, hasked⟩ := Option.bind_eq_some_iff.mp hexported
  obtain ⟨p, hp, hrun⟩ := Option.bind_eq_some_iff.mp hasked
  obtain ⟨z', hrun, heq⟩ := Option.map_eq_some_iff.mp hrun
  cases heq
  refine ⟨queue, p.1, p.2, z, j, hqueue, ⟨rfl, Tables.keyed_answeredBy (by decide), ?_,
    asks_owners _ _ hsurvey, hid ▸ hp, hstatus, ?_, ?_, hrun, ?_, hdone, ?_⟩, hid, hexported⟩
  · rw [hid]
    decide +kernel
  · rw [hnow]
    exact ⟨by decide +kernel, by decide +kernel, by decide⟩
  · simp [toTheEnd, SystemEvent.IsProper, SystemEvent.Keeps]
  · rw [hj]
    exact List.mem_singleton.mpr rfl
  · rw [hroom]
    decide +kernel

/-- Without blanks, the link gives what the download gives. -/
theorem file_eq_download_plain :
    ∃ queue y answer z j name name' data, Export.Queue.new? 1 1 = some queue ∧
      Exported "owner@example.com" "Survey" ⟨oneAnswer, queue, [], []⟩ y z
        (owners "POST" "/api/v1/exports" (some "survey=Survey")) answer toTheEnd j ∧
      (handle z "" (fileRequest j.id)).map (·.2) = some (.attachment name data none) ∧
      (handle z "" (downloadRequest "survey=Survey")).map (·.2)
        = some (.attachment name' data none) := by
  have hsurvey : surveyOf? "survey=Survey" = some "Survey" := by
    decide +kernel
  obtain ⟨queue, y, answer, z, j, hqueue, h, -, -⟩ := exists_exported hsurvey (by decide +kernel)
  have hbefore : ∀ e ∈ ([] : List SystemEvent), e.IsProper := List.forall_mem_nil _
  obtain ⟨-, name, name', data, data', hfile, hdownload, hsame⟩ :=
    file_eq_download_iff rested_oneAnswer hqueue hbefore rfl h rfl (caller_owners "GET" _ none) rfl
      (asks_owners "GET" "/api/v1/responses/csv" hsurvey) "" ""
  obtain rfl := hsame.mpr (Or.inl (by decide +kernel))
  exact ⟨queue, y, answer, z, j, name, name', data, hqueue, h, hfile, hdownload⟩

/-- With a blank on either side, the file has no response and the download has one. -/
theorem file_ne_download_padded :
    ∃ queue y answer z j, Export.Queue.new? 1 1 = some queue ∧
      Exported "owner@example.com" " Survey " ⟨oneAnswer, queue, [], []⟩ y z
        (owners "POST" "/api/v1/exports" (some "survey=%20Survey%20")) answer toTheEnd j ∧
      (handle z "" (fileRequest j.id)).map (·.2.body) = some (responseFile []) ∧
      (handle z "" (downloadRequest "survey=%20Survey%20")).map (·.2.body)
        = some (responseFile oneAnswer.store.tables.responses) ∧
      responseFile [] ≠ responseFile oneAnswer.store.tables.responses := by
  have hsurvey : surveyOf? "survey=%20Survey%20" = some " Survey " := by
    decide +kernel
  obtain ⟨queue, y, answer, z, j, hqueue, h, hid, hexported⟩ :=
    exists_exported hsurvey (by decide +kernel)
  have hbodies : (exported? "survey=%20Survey%20").map (fun p =>
      ((handle p.2.2 "" (fileRequest onlyExport)).map (·.2.body),
        (handle p.2.2 "" (downloadRequest "survey=%20Survey%20")).map (·.2.body)))
      = some (some (responseFile []), some (responseFile oneAnswer.store.tables.responses)) := by
    decide +kernel
  rw [hexported, Option.map_some, Option.some_inj, Prod.mk.injEq, ← hid] at hbodies
  obtain ⟨hfile, hdownload⟩ := hbodies
  exact ⟨queue, y, answer, z, j, hqueue, h, hfile, hdownload, by decide +kernel⟩

end Http

end ResponseExport
