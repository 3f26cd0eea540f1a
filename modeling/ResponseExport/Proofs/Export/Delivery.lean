import ResponseExport.Batch.Run
import ResponseExport.Http.Answer
import ResponseExport.Proofs.Export.Writing

/-!
# `ResponseExport.Proofs.Export.Delivery`: one file, three ways

Responses leave the service as a download, as the file of an export job, and as the
output of the batch command. The three paths have different drivers: the download
puts chunks together, the job writes page after page into a file, and the command
writes one walk into a sink. `delivered_alike` says that on the same data all of
them deliver `responseFile` of the listing, whatever their page sizes are, and what
a strict reader finds in it.

Each path is brought to `responseFile` by lemmas of its own: `responses_eq` for the
download, `Task.stored_of_finishing` and `Task.exists_finishing` for the job, `run_eq`
for the command.
-/

set_option autoImplicit false

namespace ResponseExport.Export

open Survey (Response Filter responseFile responseTable read_responseFile)
open Store (Tables Ascending)

/-! ### The download -/

theorem responsesFile_eq (name : String) (rows : List Response) :
    Http.responsesFile name (rows.map .ok) = .attachment name (responseFile rows) none := by
  obtain ⟨hbytes, hfailure⟩ := Csv.bytesOf_chunks (ε := ExportError) {} Survey.responseSchema
    (rows.map Response.toRecord) rfl
  rw [Http.responsesFile, toRecords_map_ok, hbytes, hfailure]
  rfl

/-- A download whose rows are all there is the file of these rows. -/
theorem responsesReply_eq (s : Service) (survey : String) (rows : List Response) :
    Http.responsesReply s survey (rows.map .ok)
      = .ok (.attachment (FileName.report survey s.now) (responseFile rows) none) := by
  rw [← responsesFile_eq]
  cases rows <;> rfl

/-- A download of responses is the file of their listing. -/
theorem responses_eq {t : Tables} (ht : t.Keyed) {pageSize : Nat} (hpos : 1 ≤ pageSize)
    (hmax : pageSize ≤ maxCapacity) {s : Service} (hs : s.Serves t pageSize)
    (hopen : s.store.isOpen = true) (caller survey : String) {q : Http.Query}
    (hq : q.requiredSurvey = .ok survey) :
    ∃ s', Http.responses s caller q
      = some (s', .ok (.attachment (FileName.report survey s.now)
          (responseFile (t.listing (.survey caller survey))) none)) := by
  have hwalk := walk?_table hopen (hs.answers.keyed ht) (.survey caller survey) hpos hmax s.calls
  rw [← hs.answers.listing] at hwalk
  rw [Http.responses, hq]
  dsimp only
  rw [Service.rows?, hs.source, hs.pageSize, hwalk]
  exact ⟨_, congrArg (fun answer => some (_, answer)) (responsesReply_eq s survey _)⟩

/-- A caller's address that is visible and has no blanks around it is taken as it is. -/
theorem caller_eq {r : Http.Request} {owner : String}
    (hheader : r.header? Http.Request.callerHeader = some owner) (hne : owner ≠ "")
    (hvisible : owner.toList.all Http.Request.isVisible = true)
    (htrimmed : Text.trim owner = owner) : r.caller = .ok owner := by
  have hempty : owner.isEmpty = false := by simpa using hne
  simp only [Http.Request.caller, hheader, hvisible, if_true, htrimmed, hempty,
    Bool.false_eq_true, if_false]

theorem survey?_eq {q : Http.Query} {survey : String} (hq : q.survey = some survey) :
    q.survey? = if Text.trim survey = "" then none else some (Text.trim survey) := by
  rw [Http.Query.survey?, hq]
  simp only [String.isEmpty_iff]

/-- The name of a survey is taken without the blanks around it. -/
theorem requiredSurvey_eq {q : Http.Query} {survey : String} (hq : q.survey = some survey)
    (hvisible : Text.trim survey ≠ "") : q.requiredSurvey = .ok (Text.trim survey) := by
  rw [Http.Query.requiredSurvey, survey?_eq hq, if_neg hvisible]

/-! ### The batch command -/

/-- What the batch command writes into an empty sink, if it gets through, is the file of
the listing. It does get through if the sink has no limits. -/
theorem run_eq {t : Tables} (ht : t.Keyed) {pageSize : Nat} (hpos : 1 ≤ pageSize)
    (hmax : pageSize ≤ maxCapacity) {store : Store} (hstore : t.SameAnswers store.tables)
    (hopen : store.isOpen = true) (arguments : Batch.Arguments) {sink : Csv.Sink}
    (hsink : sink.data = []) :
    ∃ o, (Batch.Plan.mk store pageSize arguments).run sink = some o ∧
      (sink.IsLimitless → ∃ stats, o.result = .ok stats) ∧
      ∀ stats, o.result = .ok stats →
        o.sink.data = responseFile (t.listing arguments.filter) ∧
        stats.records = (t.listing arguments.filter).length ∧
        stats.bytes = (responseFile (t.listing arguments.filter)).length := by
  have hwalk := walk?_table hopen (hstore.keyed ht) arguments.filter hpos hmax 0
  rw [← hstore.listing] at hwalk
  rw [Batch.Plan.run, hwalk]
  refine ⟨_, rfl, ?_, ?_⟩
  · intro hlimitless
    dsimp only
    rw [toRecords_map_ok]
    obtain ⟨w, stats, hwritten⟩ := Csv.Writer.writeAll_limitless
      (w := Csv.Writer.new {} Survey.responseSchema sink) ofSinkFault hlimitless
      ((t.listing arguments.filter).map Response.toRecord)
    exact ⟨stats, congrArg Prod.snd hwritten⟩
  · intro stats hstats
    dsimp only at hstats ⊢
    rw [toRecords_map_ok] at hstats ⊢
    have hwritten := Csv.Writer.wrote_writeAll hsink (Prod.ext rfl hstats)
    rwa [List.length_map] at hwritten

/-! ### All three -/

/-- All ways in which responses to a survey of an owner leave the service deliver these
bytes, and where records are counted there are this many. The page sizes of the ways are
independent of each other. -/
structure AllDeliver (t : Tables) (owner survey : String) (records : Nat)
    (bytes : List UInt8) : Prop where
  /-- A download by the owner is these bytes, and nothing cuts it short. -/
  download : ∀ (pageSize : Nat) (s : Service) (request : Http.Request) (q : Http.Query),
    1 ≤ pageSize → pageSize ≤ maxCapacity → s.Serves t pageSize → s.store.isOpen = true →
    request.header? Http.Request.callerHeader = some owner →
    Http.Query.read false request.target = .ok q → q.survey = some survey →
    ∃ s' reply, Http.read s false .responses request = some (s', .ok reply) ∧
      reply.status = 200 ∧ reply.body = bytes ∧ reply.fault = none
  /-- An export task that completes its file leaves these bytes in the directory. -/
  stored : ∀ (pageSize : Nat) (services : List Service) (s : Service) (files : List StoredFile)
    (request : Request) (file : String) (stats : Csv.Stats),
    1 ≤ pageSize → pageSize ≤ maxCapacity → (∀ s' ∈ services, s'.Serves t pageSize) →
    s.Serves t pageSize → s.directory = .present files →
    request.user = owner → request.survey = survey →
    (((Task.marked request).after services).step s).2.stage = .finishing file stats →
    ∃ files', (((Task.marked request).after services).step s).1.directory = .present files' ∧
      files'.find? (fun f => f.name == file) = some ⟨file, bytes⟩ ∧
      stats.records = records ∧ stats.bytes = bytes.length
  /-- If the directory takes the file and the store stays open, the task completes it. -/
  finishes : ∀ (pageSize : Nat) (s₀ : Service) (services : List Service) (s : Service)
    (request : Request) (d d' : Directory),
    1 ≤ pageSize → pageSize ≤ maxCapacity → s₀.Serves t pageSize →
    (∀ s' ∈ s :: services, s'.Serves t pageSize ∧ s'.store.isOpen = true) →
    services.length = records / pageSize → s₀.directory.make = .ok d →
    d.create (FileName.stored request.survey request.id s₀.now) = .ok d' →
    request.user = owner → request.survey = survey →
    ∃ file stats, (((Task.marked request).after (s₀ :: services)).step s).2.stage
      = .finishing file stats
  /-- The batch command leaves these bytes in an empty sink, if it gets through, and into
  one without limits it does. -/
  batch : ∀ (pageSize : Nat) (store : Store) (output : Option String) (sink : Csv.Sink),
    1 ≤ pageSize → pageSize ≤ maxCapacity → t.SameAnswers store.tables →
    store.isOpen = true → sink.data = [] →
    ∃ o, (Batch.Plan.mk store pageSize ⟨.survey owner survey, output⟩).run sink = some o ∧
      (sink.IsLimitless → ∃ stats, o.result = .ok stats) ∧
      ∀ stats, o.result = .ok stats →
        o.sink.data = bytes ∧ stats.records = records ∧ stats.bytes = bytes.length

/-- **One file, three ways.** Take an owner and a survey as a caller can name them. There
is a file that a strict reader reads as the columns and one row for each wanted response,
in ascending order, and all ways deliver it. Nothing that happens to the services between
two steps of a task changes this, as long as the answers stay the same. -/
theorem delivered_alike (owner survey : String) {t : Tables} (ht : t.Keyed) (howner : owner ≠ "")
    (hvisible : owner.toList.all Http.Request.isVisible = true)
    (htrimmed : Text.trim owner = owner) (hsurvey : survey ≠ "")
    (hname : Text.trim survey = survey) :
    ∃ (rows : List Response) (bytes : List UInt8),
      rows.Perm (t.responses.filter (t.isWanted (.survey owner survey))) ∧
      Ascending rows ∧
      Csv.read {} bytes = some (responseTable rows) ∧
      AllDeliver t owner survey rows.length bytes := by
  refine ⟨t.listing (.survey owner survey), responseFile (t.listing (.survey owner survey)),
    Tables.listing_perm ht _, Tables.ascending_listing ht _, read_responseFile _, ?_⟩
  refine {
    download := ?_
    stored := ?_
    finishes := ?_
    batch := ?_ }
  · intro pageSize s request q hpos hmax hs hopen hheader hread hq
    have hrequired : q.requiredSurvey = .ok survey := by
      rw [← hname] at hsurvey
      rw [requiredSurvey_eq hq hsurvey, hname]
    obtain ⟨s', hresponses⟩ := responses_eq ht hpos hmax hs hopen owner survey hrequired
    have hparameters : Http.parameters false request = .ok (owner, q) := by
      rw [Http.parameters, caller_eq hheader howner hvisible htrimmed, hread]
      rfl
    refine ⟨s', .attachment (FileName.report survey s.now) (responseFile _) none, ?_,
      rfl, rfl, rfl⟩
    rw [← hresponses, Http.read, hparameters]
    rfl
  · rintro pageSize services s files request file stats hpos hmax hservices hs hfiles rfl rfl h
    exact Task.stored_of_finishing ht hpos hmax hservices hs hfiles h
  · rintro pageSize s₀ services s request d d' hpos hmax hs₀ hservices hlength hmake hcreate rfl rfl
    obtain ⟨hs, hservices⟩ := List.forall_mem_cons.mp hservices
    exact ⟨_, Task.exists_finishing ht hpos hmax hs₀ hmake hcreate hservices hlength hs.1 hs.2⟩
  · intro pageSize store output sink hpos hmax hstore hopen hsink
    exact run_eq ht hpos hmax hstore hopen ⟨.survey owner survey, output⟩ hsink

/-- A service with two responses, which reads one row at a time. -/
def twoResponses : Service where
  store := { tables := Tables.answeredBy ["u2", "u1"] }
  directory := .present []
  source := .table
  pageSize := 1
  now := ⟨0, 0⟩

/-- Two responses, downloaded and stored in pages of one row and written in one of two. -/
theorem delivered_alike_two :
    ∃ bytes : List UInt8,
      (∃ s' reply, Http.read twoResponses false .responses
          ⟨"GET", ⟨"", "/", some "survey=Survey"⟩, [("x-user-email", "owner@example.com")]⟩
          = some (s', .ok reply) ∧ reply.body = bytes) ∧
      (∃ services file files,
        (((Task.marked ⟨"e", "owner@example.com", "Survey"⟩).after services).step
          twoResponses).1.directory = .present files ∧
        files.find? (fun f => f.name == file) = some ⟨file, bytes⟩) ∧
      ∃ o stats, (Batch.Plan.mk twoResponses.store 2
          ⟨.survey "owner@example.com" "Survey", none⟩).run {} = some o ∧
        o.result = .ok stats ∧ stats.records = 2 ∧ o.sink.data = bytes := by
  have hkeyed : (Tables.answeredBy ["u2", "u1"]).Keyed := Tables.keyed_answeredBy (by decide)
  obtain ⟨rows, bytes, hperm, -, -, hall⟩ :=
    delivered_alike "owner@example.com" "Survey" hkeyed (by decide) (by decide) (by decide)
      (by decide) (by decide)
  have hserves : twoResponses.Serves (Tables.answeredBy ["u2", "u1"]) 1 :=
    ⟨rfl, ⟨rfl, rfl, rfl⟩, rfl⟩
  have hrows : rows.length = 2 := by
    rw [hperm.length_eq]
    decide
  refine ⟨bytes, ?_, ?_, ?_⟩
  · have hheader : Http.Request.header?
        ⟨"GET", ⟨"", "/", some "survey=Survey"⟩, [("x-user-email", "owner@example.com")]⟩
        Http.Request.callerHeader = some "owner@example.com" := by
      simp [Http.Request.header?, Http.Request.callerHeader]
    obtain ⟨s', reply, hreply, -, hbody, -⟩ := hall.download 1 twoResponses
      ⟨"GET", ⟨"", "/", some "survey=Survey"⟩, [("x-user-email", "owner@example.com")]⟩
      { survey := some "Survey" } (by decide) (by decide) hserves rfl hheader rfl rfl
    exact ⟨s', reply, hreply, hbody⟩
  -- The file is made, and two pages of one row are read. The third page is empty.
  · have hsame : ∀ s ∈ List.replicate 3 twoResponses,
        s.Serves (Tables.answeredBy ["u2", "u1"]) 1 ∧ s.store.isOpen = true := by
      intro s hs
      obtain rfl := List.eq_of_mem_replicate hs
      exact ⟨hserves, rfl⟩
    obtain ⟨file, stats, hstage⟩ := hall.finishes 1 twoResponses (List.replicate 2 twoResponses)
      twoResponses ⟨"e", "owner@example.com", "Survey"⟩ (.present [])
      (.present [⟨FileName.stored "Survey" "e" twoResponses.now, []⟩]) (by decide) (by decide)
      hserves hsame (by rw [hrows, List.length_replicate]) rfl rfl rfl rfl
    obtain ⟨files, hfiles, hfile, -⟩ := hall.stored 1 (List.replicate 3 twoResponses)
      twoResponses [] ⟨"e", "owner@example.com", "Survey"⟩ file stats (by decide) (by decide)
      (fun s hs => (hsame s hs).1) hserves rfl rfl rfl hstage
    exact ⟨_, file, files, hfiles, hfile⟩
  · obtain ⟨o, hrun, hok, hdata⟩ := hall.batch 2 twoResponses.store none {} (by decide) (by decide)
      hserves.answers rfl rfl
    obtain ⟨stats, hstats⟩ := hok ⟨rfl, rfl, rfl⟩
    obtain ⟨hbytes, hrecords, -⟩ := hdata stats hstats
    exact ⟨o, stats, hrun, hstats, hrecords.trans hrows, hbytes⟩

end ResponseExport.Export
