import ResponseExport.Proofs.Callers.Isolation
import ResponseExport.Proofs.Csv.Calls
import ResponseExport.Proofs.Http.ExportFiles
import ResponseExport.Proofs.Stream.AnySource

/-!
# `ResponseExport.Proofs.Http.Downloads`: downloads that fail on the way

The items of a download are rows, and an error behind them if the source fails
(`rowsBefore`, `firstError?`). The encoder makes a chunk of the header and one of every row,
and passes the error on (`chunks_toRecords`), so a body that is cut short ends behind a line
(`responsesFile_items`). Looking at the first item decides between a failure and a file, and
takes nothing from the file: `delivers_responsesReply` says what a caller gets of any items,
as a `Reply.Delivers`.

`downloads_end_between_lines` puts this together with where the items come from: from a walk
of the service over its source (`Service.rows?_script`), and from the stream between producer and
consumer, whose consumer takes the same items in any order of steps (`Trace.Seen`). There is
no download with pages that are larger than a channel (`no_download_beyond_capacity`).
-/

set_option autoImplicit false

namespace ResponseExport

namespace Export

open Survey (Response responseFile cellsOf rowOf_toRecord)

/-- The rows in front of the first error. -/
def rowsBefore : List Item → List Response
  | .ok r :: items => r :: rowsBefore items
  | _ => []

/-- The first error. -/
def firstError? : List Item → Option ExportError
  | .ok _ :: items => firstError? items
  | .error e :: _ => some e
  | [] => none

/-! ### Files -/

theorem bodyChunks_toRecords {e : Csv.Encoder} {columns : List String}
    (h : e.header = some columns) (items : List Item) :
    Csv.bodyChunks e (toRecords items)
      = ((rowsBefore items).map fun r =>
          e.config.dialect.line (Csv.rowOf columns r.toRecord)).map .ok
        ++ (firstError? items).toList.map .error := by
  induction items generalizing e with
  | nil => rfl
  | cons item items ih =>
      cases item with
      | error err => rfl
      | ok r =>
          have hencode := Csv.Encoder.call_decided h (.encode r.toRecord)
          have hrest := ih (e := e.addSurplus columns [.encode r.toRecord])
            ((Csv.Encoder.header_addSurplus ..).trans h)
          have hrecords : toRecords (.ok r :: items) = .ok r.toRecord :: toRecords items := rfl
          rw [Csv.Encoder.call] at hencode
          rw [hrecords, Csv.bodyChunks, hencode]
          dsimp only
          rw [hrest, Csv.Encoder.config_addSurplus]
          rfl

/-- The lines of a file: its header, and one for each row. -/
def linesOf (rows : List Response) : List (List UInt8) :=
  (Survey.responseColumns :: rows.map cellsOf).map fun cells =>
    Csv.Dialect.line {} (cells.map Text.bytes)

/-- What comes of a download: the header and the rows in front of the first error, each of them in
a chunk of its own, and then the error. -/
theorem chunks_toRecords (items : List Item) :
    Csv.chunks (Csv.Encoder.new {} Survey.responseSchema) (toRecords items)
      = (linesOf (rowsBefore items)).map .ok ++ (firstError? items).toList.map .error := by
  have hstart : (Csv.Encoder.new {} Survey.responseSchema).start
      = ({ Csv.Encoder.new {} Survey.responseSchema with header := some Survey.responseColumns },
        Csv.headOf {} Survey.responseColumns) := rfl
  have hhead : (Csv.headOf {} Survey.responseColumns).isEmpty = false := by
    simp [Csv.headOf_ne_nil]
  rw [Csv.chunks, hstart]
  dsimp only
  rw [hhead, if_neg Bool.false_ne_true, bodyChunks_toRecords rfl]
  simp only [rowOf_toRecord]
  rw [linesOf, List.map_cons, List.map_cons, List.map_map, List.map_map, List.map_map]
  rfl

theorem flatten_linesOf (rows : List Response) : (linesOf rows).flatten = responseFile rows := by
  rw [responseFile, Csv.fileOf, Csv.tableOf, List.map_map, List.flatMap_def, linesOf]
  simp only [List.map_cons, List.map_map, Function.comp_def, rowOf_toRecord]
  rfl

theorem responsesFile_items (name : String) (items : List Item) :
    Http.responsesFile name items
      = .attachment name (responseFile (rowsBefore items))
          ((firstError? items).map ExportError.message) := by
  have hchunks := chunks_toRecords items
  have hbytes : Csv.bytesOf (Csv.chunks (Csv.Encoder.new {} Survey.responseSchema)
      (toRecords items)) = responseFile (rowsBefore items) := by
    rw [hchunks, Csv.bytesOf_map_ok_append, flatten_linesOf]
    cases firstError? items <;> exact List.append_nil _
  have hfailure : Csv.failureOf? (Csv.chunks (Csv.Encoder.new {} Survey.responseSchema)
      (toRecords items)) = firstError? items := by
    rw [hchunks, Csv.failureOf?_map_ok_append]
    cases firstError? items <;> rfl
  rw [Http.responsesFile, hbytes, hfailure]

theorem firstError?_isSome_iff (items : List Item) :
    (firstError? items).isSome = true ↔ ∃ e, .error e ∈ items := by
  induction items with
  | nil => simp [firstError?]
  | cons item items ih =>
      cases item with
      | error e => simp [firstError?]
      | ok r =>
          rw [firstError?, ih]
          simp

/-- Rows are read if a channel can have the size of a page, whatever the source. -/
theorem Service.rows?_isSome_iff (s : Service) (f : Survey.Filter) :
    (s.rows? f).isSome = true ↔ s.pageSize ≤ maxCapacity := by
  rw [Service.rows?, Option.isSome_map, Source.walk?, ← isPossible_iff]
  split <;> simp_all

/-- The items of a download, over answers that were written down. -/
theorem Service.rows?_script {s : Service} {answers : List PageAnswer}
    (hsource : s.source = .script answers) (f : Survey.Filter) {items : List Item}
    (h : (s.rows? f).map (·.2) = some items) :
    items = itemsOf (max s.pageSize 1) (answers.drop s.calls) := by
  rw [Service.rows?, hsource, Source.walk?] at h
  split at h
  · obtain rfl := Option.some.inj h
    refine items_walk_drop (Nat.le_max_right _ _) answers _ s.calls none ?_
    rw [List.length_drop, Source.walkSteps]
    omega
  · cases h

end Export

namespace Http

open Export (Service System Item PageAnswer RowStream Trace StreamEvent maxCapacity itemsOf
  rowsBefore firstError? linesOf)
open Survey (Response Cursor responseFile responseTable)

/-- What a caller is to get of a download, if these are its items. -/
structure Reply.Delivers (items : List Item) (r : Reply) : Prop where
  /-- It fails exactly if the first item is an error. -/
  fails_iff : r.status = 500 ↔ ∃ e later, items = .error e :: later
  /-- A failure has no body. -/
  bare : r.status = 500 → r.body = [] ∧ r.fault = none
  /-- Otherwise its body is the header, and a line for each row in front of the first error. -/
  delivers : r.status ≠ 500 → r.status = 200 ∧ r.body = (linesOf (rowsBefore items)).flatten
  /-- Behind these the body is cut short by that error, if there is one. -/
  fault_eq : r.status ≠ 500 → r.fault = (firstError? items).map ExportError.message
  cut_iff : r.status ≠ 500 → (r.fault.isSome = true ↔ ∃ e, .error e ∈ items)
  /-- Cut short or not, the body is whole records. -/
  read_eq : r.status ≠ 500 → Csv.read {} r.body
    = some (responseTable (rowsBefore items))

/-- The first item is looked at, and then belongs to the rest again. -/
theorem delivers_responsesReply (s : Service) (survey : String) (items : List Item) :
    (reply (responsesReply s survey items)).Delivers items := by
  have hfile : (∀ e later, items ≠ .error e :: later) →
      reply (responsesReply s survey items) = .attachment (Export.FileName.report survey s.now)
        (responseFile (rowsBefore items))
        ((firstError? items).map ExportError.message) := by
    intro hne
    rw [← Export.responsesFile_items]
    cases items with
    | nil => rfl
    | cons item later =>
        cases item with
        | ok r => rfl
        | error e => exact absurd rfl (hne e later)
  by_cases hfirst : ∃ e later, items = .error e :: later
  · obtain ⟨e, later, rfl⟩ := hfirst
    have hbare : reply (responsesReply s survey (.error e :: later)) = { status := 500 } := rfl
    rw [hbare]
    exact {
      fails_iff := ⟨fun _ => ⟨e, later, rfl⟩, fun _ => rfl⟩
      bare := fun _ => ⟨rfl, rfl⟩
      delivers := fun h => absurd rfl h
      fault_eq := fun h => absurd rfl h
      cut_iff := fun h => absurd rfl h
      read_eq := fun h => absurd rfl h }
  · rw [hfile fun e later h => hfirst ⟨e, later, h⟩]
    exact {
      fails_iff := ⟨fun h => (by cases h), fun h => absurd h hfirst⟩
      bare := fun h => by cases h
      delivers := fun _ => ⟨rfl, (Export.flatten_linesOf _).symm⟩
      fault_eq := fun _ => rfl
      cut_iff := fun _ => by
        show ((firstError? items).map ExportError.message).isSome = true ↔ _
        rw [Option.isSome_map, Export.firstError?_isSome_iff]
      read_eq := fun _ => Survey.read_responseFile _ }

/-- **Downloads end between lines.** A download is answered exactly if a channel can have the size
of a page. Then it fails, without a body, if the first item is an error, and otherwise delivers
the header and a line for each row in front of the first error, which cuts it short. The items
are what the source answers, one page after the other, and those that a consumer takes from the
stream, in any order of steps: some at first, and all of them in the end. -/
theorem downloads_end_between_lines {r : Request} (hget : r.method = "GET")
    (hpath : r.target.path = "/api/v1/responses/csv") {u survey : String}
    (hcaller : r.caller = .ok u) {q : Query} (hread : Query.read false r.target = .ok q)
    (hq : q.requiredSurvey = .ok survey) (y : System) (fresh : String) :
    ((handle y fresh r).isSome = true ↔ y.service.pageSize ≤ maxCapacity) ∧
    (∀ y' answer, handle y fresh r = some (y', answer) →
      ∃ items, answer.Delivers items ∧
        (∀ answers, y.service.source = .script answers →
          items = itemsOf (max y.service.pageSize 1) (answers.drop y.service.calls)) ∧
        (y.service.Lawful → items =
          if y.service.store.isOpen then
            (y.service.store.tables.listing (.survey u survey)).map .ok
          else [.error (.ofDomain (Store.queryClosed "Failed to fetch responses"))])) ∧
    ∀ stream, RowStream.new? y.service.pageSize = some stream →
      ∀ (α : Type) (ask : α → Option Cursor → Nat → PageAnswer) events tr,
        Trace.run ask ⟨stream, [], []⟩ events = some tr →
        (reply (responsesReply y.service survey tr.taken)).Delivers tr.taken ∧
        ∀ answers, tr.given <+: answers →
          tr.taken <+: itemsOf (max y.service.pageSize 1) answers ∧
          (tr.HasEnded → tr.taken = itemsOf (max y.service.pageSize 1) answers) := by
  have hanswer := handle_download hget hpath hcaller hread hq y fresh
  refine ⟨?_, fun y' answer h => ?_, fun stream hstream α ask events tr hrun => ?_⟩
  · rw [← Service.rows?_isSome_iff y.service (.survey u survey),
      ← Option.isSome_map (f := (·.2)), hanswer, Option.isSome_map, Option.isSome_map]
  · rw [h, Option.map_some] at hanswer
    obtain ⟨items, hitems, hreply⟩ := Option.map_eq_some_iff.mp hanswer.symm
    obtain rfl : reply (responsesReply y.service survey items) = answer := hreply
    refine ⟨items, delivers_responsesReply y.service survey items,
      fun answers hsource => Service.rows?_script hsource _ hitems, fun hlawful => ?_⟩
    have hpossible : Export.isPossible y.service.pageSize = true := by
      rw [Export.isPossible_iff, ← Service.rows?_isSome_iff y.service (.survey u survey),
        ← Option.isSome_map (f := (·.2)), hitems]
      rfl
    rw [hlawful.rows?_eq _ hpossible] at hitems
    exact (Option.some.inj hitems).symm
  · refine ⟨delivers_responsesReply y.service survey tr.taken, fun answers hgiven => ?_⟩
    obtain rfl := RowStream.new?_eq_some hstream
    have hpos : 0 < max y.service.pageSize 1 := Nat.le_max_right _ _
    have hseen := (Trace.matched_run (Trace.matched_start _) hrun).seen hpos
    exact ⟨hseen.taken_prefix answers hgiven, fun hend => hseen.taken_eq hend answers hgiven⟩

/-- A request for a download. -/
def rowsRequest : Request :=
  ⟨"GET", ⟨"", "/api/v1/responses/csv", some "survey=Survey"⟩,
    [("x-user-email", "owner@example.com")]⟩

theorem rowsRequest_caller : rowsRequest.caller = .ok "owner@example.com" := by
  have hheader : rowsRequest.header? Request.callerHeader = some "owner@example.com" := by
    simp [rowsRequest, Request.header?, Request.callerHeader]
  exact Export.caller_eq hheader (by decide) (by decide) (by decide)

/-- The answers of a source, read in pages of this size. -/
def scriptedSystem (pageSize : Nat) (answers : List PageAnswer) : System :=
  ⟨{ Export.twoResponses with source := .script answers, pageSize }, idle, [], []⟩

/-- The first page is full, and the second one is an error. -/
theorem downloads_end_between_lines_cut :
    ∃ y' answer,
      handle (scriptedSystem 2
          [.ok (Store.Tables.answeredBy ["u1", "u2"]).responses, .error .closed])
        "" rowsRequest = some (y', answer) ∧
      answer.status = 200 ∧
      answer.body = (linesOf (Store.Tables.answeredBy ["u1", "u2"]).responses).flatten ∧
      answer.fault = some (ExportError.database DomainError.closed.message).message := by
  obtain ⟨hsome, hdelivers, -⟩ :=
    downloads_end_between_lines (q := { survey := some "Survey" }) rfl rfl rowsRequest_caller
      rfl rfl (scriptedSystem 2
        [.ok (Store.Tables.answeredBy ["u1", "u2"]).responses, .error .closed]) ""
  obtain ⟨⟨y', answer⟩, hanswer⟩ := Option.isSome_iff_exists.mp (hsome.mpr (by decide))
  obtain ⟨items, hgets, hitems, -⟩ := hdelivers y' answer hanswer
  obtain rfl := hitems _ rfl
  have hanswered : answer.status ≠ 500 := by
    intro hfails
    obtain ⟨e, later, hfirst⟩ := hgets.fails_iff.mp hfails
    cases hfirst
  exact ⟨y', answer, hanswer, (hgets.delivers hanswered).1, (hgets.delivers hanswered).2,
    hgets.fault_eq hanswered⟩

/-- Pages that are larger than a channel can be bring their rows, but no download. -/
theorem no_download_beyond_capacity :
    handle (scriptedSystem 2305843009213693952
        [.ok (Store.Tables.answeredBy ["u1"]).responses]) "" rowsRequest = none ∧
      itemsOf (max 2305843009213693952 1) [.ok (Store.Tables.answeredBy ["u1"]).responses]
        = (Store.Tables.answeredBy ["u1"]).responses.map .ok := by
  constructor
  · have hanswer := handle_download (q := { survey := some "Survey" }) rfl rfl
      rowsRequest_caller rfl rfl (scriptedSystem 2305843009213693952
        [.ok (Store.Tables.answeredBy ["u1"]).responses]) ""
    have hnone : ∀ f, (scriptedSystem 2305843009213693952
        [.ok (Store.Tables.answeredBy ["u1"]).responses]).service.rows? f = none := by
      intro f
      rw [← Option.not_isSome_iff_eq_none, Service.rows?_isSome_iff]
      decide
    rw [hnone] at hanswer
    exact Option.map_eq_none_iff.mp hanswer
  · rw [itemsOf, if_neg (by decide), List.append_nil]

end Http

end ResponseExport
