import ResponseExport.Http.Answer
import ResponseExport.Proofs.Callers.Isolation
import ResponseExport.Proofs.Export.Delivery
import ResponseExport.Proofs.System.Unchanged
import ResponseExport.Proofs.Text.Parameters
import ResponseExport.Proofs.Time.ReadBack

/-!
# `ResponseExport.Proofs.Http.ExportFiles`: a link that leads to a file

The file of an export is found in two steps: the path of the request names the id of
the export, and its job names the file. An id is a UUID, which stands in a path as it
is (`ofPath?_file`). The name of the file was made from the id, the time and what is
left of the survey's name, so it is one part of a path and stays in the directory
(`isPlainName_stored`).
-/

set_option autoImplicit false

namespace ResponseExport

/-! ### Names of files -/

namespace Export

/-- A character that does not lead out of one part of a path. -/
def StaysInside (c : Char) : Prop := c ≠ '/' ∧ c ≠ '\x00'

instance (c : Char) : Decidable (StaysInside c) := instDecidableAnd

theorem staysInside_of_isKept {c : Char} (h : FileName.isKept c = true) : StaysInside c := by
  constructor <;> rintro rfl <;> exact absurd h (by decide)

theorem staysInside_sanitize (s : String) : ∀ c ∈ (FileName.sanitize s).toList, StaysInside c := by
  intro c hc
  rw [FileName.sanitize, String.toList_ofList] at hc
  obtain ⟨d, -, rfl⟩ := List.mem_map.mp hc
  split
  · exact staysInside_of_isKept ‹_›
  · decide

theorem staysInside_padded (width n : Nat) : ∀ c ∈ Time.padded width n, StaysInside c := by
  intro c hc
  have hdigit := Time.isDigit_of_mem_padded hc
  constructor <;> rintro rfl <;> exact absurd hdigit (by decide)

theorem staysInside_compactText (t : Time.Instant) :
    ∀ c ∈ t.compactText.toList, StaysInside c := by
  have hyear : ∀ c ∈ Time.yearText t.clock.date.year, StaysInside c := by
    rw [Time.yearText]
    split
    · exact staysInside_padded _ _
    · refine List.forall_mem_cons.mpr ⟨?_, staysInside_padded _ _⟩
      split <;> decide
  have hdigits := staysInside_padded
  rw [Time.Instant.compactText, String.toList_ofList]
  simp only [List.forall_mem_append, List.forall_mem_cons]
  exact ⟨⟨⟨⟨⟨⟨⟨hyear, hdigits _ _⟩, hdigits _ _⟩, by decide, hdigits _ _⟩, hdigits _ _⟩,
    hdigits _ _⟩, by decide, hdigits _ _⟩, by decide, List.forall_mem_nil _⟩

theorem staysInside_stored (survey id : String) (t : Time.Instant) :
    ∀ c ∈ (FileName.stored survey id t).toList, StaysInside c := by
  have hreport : ∀ c ∈ "report_".toList, StaysInside c := by simp [StaysInside]
  have hending : ∀ c ∈ ".csv".toList, StaysInside c := by simp [StaysInside]
  have hgap : ∀ c ∈ "_".toList, StaysInside c := by simp [StaysInside]
  rw [FileName.stored]
  simp only [String.toList_append, List.forall_mem_append]
  exact ⟨⟨⟨⟨⟨⟨hreport, staysInside_sanitize _⟩, hgap⟩, staysInside_compactText _⟩, hgap⟩,
    staysInside_sanitize _⟩, hending⟩

/-- A name that stands for one file in a directory, and does not lead out of it. -/
structure IsPlainName (name : String) : Prop where
  relative : Disk.isAbsolute name = false
  free : name.toList.contains '\x00' = false
  parts_eq : Disk.parts name = [name]
  moves : Disk.isStay name = false
  descends : (name == "..") = false

/-- A name is plain if nothing in it leads out, and it is too long to be made of dots. -/
theorem isPlainName_of_staysInside {name : String} (hstays : ∀ c ∈ name.toList, StaysInside c)
    (hlong : 2 < name.length) : IsPlainName name := by
  have hne : ∀ short : String, short.length ≤ 2 → name ≠ short := by
    rintro short hshort rfl
    omega
  refine ⟨?_, ?_, ?_, ?_, beq_eq_false_iff_ne.mpr (hne ".." (by decide))⟩
  · rw [Disk.isAbsolute, String.startsWith_string_eq_false_iff]
    exact fun hslash => (hstays '/' (hslash.subset (by decide))).1 rfl
  · rw [List.contains_eq_mem, decide_eq_false_iff_not]
    exact fun hmem => (hstays _ hmem).2 rfl
  · rw [Disk.parts, List.splitOnP_eq_singleton fun c hc => by simpa using (hstays c hc).1,
      List.map_singleton, String.ofList_toList]
  · rw [Disk.isStay, Bool.or_eq_false_iff, beq_eq_false_iff_ne, beq_eq_false_iff_ne]
    exact ⟨hne "" (by decide), hne "." (by decide)⟩

theorem isPlainName_stored (survey id : String) (t : Time.Instant) :
    IsPlainName (FileName.stored survey id t) := by
  refine isPlainName_of_staysInside (staysInside_stored survey id t) ?_
  have hending : ".csv".length = 4 := by decide
  rw [FileName.stored, String.length_append, hending]
  omega

/-- A file of the directory is found under its name, if the directory's own path leaves room
for it. -/
theorem Directory.exists_locate {d : Directory} {outside : Disk} {name : String}
    {data : List UInt8} (hplain : IsPlainName name) (hshort : name.utf8ByteSize ≤ Disk.maxName)
    (hroom : (Disk.pathOf outside.here).utf8ByteSize + 1 + Disk.maxName ≤ Disk.maxPath)
    (hdata : d.data? name = some data) :
    ∃ target, d.locate outside name = .ok target ∧ target.read = .ok data := by
  have hfits : isTooLong outside name = false := by
    rw [isTooLong, hplain.relative]
    simp only [Bool.false_eq_true, if_false, decide_eq_false_iff_not, Nat.not_lt]
    omega
  cases d with
  | absent => cases hdata
  | blocked => cases hdata
  | present files =>
      obtain ⟨f, hf, rfl⟩ := Option.map_eq_some_iff.mp hdata
      refine ⟨.stored f, ?_, rfl⟩
      -- The path is the name alone, so one step along it ends at the file.
      rw [locate, hplain.free, hfits, hplain.relative, hplain.parts_eq]
      simp only [Bool.false_eq_true, if_false]
      rw [follow, hplain.moves, hplain.descends, if_neg (by decide), if_neg (by decide),
        if_neg (Nat.not_lt.mpr hshort)]
      have hfound : files.find? (fun f => f.name == name) = some f := hf
      rw [hfound]
      rfl

/-- The owner of a finished export is given its file. -/
theorem Service.Works.openFile_eq {s : Service} (h : s.Works) {j : Store.JobRow}
    (hj : j ∈ s.store.tables.jobs) (hdone : j.status = Status.done.text) {name : String}
    (hname : j.file = some name) {target : Target}
    (htarget : s.directory.locate s.outside name = .ok target) :
    s.openFile j.user j.id = .ok (name, target) := by
  obtain ⟨job, hjob⟩ := Store.JobRow.exists_job (h.usable.readable j hj)
  obtain ⟨huser, hfile, hstatus⟩ := job_eq_ok hjob
  have hfound : s.store.findJob j.id = .ok job := by
    rw [Service.findJob_eq h.usable.isOpen, Store.Tables.findJob,
      Store.JobOp.jobRow?_of_mem h.usable.uniqueIds hj]
    exact hjob
  have hisDone : job.status = .done := by
    rw [hdone] at hstatus
    cases hjobStatus : job.status <;> rw [hjobStatus] at hstatus <;>
      first | rfl | exact absurd hstatus (by decide)
  rw [openFile, hfound]
  dsimp only
  rw [if_neg (by simp [huser, hisDone]), hfile, hname]
  dsimp only
  rw [htarget]

end Export

namespace Http

open Export (isUuid)

/-! ### Ids in paths -/

theorem isVerbatim_of_isKept {c : Char} (h : Export.FileName.isKept c = true) :
    Text.IsVerbatim c := by
  have hascii : c.toNat < 128 := by
    rw [Export.FileName.isKept, Bool.or_eq_true, Bool.or_eq_true, Bool.or_eq_true] at h
    rcases h with ((halphanum | hc) | hc) | hc
    · exact Text.toNat_lt_of_isAlphanum halphanum
    all_goals
      obtain rfl := beq_iff_eq.mp hc
      decide
  refine ⟨hascii, ?_, ?_, ?_, ?_⟩ <;> rintro rfl <;> exact absurd h (by decide)

/-- A UUID stands in a path as it is. -/
theorem exportId_uuid {id : String} (h : isUuid id = true) : exportId id = .ok id := by
  have hplain : (37 : UInt8) ∉ Text.bytes id := by
    have hverbatim : ∀ c ∈ id.toList, Text.IsVerbatim c := fun c hc =>
      isVerbatim_of_isKept (Export.isKept_of_mem_uuid h c hc)
    have hnot := Text.not_mem_bytes hverbatim (d := '%') (by decide) fun c hc => hc.percent
    rwa [String.ofList_toList] at hnot
  rw [exportId, Text.percentDecode_of_not_mem hplain, Text.ofBytes?_bytes]

/-- The path of a file leads to it. -/
theorem ofPath?_file {id : String} (h : isUuid id = true) :
    Route.ofPath? ("/api/v1/exports/" ++ id ++ "/file") = some (.resource (.file id)) := by
  have hslash : ∀ c ∈ id.toList, (c == '/') = false := fun c hc =>
    beq_eq_false_iff_ne.mpr (Export.staysInside_of_isKept (Export.isKept_of_mem_uuid h c hc)).1
  -- Written as its parts with the slashes between them, so that each slash can be cut at.
  have hchars : ("/api/v1/exports/" ++ id ++ "/file").toList = [] ++ '/' :: (['a', 'p', 'i'] ++
      '/' :: (['v', '1'] ++ '/' :: (['e', 'x', 'p', 'o', 'r', 't', 's'] ++ '/' :: (id.toList ++
        '/' :: ['f', 'i', 'l', 'e'])))) := by
    simp
  have hcut : ∀ {part : List Char} (rest : List Char), (∀ c ∈ part, (c == '/') = false) →
      (part ++ '/' :: rest).splitOnP (· == '/') = part :: rest.splitOnP (· == '/') :=
    fun rest hpart => List.splitOnP_append_cons_of_forall_mem hpart '/' rfl rest
  rw [Route.ofPath?, hchars, hcut _ (by simp), hcut _ (by simp), hcut _ (by simp), hcut _ (by simp),
    hcut _ hslash, List.splitOnP_eq_singleton (by simp)]
  rw [List.map_cons, List.map_cons, List.map_cons, List.map_cons, List.map_cons, List.map_singleton,
    String.ofList_toList]
  show Route.ofParts? ["", "api", "v1", "exports", id, "file"] = _
  rw [Route.ofParts?]

/-! ### Downloads -/

open Export (Service System Status)
open Survey (responseFile)

/-- The link of a finished export gives its owner the file. -/
theorem handle_file {y : System} (h : y.service.Works) {j : Store.JobRow} (hj : j ∈ y.jobs)
    (hdone : j.status = Status.done.text) (huuid : isUuid j.id = true) {name : String}
    {data : List UInt8} (hstored : y.IsStored j name data)
    (hroom : (Disk.pathOf y.service.outside.here).utf8ByteSize + 1 + Disk.maxName ≤ Disk.maxPath)
    {r : Request} (hget : r.method = "GET") (hcaller : r.caller = .ok j.user)
    (hpath : r.target.path = "/api/v1/exports/" ++ j.id ++ "/file") (fresh : String) :
    (handle y fresh r).map (·.2) = some (.attachment name data none) := by
  obtain ⟨when, hnamed⟩ := hstored.named
  have hplain : Export.IsPlainName name := hnamed ▸ Export.isPlainName_stored _ _ _
  obtain ⟨target, htarget, hread⟩ :=
    Export.Directory.exists_locate hplain hstored.short hroom hstored.data_eq
  have hfile : file y.service j.user j.id = .ok (.attachment name data none) := by
    rw [file, exportId_uuid huuid]
    simp only [bind, Except.bind, h.openFile_eq hj hdone hstored.file_eq htarget, hread]
    rfl
  rw [handle_get hget, hpath, ofPath?_file huuid]
  dsimp only
  rw [read, Option.map_some, hcaller]
  exact congrArg (fun answer => some (reply answer)) hfile

/-- A download is answered with the rows that the source has, if they can be read at all. -/
theorem handle_download {r : Request} (hget : r.method = "GET")
    (hpath : r.target.path = "/api/v1/responses/csv") {u survey : String}
    (hcaller : r.caller = .ok u) {q : Query} (hread : Query.read false r.target = .ok q)
    (hq : q.requiredSurvey = .ok survey) (y : System) (fresh : String) :
    (handle y fresh r).map (·.2)
      = ((y.service.rows? (.survey u survey)).map (·.2)).map fun items =>
          reply (responsesReply y.service survey items) := by
  have hroute : Route.ofPath? "/api/v1/responses/csv" = some (.resource .responses) := by
    decide +kernel
  rw [handle_get hget, hpath, hroute]
  dsimp only
  rw [read, parameters_eq hcaller, hread]
  show (responses y.service u q).map _ = _
  rw [responses, hq]
  dsimp only
  rw [Option.map_map, Option.map_map]
  rfl

/-- All responses to a survey are downloaded in the order of their listing. -/
theorem handle_responses {y : System} (h : y.service.Lawful) (hopen : y.service.store.isOpen = true)
    (hpossible : Export.isPossible y.service.pageSize = true) {r : Request}
    (hget : r.method = "GET") (hpath : r.target.path = "/api/v1/responses/csv") {u survey : String}
    (hcaller : r.caller = .ok u) {q : Query} (hread : Query.read false r.target = .ok q)
    (hq : q.requiredSurvey = .ok survey) (fresh : String) :
    (handle y fresh r).map (·.2) = some (.attachment (Export.FileName.report survey y.service.now)
      (responseFile (y.service.store.tables.listing (.survey u survey))) none) := by
  rw [handle_download hget hpath hcaller hread hq, h.rows?_eq (.survey u survey) hpossible, hopen,
    if_pos rfl, Option.map_some, Export.responsesReply_eq]
  rfl

end Http

end ResponseExport
