import ResponseExport.Proofs.Csv.RoundTrip
import ResponseExport.Survey.Columns

/-!
# `ResponseExport.Proofs.Survey.Columns`: what a reader finds in a file

Responses and forms become rows of a file by way of records, and records by way of
columns. A strict reader undoes all of it. What it finds is said without records:

* `read_responseFile`: the header and one row for each response, which holds
  `cellsOf` it. Every cell but the two answers is what is stored, and an absent
  value is an empty cell.
* `ids_eq_of_formFile`: files of forms with the same bytes are about the same
  surveys, in the same order.
-/

set_option autoImplicit false

namespace ResponseExport.Survey

/-- The default dialect of a file can be read back. -/
theorem default_isClear : Csv.Dialect.IsClear {} :=
  ⟨by decide, by decide, by decide, by decide, by decide⟩

/-! ### Responses -/

/-- The file of these responses. -/
def responseFile (rows : List Response) : List UInt8 :=
  Csv.fileOf {} responseColumns (rows.map Response.toRecord)

/-- The cells of a response, in the order of the columns. Numbers are decimal. -/
def cellsOf (r : Response) : List String :=
  [r.parentSurvey.getD "", r.parentShortcode.getD "", r.survey,
    (r.flow.map fun n => toString n.toInt).getD "", r.respondent, r.question,
    (r.questionIndex.map fun n => toString n.toInt).getD "", r.questionText.getD "",
    Answer.text r.answer, r.time, r.metadata.getD "", r.page.getD "", Answer.text r.translation]

/-- The header and the cells of responses, as a reader finds them. -/
def responseTable (rows : List Response) : List (List (List UInt8)) :=
  (responseColumns :: rows.map cellsOf).map (·.map Text.bytes)

/-- Every column of a response finds its value in the record. -/
theorem rowOf_toRecord (r : Response) :
    Csv.rowOf responseColumns r.toRecord = (cellsOf r).map Text.bytes := by
  have hdistinct : responseColumns.Nodup := by decide
  exact Csv.rowOf_ofList hdistinct

/-- A file of responses is read as the columns and the cells of every response. -/
theorem read_responseFile (rows : List Response) :
    Csv.read {} (responseFile rows) = some (responseTable rows) := by
  have htable : Csv.tableOf responseColumns (rows.map Response.toRecord) = responseTable rows := by
    rw [Csv.tableOf, responseTable, List.map_cons, List.map_map, List.map_map]
    exact congrArg (_ :: ·) (List.map_congr_left fun r _ => rowOf_toRecord r)
  rw [← htable]
  exact Csv.read_table default_isClear (List.cons_ne_nil _ _) _

/-! ### Forms -/

/-- The file of these forms. -/
def formFile (forms : List Form) : List UInt8 :=
  Csv.render {} formSchema (forms.map Form.toRecord)

/-- A file of forms is read as the columns and the cells of every form. -/
theorem read_formFile (forms : List Form) :
    Csv.read {} (formFile forms) = some (Csv.tableOf formColumns (forms.map Form.toRecord)) := by
  have hbytes := (Csv.bytesOf_chunks (ε := Empty) {} formSchema (forms.map Form.toRecord) rfl).1
  rw [formFile, Csv.render, hbytes]
  exact Csv.read_table default_isClear (List.cons_ne_nil _ _) _

/-- The first cell of a row is the id of the survey. -/
theorem head?_rowOf (f : Form) :
    (Csv.rowOf formColumns f.toRecord).head? = some (Text.bytes f.survey) := by
  have hdistinct : formColumns.Nodup := by decide
  have hrow : Csv.rowOf formColumns f.toRecord = _ := Csv.rowOf_ofList hdistinct
  rw [hrow]
  rfl

/-- Files with the same bytes list the same surveys in the same order. -/
theorem ids_eq_of_formFile {forms forms' : List Form} (h : formFile forms = formFile forms') :
    forms.map Form.survey = forms'.map Form.survey := by
  have htable := (read_formFile forms).symm.trans ((congrArg (Csv.read {}) h).trans
    (read_formFile forms'))
  have hrows := (List.cons.inj (Option.some.inj htable)).2
  have hheads := congrArg (List.map List.head?) hrows
  simp only [List.map_map, Function.comp_def, head?_rowOf] at hheads
  have hsome : ∀ x y : String, some (Text.bytes x) = some (Text.bytes y) → x = y :=
    fun x y heq => Text.bytes_injective (Option.some.inj heq)
  have hmap : (forms.map Form.survey).map (fun x => some (Text.bytes x))
      = (forms'.map Form.survey).map fun x => some (Text.bytes x) := by
    rw [List.map_map, List.map_map]
    exact hheads
  exact List.map_injective_iff.mpr hsome hmap

end ResponseExport.Survey
