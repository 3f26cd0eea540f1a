import ResponseExport.Store.Responses

/-!
# `ResponseExport.Store.Forms`: the versions of a survey

The surveys of one name and owner are listed by shortcode and time of creation, and counted anew
under each shortcode. Surveys that agree in both keep the order of insertion.
-/

set_option autoImplicit false

namespace ResponseExport.Store

open Survey (Form)

/-- Does a survey come no later than another in a list of forms? -/
def SurveyRow.isBefore (a b : SurveyRow) : Bool :=
  match Text.order a.shortcode b.shortcode with
  | .lt => true
  | .eq => Text.order a.created b.created != .gt
  | .gt => false

/-- A survey as a form. -/
def SurveyRow.form (s : SurveyRow) (version : Nat) : Form :=
  ⟨s.id, s.shortcode, s.name, version, s.created, s.metadata⟩

/-- Counts surveys under each shortcode; `done` are those before them. -/
def numbered (done : List SurveyRow) : List SurveyRow → List Form
  | [] => []
  | s :: rest =>
    s.form (done.countP (fun d => d.shortcode == s.shortcode) + 1) :: numbered (done ++ [s]) rest

/-- The surveys of this name and owner, joined with the owner, in the order of insertion. -/
def Tables.versionsOf (t : Tables) (owner name : String) : List SurveyRow :=
  (t.ownedSurveys.filter fun (s, u) => u.email == owner && s.name == name).map (·.1)

/-- The versions of the surveys of this name and owner. -/
def Tables.forms (t : Tables) (owner name : String) : List Form :=
  numbered [] ((t.versionsOf owner name).mergeSort SurveyRow.isBefore)

/-- The versions of the surveys of this name and owner. -/
def fetchForms (s : Store) (owner name : String) : Except DomainError (List Form) :=
  if s.isOpen then .ok (s.tables.forms owner name)
  else .error (queryClosed "Failed to fetch form data")

end ResponseExport.Store
