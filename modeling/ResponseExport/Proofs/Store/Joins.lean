import ResponseExport.Proofs.Store.Keyed
import ResponseExport.Store.Forms

/-!
# `ResponseExport.Proofs.Store.Joins`: joins pick rows

A query joins responses with the surveys that they answer, and these with their owners. A
join has a row for each pair of partners, so in general it may drop a row and it may have
one several times. Keys settle both: a row has at most one partner under a unique key, so
a join over keyed tables is a filter, and keeps the order of insertion (`map_fst_join`).

`isOwned` and `isWanted` say which responses are picked, without a join: there is a survey
of this name, and its owner has this address.
-/

set_option autoImplicit false

namespace ResponseExport.Store.Tables

open Survey (Response Filter)

/-! ### One join -/

/-- A row is joined once if it has a partner, and not at all if it has none. -/
theorem map_fst_partners {α β κ : Type} [BEq κ] [LawfulBEq κ] {partners : List β} {key : β → κ}
    (h : (partners.map key).Nodup) (k : κ) (a : α) (p : α × β → Bool) :
    (((partners.filter fun b => key b == k).map fun b => (a, b)).filter p).map Prod.fst
      = if partners.any fun b => key b == k && p (a, b) then [a] else [] := by
  induction partners with
  | nil => rfl
  | cons b partners ih =>
      obtain ⟨hb, hrest⟩ := List.nodup_cons.mp h
      by_cases hkey : key b = k
      · -- No other row has this key, so there is no second partner.
        have hnone : ∀ b' ∈ partners, (key b' == k) = false := fun b' hb' =>
          beq_eq_false_iff_ne.mpr fun heq => hb (List.mem_map.mpr ⟨b', hb', heq.trans hkey.symm⟩)
        have hempty : (partners.filter fun b => key b == k) = [] :=
          List.filter_eq_nil_iff.mpr fun b' hb' => by rw [hnone b' hb']; exact Bool.false_ne_true
        have hany : (partners.any fun b => key b == k && p (a, b)) = false :=
          List.any_eq_false.mpr fun b' hb' => by rw [hnone b' hb']; exact Bool.false_ne_true
        rw [List.filter_cons, List.any_cons, hempty, hany, beq_iff_eq.mpr hkey]
        cases hp : p (a, b) <;> simp [hp]
      · rw [List.filter_cons_of_neg (by simpa using hkey), ih hrest, List.any_cons,
          beq_eq_false_iff_ne.mpr hkey, Bool.false_and, Bool.false_or]

/-- **A join under a unique key is a filter.** -/
theorem map_fst_join {α β κ : Type} [BEq κ] [LawfulBEq κ] {partners : List β} {key : β → κ}
    (h : (partners.map key).Nodup) (rows : List α) (wants : α → κ) (p : α × β → Bool) :
    ((rows.flatMap fun a => (partners.filter fun b => key b == wants a).map fun b => (a, b)).filter
        p).map Prod.fst
      = rows.filter fun a => partners.any fun b => key b == wants a && p (a, b) := by
  induction rows with
  | nil => rfl
  | cons a rows ih =>
      rw [List.flatMap_cons, List.filter_append, List.map_append, ih, map_fst_partners h,
        List.filter_cons]
      split <;> rfl

/-! ### Which rows are picked -/

/-- Does the user with this id have this address? -/
def hasEmail (t : Tables) (id email : String) : Bool :=
  t.users.any fun u => u.id == id && u.email == email

/-- Is a response one to a survey of this owner and, if a name is given, of this name? -/
def isOwned (t : Tables) (owner : String) (name : Option String) (r : Response) : Bool :=
  t.surveys.any fun s =>
    s.id == r.survey && t.hasEmail s.owner owner &&
      match name with
      | some n => s.name == n
      | none => true

/-- Is a response wanted? -/
def isWanted (t : Tables) (f : Filter) (r : Response) : Bool :=
  match f with
  | .all => true
  | .survey owner name => t.isOwned owner (some name) r

/-- Is a survey a version of the one of this owner and name? -/
def isVersion (t : Tables) (owner name : String) (s : SurveyRow) : Bool :=
  t.hasEmail s.owner owner && s.name == name

variable {t : Tables}

/-- Each survey has one owner at most, so no version is picked twice. -/
theorem versionsOf_eq (husers : (t.users.map User.id).Nodup) (owner name : String) :
    t.versionsOf owner name = t.surveys.filter (t.isVersion owner name) := by
  rw [versionsOf, ownedSurveys]
  refine (map_fst_join husers t.surveys SurveyRow.owner _).trans ?_
  refine List.filter_congr fun s _ => ?_
  -- The name is that of the survey, whoever owns it.
  rw [isVersion, hasEmail, Bool.eq_iff_iff]
  simp only [List.any_eq_true, Bool.and_eq_true, beq_iff_eq]
  constructor
  · rintro ⟨u, hu, hid, hemail, hname⟩
    exact ⟨⟨u, hu, hid, hemail⟩, hname⟩
  · rintro ⟨⟨u, hu, hid, hemail⟩, hname⟩
    exact ⟨u, hu, hid, hemail, hname⟩

/-- The rows of the inner join have different surveys. -/
theorem nodup_ownedSurveys (husers : (t.users.map User.id).Nodup)
    (hsurveys : (t.surveys.map SurveyRow.id).Nodup) :
    (t.ownedSurveys.map fun p => p.1.id).Nodup := by
  have hjoin := map_fst_join husers t.surveys SurveyRow.owner fun _ => true
  rw [List.filter_eq_self.mpr fun _ _ => rfl] at hjoin
  have hids : t.ownedSurveys.map (fun p => p.1.id)
      = (t.ownedSurveys.map Prod.fst).map SurveyRow.id := by
    rw [List.map_map]
    rfl
  rw [hids, ownedSurveys, hjoin]
  exact hsurveys.sublist (List.filter_sublist.map _)

/-- Each response has one survey at most, so no response is picked twice. -/
theorem inScope_eq (ht : t.Keyed) (owner : String) (name : Option String) :
    t.inScope owner name = t.responses.filter (t.isOwned owner name) := by
  rw [inScope, ownedResponses]
  refine (map_fst_join (nodup_ownedSurveys ht.userIds ht.surveyIds) t.responses (·.survey)
    _).trans ?_
  refine List.filter_congr fun r _ => ?_
  rw [ownedSurveys, List.any_flatMap, isOwned]
  refine congrArg t.surveys.any (funext fun s => ?_)
  rw [List.any_map, List.any_filter, hasEmail, Bool.eq_iff_iff]
  simp only [List.any_eq_true, Bool.and_eq_true, Function.comp_apply, beq_iff_eq]
  constructor
  · rintro ⟨u, hu, howner, hid, hemail, hname⟩
    exact ⟨⟨hid, u, hu, howner, hemail⟩, hname⟩
  · rintro ⟨⟨hid, u, hu, howner, hemail⟩, hname⟩
    exact ⟨u, hu, howner, hid, hemail, hname⟩

/-- **A query picks the wanted responses**, each of them once, in the order of insertion. -/
theorem wanted_eq (ht : t.Keyed) (f : Filter) : t.wanted f = t.responses.filter (t.isWanted f) := by
  cases f with
  | all => exact (List.filter_eq_self.mpr fun _ _ => rfl).symm
  | survey owner name => exact inScope_eq ht owner (some name)

end ResponseExport.Store.Tables
