import Mathlib.Tactic.SplitIfs
import ResponseExport.Batch.Arguments

/-!
# `ResponseExport.Proofs.Batch.CommandLines`: command lines as pairs

A command line is read from left to right, two arguments at a time, and a value is taken
whatever it looks like. So every command line is pairs of a flag and a value, up to its end
or up to the argument at which reading stops: one that names no flag, or a flag without a
value (`exists_pairs`).

* `read_spelled_append`: pairs only set values, so what comes behind them decides;
* `get_take`: a flag has the last value that was given for it;
* `isReading_read`: the result of every command line. It is accepted if and only if it is
  pairs, and owner and survey are both given or neither is. If it is not, the leftmost
  argument at which reading stops is the error, and the missing partner is one only if
  there is no such argument.

`Flag.names` and `values` say what is read without the reader.
-/

set_option autoImplicit false

namespace ResponseExport.Batch

/-- The texts that name a flag. -/
def Flag.names : Flag → List String
  | .owner => ["--owner"]
  | .survey => ["--survey"]
  | .output => ["--output", "-o"]

/-- Does the argument name a flag? -/
def IsFlag (argument : String) : Prop := ∃ flag : Flag, argument ∈ flag.names

/-- The arguments of pairs, each of a flag and its value. -/
def spelled (pairs : List (String × String)) : List String := pairs.flatMap fun p => [p.1, p.2]

/-- Is the first argument of every pair a flag? -/
def AreGiven (pairs : List (String × String)) : Prop := ∀ p ∈ pairs, IsFlag p.1

/-- The values that pairs give for a flag, under any of its names. -/
def values (flag : Flag) (pairs : List (String × String)) : List String :=
  (pairs.filter fun p => p.1 ∈ flag.names).map Prod.snd

/-- Reading stops in front of these arguments. -/
inductive Stops : List String → UsageError → Prop
  | unknown {argument : String} (rest : List String) :
      ¬ IsFlag argument → Stops (argument :: rest) (.unknown argument)
  | missingValue {flag : String} : IsFlag flag → Stops [flag] (.missingValue flag)

/-- Owner and survey are both given, or neither is. -/
def ArePaired (pairs : List (String × String)) : Prop :=
  values .owner pairs = [] ↔ values .survey pairs = []

/-! ### Names -/

theorem Flag.ofText?_eq_some_iff {a : String} {flag : Flag} :
    Flag.ofText? a = some flag ↔ a ∈ flag.names := by
  unfold Flag.ofText?
  split_ifs with howner hsurvey houtput <;> cases flag <;> simp_all [Flag.names]

theorem Flag.ofText?_eq_none_iff {a : String} : Flag.ofText? a = none ↔ ¬ IsFlag a := by
  simp [IsFlag, Option.eq_none_iff_forall_ne_some, Flag.ofText?_eq_some_iff]

/-! ### Reading -/

namespace Given

variable {g : Given} {pairs : List (String × String)} {rest : List String}

/-- The value of a flag. -/
def get (g : Given) : Flag → Option String
  | .owner => g.owner
  | .survey => g.survey
  | .output => g.output

/-- Takes the value of a pair, if it gives one. -/
def put (g : Given) (p : String × String) : Given :=
  (Flag.ofText? p.1).elim g fun flag => g.set flag p.2

/-- Takes the values of pairs, in place of earlier ones. -/
def take (g : Given) (pairs : List (String × String)) : Given := pairs.foldl put g

theorem get_set (g : Given) (flag flag' : Flag) (value : String) :
    (g.set flag value).get flag' = if flag = flag' then some value else g.get flag' := by
  cases flag <;> cases flag' <;> rfl

theorem get_put_of_mem {p : String × String} {flag : Flag} (h : p.1 ∈ flag.names) :
    (g.put p).get flag = some p.2 := by
  rw [put, Flag.ofText?_eq_some_iff.mpr h, Option.elim_some, get_set, if_pos rfl]

theorem get_put_of_not_mem {p : String × String} {flag : Flag} (h : p.1 ∉ flag.names) :
    (g.put p).get flag = g.get flag := by
  rw [put]
  cases hother : Flag.ofText? p.1 with
  | none => rfl
  | some other =>
      have hne : other ≠ flag := by
        rintro rfl
        exact h (Flag.ofText?_eq_some_iff.mp hother)
      rw [Option.elim_some, get_set, if_neg hne]

/-- The value of a flag is the last one that was given for it, or else the one before. -/
theorem get_take (g : Given) (pairs : List (String × String)) (flag : Flag) :
    (g.take pairs).get flag = ((values flag pairs).getLast?).or (g.get flag) := by
  induction pairs generalizing g with
  | nil => rfl
  | cons p pairs ih =>
      show ((g.put p).take pairs).get flag = _
      rw [ih]
      by_cases hp : p.1 ∈ flag.names
      · -- The pair gives this flag a value, which counts if no later one does.
        have hvalues : values flag (p :: pairs) = p.2 :: values flag pairs := by
          simp [values, hp]
        rw [get_put_of_mem hp, hvalues, List.getLast?_cons]
        cases (values flag pairs).getLast? <;> rfl
      · have hvalues : values flag (p :: pairs) = values flag pairs := by
          simp [values, hp]
        rw [get_put_of_not_mem hp, hvalues]

/-- Pairs only set values. -/
theorem read_spelled_append (h : AreGiven pairs) :
    g.read (spelled pairs ++ rest) = (g.take pairs).read rest := by
  induction pairs generalizing g with
  | nil => rfl
  | cons p pairs ih =>
      obtain ⟨⟨flag, hflag⟩, hpairs⟩ := List.forall_mem_cons.mp h
      have hset : Flag.ofText? p.1 = some flag := Flag.ofText?_eq_some_iff.mpr hflag
      show g.read (p.1 :: p.2 :: (spelled pairs ++ rest)) = ((g.put p).take pairs).read rest
      rw [read, put, hset]
      exact ih hpairs

theorem read_of_stops {e : UsageError} (h : Stops rest e) : g.read rest = .error e := by
  cases h with
  | @unknown a rest ha =>
      have hnone : Flag.ofText? a = none := Flag.ofText?_eq_none_iff.mpr ha
      cases rest <;> simp [read, hnone]
  | @missingValue a ha =>
      obtain ⟨flag, hflag⟩ := ha
      simp [read, Flag.ofText?_eq_some_iff.mpr hflag]

/-- What is asked for depends on the last values only. -/
theorem arguments_eq_ok_iff {a : Arguments} :
    g.arguments = .ok a ↔ a.output = g.output ∧
      ((g.owner = none ∧ g.survey = none ∧ a.filter = .all) ∨
        ∃ owner survey, g.owner = some owner ∧ g.survey = some survey ∧
          a.filter = .survey owner survey) := by
  obtain ⟨owner, survey, output⟩ := g
  obtain ⟨filter, path⟩ := a
  cases owner <;> cases survey <;>
    simp [arguments, Arguments.mk.injEq, and_comm, eq_comm]

theorem arguments_eq_error {e : UsageError} (h : g.arguments = .error e) : e = .unpaired := by
  unfold arguments at h
  split at h <;> cases h
  rfl

end Given

/-- Every command line is pairs, and reading stops behind them or they are all of it. -/
theorem exists_pairs (args : List String) :
    ∃ pairs rest, args = spelled pairs ++ rest ∧ AreGiven pairs ∧
      (rest = [] ∨ ∃ e, Stops rest e) := by
  fun_induction Given.read {} args with
  | case1 => exact ⟨[], [], rfl, List.forall_mem_nil _, Or.inl rfl⟩
  | case2 g a hflag =>
      obtain ⟨flag, hflag⟩ := Option.isSome_iff_exists.mp hflag
      exact ⟨[], [a], rfl, List.forall_mem_nil _,
        Or.inr ⟨_, .missingValue ⟨flag, Flag.ofText?_eq_some_iff.mp hflag⟩⟩⟩
  | case3 g a hnone =>
      refine ⟨[], [a], rfl, List.forall_mem_nil _, Or.inr ⟨_, .unknown [] ?_⟩⟩
      exact Flag.ofText?_eq_none_iff.mp (by simpa using hnone)
  | case4 g a value rest flag hflag ih =>
      obtain ⟨pairs, behind, hrest, hgiven, hstops⟩ := ih
      refine ⟨(a, value) :: pairs, behind, by rw [hrest]; rfl, ?_, hstops⟩
      exact List.forall_mem_cons.mpr ⟨⟨flag, Flag.ofText?_eq_some_iff.mp hflag⟩, hgiven⟩
  | case5 g a value rest hnone =>
      exact ⟨[], a :: value :: rest, rfl, List.forall_mem_nil _,
        Or.inr ⟨_, .unknown _ (Flag.ofText?_eq_none_iff.mp hnone)⟩⟩

/-! ### Results -/

namespace Arguments

variable {pairs : List (String × String)} {rest args : List String}

theorem read_of_stops {e : UsageError} (hgiven : AreGiven pairs) (hstops : Stops rest e) :
    read (spelled pairs ++ rest) = .error e := by
  rw [read, Given.read_spelled_append hgiven, Given.read_of_stops hstops]

/-- A command line of pairs asks for what the last values ask for. -/
theorem read_spelled (hgiven : AreGiven pairs) :
    read (spelled pairs) = (Given.take {} pairs).arguments := by
  have hread : Given.read {} (spelled pairs) = .ok (Given.take {} pairs) := by
    rw [← List.append_nil (spelled pairs), Given.read_spelled_append hgiven]
    rfl
  rw [read, hread]

theorem read_spelled_eq_ok_iff (hgiven : AreGiven pairs) {a : Arguments} :
    read (spelled pairs) = .ok a ↔ a.output = (values .output pairs).getLast? ∧
      ((values .owner pairs = [] ∧ values .survey pairs = [] ∧ a.filter = .all) ∨
        ∃ owner survey, (values .owner pairs).getLast? = some owner ∧
          (values .survey pairs).getLast? = some survey ∧ a.filter = .survey owner survey) := by
  have hget : ∀ flag, (Given.take {} pairs).get flag = (values flag pairs).getLast? := by
    intro flag
    rw [Given.get_take]
    cases flag <;> exact Option.or_none
  have howner := hget .owner
  have hsurvey := hget .survey
  have houtput := hget .output
  simp only [Given.get] at howner hsurvey houtput
  rw [read_spelled hgiven, Given.arguments_eq_ok_iff, howner, hsurvey, houtput]
  simp only [List.getLast?_eq_none_iff]

/-- Pairs are accepted if and only if no partner is missing. -/
theorem read_spelled_isOk_iff (hgiven : AreGiven pairs) :
    (∃ a, read (spelled pairs) = .ok a) ↔ ArePaired pairs := by
  simp only [read_spelled_eq_ok_iff hgiven, ArePaired]
  constructor
  · rintro ⟨a, -, ⟨howner, hsurvey, -⟩ | ⟨owner, survey, howner, hsurvey, -⟩⟩
    · simp [howner, hsurvey]
    · have h1 : values .owner pairs ≠ [] := by rintro h; simp [h] at howner
      have h2 : values .survey pairs ≠ [] := by rintro h; simp [h] at hsurvey
      simp [h1, h2]
  · intro hpaired
    by_cases howner : values .owner pairs = []
    · exact ⟨⟨.all, _⟩, rfl, Or.inl ⟨howner, hpaired.mp howner, rfl⟩⟩
    · have hsurvey : values .survey pairs ≠ [] := mt hpaired.mpr howner
      exact ⟨⟨.survey _ _, _⟩, rfl, Or.inr ⟨_, _, List.getLast?_eq_some_getLast howner,
        List.getLast?_eq_some_getLast hsurvey, rfl⟩⟩

/-- What a command line comes to. -/
structure IsReading (args : List String) (result : Except UsageError Arguments) : Prop where
  /-- It is accepted if and only if it is pairs of a flag and a value, and owner and survey are
  both given or neither is. -/
  ok_iff : (∃ a, result = .ok a) ↔
    ∃ pairs, args = spelled pairs ∧ AreGiven pairs ∧ ArePaired pairs
  /-- The last value of each flag counts, and all responses are exported exactly if neither owner
  nor survey is given. -/
  of_ok : ∀ a pairs, result = .ok a → args = spelled pairs → AreGiven pairs →
    a.output = (values .output pairs).getLast? ∧
    (a.filter = .all ↔ values .owner pairs = [] ∧ values .survey pairs = []) ∧
    ∀ owner survey, a.filter = .survey owner survey ↔
      (values .owner pairs).getLast? = some owner ∧
        (values .survey pairs).getLast? = some survey
  /-- The error is that of the leftmost argument at which reading stops. If it is pairs to the end,
  a partner is missing. -/
  error_iff : ∀ e, result = .error e ↔
    (∃ pairs rest, args = spelled pairs ++ rest ∧ AreGiven pairs ∧ Stops rest e) ∨
    (∃ pairs, args = spelled pairs ∧ AreGiven pairs ∧ ¬ ArePaired pairs ∧ e = .unpaired)

/-- **Command lines.** Every command line is accepted or refused by this rule, whatever its
arguments are. -/
theorem isReading_read (args : List String) : IsReading args (read args) := by
  have hpairs : ∀ {a}, read args = .ok a → ∃ pairs, args = spelled pairs ∧ AreGiven pairs := by
    intro a ha
    obtain ⟨pairs, rest, rfl, hgiven, hrest⟩ := exists_pairs args
    rcases hrest with rfl | ⟨e, hstops⟩
    · exact ⟨pairs, List.append_nil _, hgiven⟩
    · rw [read_of_stops hgiven hstops] at ha
      cases ha
  refine ⟨⟨?_, ?_⟩, ?_, fun e => ⟨?_, ?_⟩⟩
  · rintro ⟨a, ha⟩
    obtain ⟨pairs, rfl, hgiven⟩ := hpairs ha
    exact ⟨pairs, rfl, hgiven, (read_spelled_isOk_iff hgiven).mp ⟨a, ha⟩⟩
  · rintro ⟨pairs, rfl, hgiven, hpaired⟩
    exact (read_spelled_isOk_iff hgiven).mpr hpaired
  · rintro a pairs ha rfl hgiven
    obtain ⟨houtput, hfilter⟩ := (read_spelled_eq_ok_iff hgiven).mp ha
    refine ⟨houtput, ?_⟩
    rcases hfilter with ⟨howner, hsurvey, hall⟩ | ⟨owner, survey, howner, hsurvey, hall⟩
    · simp [howner, hsurvey, hall]
    · have hne : values .owner pairs ≠ [] := by rintro h; simp [h] at howner
      simp [howner, hsurvey, hall, hne]
  · intro he
    obtain ⟨pairs, rest, rfl, hgiven, hrest⟩ := exists_pairs args
    rcases hrest with rfl | ⟨e', hstops⟩
    · rw [List.append_nil] at he ⊢
      refine Or.inr ⟨pairs, rfl, hgiven, ?_, ?_⟩
      · rw [← read_spelled_isOk_iff hgiven, he]
        rintro ⟨a, ha⟩
        cases ha
      · rw [read_spelled hgiven] at he
        exact Given.arguments_eq_error he
    · rw [read_of_stops hgiven hstops] at he
      cases he
      exact Or.inl ⟨pairs, rest, rfl, hgiven, hstops⟩
  · rintro (⟨pairs, rest, rfl, hgiven, hstops⟩ | ⟨pairs, rfl, hgiven, hunpaired, rfl⟩)
    · exact read_of_stops hgiven hstops
    · cases hread : read (spelled pairs) with
      | ok a => exact absurd ((read_spelled_isOk_iff hgiven).mp ⟨a, hread⟩) hunpaired
      | error e =>
          rw [read_spelled hgiven] at hread
          rw [Given.arguments_eq_error hread]

end Arguments

end ResponseExport.Batch
