import ResponseExport.Survey.Response

/-!
# `ResponseExport.Batch.Arguments`: the command line of the batch exporter

Arguments come in pairs of a flag and its value; a value may be any text. The last value of a flag
counts. An owner and a survey are given together, or all responses are exported.
-/

set_option autoImplicit false

namespace ResponseExport.Batch

/-- What the command line asks for. -/
structure Arguments where
  filter : Survey.Filter
  /-- The path of the file to write; standard output if there is none. -/
  output : Option String
  deriving Repr, DecidableEq

/-- What is wrong with a command line. -/
inductive UsageError where
  /-- A flag stands at the end. -/
  | missingValue (flag : String)
  /-- There is no such flag. -/
  | unknown (argument : String)
  /-- Only one of owner and survey is given. -/
  | unpaired
  deriving Repr, DecidableEq

/-- The wording of a usage error. -/
def UsageError.message : UsageError → String
  | .missingValue flag => s!"{flag} needs a value"
  | .unknown argument => s!"unknown argument {argument}"
  | .unpaired => "--owner and --survey go together"

/-- The line that explains the command. -/
def usage : String := "usage: export_responses [--owner EMAIL --survey NAME] [--output PATH]"

/-- The flags of the command. -/
inductive Flag where
  | owner
  | survey
  | output
  deriving Repr, DecidableEq

/-- The flag that an argument names. -/
def Flag.ofText? (s : String) : Option Flag :=
  if s = "--owner" then some .owner
  else if s = "--survey" then some .survey
  else if s = "--output" ∨ s = "-o" then some .output
  else none

/-- The values given so far. -/
structure Given where
  owner : Option String := none
  survey : Option String := none
  output : Option String := none
  deriving Repr, DecidableEq

/-- Takes the value of a flag, in place of an earlier one. -/
def Given.set (g : Given) (flag : Flag) (value : String) : Given :=
  match flag with
  | .owner => { g with owner := some value }
  | .survey => { g with survey := some value }
  | .output => { g with output := some value }

/-- Reads flags and values from left to right. -/
def Given.read (g : Given) : List String → Except UsageError Given
  | [] => .ok g
  | [a] => if (Flag.ofText? a).isSome then .error (.missingValue a) else .error (.unknown a)
  | a :: value :: rest =>
    match Flag.ofText? a with
    | some flag => (g.set flag value).read rest
    | none => .error (.unknown a)

/-- What the values given ask for. -/
def Given.arguments (g : Given) : Except UsageError Arguments :=
  match g.owner, g.survey with
  | some owner, some survey => .ok ⟨.survey owner survey, g.output⟩
  | none, none => .ok ⟨.all, g.output⟩
  | _, _ => .error .unpaired

/-- Reads a command line. -/
def Arguments.read (args : List String) : Except UsageError Arguments :=
  match ({} : Given).read args with
  | .ok g => g.arguments
  | .error e => .error e

end ResponseExport.Batch
