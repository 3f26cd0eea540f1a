import ResponseExport.Text.Alphanumeric
import ResponseExport.Text.Blank

/-!
# `ResponseExport.Settings.EnvFile`: variables from a file

Each line of a file may set one variable, as `NAME=value`, with `export` in front if one likes. A
line that is blank or starts with `#` sets none.

A value ends at a blank, behind which only a comment may stand. Between single quotes every
character stands for itself. Elsewhere a backslash makes the next character stand for itself, or an
`n` for the end of a line, and a dollar sign with a name, bare or in braces, stands for the value of
that variable. Blanks may stand between double quotes.

The first line that cannot be read ends the file; what was set before it stays. A variable that the
environment has, or an earlier line has set, keeps its value.
-/

set_option autoImplicit false

namespace ResponseExport.Settings.EnvFile

/-! ### Values -/

/-- Where the reader of a value is. -/
inductive Place where
  /-- Outside of everything below, or between double quotes. -/
  | plain
  /-- Behind a backslash. -/
  | escape
  /-- Between single quotes. -/
  | literal
  /-- In a bare name behind a dollar sign. -/
  | bare (name : List Char)
  /-- In a name in braces. -/
  | braced (name : List Char)
  /-- Behind the blank that ends the value. -/
  | ended
  deriving Repr, DecidableEq

/-- What a character behind a backslash stands for. -/
def escaped? (c : Char) : Option Char :=
  if c = '\\' ∨ c = '\'' ∨ c = '"' ∨ c = '$' ∨ c = ' ' then some c
  else if c = 'n' then some '\n'
  else none

/-- Is the character a blank that ends a value? -/
def isEnd (c : Char) : Bool := c == ' ' || c == '\t'

/-- Reads a value from a place on; `quoted` tells if that is between double quotes, and `value` the
value of a variable. -/
def readValue (value : String → Option String) (place : Place) (quoted : Bool) (cs : List Char) :
    Option (List Char) :=
  match place, cs with
  | .literal, [] => none
  | .braced _, [] => none
  | .bare name, [] => if quoted then none else some (valueOf name)
  | _, [] => if quoted then none else some []
  | .ended, c :: cs =>
    if isEnd c then readValue value .ended quoted cs
    else if c = '#' then some []
    else none
  | .escape, c :: cs =>
    (escaped? c).bind fun c => (readValue value .plain quoted cs).map (c :: ·)
  | .literal, c :: cs =>
    if c = '\'' then readValue value .plain quoted cs
    else (readValue value .literal quoted cs).map (c :: ·)
  | .bare name, c :: cs =>
    if Text.isAlphanumeric c then readValue value (.bare (name ++ [c])) quoted cs
    else if c = '\x7b' ∧ name = [] then readValue value (.braced []) quoted cs
    else if c = '$' then (readValue value (.bare []) quoted cs).map (valueOf name ++ ·)
    else (readValue value .plain quoted cs).map (valueOf name ++ c :: ·)
  | .braced name, c :: cs =>
    if c = '\x7d' then (readValue value .plain quoted cs).map (valueOf name ++ ·)
    else readValue value (.braced (name ++ [c])) quoted cs
  | .plain, c :: cs =>
    if c = '$' then readValue value (.bare []) quoted cs
    else if c = '\\' then readValue value .escape quoted cs
    else if c = '"' then readValue value .plain (!quoted) cs
    else if quoted then (readValue value .plain quoted cs).map (c :: ·)
    else if c = '\'' then readValue value .literal quoted cs
    else if isEnd c then readValue value .ended quoted cs
    else (readValue value .plain quoted cs).map (c :: ·)
where
  /-- The characters of a variable's value; none if it is not set. -/
  valueOf (name : List Char) : List Char := ((value (String.ofList name)).getD "").toList

/-! ### Lines -/

/-- May a name start with the character? -/
def isNameStart (c : Char) : Bool := c.isAlpha || c == '_'

/-- May a name hold the character? -/
def isNamePart (c : Char) : Bool := c.isAlphanum || c == '_' || c == '.'

/-- Reads a name, and passes over the blanks behind it. -/
def readName (cs : List Char) : Option (String × List Char) :=
  match cs with
  | [] => none
  | c :: _ =>
    if isNameStart c then
      some (String.ofList (cs.takeWhile isNamePart),
        Text.dropLeadingBlanks (cs.dropWhile isNamePart))
    else none

/-- Does nothing follow, or a comment? -/
def isComment : List Char → Bool
  | [] => true
  | c :: _ => c == '#'

/-- Reads what follows the equals sign behind a name. -/
def assign (value : String → Option String) (name : String) (cs : List Char) :
    Option (String × String) :=
  let cs := Text.dropLeadingBlanks cs
  if isComment cs then some (name, "")
  else (readValue value .plain false cs).map fun v => (name, String.ofList v)

/-- Reads a name, an equals sign and a value. -/
def readAssignment (value : String → Option String) (cs : List Char) : Option (String × String) :=
  match readName cs with
  | some (name, '=' :: rest) => assign value name rest
  | _ => none

/-- Reads a line that sets a variable. `export` may stand in front, or be a name itself. -/
def readLine (value : String → Option String) (cs : List Char) : Option (String × String) :=
  match readName cs with
  | some ("export", rest) =>
    match rest with
    | '=' :: rest => assign value "export" rest
    | _ => readAssignment value rest
  | _ => readAssignment value cs

/-! ### Files -/

/-- What follows `start`, if the characters begin with it. -/
def behind? : List Char → List Char → Option (List Char)
  | [], cs => some cs
  | s :: start, c :: cs => if s = c then behind? start cs else none
  | _ :: _, [] => none

/-- The value of a name among variables, each of which is a text `NAME=value`: what stands behind
the name and an equals sign in the first text that starts with them. A name with an equals sign in
it reaches into a value. -/
def valueIn (entries : List (String × String)) (name : String) : Option String :=
  entries.findSome? fun (n, v) =>
    (behind? (name ++ "=").toList (n ++ "=" ++ v).toList).map String.ofList

/-- A variable's value: that of the environment, or else that set by the file. -/
def lookupIn (environment : String → Option String) (set : List (String × String))
    (name : String) : Option String :=
  (environment name).or (valueIn set name)

/-- What is set after further lines. -/
def setBy (environment : String → Option String) (set : List (String × String)) :
    List (List Char) → List (String × String)
  | [] => set
  | line :: rest =>
    let cs := Text.trimChars line
    if isComment cs then setBy environment set rest
    else
      match readLine (lookupIn environment set) cs with
      | none => set
      | some (name, value) =>
        if (lookupIn environment set name).isSome then setBy environment set rest
        else setBy environment (set ++ [(name, value)]) rest

/-- The variables of an environment with those that a file adds. -/
def extend (environment : String → Option String) (file : String) : String → Option String :=
  lookupIn environment (setBy environment [] (file.toList.splitOn '\n'))

end ResponseExport.Settings.EnvFile
