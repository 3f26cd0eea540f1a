import ResponseExport.Batch.Run
import ResponseExport.Store.Opening
import ResponseExport.Store.Snapshot

/-!
# `ResponseExport.Main`: the command line of the batch exporter

The command writes responses as CSV, all of them or those to one survey, to a file or to standard
output. Its database is a snapshot in a file; one that is not there is made, and holds nothing.
-/

set_option autoImplicit false

namespace ResponseExport.Batch

/-- The bytes of a file, if it can be read. -/
def readBytes? (path : String) : IO (Option (List UInt8)) := do
  try
    return some (← IO.FS.readBinFile path).data.toList
  catch _ =>
    return none

/-- Writes a file, and tells if that can be done. -/
def writeBytes (path : String) (bytes : List UInt8) : IO Bool := do
  try
    IO.FS.writeBinFile path ⟨bytes.toArray⟩
    return true
  catch _ =>
    return false

/-- The names that a file of variables may refer to, and those that the settings have. -/
def namesIn (file : String) : List String :=
  let words (isPart : Char → Bool) : List String :=
    (file.toList.splitOnP (!isPart ·)).map String.ofList
  Settings.names ++ words Text.isAlphanumeric ++ words Settings.EnvFile.isNamePart ++
    words fun c => c != '\x7b' && c != '\x7d'

/-- The values that some variables have in the environment. -/
def readEnvironment (names : List String) : IO (String → Option String) := do
  let mut found : List (String × String) := []
  for name in names do
    match ← IO.getEnv name with
    | some value => found := (name, value) :: found
    | none => pure ()
  return fun name => found.lookup name

/-- The store of which bytes are a snapshot. -/
def snapshot? (bytes : List UInt8) : Option Store :=
  ((Text.ofBytes? bytes).bind Json.Doc.ofText?).map fun d =>
    { tables := (({} : Store.Tables).addSnapshot d).1 }

/-- What stands at a path: a file if it can be read, a directory if it is of the wrong kind for
that. -/
def nodeAt? (path : String) : IO (Option Node) := do
  try
    return some (.file (← IO.FS.readBinFile path).data.toList)
  catch
    | .inappropriateType .. => return some (.directory none)
    | _ => return none

/-- The places that one comes by on the way along a path, with the path's own at the end. -/
def placesAlong (nowhere : Disk) (path : String) : List Place :=
  let ps := (if Disk.isAbsolute path then [] else nowhere.here) ++ Disk.parts path
  (List.range (ps.length + 1)).filterMap fun n =>
    (ps.take n).foldlM (Store.Files.enter nowhere) []

/-- The disk, seen as far as it matters to some paths: what stands at them and on the way there. -/
def lookAround (paths : List String) : IO Disk := do
  let here := (Disk.parts (toString (← IO.currentDir))).filter (!Disk.isStay ·)
  let mut nodes : List (Place × Node) := []
  for place in ("." :: paths).flatMap (placesAlong { here }) do
    match ← nodeAt? (Disk.pathOf place) with
    | some node => nodes := (place, node) :: nodes
    | none => pure ()
  return { here, nodes }

/-- Opens the database at an address, which is a snapshot. -/
def openSnapshot (url : String) : IO (Except StoreError Store) := do
  let uri := (Store.Address.read url).toOption.bind fun a => a.uri.toOption
  let named := uri.toList.flatMap fun u => u.name :: (u.option? "modeof").toList
  let disk ← lookAround named
  match Store.connect url disk with
  | .error e => return .error e
  | .ok o =>
    match o.file with
    | some place =>
      if (disk.node? place).isNone then discard (writeBytes (Disk.pathOf place) [])
    | none => pure ()
    return o.prepare (Store.Content.at disk snapshot?)

/-- Carries out a plan, and answers the exit code. -/
def perform (p : Plan) : IO UInt32 := do
  match p.arguments.output, p.run {} with
  | _, none => return 101
  | some path, some o =>
    return if ← writeBytes path o.sink.data then UInt32.ofNat o.code else 1
  | none, some o =>
    let out ← IO.getStdout
    out.write ⟨o.sink.data.toArray⟩
    out.flush
    return UInt32.ofNat o.code

end ResponseExport.Batch

open ResponseExport.Batch in
/-- Runs the command. -/
def main (args : List String) : IO UInt32 := do
  let file := (← readBytes? ".env").bind ResponseExport.Text.ofBytes?
  let environment ← readEnvironment (namesIn (file.getD ""))
  match ← plan args (withFile environment file) openSnapshot with
  | .error o =>
    IO.eprint o.complaint
    return UInt32.ofNat o.code
  | .ok p => perform p
