import ResponseExport.Csv.Encoder

/-!
# `ResponseExport.Csv.Chunks`: a file piece by piece

A download is delivered in chunks: the header if it is known beforehand, then one chunk per record.
The first error ends it.
-/

set_option autoImplicit false

namespace ResponseExport.Csv

/-- The chunks of records that may end in an error. -/
def bodyChunks {ε : Type} (e : Encoder) :
    List (Except ε Record) → List (Except ε (List UInt8))
  | [] => []
  | .error err :: _ => [.error err]
  | .ok r :: rest =>
    let (e, chunk) := e.encode r
    .ok chunk :: bodyChunks e rest

/-- The chunks of a file. -/
def chunks {ε : Type} (e : Encoder) (items : List (Except ε Record)) :
    List (Except ε (List UInt8)) :=
  let (e, head) := e.start
  if head.isEmpty then bodyChunks e items else .ok head :: bodyChunks e items

/-- The bytes of the chunks up to the first error. -/
def bytesOf {ε : Type} : List (Except ε (List UInt8)) → List UInt8
  | .ok chunk :: rest => chunk ++ bytesOf rest
  | _ => []

/-- The error that ends the chunks, if one does. -/
def failureOf? {ε : Type} : List (Except ε (List UInt8)) → Option ε
  | .ok _ :: rest => failureOf? rest
  | .error e :: _ => some e
  | [] => none

/-- The bytes of records that cannot fail, in full. -/
def render (config : Config) (schema : Schema) (records : List Record) : List UInt8 :=
  bytesOf (chunks (ε := Empty) (Encoder.new config schema) (records.map .ok))

end ResponseExport.Csv
