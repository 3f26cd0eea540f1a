/-!
# `ResponseExport.Csv.Sink`: where bytes go

A sink takes some of the bytes that it is offered, up to a fixed number per call and in all, and
may fail one flush. What it holds never shrinks. A sink without limits is a file or a stream in
working order.
-/

set_option autoImplicit false

namespace ResponseExport.Csv

/-- Why a sink refuses. -/
inductive SinkFault where
  /-- It holds all it can. -/
  | full
  /-- It takes no byte at a time. -/
  | writeZero
  /-- A flush fails. -/
  | flushFailed
  deriving Repr, DecidableEq

/-- The wording of a refusal. -/
def SinkFault.message : SinkFault → String
  | .full => "sink full"
  | .writeZero => "write zero"
  | .flushFailed => "flush failed"

/-- A sink and what went into it. -/
structure Sink where
  /-- How many bytes it takes in all; `none` for any number. -/
  capacity : Option Nat := none
  /-- How many bytes it takes per call; `none` for any number. -/
  maxWrite : Option Nat := none
  /-- Which flush fails, counted from zero. -/
  failFlush : Option Nat := none
  /-- What it holds. -/
  data : List UInt8 := []
  /-- How much it held at each flush that succeeded, in order. -/
  flushes : List Nat := []
  deriving Repr, DecidableEq

namespace Sink

/-- Is a limit, if there is one, reached? -/
def isFull (s : Sink) : Bool :=
  match s.capacity with
  | some c => c ≤ s.data.length
  | none => false

/-- How many of `n` bytes it takes in one call, while it is not full. -/
def accepts (s : Sink) (n : Nat) : Nat :=
  let byCall := match s.maxWrite with
    | some m => min n m
    | none => n
  match s.capacity with
  | some c => min byCall (c - s.data.length)
  | none => byCall

/-- Offers bytes until all are taken or the sink refuses. -/
def writeAll (s : Sink) (bs : List UInt8) : Sink × Except SinkFault Unit :=
  if bs.isEmpty then (s, .ok ())
  else if s.isFull then (s, .error .full)
  else if s.accepts bs.length = 0 then (s, .error .writeZero)
  else
    writeAll { s with data := s.data ++ bs.take (s.accepts bs.length) }
      (bs.drop (s.accepts bs.length))
termination_by bs.length
decreasing_by
  rename_i h _ _
  have : 0 < bs.length := by cases bs <;> simp_all
  simp only [List.length_drop]
  omega

/-- Flushes. The number of flushes so far decides whether this one fails. -/
def flush (s : Sink) : Sink × Except SinkFault Unit :=
  if s.failFlush = some s.flushes.length then (s, .error .flushFailed)
  else ({ s with flushes := s.flushes ++ [s.data.length] }, .ok ())

end Sink

end ResponseExport.Csv
