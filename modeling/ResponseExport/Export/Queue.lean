import ResponseExport.Error.Export
import ResponseExport.Export.Capacity
import ResponseExport.Export.Job

/-!
# `ResponseExport.Export.Queue`: requests in line

Requests wait in a channel of limited size. A dispatcher takes them out one by one, waits for a permit
with the request in its hand, and hands it over to a worker, who holds the permit from then on. On
shutdown it gives up the request in its hand, closes the channel, gives up everything that still waits
there, and then waits for the permits of the workers at work.

A worker that is done with its request leaves in two steps: it lowers the count of active requests,
and then it gives its permit back.

Each event of a `Queue` is one step of a caller, the dispatcher or a worker; an event that cannot
happen now gives `none`. `Queue.settle` lets dispatcher and leaving workers run until they have to
wait.
-/

set_option autoImplicit false

namespace ResponseExport.Export

/-- What the dispatcher is at. -/
inductive Dispatch where
  /-- It waits for a request. -/
  | receiving
  /-- It waits for a permit for the request in its hand. -/
  | holding (r : Request)
  /-- It gives up the request in its hand; the channel is still open. -/
  | refusing (r : Request)
  /-- The channel is closed, and it empties it. -/
  | draining
  /-- It gives up a request out of the closed channel. -/
  | clearing (r : Request)
  /-- It waits for the permits of the workers at work. -/
  | joining
  /-- It is over. -/
  | stopped
  deriving Repr, DecidableEq

/-- The queue with its dispatcher and workers. -/
structure Queue where
  /-- The number of workers; at least one. -/
  workers : Nat
  /-- The size of the channel; at least one. -/
  capacity : Nat
  /-- What waits in the channel, oldest first. -/
  waiting : List Request
  dispatch : Dispatch
  /-- How many permits nobody holds. -/
  permits : Nat
  /-- How many requests count as being at work. -/
  active : Nat
  /-- What is at work, in the order of starting. -/
  running : List Request
  /-- How many workers are done with their request, which still counts. -/
  closing : Nat
  /-- How many workers have only their permit left to give back. -/
  leaving : Nat
  /-- What was ever handed to a worker, in order. -/
  started : List Request
  /-- What was given up, in order. -/
  abandoned : List Request
  /-- What a worker is done with, in order. -/
  finished : List Request
  /-- Is the queue to stop? -/
  shutdown : Bool
  /-- Can no more requests come? -/
  senderGone : Bool
  deriving Repr, DecidableEq

namespace Queue

/-- A queue without requests, if its channel and its workers can have the requested sizes. -/
def new? (workers capacity : Nat) : Option Queue :=
  if isPossible workers ∧ isPossible capacity then
    some {
      workers := atLeastOne workers
      capacity := atLeastOne capacity
      waiting := []
      dispatch := .receiving
      permits := atLeastOne workers
      active := 0
      running := []
      closing := 0
      leaving := 0
      started := []
      abandoned := []
      finished := []
      shutdown := false
      senderGone := false }
  else none

/-- Is the channel closed? -/
def isClosed (q : Queue) : Bool :=
  match q.dispatch with
  | .receiving => false
  | .holding _ => false
  | .refusing _ => false
  | _ => true

/-- A caller hands in a request. -/
def enqueue (q : Queue) (r : Request) : Queue × Except ExportError Unit :=
  if q.isClosed then (q, .error .channelClosed)
  else if q.capacity ≤ q.waiting.length then (q, .error .queueFull)
  else ({ q with waiting := q.waiting ++ [r] }, .ok ())

/-- The dispatcher takes the oldest request out of the open channel. -/
def receive (q : Queue) : Option Queue :=
  match q.dispatch, q.waiting with
  | .receiving, r :: rest => some { q with dispatch := .holding r, waiting := rest }
  | _, _ => none

/-- The dispatcher takes a permit and hands its request to a worker. -/
def start (q : Queue) : Option Queue :=
  match q.dispatch with
  | .holding r =>
    if 0 < q.permits then
      some { q with
        dispatch := .receiving
        permits := q.permits - 1
        active := q.active + 1
        running := q.running ++ [r]
        started := q.started ++ [r] }
    else none
  | _ => none

/-- The dispatcher sees that the queue is to stop. -/
def heed (q : Queue) : Option Queue :=
  if q.shutdown then
    match q.dispatch with
    | .receiving => some { q with dispatch := .draining }
    | .holding r => some { q with dispatch := .refusing r, abandoned := q.abandoned ++ [r] }
    | _ => none
  else none

/-- The dispatcher sees that nothing waits and no more requests can come. -/
def runDry (q : Queue) : Option Queue :=
  match q.dispatch, q.waiting with
  | .receiving, [] => if q.senderGone then some { q with dispatch := .draining } else none
  | _, _ => none

/-- A request is given up for good. -/
def giveUp (q : Queue) : Option Queue :=
  match q.dispatch with
  | .refusing _ => some { q with dispatch := .draining }
  | .clearing _ => some { q with dispatch := .draining }
  | _ => none

/-- The dispatcher takes the oldest request out of the closed channel, or finds it empty. -/
def drain (q : Queue) : Option Queue :=
  match q.dispatch, q.waiting with
  | .draining, r :: rest =>
    some { q with dispatch := .clearing r, waiting := rest, abandoned := q.abandoned ++ [r] }
  | .draining, [] => some { q with dispatch := .joining }
  | _, _ => none

/-- Permits are counted in 32 bits when the dispatcher waits for them. -/
def joinLimit : Nat := 4294967296

/-- How many permits the dispatcher waits for: the number of workers, cut to 32 bits. -/
def joinCount (q : Queue) : Nat := q.workers % joinLimit

/-- The dispatcher sees that enough permits are back. -/
def join (q : Queue) : Option Queue :=
  match q.dispatch with
  | .joining => if q.joinCount ≤ q.permits then some { q with dispatch := .stopped } else none
  | _ => none

/-- A worker is done with a request. -/
def finish (q : Queue) (r : Request) : Option Queue :=
  if q.running.contains r then
    some { q with
      running := q.running.erase r
      closing := q.closing + 1
      finished := q.finished ++ [r] }
  else none

/-- The request of a worker that is done does not count any more. -/
def uncount (q : Queue) : Option Queue :=
  match q.closing with
  | 0 => none
  | n + 1 => some { q with closing := n, active := q.active - 1, leaving := q.leaving + 1 }

/-- A worker gives its permit back. -/
def release (q : Queue) : Option Queue :=
  match q.leaving with
  | 0 => none
  | n + 1 => some { q with leaving := n, permits := q.permits + 1 }

/-- The queue is to stop. -/
def cancel (q : Queue) : Queue := { q with shutdown := true }

/-- No more requests can come. -/
def dropSender (q : Queue) : Queue := { q with senderGone := true }

/-- One step of the dispatcher, if it need not wait. Stopping comes before new work. -/
def advance (q : Queue) : Option Queue :=
  match q.dispatch with
  | .receiving => (q.heed.or q.receive).or q.runDry
  | .holding _ => q.heed.or q.start
  | .refusing _ => q.giveUp
  | .draining => q.drain
  | .clearing _ => q.giveUp
  | .joining => q.join
  | .stopped => none

/-- One step of a worker that is done with its request. -/
def leave (q : Queue) : Option Queue := q.uncount.or q.release

/-- Lets dispatcher and leaving workers run for at most `steps` steps. -/
def settleIn : (steps : Nat) → Queue → Queue
  | 0, q => q
  | steps + 1, q =>
    match q.leave.or q.advance with
    | some q => settleIn steps q
    | none => q

/-- Lets dispatcher and leaving workers run until they have to wait. Each waiting request and each
worker takes two steps at most. -/
def settle (q : Queue) : Queue :=
  q.settleIn (2 * (q.waiting.length + q.closing + q.leaving) + 6)

/-- Is the dispatcher over? -/
def isStopped (q : Queue) : Bool := q.dispatch == .stopped

end Queue

end ResponseExport.Export
