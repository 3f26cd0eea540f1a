import ResponseExport.Export.Capacity
import ResponseExport.Export.Walk

/-!
# `ResponseExport.Export.RowStream`: reading ahead, but not far

Rows are fetched by a producer and pulled by a consumer, with a channel of one page between them.
The producer looks whether it is still listened to, asks for a page, sends its rows one by one, and
waits whenever the channel is full. It stops after a short page, after an error, and when the
consumer is gone.

Each event of a `RowStream` is one step of the producer, the consumer or the source; an event that
cannot happen now gives `none`. `RowStream.settle` lets the producer run until it has to wait;
`RowStream.begin` is its first turn, which ends earlier if a long page is sent.
-/

set_option autoImplicit false

namespace ResponseExport.Export

open Survey (Response Cursor)

/-- What the producer is at. -/
inductive Phase where
  /-- It is about to look whether it is still listened to. -/
  | checking
  /-- It waits for a page. -/
  | asking
  /-- It has `next` to send and then the `rest` of its page; is the page the last one? -/
  | sending (next : Response) (rest : List Response) (last : Bool)
  /-- It has an error to send, and then nothing more. -/
  | failing (e : ExportError)
  /-- It is over. -/
  | stopped
  deriving Repr, DecidableEq

/-- A question for a page. -/
structure Call where
  after : Option Cursor
  limit : Nat
  deriving Repr, DecidableEq

/-- Producer, channel and consumer. -/
structure RowStream where
  /-- The rows of a page, and of the channel; at least one. -/
  size : Nat
  phase : Phase
  /-- What is sent and not yet pulled. -/
  buffer : List Item
  /-- Where the next page starts. -/
  cursor : Option Cursor
  /-- Is the consumer gone? -/
  dropped : Bool
  /-- The questions asked so far. -/
  calls : List Call
  /-- How many items were pulled. -/
  pulled : Nat

namespace RowStream

/-- A stream before its producer has begun, if its channel can have the size of a page. -/
def new? (pageSize : Nat) : Option RowStream :=
  if isPossible pageSize then some ⟨atLeastOne pageSize, .checking, [], none, false, [], 0⟩
  else none

/-- What the producer does behind the last row of a page. -/
def afterPage (last : Bool) : Phase := if last then .stopped else .checking

/-- The producer looks whether it is still listened to, and asks for a page. -/
def check (s : RowStream) : Option RowStream :=
  match s.phase with
  | .checking =>
    if s.dropped then some { s with phase := .stopped }
    else some { s with phase := .asking, calls := s.calls ++ [⟨s.cursor, s.size⟩] }
  | _ => none

/-- The source answers. -/
def answer (s : RowStream) (a : PageAnswer) : Option RowStream :=
  match s.phase with
  | .asking =>
    match a with
    | .error e => some { s with phase := .failing (.ofDomain e) }
    | .ok rows =>
      let last : Bool := rows.length < s.size
      let phase := match rows with
        | [] => afterPage last
        | r :: rest => .sending r rest last
      some { s with phase, cursor := cursorAfter s.cursor rows }
  | _ => none

/-- Has the channel room for an item? -/
def hasRoom (s : RowStream) : Bool := s.buffer.length < s.size

/-- The producer sends what it holds, or learns that nobody listens. -/
def send (s : RowStream) : Option RowStream :=
  match s.phase with
  | .sending next rest last =>
    if s.dropped then some { s with phase := .stopped }
    else if s.hasRoom then
      let phase := match rest with
        | [] => afterPage last
        | r :: rest => .sending r rest last
      some { s with phase, buffer := s.buffer ++ [.ok next] }
    else none
  | .failing e =>
    if s.dropped then some { s with phase := .stopped }
    else if s.hasRoom then some { s with phase := .stopped, buffer := s.buffer ++ [.error e] }
    else none
  | _ => none

/-- The consumer takes the oldest item. -/
def pull (s : RowStream) : Option (Item × RowStream) :=
  match s.dropped, s.buffer with
  | false, item :: rest => some (item, { s with buffer := rest, pulled := s.pulled + 1 })
  | _, _ => none

/-- Has the stream ended for its consumer? -/
def isEnded (s : RowStream) : Bool := s.phase == .stopped && s.buffer.isEmpty

/-- The consumer goes, and what is in the channel is lost. -/
def drop (s : RowStream) : Option RowStream :=
  if s.dropped then none else some { s with dropped := true, buffer := [] }

/-- One step of the producer, with answers from `pages`; `none` if it has to wait or is over. -/
def advance (pages : Pages) (s : RowStream) : Option RowStream :=
  match s.phase with
  | .checking => s.check
  | .asking => s.answer (pages (s.calls.length - 1) s.cursor s.size)
  | .sending .. => s.send
  | .failing _ => s.send
  | .stopped => none

/-- Lets the producer run until it has to wait, for at most `steps` steps. -/
def settle (pages : Pages) : (steps : Nat) → RowStream → RowStream
  | 0, s => s
  | steps + 1, s =>
    match s.advance pages with
    | some s => settle pages steps s
    | none => s

/-- What a consumer sees that pulls up to `take` times and lets the producer run after each pull:
the items with the number of questions asked by then, and whether the end came. -/
def consume (pages : Pages) (steps : Nat) : (take : Nat) → RowStream →
    List (Item × Nat) × Bool × RowStream
  | 0, s => ([], false, s)
  | take + 1, s =>
    let s := s.settle pages steps
    match s.pull with
    | none => ([], true, s)
    | some (item, s) =>
      let s := s.settle pages steps
      let (items, ended, last) := consume pages steps take s
      ((item, s.calls.length) :: items, ended, last)

/-- How many items the producer sends before others have a turn. -/
def turn : Nat := 128

/-- Is the producer's first turn over? It has one more item to send, and nothing is pulled yet. -/
def isTurnOver (s : RowStream) : Bool :=
  match s.phase with
  | .sending .. => turn ≤ s.buffer.length
  | .failing _ => turn ≤ s.buffer.length
  | _ => false

/-- Lets the producer run until it has to wait or its first turn is over, for at most `steps`
steps. -/
def begin (pages : Pages) : (steps : Nat) → RowStream → RowStream
  | 0, s => s
  | steps + 1, s =>
    if s.isTurnOver then s
    else
      match s.advance pages with
      | some s => begin pages steps s
      | none => s

/-- What a consumer sees that goes after the first item, and how many questions are asked in all. It
pulls as soon as the producer's first turn is over. -/
def first (pages : Pages) (steps : Nat) (s : RowStream) : Option Item × Nat :=
  let s := s.begin pages steps
  match s.pull with
  | none => (none, s.calls.length)
  | some (item, s) => (some item, ((s.drop.getD s).settle pages steps).calls.length)

end RowStream

end ResponseExport.Export
