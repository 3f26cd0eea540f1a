import ResponseExport.Export.Queue
import ResponseExport.Export.Service

/-!
# `ResponseExport.Export.System`: the service behind its queue

Callers ask for exports, the queue hands the requests to workers, and the workers run them. An
`Asking` is a caller's request on its way: its job is created, then the request is handed in, and a
request that the queue refuses leaves its job failed. Every event of a `System` is one step of one
of the parts, so that any interleaving is a sequence of events.
-/

set_option autoImplicit false

namespace ResponseExport.Export

/-- How far a caller's request is. -/
inductive AskStage where
  /-- The job is to be created. -/
  | creating
  /-- The request is to be handed to the queue. -/
  | queueing (job : Job)
  /-- The queue refused; the job is to be marked failed. -/
  | refusing (e : ExportError)
  /-- The caller has an answer. -/
  | answered (result : Except ServiceError Job)

/-- A caller's request on its way. -/
structure Asking where
  request : Request
  stage : AskStage

/-- The service, the queue, and what the workers are at. -/
structure System where
  service : Service
  queue : Queue
  /-- The tasks of the workers, in the order of starting. -/
  tasks : List Task := []
  /-- The callers' requests, in the order of asking. -/
  askings : List Asking := []

namespace System

/-- Hands the request that the dispatcher starts to a worker. -/
def start (y : System) : Option System :=
  match y.queue.dispatch, y.queue.start with
  | .holding r, some queue => some { y with queue, tasks := y.tasks ++ [Task.new r] }
  | _, _ => none

/-- Gives up the request in the dispatcher's hand. -/
def giveUp (y : System) : Option System :=
  match y.queue.dispatch, y.queue.giveUp with
  | .refusing r, some queue => some { y with queue, service := y.service.abandon r }
  | .clearing r, some queue => some { y with queue, service := y.service.abandon r }
  | _, _ => none

/-- One step of the dispatcher, if it need not wait. -/
def dispatch (y : System) : Option System :=
  match y.queue.dispatch with
  | .holding _ =>
    match y.queue.heed with
    | some queue => some { y with queue }
    | none => y.start
  | .refusing _ => y.giveUp
  | .clearing _ => y.giveUp
  | _ => y.queue.advance.map fun queue => { y with queue }

/-- One step of the task at a place. When a task ends, its worker is done with the request. -/
def work (y : System) (i : Nat) : Option System :=
  match y.tasks[i]? with
  | none => none
  | some ⟨_, .broken _⟩ => none
  | some t =>
    let (service, t) := t.step y.service
    if t.isOver then
      (y.queue.finish t.request).map fun queue =>
        { y with service, queue, tasks := y.tasks.eraseIdx i }
    else some { y with service, tasks := y.tasks.set i t }

/-- The file system refuses something to the task at a place. -/
def fault (y : System) (i : Nat) (message : String) : Option System :=
  match y.tasks[i]? with
  | none => none
  | some t =>
    (t.fault y.service message).map fun (service, t) => { y with service, tasks := y.tasks.set i t }

/-- Marks the job of a refused request failed, and answers the caller. -/
def refuse (y : System) (r : Request) (e : ExportError) : System × Except ServiceError Job :=
  match y.service.move r.id .failed with
  | (service, .ok _) => ({ y with service }, .error (.unavailable e.message))
  | (service, .error e) => ({ y with service }, .error (.domain e))

/-- One step of a caller's request. -/
def askStep (y : System) (a : Asking) : System × Asking :=
  match a.stage with
  | .creating =>
    match y.service.create a.request.id a.request.user a.request.survey with
    | (service, .ok job) => ({ y with service }, { a with stage := .queueing job })
    | (service, .error e) => ({ y with service }, { a with stage := .answered (.error (.domain e)) })
  | .queueing job =>
    match y.queue.enqueue a.request with
    | (queue, .ok ()) => ({ y with queue }, { a with stage := .answered (.ok job) })
    | (queue, .error e) => ({ y with queue }, { a with stage := .refusing e })
  | .refusing e =>
    match y.refuse a.request e with
    | (y, result) => (y, { a with stage := .answered result })
  | .answered _ => (y, a)

/-- A caller asks for an export. -/
def ask (y : System) (r : Request) : System := { y with askings := y.askings ++ [⟨r, .creating⟩] }

/-- One step of the caller's request at a place. -/
def proceed (y : System) (i : Nat) : Option System :=
  match y.askings[i]? with
  | none => none
  | some a =>
    let (y, a) := y.askStep a
    some { y with askings := y.askings.set i a }

/-- The queue is to stop. -/
def cancel (y : System) : System := { y with queue := y.queue.cancel }

/-- A millisecond passes. -/
def tick (y : System) : System := { y with service := y.service.tick }

/-! ### Running in order -/

/-- Takes a caller's request to its answer, without pause. -/
def request (y : System) (r : Request) : System × Except ServiceError Job :=
  match y.service.create r.id r.user r.survey with
  | (service, .error e) => ({ y with service }, .error (.domain e))
  | (service, .ok job) =>
    match y.queue.enqueue r with
    | (queue, .ok ()) => ({ y with service := service.tick, queue }, .ok job)
    | (queue, .error e) => refuse { y with service := service.tick, queue } r e

/-- One step of a worker that is done with its request. -/
def leave (y : System) : Option System := y.queue.leave.map fun queue => { y with queue }

/-- The next step of a leaving worker, the dispatcher or, if `working`, a task. -/
def advance (working : Bool) (y : System) : Option System :=
  match y.leave.or y.dispatch with
  | some y => some y
  | none =>
    if working then (List.range y.tasks.length).findSome? fun i => y.work i else none

/-- Lets dispatcher and workers run until they have to wait, for at most `steps` steps. -/
def settleIn (working : Bool) : (steps : Nat) → System → System
  | 0, y => y
  | n + 1, y =>
    match y.advance working with
    | some y => settleIn working n y.tick
    | none => y

/-- More steps than dispatcher and workers take before they have to wait. -/
def settleSteps (y : System) : Nat :=
  (y.queue.waiting.length + y.tasks.length + y.queue.closing + y.queue.leaving + 2) *
    (y.service.taskSteps + 6)

/-- Lets dispatcher and, if `working`, workers run until they have to wait. -/
def settle (working : Bool) (y : System) : System := y.settleIn working y.settleSteps

end System

end ResponseExport.Export
