import ResponseExport.Proofs.Scene.Attempts
import ResponseExport.Proofs.System.Steps

/-!
# `ResponseExport.Proofs.Scene.Steps`: everybody who uses the service

A `Scene` is the service with the callers who ask for exports and the attempts to
write their files. In contrast to a `System` nothing is said of the queue between
them: a caller may find it in any state, requests may be given up at any time, and
attempts may begin in any order. What is known is that ids are UUIDs and that no two
attempts have the same one.

Every event is a step of one attempt, or it is `Beside` all of them: the directory
stays as it is, and no job is marked done (`next_cases`).
-/

set_option autoImplicit false

namespace ResponseExport.Export

open Store (JobOp JobRow RowsKept)

/-- The service with those who use it. -/
structure Scene where
  service : Service
  /-- The callers' requests, in the order of asking. -/
  askings : List Asking := []
  /-- What was begun to be written, in the order of beginning. -/
  attempts : List Attempt := []

/-- Something that happens to the service. -/
inductive SceneEvent where
  /-- A caller asks for an export. -/
  | ask (r : Request)
  /-- The caller's request at a place takes a step. If it goes to the queue, it finds it as it is
  here. -/
  | proceed (i : Nat) (q : Queue)
  /-- A request begins to be worked on. -/
  | process (r : Request)
  /-- The attempt at a place takes a step. -/
  | work (i : Nat)
  /-- The file system refuses something to the attempt at a place. -/
  | fault (i : Nat) (message : String)
  /-- A request is given up. -/
  | abandon (r : Request)
  /-- All unfinished jobs are failed. -/
  | failUnfinished
  /-- A user opens a file, or is told that there is none. -/
  | openFile (user id : String)
  /-- The world around changes. -/
  | surround (w : Surroundings)

namespace Scene

/-- The scene behind an event, if the event can happen now. -/
def next (x : Scene) : SceneEvent → Option Scene
  | .ask r => some { x with askings := x.askings ++ [⟨r, .creating⟩] }
  | .proceed i queue =>
    (x.askings[i]?).map fun a =>
      let (y, a) := System.askStep { service := x.service, queue } a
      { x with service := y.service, askings := x.askings.set i a }
  | .process r =>
    if isUuid r.id ∧ ∀ a ∈ x.attempts, a.id ≠ r.id then
      some { x with attempts := x.attempts ++ [{ task := Task.new r }] }
    else none
  | .work i =>
    (x.attempts[i]?).map fun a =>
      let (service, a) := a.step x.service
      { x with service, attempts := x.attempts.set i a }
  | .fault i message =>
    (x.attempts[i]?).bind fun a => (a.fault x.service message).map fun (service, a) =>
      { x with service, attempts := x.attempts.set i a }
  | .abandon r => some { x with service := x.service.abandon r }
  | .failUnfinished => some { x with service := x.service.failUnfinished.1 }
  | .openFile _ _ => some x
  | .surround w => some { x with service := x.service.amid w }

/-- The scene behind events, if they can happen in this order. -/
def run (x : Scene) (events : List SceneEvent) : Option Scene := events.foldlM next x

/-- The rows of the table of jobs. -/
def jobs (x : Scene) : List JobRow := x.service.store.tables.jobs

end Scene

/-! ### What one event does -/

/-- The service when something happened that has nothing to do with files. -/
structure Service.Beside (s s' : Service) : Prop where
  works : s'.Works
  directory_eq : s'.directory = s.directory
  pageSize_eq : s'.pageSize = s.pageSize
  baseUrl_eq : s'.baseUrl = s.baseUrl
  rows : RowsKept s.store.tables.jobs s'.store.tables.jobs

variable {s : Service}

theorem Service.Works.beside (h : s.Works) : s.Beside s := ⟨h, rfl, rfl, rfl, RowsKept.refl _⟩

theorem Service.Works.beside_apply (h : s.Works) (op : JobOp) (htime : op.time = s.stamp)
    (hop : op.makesDone = false) : s.Beside { s with store := JobOp.apply s.store op } where
  works := ⟨JobOp.usable_apply h.usable op (htime ▸ h.isTime), h.clock, h.possible⟩
  directory_eq := rfl
  pageSize_eq := rfl
  baseUrl_eq := rfl
  rows := Store.rowsKept_apply h.usable.isOpen hop

/-- An attempt stays as it is said to be. -/
theorem Attempt.Fits.beside {s' : Service} {a : Attempt} (h : a.Fits s) (hs : s.Beside s') :
    a.Fits s' := by
  refine h.mono (fun _ _ => by rw [hs.directory_eq]) (fun hdir => ?_) hs.pageSize_eq ?_ ?_
  · rwa [hs.directory_eq]
  · rintro ⟨j, hj, hid⟩
    obtain ⟨j', hj', hid'⟩ := hs.rows.exists_id j hj
    exact ⟨j', hj', hid'.trans hid⟩
  · intro j hj _ hfailed
    exact hs.rows.kept j hj (JobOp.isUnfinished_of_terminal (Or.inr hfailed))

/-- A caller creates a job, or fails one, or does nothing to the table. -/
theorem System.beside_askStep {y : System} (h : y.service.Works) (a : Asking) :
    y.service.Beside (y.askStep a).1.service := by
  rcases y.askStep_cases a with ⟨op, _, htime, hop, hstep⟩ | ⟨_, _, -, hstep⟩ | hstep <;> rw [hstep]
  · exact h.beside_apply op htime hop
  · exact h.beside
  · exact h.beside

namespace Scene

variable {x x' : Scene} {e : SceneEvent}

/-- An event is beside all attempts, begins one under a new id, or is a step of one. -/
theorem next_cases (h : x.service.Works) (he : x.next e = some x') :
    (x.service.Beside x'.service ∧ x'.attempts = x.attempts) ∨
    (∃ r, isUuid r.id = true ∧ (∀ a ∈ x.attempts, a.id ≠ r.id) ∧
      x'.service = x.service ∧ x'.attempts = x.attempts ++ [{ task := Task.new r }]) ∨
    (∃ pre a post a', x.attempts = pre ++ a :: post ∧ x'.attempts = pre ++ a' :: post ∧
      (a.step x.service = (x'.service, a') ∨
        ∃ message, a.fault x.service message = some (x'.service, a'))) := by
  cases e with
  | ask r =>
      obtain rfl := Option.some.inj he
      exact Or.inl ⟨h.beside, rfl⟩
  | proceed i queue =>
      obtain ⟨a, -, rfl⟩ := Option.map_eq_some_iff.mp he
      exact Or.inl ⟨System.beside_askStep (y := { service := x.service, queue }) h a, rfl⟩
  | process r =>
      rw [next] at he
      split at he
      · rename_i hnew
        obtain rfl := Option.some.inj he
        exact Or.inr (Or.inl ⟨r, hnew.1, hnew.2, rfl, rfl⟩)
      · cases he
  | work i =>
      obtain ⟨a, ha, rfl⟩ := Option.map_eq_some_iff.mp he
      obtain ⟨pre, post, hsplit, hset, -⟩ := exists_append_of_getElem? ha
      exact Or.inr (Or.inr ⟨pre, a, post, _, hsplit, hset _, Or.inl rfl⟩)
  | fault i message =>
      obtain ⟨a, ha, hfault⟩ := Option.bind_eq_some_iff.mp he
      obtain ⟨⟨service, a'⟩, ha', rfl⟩ := Option.map_eq_some_iff.mp hfault
      obtain ⟨pre, post, hsplit, hset, -⟩ := exists_append_of_getElem? ha
      exact Or.inr (Or.inr ⟨pre, a, post, a', hsplit, hset a', Or.inr ⟨message, ha'⟩⟩)
  | abandon r =>
      obtain rfl := Option.some.inj he
      exact Or.inl ⟨h.beside_apply (.move x.service.stamp r.id .failed) rfl rfl, rfl⟩
  | failUnfinished =>
      obtain rfl := Option.some.inj he
      exact Or.inl ⟨h.beside_apply (.failAll x.service.stamp) rfl rfl, rfl⟩
  | openFile user id =>
      obtain rfl := Option.some.inj he
      exact Or.inl ⟨h.beside, rfl⟩
  | surround w =>
      obtain rfl := Option.some.inj he
      exact Or.inl ⟨⟨h.amid w, rfl, rfl, rfl, RowsKept.refl _⟩, rfl⟩

end Scene

end ResponseExport.Export
