import LayeredStore.Layer.Basic

/-!
# Traffic through layers

Many requests are under way at the same time, each a task of its own. A task runs in one go from
one point where it has to wait to the next: through the layers inwards until one answers, makes
it wait, or the provider is reached; or, once there is an answer, through the layers that it has
passed outwards again. A call that callers share at a layer is a task that starts behind that
layer and ends there. Which task runs next, when the provider responds, and when a caller gives
up is left open, so that all orders of events can be described.
-/

namespace LayeredStore

/-- Who waits for a task: a caller outside, or a ticket at a layer, which are numbered from the
outermost one. -/
inductive Origin
  | caller
  | ticket (layer id : Nat)
deriving DecidableEq

/-- How far a task has come. -/
inductive Stage
  /-- It has still to enter the first layer on its way. -/
  | issued
  /-- It waits at a desk of a layer. -/
  | waiting (layer : Nat)
  /-- It has called the provider. -/
  | calling
  /-- The provider has responded. -/
  | responded (outcome : Outcome Reply)

/-- A request under way. -/
structure Task where
  origin : Origin
  request : Request
  stage : Stage

/-- The number of the first layer on the way of a task. -/
def Task.entry (t : Task) : Nat :=
  match t.origin with
  | .caller => 0
  | .ticket layer _ => layer + 1

/-- Layers, the outermost first, with the tasks under way in them and the clock. -/
structure Traffic where
  layers : List Layer
  tasks : Std.ExtTreeMap Nat Task
  next : Nat
  now : Nanoseconds

/-- How far a request gets on its way inwards. -/
inductive Descent
  | answered (a : Answer Reply)
  | waiting (layer : Nat) (opened : Option Nat)
  | reached

/-- What the run of a task means to those outside. -/
inductive Effect
  | nothing
  /-- The task has called the provider. -/
  | call (r : Request)
  /-- The task of a caller has ended. -/
  | report (outcome : Outcome Reply)

namespace Traffic

/-- Nothing is under way yet. -/
def start (layers : List Layer) (now : Nanoseconds) : Traffic := ⟨layers, ∅, 0, now⟩

/-- A request goes inwards through layers, the first of which has a given number. A layer that
lets it pass sees the answer of a layer further in at once, on the way back. -/
def descend (now : Nanoseconds) (caller : Nat) (r : Request) :
    List Layer → Nat → List Layer × Descent
  | [], _ => ([], .reached)
  | l :: inner, number =>
    match l.receive now caller r with
    | (l, some (.answered a)) => (l :: inner, .answered a)
    | (l, some .joined) => (l :: inner, .waiting number none)
    | (l, some (.opened ticket)) => (l :: inner, .waiting number (some ticket))
    | (l, none) => match descend now caller r inner (number + 1) with
      | (inner, .answered a) => (l.returned now r a :: inner, .answered a)
      | (inner, d) => (l :: inner, d)

/-- An answer goes outwards through the layers from number `first` up to but not including
number `last`. -/
def ascend (now : Nanoseconds) (r : Request) (a : Answer Reply) (first last : Nat)
    (layers : List Layer) : List Layer :=
  layers.mapIdx fun i l => if first ≤ i ∧ i < last then l.returned now r a else l

/-- The layer of a given number changed. -/
def modifyLayer (t : Traffic) (number : Nat) (f : Layer → Layer) : Traffic :=
  { t with layers := t.layers.modify number f }

/-- A caller makes a request; the task has not run yet. -/
def issue (t : Traffic) (r : Request) : Nat × Traffic :=
  (t.next, { t with tasks := t.tasks.insert t.next ⟨.caller, r, .issued⟩, next := t.next + 1 })

/-- A task has come to another stage. -/
def advance (t : Traffic) (id : Nat) (task : Task) (stage : Stage) : Traffic :=
  { t with tasks := t.tasks.insert id { task with stage } }

/-- A task ends: its caller learns the outcome, or the ticket that it belongs to does. -/
def finish (t : Traffic) (id : Nat) (task : Task) (outcome : Outcome Reply) : Traffic × Effect :=
  let rest := { t with tasks := t.tasks.erase id }
  match task.origin with
  | .caller => (rest, .report outcome)
  | .ticket layer ticket =>
    (rest.modifyLayer layer fun l => l.land task.request ticket outcome, .nothing)

/-- A task is on its way back with an answer from behind the layer before number `last`. -/
def bring (t : Traffic) (id : Nat) (task : Task) (last : Nat) (a : Answer Reply) :
    Traffic × Effect :=
  finish { t with layers := ascend t.now task.request a task.entry last t.layers } id task
    (.answer a)

/-- A task goes inwards from the first layer on its way. -/
def enter (t : Traffic) (id : Nat) (task : Task) : Traffic × Effect :=
  let (inner, descent) := descend t.now id task.request (t.layers.drop task.entry) task.entry
  let moved := { t with layers := t.layers.take task.entry ++ inner }
  match descent with
  | .answered a => moved.finish id task (.answer a)
  | .reached => (moved.advance id task .calling, .call task.request)
  | .waiting layer none => (moved.advance id task (.waiting layer), .nothing)
  | .waiting layer (some ticket) =>
    let waiting := moved.advance id task (.waiting layer)
    ({ waiting with
        tasks := waiting.tasks.insert waiting.next ⟨.ticket layer ticket, task.request, .issued⟩
        next := waiting.next + 1 }, .nothing)

/-- Runs a task up to the next point where it has to wait. -/
def poll (t : Traffic) (id : Nat) : Traffic × Effect :=
  match t.tasks[id]? with
  | none => (t, .nothing)
  | some task => match task.stage with
    | .issued => t.enter id task
    | .waiting layer =>
      match t.layers[layer]?.bind fun l => l.collect t.now id task.request with
      | some (l, a) => (t.modifyLayer layer fun _ => l).bring id task layer a
      | none => (t, .nothing)
    | .calling => (t, .nothing)
    | .responded (.answer a) => t.bring id task t.layers.length a
    | .responded .crash => t.finish id task .crash

/-- Whether a task could run on. -/
def isReady (t : Traffic) (id : Nat) (task : Task) : Bool :=
  match task.stage with
  | .issued => true
  | .waiting layer => (t.layers[layer]?.bind fun l => l.answer? id task.request).isSome
  | .calling => false
  | .responded _ => true

/-- The first task that could run on. -/
def ready? (t : Traffic) : Option Nat :=
  (t.tasks.toList.find? fun (id, task) => t.isReady id task).map Prod.fst

/-- The provider responds to the call of a task. -/
def respond (t : Traffic) (id : Nat) (outcome : Outcome Reply) : Traffic :=
  match t.tasks[id]? with
  | some task => match task.stage with
    | .calling => t.advance id task (.responded outcome)
    | _ => t
  | none => t

/-- A caller gives up: its task stops where it is, but a call that it shares goes on. -/
def abort (t : Traffic) (id : Nat) : Traffic :=
  match t.tasks[id]? with
  | some task => match task.origin, task.stage with
    | .caller, .waiting layer =>
      { t with tasks := t.tasks.erase id }.modifyLayer layer fun l => l.leave id task.request
    | .caller, _ => { t with tasks := t.tasks.erase id }
    | .ticket .., _ => t
  | none => t

/-- Time passes. -/
def tick (t : Traffic) (d : Nanoseconds) : Traffic := { t with now := t.now + d }

end Traffic
end LayeredStore
