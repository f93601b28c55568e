import LayeredStore.Provider
import LayeredStore.Traffic

/-!
# The service

A provider behind its layers, with a clock. A call of the provider is counted when it is made
and takes effect after the latency of the provider. Outcomes can be laid ready for kinds of
calls; such a call does not reach the provider, and responds after a delay of its own. Requests
run on as far as they can before time goes on.
-/

namespace LayeredStore

/-- An outcome laid ready for the next call of a kind. -/
structure Injection where
  operation : Operation
  outcome : Outcome Reply
  delay : Nanoseconds

/-- What happens when the time of a call has come. -/
inductive Work
  | respond (outcome : Outcome Reply)
  | serve (r : Request)

/-- A call of the provider that waits for its time. -/
structure Pending where
  due : Nanoseconds
  work : Work

/-- A walk through all pages of a folder: what has been read so far. -/
structure Walk where
  folder : Path
  done : Option Listing

/-- Who made a request: a caller with a number, or the one in the foreground, for whom time
passes; and whether the request is a step of a walk. -/
structure Client where
  number : Option Nat
  walk : Option Walk

/-- What can be wanted of a service. -/
inductive Call
  | request (r : Request)
  | listAll (folder : Path)

/-- A provider behind its layers. -/
structure Service where
  traffic : Traffic
  provider : Provider
  latency : Nanoseconds
  capable : Bool
  injections : List Injection
  /-- The calls that the provider has got, the latest one first. -/
  made : List Operation
  /-- The calls that wait for their time, by the numbers of their tasks. -/
  pending : Std.ExtTreeMap Nat Pending
  /-- Those who wait for requests, by the numbers of their tasks. -/
  clients : Std.ExtTreeMap Nat Client
  /-- The outcomes that nobody has taken yet. -/
  reports : List (Option Nat × Outcome Reply)

namespace Service

/-- What the clock shows at the beginning. -/
def epoch : Nanoseconds := ofSeconds 1700000000

/-- A service with an empty store behind layers, given from the innermost one outwards, unless
some lifetime is too long. -/
def new? (latency : Nanoseconds) (pageSize : UInt64) (capable : Bool) (plans : List LayerPlan) :
    Option Service :=
  (plans.mapM (Layer.new? capable)).map fun layers =>
    { traffic := .start layers.reverse epoch
      provider := .new pageSize
      latency, capable
      injections := []
      made := []
      pending := ∅
      clients := ∅
      reports := [] }

/-- What the clock shows. -/
def now (s : Service) : Nanoseconds := s.traffic.now

/-- Number of calls of a kind that the provider has got. -/
def count (s : Service) (op : Operation) : Nat := s.made.count op

/-- The provider responds to a task. -/
def respond (s : Service) (id : Nat) (outcome : Outcome Reply) : Service :=
  { s with traffic := s.traffic.respond id outcome }

/-- A call takes effect and the provider responds. -/
def complete (s : Service) (id : Nat) : Work → Service
  | .respond outcome => s.respond id outcome
  | .serve r =>
    let (provider, outcome) := s.provider.serve ⟨s.now⟩ r
    { s with provider }.respond id outcome

/-- A call is made that completes after a delay, at once if there is none. -/
def schedule (s : Service) (id : Nat) (delay : Nanoseconds) (work : Work) : Service :=
  if delay = 0 then s.complete id work
  else { s with pending := s.pending.insert id ⟨s.now + delay, work⟩ }

/-- A task calls the provider: the oldest outcome laid ready for this kind of call is used up, or
the provider gets the call. -/
def dispatch (s : Service) (id : Nat) (r : Request) : Service :=
  match s.injections.find? fun i => i.operation = r.operation with
  | some i =>
    { s with injections := s.injections.eraseP fun i => i.operation = r.operation }.schedule id
      i.delay (.respond i.outcome)
  | none => { s with made := r.operation :: s.made }.schedule id s.latency (.serve r)

/-- Someone makes a request. -/
def issue (s : Service) (client : Client) (r : Request) : Service :=
  let (id, traffic) := s.traffic.issue r
  { s with traffic, clients := s.clients.insert id client }

/-- Someone wants something. -/
def begin (s : Service) (number : Option Nat) : Call → Service
  | .request r => s.issue ⟨number, none⟩ r
  | .listAll folder => s.issue ⟨number, some ⟨folder, none⟩⟩ (.list folder none)

/-- What comes after a page of a walk: the next page if there is one, the joined pages if not. A
walk ends with the first outcome that is no page. -/
def continueWalk (s : Service) (client : Client) (walk : Walk) (outcome : Outcome Reply) :
    Service :=
  match outcome with
  | .answer (.ok (.listing page)) =>
    let joined := match walk.done with
      | some done => done.join page
      | none => page
    match page.nextToken with
    | some token =>
      s.issue { client with walk := some { walk with done := some joined } }
        (.list walk.folder (some token))
    | none => { s with reports := s.reports ++ [(client.number, .value (.listing joined))] }
  | outcome => { s with reports := s.reports ++ [(client.number, outcome)] }

/-- The task of a client has ended. -/
def conclude (s : Service) (id : Nat) (outcome : Outcome Reply) : Service :=
  match s.clients[id]? with
  | some client =>
    let s := { s with clients := s.clients.erase id }
    match client.walk with
    | some walk => s.continueWalk client walk outcome
    | none => { s with reports := s.reports ++ [(client.number, outcome)] }
  | none => s

/-- One step of a service: the first of the tasks that are ready runs on, if there is any. -/
def progress? (s : Service) : Option Service :=
  s.traffic.ready?.map fun id =>
    let (traffic, effect) := s.traffic.poll id
    let s := { s with traffic }
    match effect with
    | .nothing => s
    | .call r => s.dispatch id r
    | .report outcome => s.conclude id outcome

/-- More steps than anything under way can take. A task runs at most twice for each layer and
once for the provider. A walk asks for no more pages between two outcomes laid ready than there
are, or come to be, items in the store. -/
def patience (s : Service) : Nat :=
  let tasks := s.traffic.tasks.size + 1
  let pages := (s.injections.length + tasks) * (s.provider.store.entries.size + tasks + 1)
  tasks * (2 * s.traffic.layers.length + 3) * (pages + 1)

/-- Tasks run on, one after the other, for at most so many steps. -/
def settleWithin : Nat → Service → Service
  | 0, s => s
  | steps + 1, s => match s.progress? with
    | some s => settleWithin steps s
    | none => s

/-- Tasks run on until all of them have to wait. -/
def settle (s : Service) : Service := settleWithin s.patience s

/-- The time at which the next call completes. -/
def nextDue? (s : Service) : Option Nanoseconds := (s.pending.values.map Pending.due).min?

/-- The clock is put forward. -/
def advanceTo (s : Service) (time : Nanoseconds) : Service :=
  { s with traffic := s.traffic.tick (time - s.now) }

/-- All calls complete whose time has come, and tasks run on. -/
def completeDue (s : Service) : Service :=
  let due := s.pending.toList.filter fun (_, p) => p.due ≤ s.now
  let rest := { s with pending := s.pending.filter fun _ p => !(p.due ≤ s.now) }
  (due.foldl (fun s (id, p) => s.complete id p.work) rest).settle

/-- Time goes on to a moment, in at most so many leaps, and calls complete on the way. -/
def sleepWithin (target : Nanoseconds) : Nat → Service → Service
  | 0, s => s.advanceTo target
  | leaps + 1, s => match s.nextDue? with
    | some due =>
      if due ≤ target then sleepWithin target leaps (s.advanceTo due).completeDue
      else s.advanceTo target
    | none => s.advanceTo target

/-- Time goes on. -/
def sleep (s : Service) (d : Nanoseconds) : Service := sleepWithin (s.now + d) s.patience s

/-- The outcome for the one in the foreground, if it is there. -/
def foreground? (s : Service) : Option (Outcome Reply) := s.reports.lookup none

/-- Time goes on until the one in the foreground has an outcome, in at most so many leaps. -/
def awaitWithin : Nat → Service → Service
  | 0, s => s
  | leaps + 1, s =>
    if s.foreground?.isSome then s
    else match s.nextDue? with
      | some due => awaitWithin leaps (s.advanceTo due).completeDue
      | none => s

/-- Calls something in the foreground: time passes until it has ended. -/
def call (s : Service) (c : Call) : Service × Option (Outcome Reply) :=
  let settled := (s.begin none c).settle
  let ended := awaitWithin settled.patience settled
  ({ ended with reports := ended.reports.filter fun r => r.1.isSome }, ended.foreground?)

/-- Calls something in the background. -/
def start (s : Service) (number : Nat) (c : Call) : Service := (s.begin (some number) c).settle

/-- The task that a caller waits for. -/
def taskOf? (s : Service) (number : Nat) : Option Nat :=
  (s.clients.toList.find? fun (_, client) => client.number == some number).map Prod.fst

/-- A caller gives up; its call of the provider, if there is one, never takes effect. -/
def abort (s : Service) (number : Nat) : Service × Bool :=
  match s.taskOf? number with
  | some id =>
    ({ s with
        traffic := s.traffic.abort id
        pending := s.pending.erase id
        clients := s.clients.erase id }.settle, true)
  | none => (s, false)

/-- The place of a layer counted from the innermost one, among those counted from the outermost
one. -/
def place (s : Service) (fromInside : Nat) : Nat := s.traffic.layers.length - 1 - fromInside

/-- A layer counted from the innermost one. -/
def layer? (s : Service) (fromInside : Nat) : Option Layer :=
  if fromInside < s.traffic.layers.length then s.traffic.layers[s.place fromInside]? else none

/-- The outcomes for callers in the background, which nobody has taken yet. -/
def takeReports (s : Service) : Service × List (Nat × Outcome Reply) :=
  ({ s with reports := [] },
    s.reports.filterMap fun (number, outcome) => number.map fun n => (n, outcome))

end Service
end LayeredStore
