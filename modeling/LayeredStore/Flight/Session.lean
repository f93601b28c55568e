import LayeredStore.Flight.Desk

/-!
# Sessions at a desk

Callers come with loads of their own. After every event all calls end that can, and all callers
leave that have an answer.
-/

namespace LayeredStore

/-- A desk, the loads under way there, and the number of loads started so far. -/
structure DeskSession (K V : Type) [Ord K] where
  desk : Desk K V
  loads : Loads V
  started : Nat

namespace DeskSession

variable {K V : Type} [Ord K] [Std.TransOrd K]

/-- What happens at the desk. -/
inductive Event (K V : Type)
  | get (caller : Nat) (key : K) (load : Outcome V) (gated : Bool)
  | release (caller : Nat)
  | abort (caller : Nat)
  | evict (key : K)
  | evictWhere (drop : K → Bool)
  | isInFlight (key : K)

/-- What can be said of an event at once. -/
inductive Response
  | done
  | flag (b : Bool)

/-- Nobody has come yet. -/
def start : DeskSession K V := ⟨.empty, ∅, 0⟩

/-- A caller wants a key, and starts its load if it opens a ticket. -/
def get (s : DeskSession K V) (caller : Nat) (key : K) (load : Outcome V) (gated : Bool) :
    DeskSession K V :=
  match s.desk.enter caller key with
  | (desk, .opened ticket) => ⟨desk, s.loads.insert ticket ⟨caller, load, !gated⟩, s.started + 1⟩
  | (desk, _) => { s with desk }

/-- What an event does before anything else goes on. -/
def apply (s : DeskSession K V) : Event K V → DeskSession K V × Response
  | .get caller key load gated => (s.get caller key load gated, .done)
  | .release caller => ({ s with loads := s.loads.release caller }, .done)
  | .abort caller =>
    ({ s with desk := s.desk.leave caller }, .flag (s.desk.seats.contains caller))
  | .evict key => ({ s with desk := s.desk.evict key }, .done)
  | .evictWhere drop => ({ s with desk := s.desk.evictWhere drop }, .done)
  | .isInFlight key => (s, .flag (s.desk.isInFlight key))

/-- All calls end whose gates are open. -/
def land (s : DeskSession K V) : DeskSession K V :=
  { s with
    desk := s.loads.ready.foldl (fun d (ticket, outcome) => d.land ticket outcome) s.desk
    loads := s.loads.waiting }

/-- The callers that can leave, with their answers. -/
def reports (s : DeskSession K V) : List (Nat × Answer V) :=
  s.desk.seats.keys.filterMap fun caller => (s.desk.answer? caller).map fun a => (caller, a)

/-- All callers leave that have an answer. -/
def depart (s : DeskSession K V) : DeskSession K V :=
  { s with desk := s.reports.foldl (fun d (caller, _) => d.leave caller) s.desk }

/-- An event and all that follows from it: what can be said of it at once, and the answers that
callers leave with. -/
def step (s : DeskSession K V) (e : Event K V) :
    DeskSession K V × Response × List (Nat × Answer V) :=
  let (applied, response) := s.apply e
  let landed := applied.land
  (landed.depart, response, landed.reports)

end DeskSession
end LayeredStore
