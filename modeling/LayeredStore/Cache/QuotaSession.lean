import LayeredStore.Cache.Quota

/-!
# Sessions with a quota cache

Callers come with loads of their own, and time passes. After every event all calls end that can,
and all callers leave that have an answer.
-/

namespace LayeredStore

/-- A quota cache with its clock, the loads under way, and the number of loads started so
far. -/
structure QuotaSession (V : Type) where
  cache : QuotaCache V
  now : Nanoseconds
  loads : Loads V
  started : Nat

namespace QuotaSession

variable {V : Type}

/-- What happens to the cache. -/
inductive Event (V : Type)
  | get (caller : Nat) (folder : Path) (load : Outcome V) (gated : Bool)
  | release (caller : Nat)
  | abort (caller : Nat)
  | contains (folder : Path)
  | invalidateSubtree (path : Path)
  | logMetrics
  | sleep (d : Nanoseconds)

/-- What can be said of an event at once. -/
inductive Response
  | done
  | flag (b : Bool)
  | evicted (count : Nat)
  | metrics (t : Tally) (inFlight : Nat)

/-- A session with an empty cache, unless the lifetime is too long. -/
def start? (lifetime : Nanoseconds) : Option (QuotaSession V) :=
  (QuotaCache.new? lifetime).map fun cache => ⟨cache, 0, ∅, 0⟩

/-- A caller asks for a folder, and starts its load if it opens a ticket. What is kept answers
it at once. -/
def get (s : QuotaSession V) (caller : Nat) (folder : Path) (load : Outcome V) (gated : Bool) :
    QuotaSession V × List (Nat × Answer V) :=
  match s.cache.ask s.now caller folder with
  | (cache, .answered a) => ({ s with cache }, [(caller, a)])
  | (cache, .joined) => ({ s with cache }, [])
  | (cache, .opened ticket) =>
    ({ s with
        cache
        loads := s.loads.insert ticket ⟨caller, load, !gated⟩
        started := s.started + 1 }, [])

/-- What an event does before anything else goes on. -/
def apply (s : QuotaSession V) : Event V → QuotaSession V × Response × List (Nat × Answer V)
  | .get caller folder load gated =>
    let (after, reports) := s.get caller folder load gated
    (after, .done, reports)
  | .release caller => ({ s with loads := s.loads.release caller }, .done, [])
  | .abort caller =>
    ({ s with cache := s.cache.leave caller }, .flag (s.cache.desk.seats.contains caller), [])
  | .contains folder => (s, .flag (s.cache.contains s.now folder), [])
  | .invalidateSubtree path =>
    ({ s with cache := s.cache.invalidateSubtree path },
      .evicted (s.cache.sizeOfSubtree s.now path), [])
  | .logMetrics => (s, .metrics s.cache.tally s.cache.desk.inFlight, [])
  | .sleep d => ({ s with now := s.now + d }, .done, [])

/-- All calls end whose gates are open. -/
def land (s : QuotaSession V) : QuotaSession V :=
  { s with
    cache := s.loads.ready.foldl (fun c (ticket, outcome) => c.land ticket outcome) s.cache
    loads := s.loads.waiting }

/-- The callers leave in turn that have an answer, each with what it reports. -/
def depart (s : QuotaSession V) : List Nat → QuotaSession V × List (Nat × Answer V)
  | [] => (s, [])
  | caller :: rest => match s.cache.collect s.now caller with
    | some (cache, a) =>
      let (after, reports) := depart { s with cache } rest
      (after, (caller, a) :: reports)
    | none => depart s rest

/-- An event and all that follows from it: what can be said of it at once, and the answers that
callers leave with. -/
def step (s : QuotaSession V) (e : Event V) :
    QuotaSession V × Response × List (Nat × Answer V) :=
  let (applied, response, first) := s.apply e
  let landed := applied.land
  let (after, rest) := landed.depart landed.cache.desk.seats.keys
  (after, response, first ++ rest)

end QuotaSession
end LayeredStore
