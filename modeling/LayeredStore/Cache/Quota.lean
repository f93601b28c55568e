import LayeredStore.Cache.Tally
import LayeredStore.Cache.TimedMap
import LayeredStore.Flight.Desk

/-!
# The quota cache

Lookups of a folder are shared while they are under way, and what they found is kept for a time:
values, and failures that would be the same again. A lookup during which something was
invalidated keeps nothing. Every invalidation begins a new generation, so that a lookup knows by
the generation in which it began. Clients know it by the same name, `QuotaCache`; its `get` is
`ask`, `land` and `collect` here.
-/

namespace LayeredStore

/-- A cache of lookups by folder. -/
structure QuotaCache (V : Type) where
  outcomes : TimedMap Path (Answer V)
  desk : Desk Path V
  generation : Nat
  /-- The folder that each waiting caller asked for, and the generation in which it did. -/
  lookups : Std.ExtTreeMap Nat (Path × Nat)
  tally : Tally

namespace QuotaCache

variable {V : Type}

/-- A cache without entries, unless the lifetime is too long. -/
def new? (lifetime : Nanoseconds) : Option (QuotaCache V) :=
  (TimedMap.new? lifetime).map fun outcomes => ⟨outcomes, .empty, 0, ∅, .zero⟩

/-- How long an entry lives if nothing else is asked for: ten seconds. -/
def defaultLifetime : Nanoseconds := ofSeconds 10

/-- A caller asks for a folder: what is kept answers it, and otherwise it waits for a lookup. -/
def ask (c : QuotaCache V) (now : Nanoseconds) (caller : Nat) (folder : Path) :
    QuotaCache V × Admission V :=
  match c.outcomes.find? now folder with
  | some outcome => ({ c with tally := c.tally.count true }, .answered outcome)
  | none =>
    let (desk, admission) := c.desk.enter caller folder
    ({ c with
        desk
        lookups := c.lookups.insert caller (folder, c.generation)
        tally := c.tally.count false }, admission)

/-- The lookup of a ticket ends. -/
def land (c : QuotaCache V) (ticket : Nat) (outcome : Outcome V) : QuotaCache V :=
  { c with desk := c.desk.land ticket outcome }

/-- Whether an outcome is worth keeping. -/
def isKept : Answer V → Bool
  | .ok _ => true
  | .error f => f.isLasting

/-- Keeps the outcome of a folder, or forgets the folder if the outcome is not worth keeping. -/
def keep (c : QuotaCache V) (now : Nanoseconds) (folder : Path) (outcome : Answer V) :
    QuotaCache V :=
  if isKept outcome then { c with outcomes := c.outcomes.insert now folder outcome }
  else { c with outcomes := c.outcomes.erase folder }

/-- A caller leaves without an answer. -/
def leave (c : QuotaCache V) (caller : Nat) : QuotaCache V :=
  { c with desk := c.desk.leave caller, lookups := c.lookups.erase caller }

/-- A caller leaves with its answer, if there is one, and keeps it in the cache unless
something was invalidated since it came. -/
def collect (c : QuotaCache V) (now : Nanoseconds) (caller : Nat) :
    Option (QuotaCache V × Answer V) :=
  (c.desk.answer? caller).map fun outcome =>
    let kept := match c.lookups[caller]? with
      | some (folder, generation) =>
        if generation = c.generation then c.keep now folder outcome else c
      | none => c
    (kept.leave caller, outcome)

/-- Whether a living outcome is kept for a folder. -/
def contains (c : QuotaCache V) (now : Nanoseconds) (folder : Path) : Bool :=
  c.outcomes.contains now folder

/-- Forgets a path and all below it, and lets nobody join a lookup there any more. -/
def invalidateSubtree (c : QuotaCache V) (path : Path) : QuotaCache V :=
  { c with
    generation := c.generation + 1
    outcomes := c.outcomes.eraseWhere (·.startsWith path)
    desk := c.desk.evictWhere (·.startsWith path) }

/-- Number of living outcomes that forgetting a subtree takes away. -/
def sizeOfSubtree (c : QuotaCache V) (now : Nanoseconds) (path : Path) : Nat :=
  c.outcomes.livingWhere now (·.startsWith path)

end QuotaCache
end LayeredStore
