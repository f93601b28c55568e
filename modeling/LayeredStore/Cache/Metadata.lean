import LayeredStore.Cache.Tally
import LayeredStore.Cache.TimedMap
import LayeredStore.Item.Basic
import LayeredStore.Outcome

/-!
# The metadata cache

Remembers for a path either the item there or the failure that confirmed its absence. An item is
kept under its own path. Clients know it by the same name, `MetadataCache`, and an entry as a
`MetadataEntry`.
-/

namespace LayeredStore

/-- A cache of metadata lookups. -/
structure MetadataCache where
  outcomes : TimedMap Path (Answer Item)
  tally : Tally

namespace MetadataCache

/-- A cache without entries, unless the lifetime is too long. -/
def new? (lifetime : Nanoseconds) : Option MetadataCache :=
  (TimedMap.new? lifetime).map fun outcomes => ⟨outcomes, .zero⟩

/-- How long an entry lives if nothing else is asked for: ten seconds. -/
def defaultLifetime : Nanoseconds := ofSeconds 10

/-- What is remembered of a path, counted as a hit or a miss. -/
def get (c : MetadataCache) (now : Nanoseconds) (path : Path) :
    Option (Answer Item) × MetadataCache :=
  let found := c.outcomes.find? now path
  (found, { c with tally := c.tally.count found.isSome })

/-- Remembers an item under its own path. -/
def insertFound (c : MetadataCache) (now : Nanoseconds) (item : Item) : MetadataCache :=
  { c with outcomes := c.outcomes.insert now item.path (.ok item) }

/-- Remembers that a path failed so. -/
def insertMissing (c : MetadataCache) (now : Nanoseconds) (path : Path) (f : Failure) :
    MetadataCache :=
  { c with outcomes := c.outcomes.insert now path (.error f) }

/-- Forgets one path. -/
def invalidate (c : MetadataCache) (path : Path) : MetadataCache :=
  { c with outcomes := c.outcomes.erase path }

/-- Forgets a path and all below it. -/
def invalidateSubtree (c : MetadataCache) (path : Path) : MetadataCache :=
  { c with outcomes := c.outcomes.eraseWhere (·.startsWith path) }

/-- Number of living entries that forgetting a subtree takes away. -/
def sizeOfSubtree (c : MetadataCache) (now : Nanoseconds) (path : Path) : Nat :=
  c.outcomes.livingWhere now (·.startsWith path)

/-- Forgets everything, the tally too. -/
def clear (c : MetadataCache) : MetadataCache := ⟨c.outcomes.clear, .zero⟩

/-- What a metadata cache can be told. -/
inductive Command
  | get (path : Path)
  | insertFound (item : Item)
  | insertMissing (path : Path) (f : Failure)
  | invalidate (path : Path)
  | invalidateSubtree (path : Path)
  | clear
  | stats
  | logMetrics
  | lifetime

/-- What a metadata cache answers. -/
inductive Response
  | remembered (outcome : Option (Answer Item))
  | evicted (count : Nat)
  | stats (t : Tally)
  | metrics (t : Tally)
  | lifetime (d : Nanoseconds)
  | done

/-- Carries out a command. -/
def run (c : MetadataCache) (now : Nanoseconds) : Command → MetadataCache × Response
  | .get path =>
    let (found, c) := c.get now path
    (c, .remembered found)
  | .insertFound item => (c.insertFound now item, .done)
  | .insertMissing path f => (c.insertMissing now path f, .done)
  | .invalidate path => (c.invalidate path, .done)
  | .invalidateSubtree path => (c.invalidateSubtree path, .evicted (c.sizeOfSubtree now path))
  | .clear => (c.clear, .done)
  | .stats => (c, .stats c.tally)
  | .logMetrics => (c, .metrics c.tally)
  | .lifetime => (c, .lifetime c.outcomes.lifetime)

end MetadataCache

/-- A metadata cache that is used alone, and its clock. -/
structure MetadataSession where
  cache : MetadataCache
  now : Nanoseconds

namespace MetadataSession

/-- What happens in a session: time passes, or the cache is told something. -/
inductive Event
  | sleep (d : Nanoseconds)
  | command (c : MetadataCache.Command)

/-- A session with an empty cache, unless the lifetime is too long. -/
def start? (lifetime : Nanoseconds) : Option MetadataSession :=
  (MetadataCache.new? lifetime).map fun cache => ⟨cache, 0⟩

/-- One event more. -/
def step (s : MetadataSession) : Event → MetadataSession × MetadataCache.Response
  | .sleep d => ({ s with now := s.now + d }, .done)
  | .command c =>
    let (cache, response) := s.cache.run s.now c
    ({ s with cache }, response)

end MetadataSession
end LayeredStore
