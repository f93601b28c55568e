import Std.Data.ExtTreeMap
import LayeredStore.Time

/-!
# Maps whose entries expire

An entry lives for a fixed time from its insertion: inserted at `t`, it is seen at `now` as long
as `now - t` is below the lifetime. Looking does not prolong its life, inserting again does.
What has expired is as good as gone, whether or not it still takes up room.
-/

namespace LayeredStore

/-- A map whose entries expire; each is kept with the time of its insertion. -/
structure TimedMap (K V : Type) [Ord K] where
  lifetime : Nanoseconds
  entries : Std.ExtTreeMap K (Nanoseconds × V)

namespace TimedMap

variable {K V : Type} [Ord K] [Std.TransOrd K]

/-- The longest lifetime that a map can have: a thousand years of 365 days. -/
def longestLifetime : Nanoseconds := ofSeconds 31536000000

/-- A map without entries, unless the lifetime is too long. -/
def new? (lifetime : Nanoseconds) : Option (TimedMap K V) :=
  if lifetime ≤ longestLifetime then some ⟨lifetime, ∅⟩ else none

/-- Whether an entry that was inserted at `since` lives. -/
def lives (m : TimedMap K V) (now since : Nanoseconds) : Bool := now - since < m.lifetime

/-- The value of a key, if its entry lives. -/
def find? (m : TimedMap K V) (now : Nanoseconds) (key : K) : Option V :=
  (m.entries[key]?.filter fun entry => m.lives now entry.1).map Prod.snd

/-- Whether a key has an entry that lives. -/
def contains (m : TimedMap K V) (now : Nanoseconds) (key : K) : Bool := (m.find? now key).isSome

/-- Gives a key a value; its life begins now. -/
def insert (m : TimedMap K V) (now : Nanoseconds) (key : K) (value : V) : TimedMap K V :=
  { m with entries := m.entries.insert key (now, value) }

/-- Takes the entry of a key away. -/
def erase (m : TimedMap K V) (key : K) : TimedMap K V :=
  { m with entries := m.entries.erase key }

/-- Takes away the entries of all keys that `drop` holds of. -/
def eraseWhere (m : TimedMap K V) (drop : K → Bool) : TimedMap K V :=
  { m with entries := m.entries.filter fun key _ => !drop key }

/-- Number of living entries whose keys `count` holds of. -/
def livingWhere (m : TimedMap K V) (now : Nanoseconds) (count : K → Bool) : Nat :=
  (m.entries.filter fun key entry => count key && m.lives now entry.1).size

/-- Takes all entries away. -/
def clear (m : TimedMap K V) : TimedMap K V := { m with entries := ∅ }

/-- A new map holds nothing. -/
theorem find?_of_new? {lifetime : Nanoseconds} {m : TimedMap K V} (h : new? lifetime = some m)
    (now : Nanoseconds) (key : K) : m.find? now key = none := by
  unfold new? at h
  split at h
  · obtain rfl := Option.some.inj h
    simp [find?]
  · simp at h

/-- An insertion is seen for a lifetime, and hides what the key had before. -/
theorem find?_insert (m : TimedMap K V) (since now : Nanoseconds) (key other : K) (value : V) :
    (m.insert since key value).find? now other =
      if compare key other = .eq then (if m.lives now since then some value else none)
      else m.find? now other := by
  simp only [find?, insert, Std.ExtTreeMap.getElem?_insert]
  split
  · by_cases h : now - since < m.lifetime <;> simp [lives, Option.filter_some, h]
  · rfl

/-- An erased key has no value, the others keep theirs. -/
theorem find?_erase (m : TimedMap K V) (now : Nanoseconds) (key other : K) :
    (m.erase key).find? now other =
      if compare key other = .eq then none else m.find? now other := by
  simp only [find?, erase, Std.ExtTreeMap.getElem?_erase]
  split <;> rfl

/-- The keys that are dropped have no value, the others keep theirs. -/
theorem find?_eraseWhere [Std.LawfulEqOrd K] (m : TimedMap K V) (now : Nanoseconds)
    (drop : K → Bool) (key : K) :
    (m.eraseWhere drop).find? now key = if drop key then none else m.find? now key := by
  simp only [find?, eraseWhere, Std.ExtTreeMap.getElem?_filter']
  by_cases h : drop key <;> simp [h, lives]

/-- A cleared map holds nothing. -/
theorem find?_clear (m : TimedMap K V) (now : Nanoseconds) (key : K) :
    m.clear.find? now key = none := by
  simp [find?, clear]

end TimedMap
end LayeredStore
