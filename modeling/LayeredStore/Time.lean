import LayeredStore.Json.Record

/-!
# Time

Spans of time and readings of the clock are whole numbers of nanoseconds; a reading counts from
the epoch, 1970-01-01 00:00 UTC. In a record a reading is split into seconds and the rest.
-/

namespace LayeredStore

/-- A number of nanoseconds. -/
abbrev Nanoseconds := Nat

/-- Nanoseconds in a second. -/
def nanosPerSecond : Nanoseconds := 1000000000

/-- A span of whole seconds. -/
def ofSeconds (n : Nat) : Nanoseconds := n * nanosPerSecond

/-- A span of whole milliseconds. -/
def ofMillis (n : Nat) : Nanoseconds := n * 1000000

/-- The whole seconds of a span. -/
def wholeSeconds (d : Nanoseconds) : Nat := d / nanosPerSecond

/-- What a span has beyond its whole seconds. -/
def subsecond (d : Nanoseconds) : Nat := d % nanosPerSecond

/-- The whole milliseconds of a span. -/
def wholeMillis (d : Nanoseconds) : Nat := d / 1000000

/-- A moment not before the epoch. Earlier moments cannot be expressed here: a file may be written
and stored with one, but no record can be made of it. -/
structure Timestamp where
  sinceEpoch : Nanoseconds
deriving DecidableEq, Inhabited

namespace Timestamp

/-- The latest second that a record can hold, the greatest number of 63 bits. -/
def lastSecond : Nat := 9223372036854775807

/-- The moment of so many seconds and nanoseconds; nanoseconds beyond a second carry over. -/
def ofParts? (seconds nanos : Nat) : Option Timestamp :=
  if seconds + nanos / nanosPerSecond ≤ lastSecond then
    some ⟨ofSeconds seconds + nanos⟩
  else none

/-- How a moment is read: both parts are required, and there is nothing else. -/
def record : Json.Record := ⟨["secs_since_epoch", "nanos_since_epoch"], 2, true⟩

/-- The written form of a moment. -/
def toJson (t : Timestamp) : Json :=
  .fields [("secs_since_epoch", .nat (wholeSeconds t.sinceEpoch)),
    ("nanos_since_epoch", .nat (subsecond t.sinceEpoch))]

/-- The moment that a record writes; its nanoseconds are below two to the thirty-second. -/
def ofJson? (j : Json) : Option Timestamp := do
  match ← record.fields? j with
  | [seconds, nanos] =>
    let seconds ← Json.required Json.word? seconds
    let nanos ← Json.required Json.word? nanos
    if nanos.toNat < UInt32.size then ofParts? seconds.toNat nanos.toNat else none
  | _ => none

end Timestamp
end LayeredStore
