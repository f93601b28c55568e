import LayeredStore.Json.Value

/-!
# Records in JSON

A record is written as an object with its fields by name, and read from such an object or from
an array of its fields in order. How much an array may leave out, and whether an object may
have fields that the record does not know, belongs to the kind of record.
-/

namespace LayeredStore.Json

/-- How a kind of record is read. -/
structure Record where
  /-- Names of the fields, in order. -/
  names : List String
  /-- Number of fields that an array must give; the rest may be left out from the end. -/
  least : Nat
  /-- Whether an object may have no other fields. -/
  closed : Bool

namespace Record

/-- The value of each field in order, none for one that is left out. An object may name a known
field once only, and every name in it must be well formed. -/
def fields? (r : Record) : Json → Option (List (Option Json))
  | .array items =>
    if r.least ≤ items.length ∧ items.length ≤ r.names.length then
      some (items.map some ++ List.replicate (r.names.length - items.length) none)
    else none
  | .object fields =>
    if fields.all (fun (name, _) => name.any fun n => !r.closed || r.names.contains n) &&
        r.names.all (fun n => fields.countP (fun (name, _) => name == some n) ≤ 1) then
      some (r.names.map fun n => fields.lookup (some n))
    else none
  | _ => none

end Record

/-- A field that must be there. -/
def required {α : Type} (read : Json → Option α) (field : Option Json) : Option α :=
  field.bind read

/-- A field that may be left out or `null`. -/
def optional {α : Type} (read : Json → Option α) : Option Json → Option (Option α)
  | none | some .null => some none
  | some v => (read v).map some

/-- A field that has a value of its own where it is left out; `null` does not leave it out. -/
def orElse {α : Type} (read : Json → Option α) (default : α) : Option Json → Option α
  | none => some default
  | some v => read v

/-- All items of an array. -/
def list? {α : Type} (read : Json → Option α) : Json → Option (List α)
  | .array items => items.mapM read
  | _ => none

/-- The name of a choice: a text, or an object with that one name and the value `null`. -/
def choice? : Json → Option String
  | .text s => s
  | .object [(name, .null)] => name
  | _ => none

end LayeredStore.Json
