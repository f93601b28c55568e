/-!
# JSON values

A value keeps all that a reader of records asks about: integers in full, other numbers as they
were written, fields in their order with repetitions. A text with a surrogate escape that stands
alone names no character; it is kept as `none`, as a field's name too.
-/

namespace LayeredStore

/-- A JSON value. -/
inductive Json
  | null
  | bool (b : Bool)
  | integer (negative : Bool) (magnitude : Nat)
  | real (literal : String)
  | text (characters : Option String)
  | array (items : List Json)
  | object (fields : List (Option String × Json))
deriving Inhabited

namespace Json

/-- A text that is well formed. -/
def string (s : String) : Json := .text (some s)

/-- A natural number. -/
def nat (n : Nat) : Json := .integer false n

/-- An integer. -/
def int (n : Int) : Json := .integer (n < 0) n.natAbs

/-- A value, or `null` for none. -/
def option {α : Type} (f : α → Json) : Option α → Json
  | some a => f a
  | none => .null

/-- An object with well-formed names. -/
def fields (entries : List (String × Json)) : Json :=
  .object (entries.map fun (name, value) => (some name, value))

/-- The value of the first field of a name; a field that is `null` counts as missing. -/
def field? (j : Json) (name : String) : Option Json :=
  match j with
  | .object fields => match fields.lookup (some name) with
    | some .null | none => none
    | some value => some value
  | _ => none

/-- A truth value. -/
def bool? : Json → Option Bool
  | .bool b => some b
  | _ => none

/-- A well-formed text. -/
def string? : Json → Option String
  | .text s => s
  | _ => none

/-- A natural number written as an integer without a sign. -/
def nat? : Json → Option Nat
  | .integer false n => some n
  | _ => none

/-- An integer; `-0` is one too. -/
def int? : Json → Option Int
  | .integer negative n => some (if negative then -(n : Int) else n)
  | _ => none

/-- A natural number below two to the sixty-fourth, without a sign. -/
def word? : Json → Option UInt64
  | .integer false n => if n < UInt64.size then some (UInt64.ofNat n) else none
  | _ => none

/-- The items of an array. -/
def items? : Json → Option (List Json)
  | .array items => some items
  | _ => none

/-- A 64-bit number. -/
def word (n : UInt64) : Json := nat n.toNat

end Json
end LayeredStore
