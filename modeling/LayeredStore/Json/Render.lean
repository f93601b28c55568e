import LayeredStore.Json.Value

/-!
# Writing JSON

The compact written form of a value, without white space. Quotes, backslashes and control
characters are escaped, the latter by a short escape where there is one.
-/

namespace LayeredStore.Json

/-- The digit to base sixteen, in lower case. -/
def hexDigit (n : Nat) : Char := Nat.digitChar (n % 16)

/-- One character inside a text. -/
def escape (c : Char) : List Char :=
  if c = '"' then ['\\', '"']
  else if c = '\\' then ['\\', '\\']
  else if c = '\x08' then ['\\', 'b']
  else if c = '\x0c' then ['\\', 'f']
  else if c = '\n' then ['\\', 'n']
  else if c = '\r' then ['\\', 'r']
  else if c = '\t' then ['\\', 't']
  else if c.toNat < 0x20 then
    ['\\', 'u', '0', '0', hexDigit (c.toNat / 16), hexDigit c.toNat]
  else [c]

/-- A text in quotes; one that names no characters is written as a surrogate that stands
alone. -/
def textChars : Option String → List Char
  | some s => '"' :: (s.toList.flatMap escape ++ ['"'])
  | none => "\"\\ud800\"".toList

mutual

/-- The written form of a value. -/
def chars : Json → List Char
  | .null => "null".toList
  | .bool true => "true".toList
  | .bool false => "false".toList
  | .integer negative n => (if negative then ['-'] else []) ++ Nat.toDigits 10 n
  | .real literal => literal.toList
  | .text s => textChars s
  | .array items => '[' :: (itemsChars items ++ [']'])
  | .object fields => '\x7b' :: (fieldsChars fields ++ ['\x7d'])

/-- The written form of the items of an array, with commas between them. -/
def itemsChars : List Json → List Char
  | [] => []
  | [v] => chars v
  | v :: w :: rest => chars v ++ ',' :: itemsChars (w :: rest)

/-- The written form of the fields of an object, with commas between them. -/
def fieldsChars : List (Option String × Json) → List Char
  | [] => []
  | [(name, v)] => textChars name ++ ':' :: chars v
  | (name, v) :: w :: rest => textChars name ++ ':' :: (chars v ++ ',' :: fieldsChars (w :: rest))

end

/-- The compact written form of a value. -/
def render (v : Json) : String := String.ofList (chars v)

end LayeredStore.Json
