import LayeredStore.Text.Quoted

/-!
# Hits and misses

A tally counts how often a cache was asked and knew the answer, and how often it did not. Its rate
is a binary floating-point number. It is shown with a fixed number of decimal places: the exact
value is rounded, and what lies half way goes to the even neighbour.
-/

namespace LayeredStore

namespace Decimal

/-- The nearest whole number to a quotient, the even one of two. -/
def roundDiv (num den : Nat) : Nat :=
  let q := num / den
  let twice := 2 * (num % den)
  if twice < den then q
  else if den < twice then q + 1
  else if q % 2 = 0 then q else q + 1

/-- The bit in front of the 52 bits of a fraction, which is not written; it is missing only where
the 11 bits of the exponent are zero. -/
def hiddenBit : Nat := 4503599627370496

/-- The significand and the exponent of base two that the bits of a finite number without sign
stand for. -/
def ofBits (bits : UInt64) : Nat × Int :=
  let fraction := bits.toNat % hiddenBit
  let exponent := bits.toNat / hiddenBit % 2048
  if exponent = 0 then (fraction, -1074) else (fraction + hiddenBit, (exponent : Int) - 1075)

/-- A finite number without sign as a count of units of the last of `places` decimal places. -/
def scaled (places : Nat) (bits : UInt64) : Nat :=
  let (significand, exponent) := ofBits bits
  let shift := Nat.pow 2 exponent.natAbs
  let units := significand * Nat.pow 10 places
  if exponent < 0 then roundDiv units shift else units * shift

/-- A finite number without sign, with one decimal place. -/
def oneDecimal (x : Float) : String :=
  let tenths := scaled 1 x.toBits
  toString (tenths / 10) ++ "." ++ toString (tenths % 10)

end Decimal

/-- How often a cache was asked. -/
structure Tally where
  hits : Nat
  misses : Nat
deriving DecidableEq, Inhabited

namespace Tally

/-- Nobody has asked. -/
def zero : Tally := ⟨0, 0⟩

/-- One question more, with or without an answer. -/
def count (t : Tally) (hit : Bool) : Tally :=
  if hit then { t with hits := t.hits + 1 } else { t with misses := t.misses + 1 }

/-- Hits per hundred questions, zero if there were none. -/
def rate (t : Tally) : Float :=
  if t.hits + t.misses = 0 then 0.0
  else Float.ofNat t.hits / Float.ofNat (t.hits + t.misses) * 100.0

/-- The bits of the rate as sixteen hexadecimal digits. -/
def rateBits (t : Tally) : String :=
  let digits := Text.hexDigits t.rate.toBits.toNat
  String.ofList (List.replicate (16 - digits.length) '0' ++ digits)

/-- The rate with one decimal place and a percent sign. -/
def rateText (t : Tally) : String := Decimal.oneDecimal t.rate ++ "%"

end Tally
end LayeredStore
