import LayeredStore.Json.Value

/-!
# JSON tokens

A text is cut into brackets, separators and scalars. Scanning a scalar gives what follows it,
and what follows is shorter than the text, so scanning ends.
-/

namespace LayeredStore.Json

/-- A lexical unit. -/
inductive Token
  | leftBracket
  | rightBracket
  | leftBrace
  | rightBrace
  | comma
  | colon
  | scalar (value : Json)

namespace Token

/-- White space between tokens. -/
def isBlank (c : Char) : Bool := c = ' ' || c = '\n' || c = '\r' || c = '\t'

/-- The token that is one character long. -/
def punctuation? (c : Char) : Option Token :=
  if c = '[' then some .leftBracket
  else if c = ']' then some .rightBracket
  else if c = '\x7b' then some .leftBrace
  else if c = '\x7d' then some .rightBrace
  else if c = ',' then some .comma
  else if c = ':' then some .colon
  else none

/-- What a text is written with: characters, and code units given by four hexadecimal digits. -/
inductive Piece
  | char (c : Char)
  | unit (n : Nat)

/-- The value of a hexadecimal digit of either case. -/
def hexValue? (c : Char) : Option Nat :=
  if c.isDigit then some (c.toNat - '0'.toNat)
  else if 'a' ≤ c ∧ c ≤ 'f' then some (c.toNat - 'a'.toNat + 10)
  else if 'A' ≤ c ∧ c ≤ 'F' then some (c.toNat - 'A'.toNat + 10)
  else none

/-- The code unit of four hexadecimal digits. -/
def unit? (a b c d : Char) : Option Nat := do
  let a ← hexValue? a
  let b ← hexValue? b
  let c ← hexValue? c
  let d ← hexValue? d
  return ((a * 16 + b) * 16 + c) * 16 + d

/-- The character behind a backslash and one letter. -/
def shortEscape? (c : Char) : Option Char :=
  if c = '"' ∨ c = '\\' ∨ c = '/' then some c
  else if c = 'b' then some '\x08'
  else if c = 'f' then some '\x0c'
  else if c = 'n' then some '\n'
  else if c = 'r' then some '\r'
  else if c = 't' then some '\t'
  else none

/-- The pieces up to the closing quote, and what follows it. Control characters must be
escaped. -/
def scanText (done : List Piece) : List Char → Option (List Piece × List Char)
  | [] => none
  | '"' :: rest => some (done.reverse, rest)
  | '\\' :: 'u' :: a :: b :: c :: d :: rest =>
    match unit? a b c d with
    | some n => scanText (.unit n :: done) rest
    | none => none
  | '\\' :: c :: rest =>
    match shortEscape? c with
    | some c => scanText (.char c :: done) rest
    | none => none
  | c :: rest => if c.toNat < 0x20 then none else scanText (.char c :: done) rest

/-- The first unit of a surrogate pair. -/
def isHighSurrogate (n : Nat) : Bool := 0xd800 ≤ n && n < 0xdc00

/-- The second unit of a surrogate pair. -/
def isLowSurrogate (n : Nat) : Bool := 0xdc00 ≤ n && n < 0xe000

/-- The character that a surrogate pair stands for. -/
def ofSurrogates (high low : Nat) : Char :=
  Char.ofNat (0x10000 + (high - 0xd800) * 0x400 + (low - 0xdc00))

/-- The characters that the pieces spell, none if a surrogate stands alone. -/
def spell (done : List Char) : List Piece → Option (List Char)
  | [] => some done.reverse
  | .char c :: rest => spell (c :: done) rest
  | .unit n :: .unit m :: rest =>
    if isHighSurrogate n then
      if isLowSurrogate m then spell (ofSurrogates n m :: done) rest else none
    else if isLowSurrogate n then none
    else spell (Char.ofNat n :: done) (.unit m :: rest)
  | .unit n :: rest =>
    if isHighSurrogate n || isLowSurrogate n then none else spell (Char.ofNat n :: done) rest

/-- The number that decimal digits write. -/
def ofDigits (digits : List Char) : Nat :=
  digits.foldl (fun n c => n * 10 + (c.toNat - '0'.toNat)) 0

/-- Digits, at least one, cut from the front. -/
def scanDigits (cs : List Char) : Option (List Char × List Char) :=
  match cs.takeWhile Char.isDigit with
  | [] => none
  | digits => some (digits, cs.dropWhile Char.isDigit)

/-- A fraction, if there is one, cut from the front; the flag says whether there was one. -/
def scanFraction : List Char → Option (Bool × List Char)
  | '.' :: rest => (scanDigits rest).map fun (_, rest) => (true, rest)
  | cs => some (false, cs)

/-- An exponent, if there is one, cut from the front; the flag says whether there was one. -/
def scanExponent : List Char → Option (Bool × List Char)
  | 'e' :: rest | 'E' :: rest =>
    let digits := match rest with
      | '+' :: rest | '-' :: rest => rest
      | _ => rest
    (scanDigits digits).map fun (_, rest) => (true, rest)
  | cs => some (false, cs)

/-- A number without sign cut from the front. No digit may follow a leading zero. -/
def scanMagnitude (negative : Bool) (cs : List Char) : Option (Json × List Char) := do
  let (digits, afterDigits) ← scanDigits cs
  if digits.head? = some '0' ∧ digits.length ≠ 1 then none
  else
    let (hasFraction, afterFraction) ← scanFraction afterDigits
    let (hasExponent, rest) ← scanExponent afterFraction
    if hasFraction || hasExponent then
      let literal := cs.take (cs.length - rest.length)
      return (.real (String.ofList (if negative then '-' :: literal else literal)), rest)
    else return (.integer negative (ofDigits digits), rest)

/-- A number cut from the front. -/
def scanNumber : List Char → Option (Json × List Char)
  | '-' :: rest => scanMagnitude true rest
  | cs => scanMagnitude false cs

/-- A name of a constant, a text or a number cut from the front. -/
def scanScalar : List Char → Option (Json × List Char)
  | 'n' :: 'u' :: 'l' :: 'l' :: rest => some (.null, rest)
  | 't' :: 'r' :: 'u' :: 'e' :: rest => some (.bool true, rest)
  | 'f' :: 'a' :: 'l' :: 's' :: 'e' :: rest => some (.bool false, rest)
  | '"' :: rest =>
    (scanText [] rest).map fun (pieces, rest) =>
      (.text ((spell [] pieces).map String.ofList), rest)
  | cs => scanNumber cs

private theorem length_scanText {done : List Piece} {cs : List Char} {pieces : List Piece}
    {rest : List Char} (h : scanText done cs = some (pieces, rest)) :
    rest.length < cs.length := by
  fun_induction scanText done cs with
  | case1 | case4 | case6 | case7 => simp at h
  | case2 => grind
  | case3 done a b c d tail n hn ih =>
    have := ih h
    simp only [List.length_cons]
    omega
  | case5 done c tail _ e he ih =>
    have := ih h
    simp only [List.length_cons]
    omega
  | case8 done c tail _ _ _ hc ih =>
    have := ih h
    simp only [List.length_cons]
    omega

theorem length_scanDigits {cs digits rest : List Char}
    (h : scanDigits cs = some (digits, rest)) : rest.length < cs.length := by
  unfold scanDigits at h
  split at h
  · simp at h
  · next hne =>
    obtain ⟨rfl, rfl⟩ := Prod.mk.inj (Option.some.inj h)
    have hl := congrArg List.length (List.takeWhile_append_dropWhile (p := Char.isDigit) (l := cs))
    rw [List.length_append] at hl
    have : (cs.takeWhile Char.isDigit).length ≠ 0 := by
      intro he
      exact hne (List.length_eq_zero_iff.mp he)
    omega

private theorem length_scanFraction {cs rest : List Char} {found : Bool}
    (h : scanFraction cs = some (found, rest)) : rest.length ≤ cs.length := by
  unfold scanFraction at h
  split at h
  · obtain ⟨⟨digits, r⟩, hs, he⟩ := Option.map_eq_some_iff.mp h
    have := length_scanDigits hs
    grind
  · grind

private theorem length_scanExponent {cs rest : List Char} {found : Bool}
    (h : scanExponent cs = some (found, rest)) : rest.length ≤ cs.length := by
  unfold scanExponent at h
  split at h
  · obtain ⟨⟨digits, r⟩, hs, he⟩ := Option.map_eq_some_iff.mp h
    have := length_scanDigits hs
    grind
  · obtain ⟨⟨digits, r⟩, hs, he⟩ := Option.map_eq_some_iff.mp h
    have := length_scanDigits hs
    grind
  · grind

private theorem length_scanMagnitude {negative : Bool} {cs rest : List Char} {v : Json}
    (h : scanMagnitude negative cs = some (v, rest)) : rest.length < cs.length := by
  simp only [scanMagnitude, Option.bind_eq_bind, Option.bind_eq_some_iff] at h
  obtain ⟨⟨digits, r⟩, hd, h⟩ := h
  have := length_scanDigits hd
  split at h
  · simp at h
  · simp only [Option.bind_eq_some_iff] at h
    obtain ⟨⟨_, r₁⟩, hf, ⟨_, r₂⟩, he, h⟩ := h
    have := length_scanFraction hf
    have := length_scanExponent he
    grind

private theorem length_scanNumber {cs rest : List Char} {v : Json}
    (h : scanNumber cs = some (v, rest)) : rest.length < cs.length := by
  unfold scanNumber at h
  split at h
  · have := length_scanMagnitude h
    grind
  · exact length_scanMagnitude h

theorem length_scanScalar {cs rest : List Char} {v : Json}
    (h : scanScalar cs = some (v, rest)) : rest.length < cs.length := by
  unfold scanScalar at h
  split at h
  · grind
  · grind
  · grind
  · obtain ⟨⟨pieces, r⟩, hs, he⟩ := Option.map_eq_some_iff.mp h
    have := length_scanText hs
    grind
  · exact length_scanNumber h

/-- All tokens of a text, after those already `done`, which come latest first. -/
def scanAfter (done : List Token) (cs : List Char) : Option (List Token) :=
  match cs with
  | [] => some done.reverse
  | c :: rest =>
    if isBlank c then scanAfter done rest
    else match punctuation? c with
    | some token => scanAfter (token :: done) rest
    | none => match h : scanScalar (c :: rest) with
      | some (v, rest') =>
        have : rest'.length ≤ rest.length := Nat.le_of_lt_succ (length_scanScalar h)
        scanAfter (.scalar v :: done) rest'
      | none => none
termination_by cs.length

/-- All tokens of a text, none if some part of it is no token. -/
def scan? (cs : List Char) : Option (List Token) := scanAfter [] cs

end Token
end LayeredStore.Json
