import LayeredStore.Json.Render
import LayeredStore.Json.Token

/-!
# Scanning what is written

A written scalar is scanned as what it is, whatever follows it; after a number nothing may follow
that would go on with it. Main statements: `scanScalar_textChars`, `scanScalar_integer`, and how
the tokens of a text are those of its parts.
-/

namespace LayeredStore.Json.Token

/-! ### Texts -/

/-- The characters that have a short escape when they are written. -/
def shortEscaped : List Char := ['"', '\\', '\x08', '\x0c', '\n', '\r', '\t']

/-- What a character is written with: a control character without a short escape with its code
unit, any other one as a character. -/
def piece (c : Char) : Piece :=
  if c ∉ shortEscaped ∧ c.toNat < 0x20 then .unit c.toNat else .char c

/-- A written hexadecimal digit is read as its value. -/
private theorem hexValue?_hexDigit (n : Nat) : hexValue? (hexDigit n) = some (n % 16) := by
  have hall : ∀ d < 16, hexValue? (Nat.digitChar d) = some d := by decide
  exact hall (n % 16) (Nat.mod_lt n (by decide))

/-- The code unit of a control character is read as its number. -/
private theorem unit?_hexDigit {n : Nat} (h : n < 0x20) :
    unit? '0' '0' (hexDigit (n / 16)) (hexDigit n) = some n := by
  have hzero : hexValue? '0' = some 0 := by decide
  simp only [unit?, hzero, hexValue?_hexDigit, Option.bind_eq_bind, Option.bind_some]
  congr 1
  omega

/-- A character without an escape is scanned as itself. -/
private theorem scanText_of_plain {c : Char} (hshort : c ∉ shortEscaped)
    (hcontrol : ¬ c.toNat < 0x20) (done : List Piece) (rest : List Char) :
    scanText done (c :: rest) = scanText (.char c :: done) rest := by
  have hquote : c ≠ '"' := by
    rintro rfl
    exact hshort (by decide)
  have hslash : c ≠ '\\' := by
    rintro rfl
    exact hshort (by decide)
  simp [scanText, hslash, hcontrol]

/-- An escaped character is scanned as the one piece that it is written with. -/
private theorem scanText_escape (c : Char) (done : List Piece) (rest : List Char) :
    scanText done (escape c ++ rest) = scanText (piece c :: done) rest := by
  by_cases hshort : c ∈ shortEscaped
  · simp only [shortEscaped, List.mem_cons, List.not_mem_nil, or_false] at hshort
    rcases hshort with rfl | rfl | rfl | rfl | rfl | rfl | rfl <;> rfl
  · have hescape : escape c = if c.toNat < 0x20 then
        ['\\', 'u', '0', '0', hexDigit (c.toNat / 16), hexDigit c.toNat] else [c] := by
      simp only [shortEscaped, List.mem_cons, List.not_mem_nil, or_false, not_or] at hshort
      simp [escape, hshort]
    rw [hescape, piece]
    by_cases hcontrol : c.toNat < 0x20
    · simp only [hcontrol, hshort, if_true, List.cons_append, List.nil_append, scanText,
        unit?_hexDigit hcontrol, not_false_eq_true, and_self]
    · simpa [hcontrol] using scanText_of_plain hshort hcontrol done rest

/-- Escaped characters are scanned as the pieces that they are written with, up to the quote. -/
private theorem scanText_flatMap_escape (cs : List Char) (done : List Piece) (rest : List Char) :
    scanText done (cs.flatMap escape ++ '"' :: rest) =
      some (done.reverse ++ cs.map piece, rest) := by
  induction cs generalizing done with
  | nil => simp [scanText]
  | cons c cs ih =>
    rw [List.flatMap_cons, List.append_assoc, scanText_escape, ih]
    simp

/-- A code unit below the surrogates spells a character, whatever follows it. -/
private theorem spell_unit {n : Nat} (h : n < 0xd800) (done : List Char) (pieces : List Piece) :
    spell done (.unit n :: pieces) = spell (Char.ofNat n :: done) pieces := by
  have hhigh : isHighSurrogate n = false := by simp [isHighSurrogate]; omega
  have hlow : isLowSurrogate n = false := by simp [isLowSurrogate]; omega
  rw [spell.eq_def]
  split <;> simp_all

/-- The pieces that a text is written with spell the text. -/
private theorem spell_map_piece (cs done : List Char) :
    spell done (cs.map piece) = some (done.reverse ++ cs) := by
  induction cs generalizing done with
  | nil => simp [spell]
  | cons c cs ih =>
    have hstep : spell done (piece c :: cs.map piece) = spell (c :: done) (cs.map piece) := by
      unfold piece
      split
      · next hcontrol => rw [spell_unit (by omega), Char.ofNat_toNat]
      · rfl
    rw [List.map_cons, hstep, ih]
    simp

/-- What follows a quote is scanned as a text. -/
private theorem scanScalar_quote (cs : List Char) :
    scanScalar ('"' :: cs) = (scanText [] cs).map fun (pieces, rest) =>
      (.text ((spell [] pieces).map String.ofList), rest) := by
  rw [scanScalar]

/-- A text is written in quotes, with its characters escaped. -/
private theorem textChars_some (s : String) :
    textChars (some s) = '"' :: (s.toList.flatMap escape ++ ['"']) := rfl

/-- A written text is scanned as itself. -/
theorem scanScalar_textChars (s : Option String) (rest : List Char) :
    scanScalar (textChars s ++ rest) = some (.text s, rest) := by
  cases s with
  | none =>
    have hchars : textChars none = ['"', '\\', 'u', 'd', '8', '0', '0', '"'] := by decide
    have hunit : unit? 'd' '8' '0' '0' = some 0xd800 := by decide
    have hspell : spell [] [.unit 0xd800] = none := by simp [spell, isHighSurrogate]
    simp only [hchars, List.cons_append, List.nil_append, scanScalar_quote, scanText, hunit,
      List.reverse_singleton, Option.map_some, hspell, Option.map_none]
  | some s =>
    rw [textChars_some, List.cons_append, List.append_assoc, List.singleton_append,
      scanScalar_quote, scanText_flatMap_escape]
    simp [spell_map_piece]

/-! ### Numbers -/

/-- Whether a text does not go on with a number. -/
def EndsNumber (rest : List Char) : Prop :=
  ∀ c, rest.head? = some c → c.isDigit = false ∧ c ∉ ['.', 'e', 'E']

theorem endsNumber_nil : EndsNumber [] := by simp [EndsNumber]

theorem endsNumber_cons {c : Char} (h : c ∈ [',', ']', '\x7d']) (rest : List Char) :
    EndsNumber (c :: rest) := by
  intro d hd
  obtain rfl : c = d := Option.some.inj hd
  simp only [List.mem_cons, List.not_mem_nil, or_false] at h
  rcases h with rfl | rfl | rfl <;> exact ⟨rfl, by decide⟩

/-- Digits are cut from the front as far as they go. -/
private theorem scanDigits_append {digits rest : List Char} (hne : digits ≠ [])
    (hdigits : ∀ c ∈ digits, c.isDigit = true) (hrest : EndsNumber rest) :
    scanDigits (digits ++ rest) = some (digits, rest) := by
  have htake : rest.takeWhile Char.isDigit = [] := by
    cases rest with
    | nil => rfl
    | cons c rest => simp [(hrest c rfl).1]
  have hdrop : rest.dropWhile Char.isDigit = rest := by
    cases rest with
    | nil => rfl
    | cons c rest => simp [(hrest c rfl).1]
  unfold scanDigits
  rw [List.takeWhile_append_of_pos hdigits, List.dropWhile_append_of_pos hdigits, htake, hdrop,
    List.append_nil]
  split
  · contradiction
  · rfl

private theorem scanFraction_of_endsNumber {rest : List Char} (h : EndsNumber rest) :
    scanFraction rest = some (false, rest) := by
  unfold scanFraction
  split
  · next rest => simpa using (h '.' rfl).2
  · rfl

private theorem scanExponent_of_endsNumber {rest : List Char} (h : EndsNumber rest) :
    scanExponent rest = some (false, rest) := by
  unfold scanExponent
  split
  · next rest => simpa using (h 'e' rfl).2
  · next rest => simpa using (h 'E' rfl).2
  · rfl

/-- The digits of a number are read as the number. -/
private theorem ofDigits_toDigits (n : Nat) : ofDigits (Nat.toDigits 10 n) = n := by
  have hfold : ofDigits (Nat.toDigits 10 n) = Nat.ofDigitChars 10 (Nat.toDigits 10 n) 0 := by
    simp only [ofDigits, Nat.ofDigitChars_eq_foldl, Nat.mul_comm]
  rw [hfold, Nat.ofDigitChars_ten_toDigits]

/-- Only zero is written with a zero in front. -/
private theorem head?_toDigits_ne_zero {n : Nat} (h : n ≠ 0) :
    (Nat.toDigits 10 n).head? ≠ some '0' := by
  induction n using Nat.strongRecOn with
  | ind n ih =>
    rw [Nat.toDigits_eq_if (by decide)]
    split
    · simpa using h
    · have hrest := ih (n / 10) (by omega) (by omega)
      obtain ⟨c, cs, hcs⟩ :=
        List.exists_cons_of_ne_nil (Nat.toDigits_ne_nil (n := n / 10) (b := 10))
      rw [hcs] at hrest ⊢
      exact hrest

/-- A written natural number is scanned as itself. -/
private theorem scanMagnitude_toDigits (negative : Bool) (n : Nat) {rest : List Char}
    (hrest : EndsNumber rest) :
    scanMagnitude negative (Nat.toDigits 10 n ++ rest) = some (.integer negative n, rest) := by
  have hscan : scanDigits (Nat.toDigits 10 n ++ rest) = some (Nat.toDigits 10 n, rest) :=
    scanDigits_append Nat.toDigits_ne_nil
      (fun _ hc => Nat.isDigit_of_mem_toDigits (by decide) (by decide) hc) hrest
  have hzero : ¬ ((Nat.toDigits 10 n).head? = some '0' ∧ (Nat.toDigits 10 n).length ≠ 1) := by
    rintro ⟨hhead, hlength⟩
    by_cases hn : n = 0
    · subst n
      exact hlength rfl
    · exact head?_toDigits_ne_zero hn hhead
  simp [scanMagnitude, hscan, hzero, scanFraction_of_endsNumber hrest,
    scanExponent_of_endsNumber hrest, ofDigits_toDigits]

/-- What begins with no letter of a constant and no quote is scanned as a number. -/
private theorem scanScalar_of_notMem {c : Char} (h : c ∉ ['n', 't', 'f', '"']) (cs : List Char) :
    scanScalar (c :: cs) = scanNumber (c :: cs) := by
  simp only [List.mem_cons, List.not_mem_nil, or_false, not_or] at h
  rw [scanScalar.eq_def]
  split <;> simp_all

/-- A written integer is scanned as itself, with its sign even if it is zero. -/
theorem scanScalar_integer (negative : Bool) (n : Nat) {rest : List Char}
    (hrest : EndsNumber rest) :
    scanScalar (chars (.integer negative n) ++ rest) = some (.integer negative n, rest) := by
  cases negative with
  | true =>
    have hchars : chars (.integer true n) = '-' :: Nat.toDigits 10 n := rfl
    rw [hchars, List.cons_append, scanScalar_of_notMem (by decide), scanNumber,
      scanMagnitude_toDigits true n hrest]
  | false =>
    obtain ⟨c, cs, hcs⟩ := List.exists_cons_of_ne_nil (Nat.toDigits_ne_nil (n := n) (b := 10))
    have hchars : chars (.integer false n) = c :: cs := hcs
    have hdigit : c.isDigit = true :=
      Nat.isDigit_of_mem_toDigits (by decide) (by decide) (hcs ▸ List.mem_cons_self)
    have hother {d : Char} (hd : d.isDigit = false) : c ≠ d := by
      rintro rfl
      simp [hd] at hdigit
    have hmagnitude := scanMagnitude_toDigits false n hrest
    rw [hcs, List.cons_append] at hmagnitude
    have hscalar : c ∉ ['n', 't', 'f', '"'] := by
      simp [hother (d := 'n') rfl, hother (d := 't') rfl, hother (d := 'f') rfl,
        hother (d := '"') rfl]
    have hnumber : scanNumber (c :: (cs ++ rest)) = scanMagnitude false (c :: (cs ++ rest)) := by
      simp [scanNumber, hother (d := '-') rfl]
    rw [hchars, List.cons_append, scanScalar_of_notMem hscalar, hnumber, hmagnitude]

/-! ### Tokens -/

/-- The characters that stand between scalars. -/
def separators : List Char := [' ', '\n', '\r', '\t', '[', ']', '\x7b', '\x7d', ',', ':']

private theorem of_notMem_separators {c : Char} (h : c ∉ separators) :
    isBlank c = false ∧ punctuation? c = none := by
  simp only [separators, List.mem_cons, List.not_mem_nil, or_false, not_or] at h
  simp [isBlank, punctuation?, h]

/-- No scalar begins with what stands between scalars. -/
private theorem scanScalar_of_mem_separators {c : Char} (h : c ∈ separators) (cs : List Char) :
    scanScalar (c :: cs) = none := by
  simp only [separators, List.mem_cons, List.not_mem_nil, or_false] at h
  rcases h with rfl | rfl | rfl | rfl | rfl | rfl | rfl | rfl | rfl | rfl <;> rfl

/-- One step of scanning, whatever has been scanned before. -/
theorem scanAfter_cons (done : List Token) (c : Char) (rest : List Char) :
    scanAfter done (c :: rest) =
      if isBlank c then scanAfter done rest
      else match punctuation? c with
      | some token => scanAfter (token :: done) rest
      | none => match scanScalar (c :: rest) with
        | some (v, rest') => scanAfter (.scalar v :: done) rest'
        | none => none := by
  rw [scanAfter]
  split
  · rfl
  · cases punctuation? c with
    | some token => rfl
    | none =>
      dsimp only
      split
      · next hscan => rw [hscan]
      · next hscan => rw [hscan]

/-- Tokens that have been scanned before come first. -/
private theorem scanAfter_eq (done : List Token) (cs : List Char) :
    scanAfter done cs = (scanAfter [] cs).map (done.reverse ++ ·) := by
  induction hn : cs.length using Nat.strongRecOn generalizing cs done with
  | ind n ih =>
    subst hn
    have hafter {cs' : List Char} (hless : cs'.length < cs.length) (t : Token) :
        scanAfter (t :: done) cs' = (scanAfter [t] cs').map (done.reverse ++ ·) := by
      rw [ih cs'.length hless (t :: done) cs' rfl, ih cs'.length hless [t] cs' rfl, Option.map_map]
      congr 1
      ext ts
      simp
    cases cs with
    | nil => simp [scanAfter]
    | cons c rest =>
      rw [scanAfter_cons done, scanAfter_cons []]
      split
      · exact ih rest.length (by simp) done rest rfl
      · split
        · exact hafter (by simp) _
        · split
          · next v rest' hscan => exact hafter (length_scanScalar hscan) _
          · rfl

/-- The tokens of a text that begins with a bracket or a separator. -/
theorem scan?_punctuation {c : Char} {t : Token} (h : punctuation? c = some t)
    (rest : List Char) : scan? (c :: rest) = (scan? rest).map (t :: ·) := by
  have hblank : isBlank c = false := by
    cases hc : isBlank c with
    | false => rfl
    | true =>
      simp only [isBlank, Bool.or_eq_true, decide_eq_true_eq] at hc
      rcases hc with ((rfl | rfl) | rfl) | rfl <;> cases h
  rw [scan?, scanAfter_cons, if_neg (by simp [hblank]), h]
  exact scanAfter_eq [t] rest

/-- The tokens of a text that begins with a scalar. -/
theorem scan?_scalar {cs rest : List Char} {v : Json} (h : scanScalar cs = some (v, rest)) :
    scan? cs = (scan? rest).map (.scalar v :: ·) := by
  cases cs with
  | nil => cases h
  | cons c cs =>
    have hscalar : c ∉ separators := by
      intro hc
      simp [scanScalar_of_mem_separators hc] at h
    obtain ⟨hblank, hpunctuation⟩ := of_notMem_separators hscalar
    rw [scan?, scanAfter_cons, if_neg (by simp [hblank]), hpunctuation]
    simp only [h]
    exact scanAfter_eq [.scalar v] rest

end LayeredStore.Json.Token
