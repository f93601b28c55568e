import LayeredStore.Proofs.Settings.Acceptance

/-!
# Lifetimes that are set

A lifetime is set as a count of milliseconds in one word, which takes the place of the seconds that
are set with it. A count that needs more than a word starts anew. Main statement: a lifetime is
kept, down to the millisecond, exactly if its milliseconds fit into a word; the settings are refused
for each lifetime that has less than a millisecond left once full words are taken away, however long
it is.
-/

namespace LayeredStore.Settings

variable {s : Settings} {stack : Stack} {d : Nanoseconds}

/-- The settings with the lifetime set for a kind of layer. -/
def withLifetime (s : Settings) (d : Nanoseconds) : Stack → Settings
  | .metadata => s.withMetadataLifetime d
  | .coalescing => s.withQuotaLifetime d

/-- The span that is rounded down to whole milliseconds. -/
def floorMillis (d : Nanoseconds) : Nanoseconds := d - d % ofMillis 1

/-- The shortest span whose milliseconds do not fit into a word. -/
def wordSpan : Nanoseconds := ofMillis UInt64.size

/-- The longest spans have a word of seconds and less than a second more. -/
def IsSpan (d : Nanoseconds) : Prop := d < ofSeconds UInt64.size

instance (d : Nanoseconds) : Decidable (IsSpan d) := inferInstanceAs (Decidable (_ < _))

private theorem ofMillis_wholeMillis (d : Nat) : ofMillis (wholeMillis d) = floorMillis d := by
  show d / 1000000 * 1000000 = d - d % (1 * 1000000)
  omega

/-- Rounding down leaves nothing exactly of what is shorter than a millisecond. -/
private theorem floorMillis_eq_zero_iff {d : Nat} : floorMillis d = 0 ↔ d < ofMillis 1 := by
  show d - d % (1 * 1000000) = 0 ↔ d < 1 * 1000000
  omega

/-- A word of milliseconds is a whole number of them. -/
private theorem wordSpan_le_floorMillis {d : Nat} (h : wordSpan ≤ d) :
    wordSpan ≤ floorMillis d := by
  have hlong : UInt64.size * 1000000 ≤ d := h
  show UInt64.size * 1000000 ≤ d - d % (1 * 1000000)
  omega

/-- The low word of a count of milliseconds is what a span has beyond full words of them. -/
private theorem ofMillis_mod_size (d : Nat) :
    ofMillis (wholeMillis d % UInt64.size) = floorMillis (d % wordSpan) := by
  have hwhole : wholeMillis (d % wordSpan) = wholeMillis d % UInt64.size := by
    show d % (UInt64.size * 1000000) / 1000000 = d / 1000000 % UInt64.size
    rw [Nat.mul_comm]
    exact Nat.mod_mul_right_div_self d 1000000 UInt64.size
  rw [← hwhole, ofMillis_wholeMillis]

/-- Nothing is lost with the full words exactly if there are none. -/
private theorem floorMillis_mod_eq_iff {d : Nat} :
    floorMillis (d % wordSpan) = floorMillis d ↔ d < wordSpan := by
  constructor
  · intro h
    apply Nat.lt_of_not_le
    intro hlong
    have hleft : floorMillis (d % wordSpan) < wordSpan :=
      Nat.lt_of_le_of_lt (Nat.sub_le ..) (Nat.mod_lt d (by decide))
    exact Nat.not_lt.mpr (wordSpan_le_floorMillis hlong) (h ▸ hleft)
  · intro hshort
    rw [Nat.mod_eq_of_lt hshort]

/-- Setting a lifetime sets what is beyond full words of its milliseconds, and no other lifetime. -/
private theorem lifetimeOf_withLifetime (s : Settings) (d : Nanoseconds) (stack other : Stack) :
    (s.withLifetime d stack).lifetimeOf other =
      if other = stack then floorMillis (d % wordSpan) else s.lifetimeOf other := by
  have hset : ofMillis (UInt64.ofNat (wholeMillis d)).toNat = floorMillis (d % wordSpan) := by
    rw [← ofMillis_mod_size]
    rfl
  cases stack <;> cases other
  · exact hset
  · rfl
  · rfl
  · exact hset

/-- Settings that a lifetime is set in are valid if that does not come out as zero, and no other one
is zero. -/
theorem validate_withLifetime_eq_ok_iff : (s.withLifetime d stack).validate = .ok () ↔
    ofMillis 1 ≤ d % wordSpan ∧ ∀ other, other = stack ∨ 0 < s.lifetimeOf other := by
  have hpos : 0 < floorMillis (d % wordSpan) ↔ ofMillis 1 ≤ d % wordSpan := by
    rw [Nat.pos_iff_ne_zero, ne_eq, floorMillis_eq_zero_iff, Nat.not_lt]
  simp only [validate_eq_ok_iff, lifetimeOf_withLifetime]
  constructor
  · intro hvalid
    constructor
    · simpa [hpos] using hvalid stack
    · intro other
      by_cases h : other = stack
      · exact .inl h
      · exact .inr (by simpa [h] using hvalid other)
  · intro hvalid other
    by_cases h : other = stack
    · rw [if_pos h]
      exact hpos.mpr hvalid.1
    · rw [if_neg h]
      exact (hvalid.2 other).resolve_left h

/-- **A lifetime is kept exactly if its milliseconds fit into a word.** Setting a lifetime sets what
it has beyond full words of milliseconds, rounded down to whole milliseconds, and leaves the other
lifetime and the choice of layer as they are. So the lifetime is the span rounded down exactly if
that is below a word of milliseconds; it is zero exactly if less than a millisecond is beyond full
words; and the settings are valid exactly if it is not zero and the other lifetime is not either. -/
theorem lifetimes_kept_iff_within_word (s : Settings) (d : Nanoseconds) (stack : Stack) :
    let changed := s.withLifetime d stack
    (∀ other, changed.lifetimeOf other =
      if other = stack then floorMillis (d % wordSpan) else s.lifetimeOf other) ∧
    changed.stack = s.stack ∧
    (changed.lifetimeOf stack = floorMillis d ↔ d < wordSpan) ∧
    (changed.lifetimeOf stack = 0 ↔ d % wordSpan < ofMillis 1) ∧
    (changed.validate = .ok () ↔
      ofMillis 1 ≤ d % wordSpan ∧ ∀ other, other = stack ∨ 0 < s.lifetimeOf other) := by
  intro changed
  have hset : changed.lifetimeOf stack = floorMillis (d % wordSpan) := by
    rw [lifetimeOf_withLifetime, if_pos rfl]
  rw [hset]
  refine ⟨lifetimeOf_withLifetime s d stack, ?_, floorMillis_mod_eq_iff, floorMillis_eq_zero_iff,
    validate_withLifetime_eq_ok_iff⟩
  cases stack <;> rfl

/-- Not every lifetime is kept down to the millisecond, and not only those below a millisecond are
refused: of two to the sixty-first seconds nothing is left. -/
theorem not_lifetimes_kept :
    (¬ ∀ s d stack, IsSpan d → (withLifetime s d stack).lifetimeOf stack = floorMillis d) ∧
    ¬ ∀ s d stack, IsSpan d → s.validate = .ok () →
      (withLifetime s d stack).validate ≠ .ok () → d < ofMillis 1 := by
  have hspan : IsSpan (ofSeconds 2305843009213693952) := by decide
  constructor
  · intro h
    exact absurd (h default _ .metadata hspan) (by decide)
  · intro h
    refine absurd (h default _ .metadata hspan rfl ?_) (by decide)
    intro hvalid
    exact absurd (validate_withLifetime_eq_ok_iff.mp hvalid).1 (by decide)

end LayeredStore.Settings
