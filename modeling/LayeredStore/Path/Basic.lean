import Std.Data.ExtTreeMap
import LayeredStore.Text.Quoted

/-!
# Paths

A path is an absolute flag and a list of segments. Reading a text drops empty segments, so
`/a//b/` and `/a/b` are one path; a path taken over from a record keeps its segments as given.
Paths are ordered absolute ones first, then segment by segment, the shorter one first; every
ordered table of the library is keyed by this order. Clients know a path as a `CloudPath`, and see
that name in its diagnostic form.
-/

namespace LayeredStore

/-- A place in a hierarchy of folders. -/
structure Path where
  absolute : Bool
  segments : List String
deriving DecidableEq, Inhabited

namespace Path

/-- The character between two segments. -/
def separator : Char := '/'

/-- The absolute path without segments. -/
def root : Path := ⟨true, []⟩

/-- The path of the given segments, empty ones left out. -/
def ofSegments (absolute : Bool) (segments : List String) : Path :=
  ⟨absolute, segments.filter (· ≠ "")⟩

/-- One more character in front of pieces that are already cut. -/
private def cutStep (c : Char) (pieces : List (List Char)) : List (List Char) :=
  if c = separator then [] :: pieces
  else match pieces with
    | [] => [[c]]
    | piece :: rest => (c :: piece) :: rest

/-- The pieces between separators, empty ones included; there is always at least one. -/
def cut (text : List Char) : List (List Char) := text.foldr cutStep [[]]

/-- The path that a text writes: it is absolute if it begins with a separator. -/
def parse (text : String) : Path :=
  ⟨text.toList.head? = some separator, ((cut text.toList).filter (· ≠ [])).map String.ofList⟩

/-- The written form: segments joined by separators, one more in front if absolute. -/
def text (p : Path) : String :=
  (if p.absolute then "/" else "") ++ "/".intercalate p.segments

instance : ToString Path := ⟨text⟩

/-- The diagnostic form: the text, quoted, behind the word that marks it as a path. -/
def diagnostic (p : Path) : String := "CloudPath(" ++ Text.quoted p.text ++ ")"

/-- Only `/` is the root; the relative path without segments is not. -/
def isRoot (p : Path) : Bool := p.absolute && p.segments.isEmpty

/-- Number of segments. -/
def length (p : Path) : Nat := p.segments.length

/-- The last segment, if there is one. -/
def name? (p : Path) : Option String := p.segments.getLast?

/-- The last segment, or the empty name. -/
def name (p : Path) : String := p.name?.getD ""

/-- The path without its last segment; a path without segments has no parent. -/
def parent? (p : Path) : Option Path :=
  if p.segments.isEmpty then none else some ⟨p.absolute, p.segments.dropLast⟩

/-- The paths above `p`, the nearest one first, down to the one without segments. -/
def ancestors (p : Path) : List Path :=
  (List.range p.length).reverse.map fun n => ⟨p.absolute, p.segments.take n⟩

/-- The path below `p` with one more segment. -/
def child (p : Path) (segment : String) : Path := ⟨p.absolute, p.segments ++ [segment]⟩

/-- Whether `q` is `p` or lies above it; both must be absolute or both relative. -/
def startsWith (p q : Path) : Bool :=
  p.absolute == q.absolute && q.segments.isPrefixOf p.segments

/-- Whether `p` ends in the segments of `q`; an absolute `q` must be all of `p`. -/
def endsWith (p q : Path) : Bool :=
  if q.absolute then p == q else q.segments.isSuffixOf p.segments

/-- Absolute paths come first, then the segments decide, the shorter list first. -/
instance : Ord Path := ⟨compareLex (compareOn fun p => !p.absolute) (compareOn segments)⟩

instance : Std.TransOrd Path :=
  inferInstanceAs (Std.TransCmp (compareLex (compareOn fun p : Path => !p.absolute)
    (compareOn segments)))

instance : Std.LawfulEqOrd Path where
  eq_of_compare {p q} h := by
    have h : (compare (!p.absolute) (!q.absolute)).then (compare p.segments q.segments) = .eq := h
    obtain ⟨ha, hs⟩ := Ordering.then_eq_eq.mp h
    cases p
    cases q
    have ha := Std.LawfulEqOrd.eq_of_compare ha
    have hs := Std.LawfulEqOrd.eq_of_compare hs
    simp_all

/-- The given paths in ascending order. -/
def sort (paths : List Path) : List Path :=
  paths.mergeSort fun p q => (compare p q).isLE

/-- Cutting is splitting at every separator. -/
theorem cut_eq_splitOn (text : List Char) : cut text = text.splitOn separator := by
  induction text with
  | nil => rfl
  | cons c text ih =>
    have hcut : cut (c :: text) = cutStep c (cut text) := rfl
    rw [hcut, ih, List.splitOn_cons_eq_if_modifyHead]
    unfold cutStep
    by_cases hc : c = separator
    · simp [hc]
    · obtain ⟨piece, rest, hpieces⟩ :=
        List.exists_cons_of_ne_nil (List.splitOn_ne_nil separator text)
      simp [hc, hpieces]

/-- Reading a text leaves no empty segment. -/
theorem ne_empty_of_mem_segments_parse {text s : String} (h : s ∈ (parse text).segments) :
    s ≠ "" := by
  obtain ⟨piece, hp, rfl⟩ := List.mem_map.mp h
  have hne : piece ≠ [] := by simpa using (List.mem_filter.mp hp).2
  intro he
  exact hne (by simpa using congrArg String.toList he)

/-- Building a path from segments leaves no empty segment. -/
theorem ne_empty_of_mem_segments_ofSegments {absolute : Bool} {segments : List String}
    {s : String} (h : s ∈ (ofSegments absolute segments).segments) : s ≠ "" := by
  simpa using (List.mem_filter.mp h).2

/-- Nothing starts with `q` but what continues its segments. -/
theorem startsWith_iff {p q : Path} :
    p.startsWith q = true ↔ p.absolute = q.absolute ∧ q.segments <+: p.segments := by
  simp [startsWith]

/-- What starts with a path is the path with some segments more. -/
theorem startsWith_iff_exists {p q : Path} :
    p.startsWith q = true ↔ ∃ rest, p = ⟨q.absolute, q.segments ++ rest⟩ := by
  rw [startsWith_iff]
  constructor
  · rintro ⟨hflag, rest, hrest⟩
    exact ⟨rest, (Path.mk.injEq ..).mpr ⟨hflag, hrest.symm⟩⟩
  · rintro ⟨rest, rfl⟩
    exact ⟨rfl, List.prefix_append q.segments rest⟩

/-- Every path starts with itself. -/
theorem startsWith_refl (p : Path) : p.startsWith p = true :=
  startsWith_iff.mpr ⟨rfl, List.prefix_refl _⟩

/-- A path below a path below `q` is below `q`. -/
theorem startsWith_trans {p q r : Path} (hpq : p.startsWith q = true)
    (hqr : q.startsWith r = true) : p.startsWith r = true := by
  rw [startsWith_iff] at *
  exact ⟨hpq.1.trans hqr.1, hqr.2.trans hpq.2⟩

/-- Two paths that start with each other are one path. -/
theorem startsWith_antisymm {p q : Path} (hpq : p.startsWith q = true)
    (hqp : q.startsWith p = true) : p = q := by
  rw [startsWith_iff] at *
  cases p
  cases q
  exact (Path.mk.injEq ..).mpr ⟨hpq.1, hqp.2.eq_of_length_le hpq.2.length_le⟩

/-- Two paths with which a third one starts lie below each other. -/
theorem startsWith_or_startsWith {p q r : Path} (hq : p.startsWith q = true)
    (hr : p.startsWith r = true) : q.startsWith r = true ∨ r.startsWith q = true := by
  simp only [startsWith_iff] at *
  rcases List.prefix_or_prefix_of_prefix hq.2 hr.2 with h | h
  · exact .inr ⟨hr.1.symm.trans hq.1, h⟩
  · exact .inl ⟨hq.1.symm.trans hr.1, h⟩

/-- A child has its parent. -/
@[simp] theorem parent?_child (p : Path) (name : String) : (p.child name).parent? = some p := by
  simp [parent?, child]

/-- The parent of a path is what it is a child of. -/
theorem parent?_eq_some_iff {p q : Path} : p.parent? = some q ↔ ∃ name, p = q.child name := by
  constructor
  · intro h
    by_cases hs : p.segments = []
    · simp [parent?, hs] at h
    · obtain rfl : ⟨p.absolute, p.segments.dropLast⟩ = q := by simpa [parent?, hs] using h
      refine ⟨p.segments.getLast hs, ?_⟩
      rw [child, List.dropLast_concat_getLast hs]
  · rintro ⟨name, rfl⟩
    exact q.parent?_child name

/-- Only paths without segments have no parent. -/
theorem parent?_eq_none_iff {p : Path} : p.parent? = none ↔ p.segments = [] := by
  simp [parent?]

/-- A child lies below what its parent lies below, and below itself. -/
theorem startsWith_child_iff {p q : Path} {name : String} :
    (p.child name).startsWith q = true ↔ p.startsWith q = true ∨ p.child name = q := by
  obtain ⟨absolute, segments⟩ := q
  simp only [startsWith_iff, child, List.prefix_concat_iff, Path.mk.injEq]
  constructor
  · rintro ⟨ha, rfl | h⟩
    · exact .inr ⟨ha, rfl⟩
    · exact .inl ⟨ha, h⟩
  · rintro (⟨ha, h⟩ | ⟨rfl, rfl⟩)
    · exact ⟨ha, .inr h⟩
    · exact ⟨rfl, .inl rfl⟩

/-- What a child does not lie below, its parent does not lie below either. -/
theorem startsWith_eq_false_of_child {p q : Path} {name : String}
    (h : (p.child name).startsWith q = false) : p.startsWith q = false := by
  rw [Bool.eq_false_iff] at *
  exact fun hp => h (startsWith_child_iff.mpr (.inl hp))

/-- What lies strictly below a path is the child of something that lies below it. -/
theorem exists_child_of_startsWith {p q : Path} (h : p.startsWith q = true) (hne : p ≠ q) :
    ∃ (parent : Path) (name : String), p = parent.child name ∧ parent.startsWith q = true := by
  cases hparent : p.parent? with
  | none =>
    refine absurd (startsWith_antisymm h ?_) hne
    refine startsWith_iff.mpr ⟨(startsWith_iff.mp h).1.symm, ?_⟩
    rw [parent?_eq_none_iff.mp hparent]
    exact List.nil_prefix
  | some parent =>
    obtain ⟨name, rfl⟩ := parent?_eq_some_iff.mp hparent
    exact ⟨parent, name, rfl, (startsWith_child_iff.mp h).resolve_right hne⟩

/-- What holds of a path, and of the children of all paths below it of which it holds, holds of all
paths below it. -/
@[elab_as_elim] theorem startsWith_induction {q : Path}
    {motive : (p : Path) → p.startsWith q = true → Prop} (self : motive q q.startsWith_refl)
    (child : ∀ (p : Path) (name : String) (h : p.startsWith q = true), motive p h →
      motive (p.child name) (startsWith_child_iff.mpr (.inl h)))
    (p : Path) (h : p.startsWith q = true) : motive p h := by
  induction hn : p.segments.length generalizing p with
  | zero =>
    by_cases hne : p = q
    · subst hne
      exact self
    · obtain ⟨parent, name, rfl, -⟩ := exists_child_of_startsWith h hne
      simp [Path.child] at hn
  | succ n ih =>
    by_cases hne : p = q
    · subst hne
      exact self
    · obtain ⟨parent, name, rfl, hparent⟩ := exists_child_of_startsWith h hne
      exact child parent name hparent (ih parent hparent (by simpa [Path.child] using hn))

/-- No parent lies below its child. -/
theorem startsWith_child_eq_false (p : Path) (name : String) :
    p.startsWith (p.child name) = false := by
  rw [Bool.eq_false_iff, ne_eq, startsWith_iff]
  rintro ⟨-, h⟩
  have hlength := h.length_le
  simp only [child, List.length_append, List.length_singleton] at hlength
  omega

end Path
end LayeredStore
