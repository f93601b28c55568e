import LayeredStore.Path.Arithmetic
import Mathlib.Data.Set.Basic

/-!
# Prefixes

One path starts with another one if the segments agree place by place as far as the other one goes.
Main statement: these are the paths that the other one leads to when a relative path is taken from
it; that relative path is the part beyond the other path, and nothing else. Starting with is a
partial order in which the prefixes of one path are a chain, so two subtrees lie one inside the
other or have no path in common.
-/

namespace LayeredStore

section Places

variable {α : Type} {l m : List α}

/-- A list is a prefix of another one if it is not longer and agrees with it place by place. -/
private theorem isPrefix_iff_zip :
    l <+: m ↔ l.length ≤ m.length ∧ ∀ place ∈ m.zip l, place.1 = place.2 := by
  induction l generalizing m with
  | nil => simp
  | cons x l ih =>
    cases m with
    | nil => simp
    | cons y m => simp [List.cons_prefix_cons, ih, eq_comm (a := y), and_left_comm]

/-- A list is a suffix of another one if both agree so when read from their ends. -/
private theorem isSuffix_iff_zip_reverse :
    l <:+ m ↔ l.length ≤ m.length ∧ ∀ place ∈ m.reverse.zip l.reverse, place.1 = place.2 := by
  rw [← List.reverse_prefix, isPrefix_iff_zip, List.length_reverse, List.length_reverse]

end Places

namespace Path

variable {p q r : Path}

/-- The paths that start with a path. -/
def subtree (q : Path) : Set Path := {p | p.startsWith q = true}

theorem resolve_of_absolute (h : q.absolute = true) : p.resolve q = q := if_pos h

theorem resolve_of_relative (h : q.absolute = false) :
    p.resolve q = ⟨p.absolute, p.segments ++ q.segments⟩ := by
  simp [resolve, h]

/-- Joined paths can be joined in either order. -/
theorem resolve_assoc (p q r : Path) : (p.resolve q).resolve r = p.resolve (q.resolve r) := by
  cases hr : r.absolute with
  | true => rw [resolve_of_absolute hr, resolve_of_absolute hr, resolve_of_absolute hr]
  | false =>
    cases hq : q.absolute with
    | true =>
      have habsolute : (q.resolve r).absolute = true := by rw [resolve_of_relative hr]; exact hq
      rw [resolve_of_absolute hq, resolve_of_absolute habsolute]
    | false => simp [resolve, hq, hr]

/-! ### Prefixes and suffixes -/

/-- What starts with a path is what a relative path leads to from it. -/
theorem startsWith_iff_exists_resolve :
    p.startsWith q = true ↔ ∃ r : Path, r.absolute = false ∧ q.resolve r = p := by
  rw [startsWith_iff_exists]
  constructor
  · rintro ⟨rest, rfl⟩
    exact ⟨⟨false, rest⟩, rfl, resolve_of_relative rfl⟩
  · rintro ⟨r, hr, rfl⟩
    exact ⟨r.segments, resolve_of_relative hr⟩

/-- The relative path that leads from one path to another is the part beyond the former. -/
private theorem subpath_of_resolve (hr : r.absolute = false) (h : q.resolve r = p) :
    p.subpath q.length p.length = .ok r := by
  rw [resolve_of_relative hr] at h
  subst h
  have hrest : (⟨false, r.segments⟩ : Path) = r := by rw [← hr]
  simpa [subpath, length, List.take_length_add_append] using hrest

/-- From a prefix, the part beyond it leads to the path, and no other relative path does. -/
theorem resolve_eq_iff_subpath (hr : r.absolute = false) :
    q.resolve r = p ↔ p.startsWith q = true ∧ p.subpath q.length p.length = .ok r := by
  constructor
  · intro h
    exact ⟨startsWith_iff_exists_resolve.mpr ⟨r, hr, h⟩, subpath_of_resolve hr h⟩
  · intro h
    obtain ⟨rest, hrest, hresolve⟩ := startsWith_iff_exists_resolve.mp h.1
    have hsame := (subpath_of_resolve hrest hresolve).symm.trans h.2
    rw [← Except.ok.inj hsame]
    exact hresolve

/-- What ends in a path is what it leads to from some path, which is as absolute as the end is. -/
theorem endsWith_iff_exists_resolve :
    p.endsWith r = true ↔ ∃ q : Path, q.absolute = p.absolute ∧ q.resolve r = p := by
  unfold endsWith
  cases hr : r.absolute with
  | true =>
    simp only [resolve_of_absolute hr]
    constructor
    · intro h
      exact ⟨p, rfl, (eq_of_beq h).symm⟩
    · rintro ⟨-, -, rfl⟩
      exact beq_self_eq_true r
  | false =>
    simp only [resolve_of_relative hr]
    constructor
    · intro h
      obtain ⟨front, hfront⟩ := List.isSuffixOf_iff_suffix.mp h
      exact ⟨⟨p.absolute, front⟩, rfl, by rw [hfront]⟩
    · rintro ⟨q, -, rfl⟩
      exact List.isSuffixOf_iff_suffix.mpr (List.suffix_append q.segments r.segments)

/-- Starting with a path is agreeing with it place by place. -/
theorem startsWith_iff_zip : p.startsWith q = true ↔ p.absolute = q.absolute ∧
    q.length ≤ p.length ∧ ∀ place ∈ p.segments.zip q.segments, place.1 = place.2 := by
  rw [startsWith_iff, isPrefix_iff_zip]
  rfl

/-- Ending in a relative path is agreeing with it place by place from the end. -/
theorem endsWith_iff_zip : p.endsWith r = true ↔ if r.absolute then p = r else
    r.length ≤ p.length ∧
      ∀ place ∈ p.segments.reverse.zip r.segments.reverse, place.1 = place.2 := by
  unfold endsWith
  cases r.absolute with
  | true => exact beq_iff_eq
  | false => exact List.isSuffixOf_iff_suffix.trans isSuffix_iff_zip_reverse

/-! ### Subtrees -/

/-- A subtree lies inside another one exactly if its path starts with that of the other one. -/
theorem subtree_subset_iff : q.subtree ⊆ r.subtree ↔ q.startsWith r = true := by
  constructor
  · intro h
    exact h q.startsWith_refl
  · intro h p hp
    exact startsWith_trans hp h

/-- Two subtrees of which none lies inside the other have no path in common. -/
theorem subtree_subset_or_disjoint (q r : Path) :
    q.subtree ⊆ r.subtree ∨ r.subtree ⊆ q.subtree ∨ q.subtree ∩ r.subtree = ∅ := by
  rw [← or_assoc, or_iff_not_imp_left]
  intro hapart
  apply Set.eq_empty_of_forall_notMem
  intro p hp
  rw [subtree_subset_iff, subtree_subset_iff] at hapart
  exact hapart (startsWith_or_startsWith hp.1 hp.2)

/-- **Prefixes are where relative paths lead from.** Joining paths is associative. A path starts
with another one if the segments of both agree as far as that one goes; this is so exactly if some
relative path leads to it from there, which is then the part beyond the other one and nothing else.
A path ends in a relative one if both agree from their ends, and in an absolute one if it is that;
this is so exactly if the other path leads to it from some path. Starting with is a partial order;
the prefixes of one path are comparable, and two subtrees are nested or disjoint. -/
theorem prefixes_lead_to_paths (p q r : Path) :
    (p.resolve q).resolve r = p.resolve (q.resolve r) ∧
    (p.startsWith q = true ↔ p.absolute = q.absolute ∧ q.length ≤ p.length ∧
      ∀ place ∈ p.segments.zip q.segments, place.1 = place.2) ∧
    (p.startsWith q = true ↔ ∃ r : Path, r.absolute = false ∧ q.resolve r = p) ∧
    (r.absolute = false →
      (q.resolve r = p ↔ p.startsWith q = true ∧ p.subpath q.length p.length = .ok r)) ∧
    (p.endsWith r = true ↔ if r.absolute then p = r else r.length ≤ p.length ∧
      ∀ place ∈ p.segments.reverse.zip r.segments.reverse, place.1 = place.2) ∧
    (p.endsWith r = true ↔ ∃ q : Path, q.absolute = p.absolute ∧ q.resolve r = p) ∧
    p.startsWith p = true ∧
    (p.startsWith q = true → q.startsWith p = true → p = q) ∧
    (p.startsWith q = true → q.startsWith r = true → p.startsWith r = true) ∧
    (p.startsWith q = true → p.startsWith r = true →
      q.startsWith r = true ∨ r.startsWith q = true) ∧
    (q.subtree ⊆ r.subtree ∨ r.subtree ⊆ q.subtree ∨ q.subtree ∩ r.subtree = ∅) :=
  ⟨resolve_assoc p q r, startsWith_iff_zip, startsWith_iff_exists_resolve, resolve_eq_iff_subpath,
    endsWith_iff_zip, endsWith_iff_exists_resolve, p.startsWith_refl, startsWith_antisymm,
    startsWith_trans, startsWith_or_startsWith, subtree_subset_or_disjoint q r⟩

/-- From `/a`, with which it starts because `/a/b` does, nothing but `b/c` leads to `/a/b/c`; and
what starts with `/a` and is a prefix of it is `/a`. -/
theorem prefixes_lead_to_paths_below :
    let p : Path := ⟨true, ["a", "b", "c"]⟩
    p.startsWith ⟨true, ["a", "b"]⟩ = true ∧ p.startsWith ⟨true, ["a"]⟩ = true ∧
      p.subpath 1 3 = .ok ⟨false, ["b", "c"]⟩ ∧
      (startsWith ⟨true, ["a"]⟩ ⟨true, ["a", "b"]⟩ = true ∨
        startsWith ⟨true, ["a", "b"]⟩ ⟨true, ["a"]⟩ = true) ∧
      root.child "a" = ⟨true, ["a"]⟩ := by
  intro p
  obtain ⟨-, -, -, hsubpath, -⟩ := prefixes_lead_to_paths p ⟨true, ["a"]⟩ ⟨false, ["b", "c"]⟩
  obtain ⟨-, -, -, -, -, -, -, -, htrans, -⟩ :=
    prefixes_lead_to_paths p ⟨true, ["a", "b"]⟩ ⟨true, ["a"]⟩
  obtain ⟨-, -, -, -, -, -, -, -, -, hchain, -⟩ :=
    prefixes_lead_to_paths p ⟨true, ["a"]⟩ ⟨true, ["a", "b"]⟩
  obtain ⟨-, -, -, -, -, -, -, hantisymm, -⟩ :=
    prefixes_lead_to_paths (root.child "a") ⟨true, ["a"]⟩ root
  have hbelow := htrans rfl rfl
  exact ⟨rfl, hbelow, ((hsubpath rfl).mp rfl).2, hchain hbelow rfl, hantisymm rfl rfl⟩

end Path
end LayeredStore
