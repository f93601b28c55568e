import LayeredStore.Proofs.Path.Prefixes

/-!
# The order of paths

Paths are compared by their flags first and then segment by segment. Main statement: this is a total
order, in which a path comes before all that starts with it, a subtree is never left and entered
again, and paths that are joined to the same one keep their order.
-/

namespace LayeredStore

/-! ### Lexicographic order -/

section Lists

variable {α : Type} [Ord α] {l m a b c : List α}

/-- What is equal to something in front of two comparisons leaves it to what comes behind. -/
private theorem eq_of_isLE_then [Std.OrientedOrd α] [Std.LawfulEqOrd α] {x y : α} {o o' : Ordering}
    (h : ((compare x y).then o).isLE) (h' : ((compare y x).then o').isLE) :
    x = y ∧ o.isLE ∧ o'.isLE := by
  have hxy := Std.OrientedCmp.isLE_antisymm (Ordering.isLE_then_iff_and.mp h).1
    (Ordering.isLE_then_iff_and.mp h').1
  obtain rfl := Std.LawfulEqCmp.eq_of_compare hxy
  rw [hxy, Ordering.eq_then] at h h'
  exact ⟨rfl, h, h'⟩

/-- A common beginning does not count. -/
private theorem compare_append_left [Std.ReflOrd α] (l r s : List α) :
    compare (l ++ r) (l ++ s) = compare r s := by
  induction l with
  | nil => rfl
  | cons x l ih =>
    rw [List.cons_append, List.cons_append, List.compare_cons_cons, Std.ReflOrd.compare_self,
      Ordering.eq_then, ih]

/-- A prefix comes first. -/
private theorem isLE_compare_of_isPrefix [Std.ReflOrd α] (h : l <+: m) : (compare l m).isLE := by
  obtain ⟨rest, rfl⟩ := h
  have hnil : compare (l ++ []) (l ++ rest) = compare [] rest := compare_append_left l [] rest
  rw [List.append_nil] at hnil
  rw [hnil]
  cases rest <;> rfl

/-- What comes between two lists that share a beginning shares it with them. -/
private theorem isPrefix_of_between [Std.OrientedOrd α] [Std.LawfulEqOrd α] (ha : l <+: a)
    (hc : l <+: c) (hab : (compare a b).isLE) (hbc : (compare b c).isLE) : l <+: b := by
  induction l generalizing a b c with
  | nil => exact List.nil_prefix
  | cons x l ih =>
    obtain ⟨a, rfl⟩ := ha
    obtain ⟨c, rfl⟩ := hc
    cases b with
    | nil => simp at hab
    | cons y b =>
      rw [List.cons_append, List.compare_cons_cons] at hab hbc
      obtain ⟨rfl, hab, hbc⟩ := eq_of_isLE_then hab hbc
      rw [List.prefix_cons_inj]
      exact ih (List.prefix_append l a) (List.prefix_append l c) hab hbc

end Lists

namespace Path

variable {p q r s : Path}

/-! ### Paths -/

/-- The flags are compared first, then the segments. -/
theorem compare_eq_then (p q : Path) : compare p q =
    (compare (!p.absolute) (!q.absolute)).then (compare p.segments q.segments) := rfl

/-- Between equally absolute paths the segments decide. -/
theorem compare_of_absolute_eq (h : p.absolute = q.absolute) :
    compare p q = compare p.segments q.segments := by
  rw [compare_eq_then, h, Std.ReflOrd.compare_self, Ordering.eq_then]

/-- A path comes before all that starts with it. -/
theorem isLE_compare_of_startsWith (h : q.startsWith p = true) : (compare p q).isLE := by
  rw [startsWith_iff] at h
  rw [compare_of_absolute_eq h.1.symm]
  exact isLE_compare_of_isPrefix h.2

/-- What comes between two paths of a subtree belongs to it. -/
theorem startsWith_of_between (hq : q.startsWith p = true) (hs : s.startsWith p = true)
    (hqr : (compare q r).isLE) (hrs : (compare r s).isLE) : r.startsWith p = true := by
  rw [startsWith_iff] at *
  rw [compare_eq_then, hq.1] at hqr
  rw [compare_eq_then, hs.1] at hrs
  obtain ⟨hflag, hqr, hrs⟩ := eq_of_isLE_then hqr hrs
  exact ⟨(Bool.not_inj hflag).symm, isPrefix_of_between hq.2 hs.2 hqr hrs⟩

/-- Relative paths keep their order when they are taken from the same path. -/
theorem compare_resolve (q : Path) (hr : r.absolute = false) (hs : s.absolute = false) :
    compare (q.resolve r) (q.resolve s) = compare r s := by
  rw [resolve_of_relative hr, resolve_of_relative hs]
  calc compare (⟨q.absolute, q.segments ++ r.segments⟩ : Path)
        ⟨q.absolute, q.segments ++ s.segments⟩
      = compare (q.segments ++ r.segments) (q.segments ++ s.segments) := compare_of_absolute_eq rfl
    _ = compare r.segments s.segments := compare_append_left q.segments r.segments s.segments
    _ = compare r s := (compare_of_absolute_eq (hr.trans hs.symm)).symm

/-- Of two paths one comes first, or they are equal. -/
theorem isLE_compare_total (p q : Path) : (compare p q).isLE ∨ (compare q p).isLE := by
  have hswap : compare q p = (compare p q).swap := Std.OrientedCmp.eq_swap
  rw [hswap]
  cases compare p q <;> simp

/-- **A subtree is one stretch of the order of paths, and begins with its own path.** The order is
total, and only equal paths compare as equal. A path is the least one of its subtree; whatever comes
between two paths of a subtree belongs to it; and relative paths are in the order of the paths that
they lead to from the same one. -/
theorem subtrees_are_stretches (p q r s : Path) :
    (compare p q = .eq ↔ p = q) ∧ compare q p = (compare p q).swap ∧
    ((compare p q).isLE ∨ (compare q p).isLE) ∧
    ((compare p q).isLE → (compare q r).isLE → (compare p r).isLE) ∧
    p.startsWith p = true ∧ (q.startsWith p = true → (compare p q).isLE) ∧
    (q.startsWith p = true → s.startsWith p = true → (compare q r).isLE → (compare r s).isLE →
      r.startsWith p = true) ∧
    (r.absolute = false → s.absolute = false →
      compare (q.resolve r) (q.resolve s) = compare r s) :=
  ⟨Std.LawfulEqOrd.compare_eq_iff_eq, Std.OrientedCmp.eq_swap, isLE_compare_total p q,
    Std.TransCmp.isLE_trans, p.startsWith_refl, isLE_compare_of_startsWith, startsWith_of_between,
    compare_resolve q⟩

/-- What comes between `/a/b` and `/a/d` belongs to the subtree of `/a`, as `/a/c` does, and `/a`
comes before it. From `/a`, `b` and `c` lead to paths in their own order. -/
theorem subtrees_are_stretches_between :
    startsWith ⟨true, ["a", "c"]⟩ ⟨true, ["a"]⟩ = true ∧
      (compare (⟨true, ["a"]⟩ : Path) ⟨true, ["a", "d"]⟩).isLE ∧
      compare (resolve ⟨true, ["a"]⟩ ⟨false, ["b"]⟩)
        (resolve ⟨true, ["a"]⟩ ⟨false, ["c"]⟩) = .lt := by
  obtain ⟨-, -, -, -, -, hleast, hbetween, -⟩ := subtrees_are_stretches ⟨true, ["a"]⟩
    ⟨true, ["a", "b"]⟩ ⟨true, ["a", "c"]⟩ ⟨true, ["a", "d"]⟩
  obtain ⟨-, -, -, htrans, -, -, -, -⟩ := subtrees_are_stretches ⟨true, ["a"]⟩
    ⟨true, ["a", "b"]⟩ ⟨true, ["a", "d"]⟩ root
  obtain ⟨-, -, -, -, -, -, -, hkept⟩ := subtrees_are_stretches root ⟨true, ["a"]⟩ ⟨false, ["b"]⟩
    ⟨false, ["c"]⟩
  exact ⟨hbetween rfl rfl (by decide) (by decide), htrans (hleast rfl) (by decide),
    (hkept rfl rfl).trans (by decide)⟩

end Path
end LayeredStore
