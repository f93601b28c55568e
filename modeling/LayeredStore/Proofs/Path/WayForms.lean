import LayeredStore.Proofs.Path.Ways

/-!
# What a way looks like

A way is made of the end of a normal form with some `..` in front, so it is in normal form itself.
Main statement: between paths of equal absoluteness the way is a relative path in normal form that
the two normal forms determine; it is empty exactly if they are one, and it leads to the target
exactly if the base leads up no further than the target does.
-/

namespace LayeredStore.Path

namespace IsNormal

variable {segments : List String}

/-- Some `..` in front of a normal form are part of it. -/
private theorem replicate_append (h : IsNormal segments) (ups : Nat) :
    IsNormal (List.replicate ups up ++ segments) := by
  obtain ⟨more, names, rfl, hnames⟩ := h
  refine ⟨ups + more, names, ?_, hnames⟩
  rw [← List.append_assoc, List.replicate_append_replicate]

/-- The end of a normal form is in normal form. -/
private theorem drop (h : IsNormal segments) (n : Nat) : IsNormal (segments.drop n) := by
  obtain ⟨ups, names, rfl, hnames⟩ := h
  refine ⟨ups - n, names.drop (n - ups), ?_, fun name hname => ?_⟩
  · rw [List.drop_append, List.drop_replicate, List.length_replicate]
  · exact hnames name (List.mem_of_mem_drop hname)

end IsNormal

/-- The steps from anywhere to a normal form are in normal form. -/
private theorem isNormal_steps (base : List String) {target : List String} (h : IsNormal target) :
    IsNormal (steps base target) := by
  obtain ⟨shared, rest, rest', -, rfl, hsteps⟩ := exists_steps_eq base target
  have hrest := h.drop shared.length
  rw [List.drop_left] at hrest
  rw [hsteps]
  exact hrest.replicate_append rest.length

/-- Only from a list of segments to itself there are no steps. -/
private theorem steps_eq_nil_iff {base target : List String} :
    steps base target = [] ↔ base = target := by
  constructor
  · intro h
    obtain ⟨shared, rest, rest', rfl, rfl, hsteps⟩ := exists_steps_eq base target
    rw [hsteps, List.append_eq_nil_iff, List.replicate_eq_nil_iff] at h
    rw [List.eq_nil_of_length_eq_zero h.1, h.2]
  · rintro rfl
    exact steps_self base

/-- The way between two paths of equal absoluteness is empty exactly if they have one normal
form. -/
theorem segments_between_eq_nil_iff {base target : Path} (h : base.absolute = target.absolute) :
    (base.between target).segments = [] ↔ base.normalize = target.normalize := by
  have hflag : base.normalize.absolute = target.normalize.absolute := h
  cases hbase : base.normalize with
  | mk absolute segments =>
    cases htarget : target.normalize with
    | mk absolute' segments' =>
      rw [hbase, htarget] at hflag
      rw [between, hbase, htarget, steps_eq_nil_iff, Path.mk.injEq]
      exact ⟨fun hsegments => ⟨hflag, hsegments⟩, And.right⟩

/-- Paths of one normal form are of equal absoluteness. -/
private theorem absolute_eq_of_normalize_eq {p q : Path} (h : p.normalize = q.normalize) :
    p.absolute = q.absolute := by
  rw [← absolute_normalize p, h, absolute_normalize]

/-- Normal forms determine the way. -/
theorem between_congr {base base' target target' : Path}
    (hbase : base'.normalize = base.normalize) (htarget : target'.normalize = target.normalize) :
    base'.between target' = base.between target := by
  rw [between, between, hbase, htarget]

/-- The way leads to its target exactly if the base leads up no further. -/
theorem normalize_resolve_between_eq_iff {base target : Path}
    (h : base.absolute = target.absolute) :
    (base.resolve (base.between target)).normalize = target.normalize ↔
      base.rise ≤ target.rise := by
  have hend := segments_normalize_resolve_between base target
  constructor
  · intro hsame
    rw [hsame] at hend
    have hlength := congrArg List.length hend
    rw [List.length_append, List.length_replicate] at hlength
    omega
  · intro hle
    refine (Path.mk.injEq ..).mpr ⟨h, ?_⟩
    rw [Nat.sub_eq_zero_of_le hle] at hend
    exact hend

/-- **Ways are in normal form.** Between two paths of equal absoluteness the way is a relative path
of some `..` and names after them. It is empty exactly if the two have one normal form, other paths
of the same normal forms have the same way, and from the base it leads to the target exactly if the
normal form of the base begins with at most as many `..` as that of the target. -/
theorem ways_are_normal {base target : Path} (h : base.absolute = target.absolute) :
    ∃ way, base.relativize target = .ok way ∧
      way.absolute = false ∧ IsNormal way.segments ∧
      (way.segments = [] ↔ base.normalize = target.normalize) ∧
      (∀ base' target' : Path, base'.normalize = base.normalize →
        target'.normalize = target.normalize → base'.relativize target' = .ok way) ∧
      ((base.resolve way).normalize = target.normalize ↔ base.rise ≤ target.rise) := by
  have hnormal := isNormal_steps base.normalize.segments (isNormal_normalize target)
  refine ⟨base.between target, relativize_eq_ok h, rfl, hnormal, segments_between_eq_nil_iff h, ?_,
    normalize_resolve_between_eq_iff h⟩
  intro base' target' hbase htarget
  have hflag : base'.absolute = target'.absolute :=
    (absolute_eq_of_normalize_eq hbase).trans (h.trans (absolute_eq_of_normalize_eq htarget).symm)
  rw [relativize_eq_ok hflag, between_congr hbase htarget]

/-- From below a folder above to a name beside it: up once, although the texts suggest more. -/
theorem ways_are_normal_detour :
    let base : Path := ⟨false, ["..", "a", ".", "b"]⟩
    let target : Path := ⟨false, ["..", "a", "c", "..", "x"]⟩
    let way : Path := ⟨false, ["..", "x"]⟩
    base.absolute = target.absolute ∧ base.relativize target = .ok way ∧
      IsNormal way.segments ∧ base.normalize ≠ target.normalize ∧
      (⟨false, ["..", "a", "b"]⟩ : Path).relativize ⟨false, ["..", "a", "x"]⟩ = .ok way ∧
      (base.resolve way).normalize = target.normalize := by
  intro base target way
  have hflag : base.absolute = target.absolute := rfl
  obtain ⟨_, hway, -, hnormal, hempty, hcongr, hend⟩ := ways_are_normal hflag
  obtain rfl : way = _ := Except.ok.inj hway
  refine ⟨hflag, hway, hnormal, fun hsame => ?_, ?_, hend.mpr (by decide)⟩
  · exact absurd (hempty.mpr hsame) (by decide)
  · exact hcongr _ _ (by decide) (by decide)

end LayeredStore.Path
