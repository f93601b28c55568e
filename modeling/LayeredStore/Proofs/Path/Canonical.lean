import LayeredStore.Proofs.Path.Ways

/-!
# Normal forms are canonical

Whatever is put on a stack, its normal form may be put there instead. So each of two joined paths
may be normalized before they are joined. Main statement: normalization makes a normal form of
every path, changes exactly the paths that are none, and gives a joined path the normal form of the
joined normal forms.
-/

namespace LayeredStore.Path

/-- No `.` is left in a normal form. -/
private theorem IsNormal.here_notMem {segments : List String} (h : IsNormal segments) :
    here ∉ segments := by
  obtain ⟨ups, names, rfl, hnames⟩ := h
  intro hmem
  rcases List.mem_append.mp hmem with hups | hname
  · exact absurd (List.eq_of_mem_replicate hups) (by decide)
  · exact (hnames here hname).1 rfl

/-- A stack without `.` that takes one more segment is put on another stack as the stack is, and
then the segment. -/
private theorem foldl_climb_reverse_climb (stack : List String) {top : List String} (h : here ∉ top)
    (segment : String) :
    (climb top segment).reverse.foldl climb stack =
      climb (top.reverse.foldl climb stack) segment := by
  have hpush : (segment :: top).reverse.foldl climb stack =
      climb (top.reverse.foldl climb stack) segment := by
    rw [List.reverse_cons, List.foldl_append]
    rfl
  by_cases hhere : segment = here
  · simp [climb, hhere]
  · by_cases hup : segment = up
    · subst segment
      cases top with
      | nil => rfl
      | cons name below =>
        by_cases hname : name = up
        · rw [← hpush]
          simp [climb, hhere, hname]
        · -- the name that `..` takes away was put on the other stack just before
          have hisName : IsName name := ⟨fun he => h (by simp [he]), hname⟩
          have hput := foldl_climb_of_isName (List.forall_mem_singleton.mpr hisName)
            (below.reverse.foldl climb stack)
          rw [climb_up_of_isName hisName, List.reverse_cons, List.foldl_append, hput]
          exact (climb_up_of_isName hisName _).symm
    · rw [← hpush]
      simp [climb, hhere, hup]

/-- A path and its normal form do the same to every stack. -/
private theorem foldl_climb_normalize (p : Path) (stack : List String) :
    p.normalize.segments.foldl climb stack = p.segments.foldl climb stack := by
  obtain ⟨absolute, segments⟩ := p
  induction segments using List.reverseRecOn with
  | nil => rfl
  | append_singleton segments segment ih =>
    have hnormal := (isNormal_normalize ⟨absolute, segments⟩).here_notMem
    calc (normalize ⟨absolute, segments ++ [segment]⟩).segments.foldl climb stack
        = (climb (segments.foldl climb []) segment).reverse.foldl climb stack := by
          rw [normalize, List.foldl_append]
          rfl
      _ = climb ((segments.foldl climb []).reverse.foldl climb stack) segment :=
          foldl_climb_reverse_climb stack (by simpa [normalize] using hnormal) segment
      _ = (segments ++ [segment]).foldl climb stack := by
          rw [List.foldl_append]
          exact congrArg (climb · segment) ih

/-- A second normalization changes nothing. -/
theorem normalize_normalize (p : Path) : p.normalize.normalize = p.normalize := by
  rw [normalize, foldl_climb_normalize]
  rfl

/-- Normal forms, and nothing else, are left as they are by normalization. -/
theorem normalize_eq_self_iff {p : Path} : p.normalize = p ↔ IsNormal p.segments := by
  constructor
  · intro h
    rw [← h]
    exact isNormal_normalize p
  · rintro ⟨ups, names, hsegments, hnames⟩
    have hstack := foldl_climb_of_isNormal ups 0 hnames
    rw [List.replicate_zero, Nat.zero_add] at hstack
    refine (Path.mk.injEq ..).mpr ⟨rfl, ?_⟩
    rw [hsegments, hstack]
    simp

/-- Two paths may be normalized before they are joined. -/
theorem normalize_resolve (p q : Path) :
    (p.resolve q).normalize = (p.normalize.resolve q.normalize).normalize := by
  cases hflag : q.absolute with
  | true => simp [resolve, hflag, absolute_normalize, normalize_normalize]
  | false =>
    simp only [resolve, absolute_normalize, hflag, Bool.false_eq_true, if_false]
    refine (Path.mk.injEq ..).mpr ⟨rfl, ?_⟩
    simp only [List.foldl_append, foldl_climb_normalize]

/-- **Normal forms are canonical.** Normalization keeps the absolute flag and leaves some `..` and
names after them; it leaves a path as it is exactly if the path has that form; and joining two
paths and joining their normal forms gives paths of one normal form. -/
theorem normal_forms_are_canonical (p q : Path) :
    p.normalize.absolute = p.absolute ∧ IsNormal p.normalize.segments ∧
      (p.normalize = p ↔ IsNormal p.segments) ∧
      (p.resolve q).normalize = (p.normalize.resolve q.normalize).normalize :=
  ⟨absolute_normalize p, isNormal_normalize p, normalize_eq_self_iff, normalize_resolve p q⟩

end LayeredStore.Path
