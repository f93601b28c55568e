import LayeredStore.Path.Arithmetic

/-!
# The way to a child

One more segment at the end of a path changes its normal form, and the way to it from any other
path, by at most one segment at the end: a name is added, or `..` takes one away. Main statement:
the ways from a base to a path and to its child are adjacent, so whatever lies above the end of
the second lies above or at the end of the first.
-/

namespace LayeredStore.Path

/-- Two lists of segments of which one has at most one segment more, at its end. -/
def Adjacent (a b : List String) : Prop :=
  a = b ∨ (∃ x, b = a ++ [x]) ∨ ∃ x, a = b ++ [x]

namespace Adjacent

variable {a b : List String}

theorem symm (h : Adjacent a b) : Adjacent b a := by
  rcases h with rfl | h | h
  · exact .inl rfl
  · exact .inr (.inr h)
  · exact .inr (.inl h)

/-- The same beginning in front of both changes nothing. -/
theorem append_left (h : Adjacent a b) (first : List String) :
    Adjacent (first ++ a) (first ++ b) := by
  rcases h with rfl | ⟨x, rfl⟩ | ⟨x, rfl⟩
  · exact .inl rfl
  · exact .inr (.inl ⟨x, by rw [List.append_assoc]⟩)
  · exact .inr (.inr ⟨x, by rw [List.append_assoc]⟩)

/-- What begins one of them without being all of it begins the other. -/
theorem isPrefix (h : Adjacent a b) {c : List String} (hc : c <+: b) (hne : c ≠ b) : c <+: a := by
  rcases h with rfl | ⟨x, rfl⟩ | ⟨x, rfl⟩
  · exact hc
  · exact (List.prefix_concat_iff.mp hc).resolve_left hne
  · exact hc.trans (List.prefix_append b [x])

end Adjacent

/-! ### Normal forms -/

/-- One more segment changes a normalized stack by at most one segment at its top. -/
private theorem adjacent_climb (stack : List String) (segment : String) :
    Adjacent stack.reverse (climb stack segment).reverse := by
  unfold climb
  split
  · exact .inl rfl
  · split
    · cases stack with
      | nil => exact .inr (.inl ⟨up, rfl⟩)
      | cons top below =>
        simp only
        split
        · exact .inr (.inl ⟨up, by rw [List.reverse_cons]⟩)
        · exact .inr (.inr ⟨top, by rw [List.reverse_cons]⟩)
    · exact .inr (.inl ⟨segment, by rw [List.reverse_cons]⟩)

/-- The normal form of a child is adjacent to that of its parent. -/
private theorem adjacent_normalize_child (p : Path) (name : String) :
    Adjacent p.normalize.segments (p.child name).normalize.segments := by
  simp only [normalize, child, List.foldl_append, List.foldl_cons, List.foldl_nil]
  exact adjacent_climb _ name

/-- Whether a segment is a name, neither `.` nor `..`. -/
def IsName (segment : String) : Prop := segment ≠ here ∧ segment ≠ up

/-- Names are put on a stack one after the other. -/
theorem foldl_climb_of_isName {names : List String} (h : ∀ name ∈ names, IsName name)
    (stack : List String) : names.foldl climb stack = names.reverse ++ stack := by
  induction names generalizing stack with
  | nil => rfl
  | cons name names ih =>
    obtain ⟨⟨hhere, hup⟩, hnames⟩ := List.forall_mem_cons.mp h
    simp [ih hnames, climb, hhere, hup]

/-- Names are left as they are by normalization. -/
theorem normalize_of_isName {p : Path} (h : ∀ segment ∈ p.segments, IsName segment) :
    p.normalize = p := by
  simp [normalize, foldl_climb_of_isName h]

/-! ### Ways -/

/-- What both lists begin with is left out of the way. -/
theorem steps_cons_cons (a : String) (base target : List String) :
    steps (a :: base) (a :: target) = steps base target := by
  simp [steps, dropShared]

/-- The same for all that both lists begin with. -/
theorem steps_append_append (shared base target : List String) :
    steps (shared ++ base) (shared ++ target) = steps base target := by
  induction shared with
  | nil => rfl
  | cons a shared ih => rw [List.cons_append, List.cons_append, steps_cons_cons, ih]

/-- From a list of segments to one that continues it the steps are the continuation. -/
theorem steps_append (base rest : List String) : steps base (base ++ rest) = rest := by
  have h := steps_append_append base [] rest
  rwa [List.append_nil] at h

/-- From a list of segments to itself there are no steps. -/
@[simp] theorem steps_self (base : List String) : steps base base = [] := by
  have h := steps_append base []
  rwa [List.append_nil] at h

/-- One more segment at the end of the target changes the way by at most one segment at the end. -/
private theorem adjacent_steps_append (base target : List String) (segment : String) :
    Adjacent (steps base target) (steps base (target ++ [segment])) := by
  induction target generalizing base with
  | nil =>
    cases base with
    | nil => exact .inr (.inl ⟨segment, rfl⟩)
    | cons a base =>
      by_cases ha : a = segment
      · -- the way led out of `a` and now stops in it
        subst ha
        refine .inr (.inr ⟨up, ?_⟩)
        rw [List.nil_append, steps_cons_cons]
        cases base <;> simp [steps, dropShared, List.replicate_succ']
      · exact .inr (.inl ⟨segment, by simp [steps, dropShared, ha]⟩)
  | cons b target ih =>
    cases base with
    | nil => exact .inr (.inl ⟨segment, rfl⟩)
    | cons a base =>
      by_cases ha : a = b
      · subst ha
        rw [List.cons_append, steps_cons_cons, steps_cons_cons]
        exact ih base
      · exact .inr (.inl ⟨segment, by simp [steps, dropShared, ha]⟩)

/-- The ways from a base to two adjacent lists are adjacent. -/
private theorem Adjacent.steps {a b : List String} (h : Adjacent a b) (base : List String) :
    Adjacent (Path.steps base a) (Path.steps base b) := by
  rcases h with rfl | ⟨x, rfl⟩ | ⟨x, rfl⟩
  · exact .inl rfl
  · exact adjacent_steps_append base a x
  · exact (adjacent_steps_append base b x).symm

/-- The way to a path and the way to its child are adjacent. -/
theorem adjacent_between_child (base p : Path) (name : String) :
    Adjacent (base.between p).segments (base.between (p.child name)).segments :=
  (adjacent_normalize_child p name).steps base.normalize.segments

/-- Among paths of names the way to a path below the base is what comes after the base. -/
theorem segments_between_append {base : Path} {rest : List String}
    (h : ∀ segment ∈ base.segments ++ rest, IsName segment) :
    (base.between ⟨base.absolute, base.segments ++ rest⟩).segments = rest := by
  have hbase := normalize_of_isName (p := base) fun x hx => h x (List.mem_append_left rest hx)
  have hpath := normalize_of_isName (p := ⟨base.absolute, base.segments ++ rest⟩) h
  simp only [between, hbase, hpath]
  exact steps_append base.segments rest

end LayeredStore.Path
