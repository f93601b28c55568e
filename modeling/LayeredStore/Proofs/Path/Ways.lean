import LayeredStore.Proofs.Path.Steps
import Mathlib.Data.List.Induction

/-!
# Following a way

In normal form a path leads up first, by some `..`, and then down along names. Main statement:
between paths of equal absoluteness there always is a way, and from the base it leads to the target
exactly if the base leads up no further than the target does. Otherwise it ends too far up, by
twice as much as the base leads up further.
-/

namespace LayeredStore.Path

/-! ### Normal forms -/

/-- Whether segments are some `..` and names after them. -/
def IsNormal (segments : List String) : Prop :=
  ∃ (ups : Nat) (names : List String),
    segments = List.replicate ups up ++ names ∧ ∀ name ∈ names, IsName name

/-- A `..` takes a name away from the top of a stack. -/
theorem climb_up_of_isName {top : String} (h : IsName top) (below : List String) :
    climb (top :: below) up = below := by
  have hhere : up ≠ here := by decide
  simp [climb, hhere, h.2]

/-- On nothing but `..` every further `..` stays. -/
theorem foldl_climb_replicate_up (m n : Nat) :
    (List.replicate m up).foldl climb (List.replicate n up) = List.replicate (n + m) up := by
  induction m generalizing n with
  | zero => rfl
  | succ m ih =>
    have hclimb : climb (List.replicate n up) up = List.replicate (n + 1) up := by
      cases n <;> rfl
    rw [List.replicate_succ, List.foldl_cons, hclimb, ih, Nat.add_right_comm, Nat.add_assoc]

/-- As many `..` as there are names on top of a stack take all of them away. -/
private theorem foldl_climb_replicate_length {names : List String} (h : ∀ name ∈ names, IsName name)
    (stack : List String) :
    (List.replicate names.length up).foldl climb (names.reverse ++ stack) = stack := by
  induction names using List.reverseRecOn with
  | nil => rfl
  | append_singleton names name ih =>
    rw [List.forall_mem_append, List.forall_mem_singleton] at h
    rw [List.length_append, List.length_singleton, List.replicate_succ, List.foldl_cons,
      List.reverse_concat, List.cons_append, climb_up_of_isName h.2]
    exact ih h.1

/-- Segments in normal form are put on a stack of `..` as they are. -/
theorem foldl_climb_of_isNormal (ups n : Nat) {names : List String}
    (h : ∀ name ∈ names, IsName name) :
    (List.replicate ups up ++ names).foldl climb (List.replicate n up) =
      names.reverse ++ List.replicate (n + ups) up := by
  rw [List.foldl_append, foldl_climb_replicate_up, foldl_climb_of_isName h]

/-- One more segment keeps a stack in normal form. -/
private theorem isNormal_climb {stack : List String} (h : IsNormal stack.reverse)
    (segment : String) : IsNormal (climb stack segment).reverse := by
  obtain ⟨ups, names, hstack, hnames⟩ := h
  obtain rfl : stack = names.reverse ++ List.replicate ups up := by
    simpa using congrArg List.reverse hstack
  by_cases hname : IsName segment
  · refine ⟨ups, names ++ [segment], ?_, ?_⟩
    · simp [climb, hname.1, hname.2]
    · exact List.forall_mem_append.mpr ⟨hnames, by simpa using hname⟩
  · by_cases hhere : segment = here
    · exact ⟨ups, names, by simp [climb, hhere], hnames⟩
    · obtain rfl : segment = up := by
        by_contra hup
        exact hname ⟨hhere, hup⟩
      cases names using List.reverseRecOn with
      | nil =>
        have hclimb := foldl_climb_replicate_up 1 ups
        exact ⟨ups + 1, [], by simpa using congrArg List.reverse hclimb, by simp⟩
      | append_singleton names name =>
        rw [List.forall_mem_append, List.forall_mem_singleton] at hnames
        refine ⟨ups, names, ?_, hnames.1⟩
        rw [List.reverse_concat, List.cons_append, climb_up_of_isName hnames.2]
        simp

/-- What normalization leaves is in normal form. -/
theorem isNormal_normalize (p : Path) : IsNormal p.normalize.segments := by
  have hstack (segments stack : List String) (h : IsNormal stack.reverse) :
      IsNormal (segments.foldl climb stack).reverse := by
    induction segments generalizing stack with
    | nil => exact h
    | cons segment segments ih => exact ih _ (isNormal_climb h segment)
  exact hstack p.segments [] ⟨0, [], rfl, by simp⟩

/-- By how many folders a path leads up out of where it is taken from. -/
def rise (p : Path) : Nat := (p.normalize.segments.takeWhile (· = up)).length

/-- The normal form of a path leads up by its rise, and then down along names. -/
private theorem exists_normalize_eq (p : Path) :
    ∃ names, p.normalize.segments = List.replicate p.rise up ++ names ∧
      ∀ name ∈ names, IsName name := by
  obtain ⟨ups, names, hsegments, hnames⟩ := isNormal_normalize p
  have hfirst : names.takeWhile (· = up) = [] := by
    cases names with
    | nil => rfl
    | cons name names => simp [(hnames name (by simp)).2]
  have hrise : p.rise = ups := by
    rw [rise, hsegments, List.takeWhile_append_of_pos (by simp), hfirst]
    simp
  exact ⟨names, hrise ▸ hsegments, hnames⟩

/-! ### Ways between normal forms -/

/-- The way from one list to another leaves what the two share where it is. -/
theorem exists_steps_eq (base target : List String) :
    ∃ shared rest rest', base = shared ++ rest ∧ target = shared ++ rest' ∧
      steps base target = List.replicate rest.length up ++ rest' := by
  induction base generalizing target with
  | nil => exact ⟨[], [], target, rfl, rfl, by simp [steps, dropShared]⟩
  | cons b base ih =>
    cases target with
    | nil => exact ⟨[], b :: base, [], rfl, rfl, by simp [steps, dropShared]⟩
    | cons c target =>
      by_cases hsame : b = c
      · subst c
        obtain ⟨shared, rest, rest', rfl, rfl, hsteps⟩ := ih target
        exact ⟨b :: shared, rest, rest', rfl, rfl, by rw [steps_cons_cons, hsteps]⟩
      · exact ⟨[], b :: base, c :: target, rfl, rfl, by simp [steps, dropShared, hsame]⟩

variable {names names' : List String}

/-- A way down, or up over names only, leads from one normal form to the other. -/
private theorem foldl_climb_steps_of_le (n d : Nat) (h : ∀ name ∈ names, IsName name)
    (h' : ∀ name ∈ names', IsName name) :
    (steps names (List.replicate d up ++ names')).foldl climb
        (names.reverse ++ List.replicate n up) =
      names'.reverse ++ List.replicate (n + d) up := by
  obtain ⟨shared, rest, rest', rfl, htarget, hsteps⟩ :=
    exists_steps_eq names (List.replicate d up ++ names')
  rw [List.forall_mem_append] at h
  calc (steps (shared ++ rest) (List.replicate d up ++ names')).foldl climb
        ((shared ++ rest).reverse ++ List.replicate n up)
      = rest'.foldl climb (shared.reverse ++ List.replicate n up) := by
        rw [hsteps, List.foldl_append, List.reverse_append, List.append_assoc,
          foldl_climb_replicate_length h.2]
    _ = (shared ++ rest').foldl climb (List.replicate n up) := by
        rw [List.foldl_append, foldl_climb_of_isName h.1]
    _ = names'.reverse ++ List.replicate (n + d) up := by
        rw [← htarget, foldl_climb_of_isNormal d n h']

/-- A way up over `..` leads up once more by each of them. -/
private theorem foldl_climb_steps_of_lt (n d : Nat) (h : ∀ name ∈ names, IsName name)
    (h' : ∀ name ∈ names', IsName name) :
    (steps (List.replicate (d + 1) up ++ names) names').foldl climb
        (names.reverse ++ List.replicate n up) =
      names'.reverse ++ List.replicate (n + (d + 1)) up := by
  obtain ⟨shared, rest, rest', hbase, rfl, hsteps⟩ :=
    exists_steps_eq (List.replicate (d + 1) up ++ names) names'
  -- a name is no `..`, so nothing is shared
  obtain rfl : shared = [] := by
    cases shared with
    | nil => rfl
    | cons s shared =>
      obtain ⟨rfl, -⟩ : up = s ∧ _ := by simpa [List.replicate_succ] using hbase
      exact absurd rfl (h' up (by simp)).2
  rw [List.nil_append] at hbase hsteps h'
  have hlength : rest.length = names.length + (d + 1) := by
    rw [← hbase, List.length_append, List.length_replicate, Nat.add_comm]
  rw [List.nil_append, hsteps, hlength, ← List.replicate_append_replicate, List.foldl_append,
    List.foldl_append, foldl_climb_replicate_length h, foldl_climb_replicate_up,
    foldl_climb_of_isName h']

/-- The way from one normal form to another leads to the other, or too far up: by twice as much as
the first one leads up further. -/
private theorem foldl_climb_steps (i j : Nat) (h : ∀ name ∈ names, IsName name)
    (h' : ∀ name ∈ names', IsName name) :
    (steps (List.replicate i up ++ names) (List.replicate j up ++ names')).foldl climb
        (names.reverse ++ List.replicate i up) =
      names'.reverse ++ List.replicate (2 * (i - j) + j) up := by
  rcases Nat.lt_or_ge j i with hlt | hle
  · obtain ⟨d, rfl⟩ := Nat.exists_eq_add_of_lt hlt
    have hsum : 2 * (j + d + 1 - j) + j = j + d + 1 + (d + 1) := by omega
    have hbase : List.replicate (j + d + 1) up ++ names =
        List.replicate j up ++ (List.replicate (d + 1) up ++ names) := by
      rw [← List.append_assoc, List.replicate_append_replicate, Nat.add_assoc]
    rw [hsum, hbase, steps_append_append, foldl_climb_steps_of_lt _ d h h']
  · obtain ⟨d, rfl⟩ := Nat.exists_eq_add_of_le hle
    have hsum : 2 * (i - (i + d)) + (i + d) = i + d := by omega
    rw [hsum, ← List.replicate_append_replicate, List.append_assoc, steps_append_append,
      foldl_climb_steps_of_le i d h h', List.replicate_append_replicate]

/-- Where the way from one path to another leads from the first. -/
theorem segments_normalize_resolve_between (base target : Path) :
    (base.resolve (base.between target)).normalize.segments =
      List.replicate (2 * (base.rise - target.rise)) up ++ target.normalize.segments := by
  obtain ⟨names, hbase, hnames⟩ := base.exists_normalize_eq
  obtain ⟨names', htarget, hnames'⟩ := target.exists_normalize_eq
  have hstack : base.segments.foldl climb [] =
      names.reverse ++ List.replicate base.rise up := by
    simpa [normalize] using congrArg List.reverse hbase
  calc (base.resolve (base.between target)).normalize.segments
      = ((steps base.normalize.segments target.normalize.segments).foldl climb
          (base.segments.foldl climb [])).reverse := by
        rw [← List.foldl_append]
        rfl
    _ = List.replicate (2 * (base.rise - target.rise) + target.rise) up ++ names' := by
        rw [hstack, hbase, htarget, foldl_climb_steps _ _ hnames hnames']
        simp
    _ = List.replicate (2 * (base.rise - target.rise)) up ++ target.normalize.segments := by
        rw [htarget, ← List.append_assoc, List.replicate_append_replicate]

/-! ### Following a way -/

/-- **A way leads to its target unless the base leads up further.** Between paths of equal
absoluteness there always is a way. From the base it leads to the target exactly if the normal form
of the base begins with at most as many `..` as that of the target; in any case it ends above the
target by twice as many `..` as the base has more. -/
theorem ways_lead_to_target_iff {base target : Path} (h : base.absolute = target.absolute) :
    ∃ way, base.relativize target = .ok way ∧
      (base.resolve way).normalize = ⟨target.absolute,
        List.replicate (2 * (base.rise - target.rise)) up ++ target.normalize.segments⟩ ∧
      ((base.resolve way).normalize = target.normalize ↔ base.rise ≤ target.rise) := by
  have hend : (base.resolve (base.between target)).normalize = ⟨target.absolute,
      List.replicate (2 * (base.rise - target.rise)) up ++ target.normalize.segments⟩ := by
    refine (Path.mk.injEq ..).mpr ⟨?_, segments_normalize_resolve_between base target⟩
    rw [← h]
    rfl
  refine ⟨base.between target, relativize_eq_ok h, hend, ?_⟩
  rw [hend]
  constructor
  · intro hsame
    have hlength := congrArg (·.segments.length) hsame
    simp only [List.length_append, List.length_replicate] at hlength
    omega
  · intro hle
    rw [Nat.sub_eq_zero_of_le hle]
    rfl

/-- From two folders up and one down the way to a name one folder up ends two folders too far up. -/
theorem ways_lead_to_target_iff_upwards :
    let base : Path := ⟨false, ["..", "..", "a"]⟩
    let target : Path := ⟨false, ["..", "b"]⟩
    base.absolute = target.absolute ∧ ∃ way, base.relativize target = .ok way ∧
      (base.resolve way).normalize = ⟨false, ["..", "..", "..", "b"]⟩ ∧
      (base.resolve way).normalize ≠ target.normalize := by
  intro base target
  have hflag : base.absolute = target.absolute := rfl
  obtain ⟨way, hway, hend, hiff⟩ := ways_lead_to_target_iff hflag
  exact ⟨hflag, way, hway, hend.trans (by decide), fun hsame => absurd (hiff.mp hsame) (by decide)⟩

/-- It is not so that every way leads to its target. -/
theorem not_ways_lead_to_target : ¬ ∀ base target : Path, base.absolute = target.absolute →
    ∃ way, base.relativize target = .ok way ∧
      (base.resolve way).normalize = target.normalize := by
  intro h
  obtain ⟨way, hway, hend⟩ := h ⟨false, [".."]⟩ ⟨false, []⟩ rfl
  obtain rfl : (⟨false, [".."]⟩ : Path) = way := Except.ok.inj hway
  exact absurd hend (by decide)

end LayeredStore.Path
