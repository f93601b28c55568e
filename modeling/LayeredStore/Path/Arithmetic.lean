import LayeredStore.Path.Basic

/-!
# Path arithmetic

Taking paths apart, joining them and leading from one to another. A segment `.` stands for the
folder itself and `..` for the one above; only normalization gives them this meaning, every
other operation takes segments as they are.
-/

namespace LayeredStore.Path

/-- Why a computed path does not exist. -/
inductive Fault
  | mixedAbsoluteness (base target : Path)
  | outOfBounds (path : Path) (start stop : Nat)
deriving DecidableEq

/-- The wording of a fault. -/
def Fault.message : Fault → String
  | .mixedAbsoluteness base target =>
    "cannot relativize " ++ target.text ++ " against " ++ base.text ++ ": absoluteness differs"
  | .outOfBounds path start stop =>
    "segment range " ++ toString start ++ ".." ++ toString stop ++ " out of bounds for " ++
      path.text

/-- The segment that stands for the folder it is in. -/
def here : String := "."

/-- The segment that stands for the folder above. -/
def up : String := ".."

/-- The relative path of the segments from `start` up to but not including `stop`. -/
def subpath (p : Path) (start stop : Nat) : Except Fault Path :=
  if start ≤ stop ∧ stop ≤ p.length then
    .ok ⟨false, (p.segments.take stop).drop start⟩
  else .error (.outOfBounds p start stop)

/-- One more segment on a normalized stack, whose top comes first: `.` adds nothing, and `..`
takes the top away unless there is none or it is itself a `..`. -/
def climb (stack : List String) (segment : String) : List String :=
  if segment = here then stack
  else if segment = up then
    match stack with
    | [] => [up]
    | top :: below => if top = up then up :: stack else below
  else segment :: stack

/-- The path with every `.` left out and every `..` carried out as far as possible. At the top
of the path a `..` stays, of an absolute path too. -/
def normalize (p : Path) : Path := ⟨p.absolute, (p.segments.foldl climb []).reverse⟩

/-- `q` taken from `p`: appended if it is relative, alone if it is absolute. -/
def resolve (p q : Path) : Path :=
  if q.absolute then q else ⟨p.absolute, p.segments ++ q.segments⟩

/-- `q` taken from the parent of `p`, or `q` alone if `p` has no parent. -/
def resolveSibling (p q : Path) : Path :=
  match p.parent? with
  | some parent => parent.resolve q
  | none => q

/-- Both lists without the beginning that they share. -/
def dropShared : List String → List String → List String × List String
  | a :: as, b :: bs => if a = b then dropShared as bs else (a :: as, b :: bs)
  | as, bs => (as, bs)

/-- The segments that lead from one list of segments to another: first upwards out of what is
not shared, then down. -/
def steps (base target : List String) : List String :=
  let (ascent, descent) := dropShared base target
  List.replicate ascent.length up ++ descent

/-- The relative path that leads from `base` to `target`, both normalized first, where both are
absolute or both relative. -/
def between (base target : Path) : Path :=
  ⟨false, steps base.normalize.segments target.normalize.segments⟩

/-- The relative path that leads from `base` to `target`; there is none between an absolute and
a relative path. -/
def relativize (base target : Path) : Except Fault Path :=
  if base.absolute = target.absolute then .ok (base.between target)
  else .error (.mixedAbsoluteness base target)

/-- Normalization keeps the absolute flag. -/
theorem absolute_normalize (p : Path) : p.normalize.absolute = p.absolute := rfl

/-- A path with the same absoluteness can always be reached. -/
theorem relativize_eq_ok {base target : Path} (h : base.absolute = target.absolute) :
    base.relativize target = .ok (base.between target) := by
  simp [relativize, h]

end LayeredStore.Path
