import LayeredStore.Path.Arithmetic

/-!
# Journeys

A journey applies path operations one after the other to a current path. A step that yields no
path leaves the current one where it is.
-/

namespace LayeredStore.Path

/-- One step of a journey. -/
inductive Step
  | parent
  | normalize
  | resolve (other : Path)
  | resolveSibling (other : Path)
  | relativize (target : Path)
  | relativizeFrom (base : Path)
  | subpath (start stop : Nat)

/-- What a step computes: a path, no path, or a fault. -/
inductive Arrival
  | path (p : Path)
  | nowhere
  | fault (f : Fault)

private def Arrival.ofExcept : Except Fault Path → Arrival
  | .ok p => .path p
  | .error f => .fault f

/-- A computation arrives at a path exactly if it succeeds with this path. -/
theorem Arrival.ofExcept_eq_path_iff {r : Except Fault Path} {p : Path} :
    ofExcept r = .path p ↔ r = .ok p := by
  cases r <;> simp [ofExcept]

/-- What `step` computes from `p`. -/
def Step.apply (step : Step) (p : Path) : Arrival :=
  match step with
  | .parent => match p.parent? with
    | some q => .path q
    | none => .nowhere
  | .normalize => .path p.normalize
  | .resolve other => .path (p.resolve other)
  | .resolveSibling other => .path (p.resolveSibling other)
  | .relativize target => .ofExcept (p.relativize target)
  | .relativizeFrom base => .ofExcept (base.relativize p)
  | .subpath start stop => .ofExcept (p.subpath start stop)

/-- The current path after an arrival at `a`. -/
def Arrival.orStay (a : Arrival) (p : Path) : Path :=
  match a with
  | .path q => q
  | .nowhere | .fault _ => p

/-- All arrivals of a journey from `p`, and where it ends. -/
def journey (p : Path) : List Step → List Arrival × Path
  | [] => ([], p)
  | step :: rest =>
    let a := step.apply p
    let (arrivals, final) := journey (a.orStay p) rest
    (a :: arrivals, final)

end LayeredStore.Path
