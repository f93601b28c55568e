import LayeredStore.Path.Arithmetic
import LayeredStore.Text.Quoted
import LayeredStore.Tree.Graph

/-!
# Directories

A root node makes the graph below it a directory, in which nodes are found by absolute paths.
What changes the directory marks the nodes concerned and all above them. Clients know a directory
as a `NodeTree`.
-/

namespace LayeredStore.Tree

/-- What the root node cannot be. -/
inductive RootUse
  | moveTarget
  | moved
  | deleted
deriving DecidableEq

/-- Why a directory operation fails. -/
inductive Fault
  | cycle (c : Cycle)
  | notFound (path : Path)
  | relative (path : Path)
  | root (use : RootUse)
deriving DecidableEq

/-- The wording of a fault. -/
def Fault.message : Fault → String
  | .cycle c => "cannot attach " ++ Text.quoted c.child ++ " under " ++ Text.quoted c.parent ++
      ": it is an ancestor of the new parent"
  | .notFound path => "no cached node at " ++ path.text
  | .relative path => "tree paths are absolute, got " ++ path.text
  | .root .moveTarget => "the root node cannot be a move target"
  | .root .moved => "the root node cannot be moved"
  | .root .deleted => "the root node cannot be deleted"

namespace Graph

variable {α : Type}

/-- The node at an absolute path, reached segment by segment; relative paths lead nowhere. -/
def lookup (g : Graph α) (root : NodeId) (p : Path) : Option NodeId :=
  if p.absolute then p.segments.foldlM g.child? root else none

/-- The node above the place that a path names. -/
def lookupParent (g : Graph α) (root : NodeId) (p : Path) : Option NodeId :=
  p.parent?.bind (g.lookup root)

/-- Fails for a relative path. -/
def requireAbsolute (p : Path) : Except Fault Unit :=
  if p.absolute then .ok () else .error (.relative p)

/-- The child of a given name, made if it is missing. -/
def childOrNew (g : Graph α) (id : NodeId) (name : String) : NodeId × Graph α :=
  match g.child? id name with
  | some child => (child, g)
  | none =>
    let (child, grown) := g.create name none
    match grown.attach id name child with
    | .ok (_, joined) => (child, joined)
    | .error _ => (child, grown)

/-- The node at an absolute path, made with all missing nodes above it. -/
def getOrCreate (g : Graph α) (root : NodeId) (p : Path) : Except Fault (NodeId × Graph α) := do
  requireAbsolute p
  return p.segments.foldl (fun (id, g) name => g.childOrNew id name) (root, g)

/-- Gives the node at a path a payload, making it if it is missing. -/
def insert (g : Graph α) (root : NodeId) (p : Path) (payload : α) :
    Except Fault (NodeId × Graph α) := do
  let (id, grown) ← g.getOrCreate root p
  return (id, grown.update id payload)

/-- Marks the node at a path and all above it, if there is one. -/
def markDirtyAt (g : Graph α) (root : NodeId) (p : Path) : Option (Graph α) :=
  (g.lookup root p).map g.markDirty

/-- Moves a node from one path to another, and gives back the node that was there. The parent of
the target must exist. The parent that the node leaves is marked, then the node at its new
place. -/
def move (g : Graph α) (root : NodeId) (source target : Path) :
    Except Fault (Option NodeId × Graph α) := do
  requireAbsolute source
  requireAbsolute target
  let name ← target.name?.elim (.error (.root .moveTarget)) .ok
  let node ← (g.lookup root source).elim (.error (.notFound source)) .ok
  let oldParent ← (g.parent? node).elim (.error (.root .moved)) .ok
  let newParent ← (g.lookupParent root target).elim (.error (.notFound target)) .ok
  let (replaced, joined) ← (g.attach newParent name node).mapError .cycle
  return (replaced, (joined.markDirty oldParent).markDirty node)

/-- Takes the node at a path out of the directory and marks the nodes that were above it. -/
def delete (g : Graph α) (root : NodeId) (p : Path) : Except Fault (NodeId × Graph α) := do
  requireAbsolute p
  let name ← p.name?.elim (.error (.root .deleted)) .ok
  let parent ← (g.lookupParent root p).elim (.error (.notFound p)) .ok
  let (child, rest) ← (g.detach parent name).elim (.error (.notFound p)) .ok
  return (child, rest.markDirty parent)

end Graph
end LayeredStore.Tree
