import Std.Data.ExtTreeSet
import LayeredStore.Path.Basic

/-!
# The node graph

Nodes know their children by name and their parent by identity. Children are held, a parent is
only pointed at: a node lives while it is held from outside or is a child of a node that lives,
and a node whose parent has died has no parent. A walk from parent to parent passes every node
once at most, so as many steps as there are nodes are enough. Clients hold a `Node`, and call
attaching `add_child_named` and detaching `delete_child`.
-/

namespace LayeredStore.Tree

/-- Identity of a node; nodes are numbered in the order of their creation, and a number is
never used again. -/
abbrev NodeId := Nat

/-- A named node. -/
structure Node (α : Type) where
  name : String
  parent : Option NodeId
  children : Std.ExtTreeMap String NodeId
  payload : Option α
  dirty : Bool

/-- A node that belongs nowhere and has no children. -/
def Node.detached {α : Type} (name : String) (payload : Option α) : Node α :=
  ⟨name, none, ∅, payload, false⟩

/-- All living nodes, and the number of the next one. -/
structure Graph (α : Type) where
  next : NodeId
  nodes : Std.ExtTreeMap NodeId (Node α)

/-- Why nodes cannot be joined: the child is the parent or lies above it. -/
structure Cycle where
  parent : String
  child : String
deriving DecidableEq

namespace Graph

variable {α : Type}

/-- No nodes; the first one will be number one. -/
def empty : Graph α := ⟨1, ∅⟩

/-- A new node that belongs nowhere. -/
def create (g : Graph α) (name : String) (payload : Option α) : NodeId × Graph α :=
  (g.next, ⟨g.next + 1, g.nodes.insert g.next (.detached name payload)⟩)

/-- The graph with one node changed. -/
def modify (g : Graph α) (id : NodeId) (f : Node α → Node α) : Graph α :=
  { g with nodes := g.nodes.modify id f }

/-- The name of a node. -/
def name (g : Graph α) (id : NodeId) : String := (g.nodes[id]?.map Node.name).getD ""

/-- The payload of a node. -/
def payload? (g : Graph α) (id : NodeId) : Option α := g.nodes[id]?.bind Node.payload

/-- Whether something at or below a node has changed since it was last updated. -/
def isDirty (g : Graph α) (id : NodeId) : Bool := (g.nodes[id]?.map Node.dirty).getD false

/-- The parent of a node, if it has one that lives. -/
def parent? (g : Graph α) (id : NodeId) : Option NodeId :=
  (g.nodes[id]?.bind Node.parent).filter g.nodes.contains

/-- The child of a given name. -/
def child? (g : Graph α) (id : NodeId) (name : String) : Option NodeId :=
  g.nodes[id]?.bind fun node => node.children[name]?

/-- The children of a node with their names, in the order of the names. -/
def children (g : Graph α) (id : NodeId) : List (String × NodeId) :=
  (g.nodes[id]?.map fun node => node.children.toList).getD []

/-- The first nodes on the way from a node upwards, at most `steps` of them. -/
def climb (g : Graph α) : Nat → NodeId → List NodeId
  | 0, _ => []
  | steps + 1, id => match g.parent? id with
    | some parent => parent :: g.climb steps parent
    | none => []

/-- The nodes above a node, the nearest one first. -/
def ancestors (g : Graph α) (id : NodeId) : List NodeId := g.climb g.nodes.size id

/-- Whether `a` lies strictly above `b`. -/
def isAbove (g : Graph α) (a b : NodeId) : Bool := (g.ancestors b).contains a

/-- The absolute path of a node. The topmost node above it is taken for the root and gives no
segment, and neither does an empty name. -/
def path (g : Graph α) (id : NodeId) : Path :=
  .ofSegments true ((id :: g.ancestors id).dropLast.reverse.map g.name)

/-- Takes a node out of the children of its parent, if it is there under its own name. -/
def leave (g : Graph α) (id : NodeId) : Graph α :=
  match g.parent? id with
  | some parent =>
    if g.child? parent (g.name id) = some id then
      g.modify parent fun node => { node with children := node.children.erase (g.name id) }
    else g
  | none => g

/-- The graph with a node pointing at no parent. -/
def orphan (g : Graph α) (id : NodeId) : Graph α :=
  g.modify id fun node => { node with parent := none }

/-- Makes `child` a child of `parent`, which may rename it. It leaves the place where it was
before; the child that had its name is given back and has no parent any more. -/
def attach (g : Graph α) (parent : NodeId) (name : String) (child : NodeId) :
    Except Cycle (Option NodeId × Graph α) :=
  if child = parent ∨ g.isAbove child parent then
    .error ⟨g.name parent, g.name child⟩
  else
    let left := g.leave child
    let replaced := left.child? parent name
    let joined := (left.modify child fun node => { node with name, parent := some parent }).modify
      parent fun node => { node with children := node.children.insert name child }
    .ok (replaced, match replaced with
      | some old => joined.orphan old
      | none => joined)

/-- Takes the child of a given name away from a node. -/
def detach (g : Graph α) (parent : NodeId) (name : String) : Option (NodeId × Graph α) :=
  (g.child? parent name).map fun child =>
    (child, (g.modify parent fun node => { node with children := node.children.erase name }).orphan
      child)

/-- Gives a node a payload; the node is clean after it, the nodes above it stay as they are. -/
def update (g : Graph α) (id : NodeId) (payload : α) : Graph α :=
  g.modify id fun node => { node with payload := some payload, dirty := false }

/-- Marks a node and all nodes above it. -/
def markDirty (g : Graph α) (id : NodeId) : Graph α :=
  (id :: g.ancestors id).foldl (fun g a => g.modify a fun node => { node with dirty := true }) g

/-- A node and what is at most `depth` levels below it. -/
def subtree (g : Graph α) : Nat → NodeId → List NodeId
  | 0, id => [id]
  | depth + 1, id => id :: (g.children id).flatMap fun (_, child) => g.subtree depth child

/-- Lets die what is not held, neither from outside nor by a node that lives. -/
def collect (g : Graph α) (held : List NodeId) : Graph α :=
  let living := Std.ExtTreeSet.ofList (held.flatMap (g.subtree g.nodes.size))
  { g with nodes := g.nodes.filter fun id _ => living.contains id }

/-- Whether two nodes have the same name, the same parent and the same payload. -/
def alike [DecidableEq α] (g : Graph α) (a b : NodeId) : Bool :=
  g.name a == g.name b && g.parent? a == g.parent? b && g.payload? a == g.payload? b

end Graph
end LayeredStore.Tree
