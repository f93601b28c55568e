import LayeredStore.Text.Quoted
import LayeredStore.Tree.Graph

/-!
# Views of nodes

What can be seen of a node: a whole subtree, a short form, a full one, and one line of text.
-/

namespace LayeredStore.Tree

/-- A node with all that is below it. -/
inductive Snapshot (α : Type)
  | node (name : String) (id : NodeId) (dirty : Bool) (payload : Option α)
      (children : List (Snapshot α))

/-- The short form of a node. -/
structure Brief where
  id : NodeId
  name : String
  path : Path

/-- The full form of a node. -/
structure Details (α : Type) where
  brief : Brief
  dirty : Bool
  payload : Option α
  parent : Option NodeId
  children : List String

/-- How two nodes compare. -/
structure Comparison where
  alike : Bool
  same : Bool
  older : Bool
  firstAbove : Bool
  secondAbove : Bool

namespace Graph

variable {α : Type}

/-- A node with what is at most `depth` levels below it. -/
def snapshotTo (g : Graph α) : Nat → NodeId → Snapshot α
  | 0, id => .node (g.name id) id (g.isDirty id) (g.payload? id) []
  | depth + 1, id => .node (g.name id) id (g.isDirty id) (g.payload? id)
      ((g.children id).map fun (_, child) => g.snapshotTo depth child)

/-- A node with all that is below it. -/
def snapshot (g : Graph α) (id : NodeId) : Snapshot α := g.snapshotTo g.nodes.size id

/-- The short form of a node. -/
def brief (g : Graph α) (id : NodeId) : Brief := ⟨id, g.name id, g.path id⟩

/-- The full form of a node, with the names of its children in order. -/
def details (g : Graph α) (id : NodeId) : Details α :=
  ⟨g.brief id, g.isDirty id, g.payload? id, g.parent? id, (g.children id).map Prod.fst⟩

/-- How `a` compares with `b`. -/
def compareNodes [DecidableEq α] (g : Graph α) (a b : NodeId) : Comparison :=
  ⟨a == b || g.alike a b, a == b, a < b, g.isAbove a b, g.isAbove b a⟩

/-- The identity of a node as text. -/
private def idText (id : NodeId) : String := "NodeId(#" ++ toString id ++ ")"

/-- One line that shows a node. -/
def line (g : Graph α) (id : NodeId) : String :=
  let parent := match g.parent? id with
    | some parent => "Some(" ++ idText parent ++ ")"
    | none => "None"
  "Node \x7b id: " ++ idText id ++ ", name: " ++ Text.quoted (g.name id) ++
    ", parent: " ++ parent ++ ", children: " ++ toString (g.children id).length ++
    ", dirty: " ++ (if g.isDirty id then "true" else "false") ++ " \x7d"

end Graph
end LayeredStore.Tree
