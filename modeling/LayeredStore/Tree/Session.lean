import LayeredStore.Tree.Directory
import LayeredStore.Tree.Snapshot

/-!
# Sessions

A session works on one directory and names nodes by handles. A handle holds its node, so that
it lives when it is detached; after every command, what nothing holds is gone.
-/

namespace LayeredStore.Tree

/-- The name under which a session holds a node. -/
abbrev Handle := String

/-- A directory and the nodes that are held. -/
structure Session where
  graph : Graph String
  root : NodeId
  handles : Std.ExtTreeMap Handle NodeId

/-- What a session can be told. -/
inductive Command
  | root
  | lookup (path : Path)
  | getOrCreate (path : Path)
  | insert (path : Path) (payload : String)
  | markDirtyAt (path : Path)
  | move (source target : Path)
  | delete (path : Path)
  | create (name : String) (payload : Option String)
  | attach (parent child : Handle)
  | attachAs (parent : Handle) (name : String) (child : Handle)
  | detach (node : Handle) (name : String)
  | update (node : Handle) (payload : String)
  | markDirty (node : Handle)
  | details (node : Handle)
  | child (node : Handle) (name : String)
  | parent (node : Handle)
  | compare (first second : Handle)
  | line (node : Handle)
  | snapshot (node : Handle)
  | release (node : Handle)

/-- What a session answers. -/
inductive Response
  | node (found : Option Brief)
  | flag (b : Bool)
  | done
  | details (d : Details String)
  | comparison (c : Comparison)
  | line (text : String)
  | snapshot (s : Snapshot String)
  | fault (f : Fault)

namespace Session

/-- A directory with nothing but its root, which is node number one. -/
def start : Session :=
  let (root, graph) := Graph.empty.create "" none
  ⟨graph, root, ∅⟩

/-- A node found, or none, in a graph that may have changed. The handle, if one is given, holds
the node from now on, or nothing. -/
private def found (s : Session) (handle : Option Handle) (node : Option NodeId)
    (graph : Graph String) : Session × Response :=
  let handles := match handle, node with
    | some h, some id => s.handles.insert h id
    | some h, none => s.handles.erase h
    | none, _ => s.handles
  (⟨graph, s.root, handles⟩, .node (node.map graph.brief))

/-- The same for an operation that can fail; a fault leaves everything as it was. -/
private def foundOr (s : Session) (handle : Option Handle) :
    Except Fault (Option NodeId × Graph String) → Session × Response
  | .ok (node, graph) => s.found handle node graph
  | .error f => (s, .fault f)

/-- Works on the node of a handle; without a node nothing happens. -/
private def on (s : Session) (handle : Handle) (f : NodeId → Session × Response) :
    Session × Response :=
  match s.handles[handle]? with
  | some id => f id
  | none => (s, .done)

private def present : Except Fault (NodeId × Graph String) →
    Except Fault (Option NodeId × Graph String) :=
  Except.map fun (id, g) => (some id, g)

/-- Carries out a command; a node that it yields is held by `handle`. -/
def perform (s : Session) (handle : Option Handle) : Command → Session × Response
  | .root => s.found handle (some s.root) s.graph
  | .lookup path => s.found handle (s.graph.lookup s.root path) s.graph
  | .getOrCreate path => s.foundOr handle (present (s.graph.getOrCreate s.root path))
  | .insert path payload => s.foundOr handle (present (s.graph.insert s.root path payload))
  | .markDirtyAt path => match s.graph.markDirtyAt s.root path with
    | some graph => ({ s with graph }, .flag true)
    | none => (s, .flag false)
  | .move source target => s.foundOr handle (s.graph.move s.root source target)
  | .delete path => s.foundOr handle (present (s.graph.delete s.root path))
  | .create name payload =>
    let (id, graph) := s.graph.create name payload
    s.found handle (some id) graph
  | .attach parent child => s.on parent fun p => s.on child fun c =>
    s.foundOr handle ((s.graph.attach p (s.graph.name c) c).mapError .cycle)
  | .attachAs parent name child => s.on parent fun p => s.on child fun c =>
    s.foundOr handle ((s.graph.attach p name c).mapError .cycle)
  | .detach node name => s.on node fun id => match s.graph.detach id name with
    | some (child, graph) => s.found handle (some child) graph
    | none => s.found handle none s.graph
  | .update node payload => s.on node fun id =>
    ({ s with graph := s.graph.update id payload }, .done)
  | .markDirty node => s.on node fun id => ({ s with graph := s.graph.markDirty id }, .done)
  | .details node => s.on node fun id => (s, .details (s.graph.details id))
  | .child node name => s.on node fun id => s.found handle (s.graph.child? id name) s.graph
  | .parent node => s.on node fun id => s.found handle (s.graph.parent? id) s.graph
  | .compare first second => s.on first fun a => s.on second fun b =>
    (s, .comparison (s.graph.compareNodes a b))
  | .line node => s.on node fun id => (s, .line (s.graph.line id))
  | .snapshot node => s.on node fun id => (s, .snapshot (s.graph.snapshot id))
  | .release node =>
    ({ s with handles := s.handles.erase node }, .flag (s.handles.contains node))

/-- Lets die what neither the root nor a handle holds. -/
def tidy (s : Session) : Session :=
  { s with graph := s.graph.collect (s.root :: s.handles.values) }

/-- Carries out a command and lets die what nothing holds after it. -/
def run (s : Session) (handle : Option Handle) (c : Command) : Session × Response :=
  let (after, response) := s.perform handle c
  (after.tidy, response)

end Session
end LayeredStore.Tree
