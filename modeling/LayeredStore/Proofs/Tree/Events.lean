import LayeredStore.Proofs.Tree.Linked
import LayeredStore.Tree.Directory

/-!
# Events of a node graph

What can happen to nodes, one thing after the other: they are created, attached and detached by
themselves or through directories, and die when nothing holds them. Any living node can be the
root of a directory, so there are as many directories as there are nodes. Main statement: whatever
happens, the graph stays linked, so that walks upwards end, a node is found in one place only, and
attaching fails exactly where it would close a circle.
-/

namespace LayeredStore.Tree

/-- What can happen. A release is given the nodes that are still held from outside. -/
inductive Event (α : Type)
  | create (name : String) (payload : Option α)
  | attach (parent child : NodeId)
  | attachAs (parent : NodeId) (name : String) (child : NodeId)
  | detach (parent : NodeId) (name : String)
  | update (node : NodeId) (payload : α)
  | markDirty (node : NodeId)
  | getOrCreate (root : NodeId) (path : Path)
  | insert (root : NodeId) (path : Path) (payload : α)
  | markDirtyAt (root : NodeId) (path : Path)
  | move (root : NodeId) (source target : Path)
  | delete (root : NodeId) (path : Path)
  | release (held : List NodeId)

/-- The nodes whose operations an event calls; only living nodes can be called. -/
def Event.called {α : Type} : Event α → List NodeId
  | .create _ _ | .release _ => []
  | .attach parent child | .attachAs parent _ child => [parent, child]
  | .detach node _ | .update node _ | .markDirty node => [node]
  | .getOrCreate root _ | .insert root _ _ | .markDirtyAt root _ | .move root _ _
  | .delete root _ => [root]

/-- The state that an operation leaves; one that fails leaves it as it was. -/
def orSame {σ ε β : Type} (s : σ) : Except ε (β × σ) → σ
  | .ok (_, s') => s'
  | .error _ => s

namespace Graph

variable {α : Type}

/-- What an event does to living nodes. -/
def carryOut (g : Graph α) : Event α → Graph α
  | .create name payload => (g.create name payload).2
  | .attach parent child => orSame g (g.attach parent (g.name child) child)
  | .attachAs parent name child => orSame g (g.attach parent name child)
  | .detach parent name => (g.detach parent name).elim g Prod.snd
  | .update node payload => g.update node payload
  | .markDirty node => g.markDirty node
  | .getOrCreate root path => orSame g (g.getOrCreate root path)
  | .insert root path payload => orSame g (g.insert root path payload)
  | .markDirtyAt root path => (g.markDirtyAt root path).getD g
  | .move root source target => orSame g (g.move root source target)
  | .delete root path => orSame g (g.delete root path)
  | .release held => g.collect held

/-- One event. -/
def step (g : Graph α) (e : Event α) : Graph α :=
  if ∀ id ∈ e.called, id ∈ g.nodes then g.carryOut e else g

/-- The graph after some events; there are no nodes before the first one. -/
def after (events : List (Event α)) : Graph α := events.foldl step .empty

variable {g g' : Graph α} {id root parent c : NodeId} {n : String} {p : Path}

/-! ### Fallible steps -/

/-- A computation that ends well has its parts end well. -/
theorem bind_eq_ok {ε β γ : Type} {x : Except ε β} {f : β → Except ε γ} {b : γ} :
    (x >>= f) = .ok b ↔ ∃ a, x = .ok a ∧ f a = .ok b := by
  cases x <;> simp [bind, Except.bind]

/-- What must be there is there if the computation ends well. -/
private theorem elim_eq_ok {ε β : Type} {o : Option β} {e : ε} {b : β} :
    o.elim (.error e) Except.ok = .ok b ↔ o = some b := by
  cases o <;> simp

private theorem mapError_eq_ok {ε ε' β : Type} {x : Except ε β} {f : ε → ε'} {b : β} :
    x.mapError f = .ok b ↔ x = .ok b := by
  cases x <;> simp [Except.mapError]

/-- All that a move does if it succeeds. -/
theorem move_eq_ok {source target : Path} {replaced : Option NodeId}
    (h : g.move root source target = .ok (replaced, g')) :
    ∃ name node oldParent newParent joined, target.name? = some name ∧
      g.lookup root source = some node ∧ g.parent? node = some oldParent ∧
      g.lookupParent root target = some newParent ∧
      g.attach newParent name node = .ok (replaced, joined) ∧
      g' = (joined.markDirty oldParent).markDirty node := by
  simp only [move, bind_eq_ok, elim_eq_ok, mapError_eq_ok] at h
  obtain ⟨-, -, -, -, name, hname, node, hnode, oldParent, hold, newParent, hnew, ⟨_, joined⟩,
    hattach, hend⟩ := h
  obtain ⟨rfl, rfl⟩ := Prod.ext_iff.mp (Except.ok.inj hend)
  exact ⟨name, node, oldParent, newParent, joined, hname, hnode, hold, hnew, hattach, rfl⟩

/-- Where going down to a path ends if it succeeds. -/
theorem getOrCreate_eq_ok (h : g.getOrCreate root p = .ok (id, g')) :
    p.segments.foldl (fun (id, g) name => g.childOrNew id name) (root, g) = (id, g') := by
  obtain ⟨-, -, hdone⟩ := bind_eq_ok.mp h
  exact Except.ok.inj hdone

/-- All that a deletion does if it succeeds. -/
theorem delete_eq_ok (h : g.delete root p = .ok (id, g')) :
    ∃ name parent rest, p.name? = some name ∧ g.lookupParent root p = some parent ∧
      g.detach parent name = some (id, rest) ∧ g' = rest.markDirty parent := by
  simp only [delete, bind_eq_ok, elim_eq_ok] at h
  obtain ⟨-, -, name, hname, parent, hparent, ⟨_, rest⟩, hdetach, hend⟩ := h
  obtain ⟨rfl, rfl⟩ := Prod.ext_iff.mp (Except.ok.inj hend)
  exact ⟨name, parent, rest, hname, hparent, hdetach, rfl⟩

namespace Linked

/-! ### Directories -/

/-- What is found below a living node lives. -/
theorem mem_of_foldlM (hg : g.Linked) {names : List String} (hid : id ∈ g.nodes)
    (h : names.foldlM g.child? id = some c) : c ∈ g.nodes := by
  induction names generalizing id with
  | nil =>
    obtain rfl := Option.some.inj h
    exact hid
  | cons n names ih =>
    rw [List.foldlM_cons] at h
    obtain ⟨child, hchild, h⟩ := Option.bind_eq_some_iff.mp h
    exact ih (hg.mem_of_child? hchild) h

theorem mem_of_lookup (hg : g.Linked) (hroot : root ∈ g.nodes) (h : g.lookup root p = some id) :
    id ∈ g.nodes := by
  rw [lookup] at h
  split at h
  · exact hg.mem_of_foldlM hroot h
  · cases h

theorem mem_of_lookupParent (hg : g.Linked) (hroot : root ∈ g.nodes)
    (h : g.lookupParent root p = some id) : id ∈ g.nodes := by
  obtain ⟨parent, -, h⟩ := Option.bind_eq_some_iff.mp h
  exact hg.mem_of_lookup hroot h

/-- A missing child is a new node that gets attached; a new node is above nothing. -/
theorem childOrNew_cases (hg : g.Linked) (hid : id ∈ g.nodes) (n : String) :
    (∃ c, g.child? id n = some c ∧ g.childOrNew id n = (c, g)) ∨
    g.child? id n = none ∧ ¬ (g.next = id ∨ (g.create n none).2.Above g.next id) ∧
      ∃ joined, g.childOrNew id n = (g.next, joined) ∧
        (g.create n none).2.Attached joined id n g.next := by
  have hcreated := hg.created n none
  have hgrown := hg.create n none
  cases hchild : g.child? id n with
  | some c => exact .inl ⟨c, rfl, by simp [childOrNew, hchild]⟩
  | none =>
    have hnew : ¬ (g.next = id ∨ (g.create n none).2.Above g.next id) := by
      rintro (rfl | habove)
      · exact hg.next_notMem hid
      · obtain ⟨child, hlink, -⟩ := Relation.TransGen.head'_iff.mp habove
        rw [hcreated.parent? hg] at hlink
        exact hg.next_notMem (mem_nodes_of_parent? hlink).2
    have hparent := (hcreated.mem id).mpr (.inr hid)
    have hnext := (hcreated.mem g.next).mpr (.inl rfl)
    cases hattach : (g.create n none).2.attach id n g.next with
    | error cycle => exact absurd (hgrown.attach_eq_error_iff.mp hattach).1 hnew
    | ok result =>
      obtain ⟨replaced, joined⟩ := result
      refine .inr ⟨rfl, hnew, joined, ?_, (hgrown.attached hparent hnext hattach).1⟩
      simp only [childOrNew, hchild]
      rw [show (g.create n none).1 = g.next from rfl, hattach]

theorem childOrNew (hg : g.Linked) (hid : id ∈ g.nodes) (n : String) :
    (g.childOrNew id n).2.Linked ∧ (g.childOrNew id n).1 ∈ (g.childOrNew id n).2.nodes := by
  rcases hg.childOrNew_cases hid n with ⟨c, hchild, h⟩ | ⟨-, hnew, joined, h, hattached⟩
  · rw [h]
    exact ⟨hg, hg.mem_of_child? hchild⟩
  · have hmem := (hg.created n none).mem
    rw [h]
    exact ⟨(hg.create n none).of_attached hattached ((hmem id).mpr (.inr hid)) hnew,
      (hattached.mem _).mpr ((hmem _).mpr (.inl rfl))⟩

theorem getOrCreate (hg : g.Linked) (hroot : root ∈ g.nodes)
    (h : g.getOrCreate root p = .ok (id, g')) : g'.Linked ∧ id ∈ g'.nodes := by
  have hend := getOrCreate_eq_ok h
  clear h
  generalize p.segments = names at hend
  induction names generalizing g root with
  | nil =>
    obtain ⟨rfl, rfl⟩ := Prod.ext_iff.mp hend
    exact ⟨hg, hroot⟩
  | cons n names ih =>
    obtain ⟨hlinked, hmem⟩ := hg.childOrNew hroot n
    exact ih hlinked hmem hend

theorem insert {payload : α} (hg : g.Linked) (hroot : root ∈ g.nodes)
    (h : g.insert root p payload = .ok (id, g')) : g'.Linked := by
  obtain ⟨⟨_, grown⟩, hgrown, hend⟩ := bind_eq_ok.mp h
  obtain ⟨rfl, rfl⟩ := Prod.ext_iff.mp (Except.ok.inj hend)
  exact (hg.getOrCreate hroot hgrown).1.update _ payload

theorem move {source target : Path} {replaced : Option NodeId} (hg : g.Linked)
    (hroot : root ∈ g.nodes) (h : g.move root source target = .ok (replaced, g')) : g'.Linked := by
  obtain ⟨name, node, oldParent, newParent, joined, -, hnode, -, hnew, hattach, rfl⟩ := move_eq_ok h
  have hjoined :=
    hg.attach (hg.mem_of_lookupParent hroot hnew) (hg.mem_of_lookup hroot hnode) hattach
  exact (hjoined.markDirty oldParent).markDirty node

theorem delete (hg : g.Linked) (h : g.delete root p = .ok (id, g')) : g'.Linked := by
  obtain ⟨name, parent, rest, -, -, hdetach, rfl⟩ := delete_eq_ok h
  exact (hg.detach hdetach).markDirty parent

/-! ### Runs -/

/-- What ends well keeps a graph linked if its result is linked. -/
private theorem orSame {ε β : Type} {x : Except ε (β × Graph α)} (hg : g.Linked)
    (h : ∀ b g', x = .ok (b, g') → g'.Linked) : (Tree.orSame g x).Linked := by
  cases x with
  | error e => exact hg
  | ok result => exact h result.1 result.2 rfl

/-- Every event keeps a graph linked. -/
theorem step (hg : g.Linked) (e : Event α) : (g.step e).Linked := by
  rw [Graph.step]
  split
  · rename_i hcalled
    cases e with
    | create name payload => exact hg.create name payload
    | attach parent child =>
      exact hg.orSame fun b g' h => hg.attach (hcalled _ (by simp [Event.called]))
        (hcalled _ (by simp [Event.called])) h
    | attachAs parent name child =>
      exact hg.orSame fun b g' h => hg.attach (hcalled _ (by simp [Event.called]))
        (hcalled _ (by simp [Event.called])) h
    | detach parent name =>
      cases h : g.detach parent name with
      | none => simpa [carryOut, h] using hg
      | some result => simpa [carryOut, h] using hg.detach h
    | update node payload => exact hg.update node payload
    | markDirty node => exact hg.markDirty node
    | getOrCreate root path =>
      exact hg.orSame fun b g' h => (hg.getOrCreate (hcalled _ (by simp [Event.called])) h).1
    | insert root path payload =>
      exact hg.orSame fun b g' h => hg.insert (hcalled _ (by simp [Event.called])) h
    | markDirtyAt root path =>
      cases h : g.lookup root path with
      | none => simpa [carryOut, markDirtyAt, h] using hg
      | some node => simpa [carryOut, markDirtyAt, h] using hg.markDirty node
    | move root source target =>
      exact hg.orSame fun b g' h => hg.move (hcalled _ (by simp [Event.called])) h
    | delete root path => exact hg.orSame fun b g' h => hg.delete h
    | release held => exact hg.collect held
  · exact hg

/-- Whatever has happened, the graph is linked. -/
theorem after (events : List (Event α)) : (Graph.after events).Linked := by
  have hrun (g : Graph α) (hg : g.Linked) : (events.foldl Graph.step g).Linked := by
    induction events generalizing g with
    | nil => exact hg
    | cons e events ih => exact ih _ (hg.step e)
  exact hrun _ .empty

end Linked

/-- In every graph that can come about, walks upwards come to an end, a node is found under a name
of another one exactly if it has that name and that parent, and so in one place at most, and a
node cannot be attached exactly if it is the new parent or above it, which changes nothing. -/
theorem nodes_stay_linked (events : List (Event α)) :
    let g := after events
    (∀ id, ¬ g.Above id id) ∧
    WellFounded (fun a b => g.parent? b = some a) ∧
    (∀ id, g.ancestors id = (g.parent? id).elim [] fun parent => parent :: g.ancestors parent) ∧
    (∀ a b, g.isAbove a b = true ↔ g.Above a b) ∧
    (∀ parent n c, g.child? parent n = some c ↔ g.parent? c = some parent ∧ g.name c = n) ∧
    (∀ parent n q m c, g.child? parent n = some c → g.child? q m = some c → q = parent ∧ m = n) ∧
    ∀ parent ∈ g.nodes, ∀ n, ∀ c ∈ g.nodes,
      ((∃ cycle, g.attach parent n c = .error cycle) ↔ c = parent ∨ g.Above c parent) ∧
      ∀ cycle, g.attach parent n c = .error cycle →
        cycle = ⟨g.name parent, g.name c⟩ ∧ g.step (.attachAs parent n c) = g := by
  intro g
  have hg : g.Linked := Linked.after events
  refine ⟨hg.acyclic, hg.acyclic.wellFounded, hg.acyclic.ancestors_eq,
    fun a b => hg.acyclic.isAbove_iff, fun parent n c => hg.child?_iff,
    fun parent n q m c => hg.child?_inj, ?_⟩
  intro parent hparent n c hc
  constructor
  · constructor
    · rintro ⟨cycle, h⟩
      exact (hg.attach_eq_error_iff.mp h).1
    · intro h
      exact ⟨_, hg.attach_eq_error_iff.mpr ⟨h, rfl⟩⟩
  · intro cycle h
    refine ⟨(hg.attach_eq_error_iff.mp h).2, ?_⟩
    simp [step, carryOut, Event.called, hparent, hc, h, orSame]

/-- A root is created, and nodes at `/a` and `/a/b`. -/
def nested : List (Event Nat) := [.create "" none, .getOrCreate 1 ⟨true, ["a", "b"]⟩]

/-- The node at `/a/b` has the one at `/a` above it, which cannot be attached to it. -/
theorem nodes_stay_linked_nested :
    let g := after nested
    2 ∈ g.nodes ∧ 3 ∈ g.nodes ∧ g.parent? 3 = some 2 ∧ g.name 3 = "b" ∧ g.child? 2 "b" = some 3 ∧
      g.Above 2 3 ∧ ∃ cycle, g.attach 3 "c" 2 = .error cycle := by
  obtain ⟨-, -, -, habove, hchild, -, hattach⟩ := nodes_stay_linked nested
  have hmem : 2 ∈ (after nested).nodes ∧ 3 ∈ (after nested).nodes := by decide +kernel
  have hlink : (after nested).parent? 3 = some 2 ∧ (after nested).name 3 = "b" := by decide +kernel
  have hover := (habove 2 3).mp (by decide +kernel)
  exact ⟨hmem.1, hmem.2, hlink.1, hlink.2, (hchild 2 "b" 3).mpr hlink, hover,
    (hattach 3 hmem.2 "c" 2 hmem.1).1.mpr (.inr hover)⟩

end Graph
end LayeredStore.Tree
