import LayeredStore.Proofs.Since
import LayeredStore.Proofs.Tree.Events
import Mathlib.Data.List.Induction

/-!
# Marks

Touching a node marks it and all nodes above it; giving a node a payload takes its own mark away.
While a graph changes, nodes come to be above others and cease to be so, and keep their marks. Main
statement: whatever happens, a node is marked exactly if a node was touched that it was, or was
above at that moment, and it has not got a payload since.
-/

namespace LayeredStore.Tree

/-- Whether an event is of a kind that can touch nodes. -/
def Event.touching {α : Type} : Event α → Bool
  | .markDirty _ | .markDirtyAt _ _ | .move _ _ _ | .delete _ _ => true
  | _ => false

/-- Whether an event is of a kind that can update nodes. -/
def Event.updating {α : Type} : Event α → Bool
  | .update _ _ | .insert _ _ _ => true
  | _ => false

namespace Graph

variable {α : Type} {g g' : Graph α} {e : Event α} {id root parent child node m n : NodeId}
  {p source target : Path}

/-- An event touches the node that it marks, the parent that it deletes a child of, and, once it has
moved a node, the parent that the node has left and the node itself. An event that fails touches
nothing. -/
inductive Touches (g : Graph α) : Event α → NodeId → Prop
  | markDirty {node : NodeId} (hnode : node ∈ g.nodes) : Touches g (.markDirty node) node
  | markDirtyAt {root node : NodeId} {path : Path} (hroot : root ∈ g.nodes)
      (hnode : g.lookup root path = some node) : Touches g (.markDirtyAt root path) node
  | delete {root child parent : NodeId} {path : Path} {rest : Graph α} (hroot : root ∈ g.nodes)
      (hdone : g.delete root path = .ok (child, rest)) (hparent : g.parent? child = some parent) :
      Touches g (.delete root path) parent
  | leave {root node parent : NodeId} {source target : Path} {result : Option NodeId × Graph α}
      (hroot : root ∈ g.nodes) (hdone : g.move root source target = .ok result)
      (hnode : g.lookup root source = some node) (hparent : g.parent? node = some parent) :
      Touches g (.move root source target) parent
  | arrive {root node : NodeId} {source target : Path} {result : Option NodeId × Graph α}
      (hroot : root ∈ g.nodes) (hdone : g.move root source target = .ok result)
      (hnode : g.lookup root source = some node) : Touches g (.move root source target) node

/-- An event updates the node that it gives a payload. -/
inductive Updates (g : Graph α) : Event α → NodeId → Prop
  | update {node : NodeId} {payload : α} (hnode : node ∈ g.nodes) :
      Updates g (.update node payload) node
  | insert {root node : NodeId} {path : Path} {payload : α} {grown : Graph α}
      (hroot : root ∈ g.nodes) (hdone : g.insert root path payload = .ok (node, grown)) :
      Updates g (.insert root path payload) node

/-- A node is one that an event touches, or is above it after the event. No link changes between
the touch and the end of the event, so this is as the nodes were at the touch. -/
def Reaches (g : Graph α) (e : Event α) (n : NodeId) : Prop :=
  ∃ m, g.Touches e m ∧ (n = m ∨ (g.step e).Above n m)

/-- An event updates or creates a node. -/
def Renews (g : Graph α) (e : Event α) (n : NodeId) : Prop :=
  g.Updates e n ∨ n ∉ g.nodes ∧ n ∈ (g.step e).nodes

/-! ### What leaves marks as they are -/

/-- Where all links are the same, the same nodes are above. -/
theorem SameLinks.above_iff (h : g.SameLinks g') {a b : NodeId} :
    g'.Above a b ↔ g.Above a b := by
  rw [Above, Above, funext fun a => funext fun b => congrArg (· = some a) (h.parent? b)]

/-- A node that does not live is not marked. -/
theorem isDirty_eq_false (h : id ∉ g.nodes) : g.isDirty id = false := by
  rw [isDirty, Std.ExtTreeMap.getElem?_eq_none h]
  rfl

/-- A node that goes on living keeps its mark. -/
theorem isDirty_collect {held : List NodeId} (hn : n ∈ (g.collect held).nodes) :
    (g.collect held).isDirty n = g.isDirty n := by
  rw [isDirty, isDirty, getElem?_collect hn]

/-- Detaching a child changes no mark. -/
theorem isDirty_detach (name : String) :
    ((g.detach parent name).elim g Prod.snd).isDirty n = g.isDirty n := by
  cases h : g.detach parent name with
  | none => rfl
  | some result => exact (detached_of_detach h).1.isDirty n

namespace Linked

/-- The marked nodes are the one that is meant and those above it, and those that were marked. -/
theorem isDirty_markDirty_iff (hg : g.Linked) (hn : n ∈ g.nodes) :
    (g.markDirty m).isDirty n = true ↔ g.isDirty n = true ∨ n = m ∨ g.Above n m := by
  rw [isDirty_markDirty hn, Bool.or_eq_true, decide_eq_true_eq, List.mem_cons,
    hg.acyclic.mem_ancestors_iff]

/-- A new node is not marked, and creating it changes no mark. -/
theorem isDirty_create (hg : g.Linked) (name : String) (payload : Option α) :
    (g.create name payload).2.isDirty n = g.isDirty n := by
  rw [(hg.created name payload).isDirty]
  split
  · subst n
    exact (isDirty_eq_false hg.next_notMem).symm
  · rfl

/-- Attaching a node changes no mark. -/
theorem isDirty_attach (hg : g.Linked) (hparent : parent ∈ g.nodes) (hchild : child ∈ g.nodes)
    (name : String) : (Tree.orSame g (g.attach parent name child)).isDirty n = g.isDirty n := by
  cases h : g.attach parent name child with
  | error cycle => rfl
  | ok result => exact (hg.attached hparent hchild h).1.isDirty n

/-- Making a missing child changes no mark. -/
private theorem isDirty_childOrNew (hg : g.Linked) (hid : id ∈ g.nodes) (name : String) :
    (g.childOrNew id name).2.isDirty n = g.isDirty n := by
  rcases hg.childOrNew_cases hid name with ⟨c, -, h⟩ | ⟨-, -, joined, h, hattached⟩
  · rw [h]
  · rw [h, hattached.isDirty, hg.isDirty_create]

/-- Making all nodes on the way to a path changes no mark. -/
theorem isDirty_getOrCreate (hg : g.Linked) (hroot : root ∈ g.nodes)
    (h : g.getOrCreate root p = .ok (id, g')) : g'.isDirty n = g.isDirty n := by
  have hend := getOrCreate_eq_ok h
  clear h
  generalize p.segments = names at hend
  induction names generalizing g root with
  | nil =>
    obtain ⟨rfl, rfl⟩ := Prod.ext_iff.mp hend
    rfl
  | cons name names ih =>
    obtain ⟨hlinked, hmem⟩ := hg.childOrNew hroot name
    rw [ih hlinked hmem hend, hg.isDirty_childOrNew hroot]

end Linked

/-! ### One event -/

/-- What happens to living nodes is carried out. -/
theorem step_of_called (h : ∀ id ∈ e.called, id ∈ g.nodes) : g.step e = g.carryOut e := if_pos h

/-- What happens to nodes that do not live is not carried out. -/
theorem step_of_not_called (h : ¬ ∀ id ∈ e.called, id ∈ g.nodes) : g.step e = g := if_neg h

private theorem Touches.called (h : g.Touches e m) : ∀ id ∈ e.called, id ∈ g.nodes := by
  cases h <;> simpa [Event.called]

private theorem Updates.called (h : g.Updates e m) : ∀ id ∈ e.called, id ∈ g.nodes := by
  cases h <;> simpa [Event.called]

/-- Events of other kinds touch nothing. -/
private theorem not_touches (h : e.touching = false) (m : NodeId) : ¬ g.Touches e m := by
  intro hm
  cases hm <;> cases h

/-- Events of other kinds update nothing. -/
theorem not_updates (h : e.updating = false) (m : NodeId) : ¬ g.Updates e m := by
  intro hm
  cases hm <;> cases h

/-- Marking the node at a path touches that node. -/
private theorem touches_markDirtyAt_iff (hroot : root ∈ g.nodes) :
    g.Touches (.markDirtyAt root p) m ↔ g.lookup root p = some m := by
  constructor
  · intro h
    cases h with
    | markDirtyAt _ hnode => exact hnode
  · exact .markDirtyAt hroot

/-- A deletion touches the parent of the child that it takes away. -/
private theorem touches_delete_iff (hroot : root ∈ g.nodes)
    (hdone : g.delete root p = .ok (child, g')) (hparent : g.parent? child = some parent) :
    g.Touches (.delete root p) m ↔ m = parent := by
  constructor
  · intro h
    cases h with
    | delete _ hdone' hparent' =>
      obtain ⟨rfl, -⟩ := Prod.ext_iff.mp (Except.ok.inj (hdone.symm.trans hdone'))
      exact Option.some.inj (hparent'.symm.trans hparent)
  · rintro rfl
    exact .delete hroot hdone hparent

/-- A move touches the parent that the node leaves, and the node. -/
private theorem touches_move_iff {result : Option NodeId × Graph α} (hroot : root ∈ g.nodes)
    (hdone : g.move root source target = .ok result) (hnode : g.lookup root source = some node)
    (hparent : g.parent? node = some parent) :
    g.Touches (.move root source target) m ↔ m = parent ∨ m = node := by
  constructor
  · intro h
    cases h with
    | leave _ _ hnode' hparent' =>
      obtain rfl := Option.some.inj (hnode.symm.trans hnode')
      exact .inl (Option.some.inj (hparent'.symm.trans hparent))
    | arrive _ _ hnode' => exact .inr (Option.some.inj (hnode'.symm.trans hnode))
  · rintro (rfl | rfl)
    · exact .leave hroot hdone hnode hparent
    · exact .arrive hroot hdone hnode

/-- The mark that a node has after an event tells whether the event has reached it, or it was marked
before and has not been updated. -/
def MarkTells (g : Graph α) (e : Event α) (n : NodeId) : Prop :=
  (g.step e).isDirty n = true ↔ g.Reaches e n ∨ g.isDirty n = true ∧ ¬ g.Updates e n

namespace MarkTells

/-- An event that touches and updates nothing has to leave all marks as they are. -/
theorem of_same (htouch : ∀ m, ¬ g.Touches e m) (hupdate : ∀ m, ¬ g.Updates e m)
    (hsame : (g.step e).isDirty n = g.isDirty n) : g.MarkTells e n := by
  rw [MarkTells, hsame]
  constructor
  · intro h
    exact .inr ⟨h, hupdate n⟩
  · rintro (⟨m, hm, -⟩ | ⟨h, -⟩)
    · exact absurd hm (htouch m)
    · exact h

/-- An event that updates one node has to take away its mark and no other one. -/
private theorem of_update (htouch : ∀ m, ¬ g.Touches e m) (hupdate : ∀ k, g.Updates e k ↔ k = m)
    (hclean : (g.step e).isDirty n = if n = m then false else g.isDirty n) :
    g.MarkTells e n := by
  rw [MarkTells, hclean, hupdate]
  by_cases hn : n = m <;> simp [Reaches, htouch, hn]

/-- An event that touches one node has to mark it and what is above it. -/
private theorem of_markDirty (hg : g.Linked) (htouch : ∀ k, g.Touches e k ↔ k = m)
    (hupdate : ∀ k, ¬ g.Updates e k) (hstep : g.step e = g.markDirty m)
    (hn : n ∈ (g.step e).nodes) : g.MarkTells e n := by
  have hlinks : g.SameLinks (g.markDirty m) := sameLinks_markDirty
  rw [hstep] at hn
  simp only [MarkTells, Reaches, htouch, exists_eq_left, hstep, hlinks.above_iff,
    hg.isDirty_markDirty_iff ((hlinks.mem n).mp hn), hupdate, not_false_iff, and_true]
  exact or_comm

private theorem markDirtyAt (hg : g.Linked) (hroot : root ∈ g.nodes)
    (hn : n ∈ (g.step (.markDirtyAt root p)).nodes) : g.MarkTells (.markDirtyAt root p) n := by
  have hstep : g.step (.markDirtyAt root p) = (g.markDirtyAt root p).getD g :=
    step_of_called (by simpa [Event.called])
  cases h : g.lookup root p with
  | none =>
    refine .of_same (fun m hm => ?_) (not_updates rfl) ?_
    · rw [touches_markDirtyAt_iff hroot, h] at hm
      cases hm
    · rw [hstep, Graph.markDirtyAt, h]
      rfl
  | some node =>
    refine .of_markDirty (m := node) hg (fun k => ?_) (not_updates rfl) ?_ hn
    · rw [touches_markDirtyAt_iff hroot, h, Option.some.injEq, eq_comm]
    · rw [hstep, Graph.markDirtyAt, h]
      rfl

private theorem insert {payload : α} (hg : g.Linked) (hroot : root ∈ g.nodes) :
    g.MarkTells (.insert root p payload) n := by
  have hstep : g.step (.insert root p payload) = orSame g (g.insert root p payload) :=
    step_of_called (by simpa [Event.called])
  cases h : g.insert root p payload with
  | error fault =>
    refine .of_same (not_touches rfl) (fun m hm => ?_) (by rw [hstep, h]; rfl)
    cases hm with
    | insert _ hdone => cases h.symm.trans hdone
  | ok result =>
    obtain ⟨⟨node, grown⟩, hgrown, hend⟩ := bind_eq_ok.mp h
    obtain rfl := Except.ok.inj hend
    refine .of_update (m := node) (not_touches rfl) (fun k => ⟨?_, ?_⟩) ?_
    · intro hk
      cases hk with
      | insert _ hdone => exact congrArg Prod.fst (Except.ok.inj (hdone.symm.trans h))
    · rintro rfl
      exact .insert hroot h
    · rw [hstep, h, ← hg.isDirty_getOrCreate hroot hgrown]
      exact isDirty_update payload

/-- A deletion marks the parent of the child that it takes away, and what is above it. -/
private theorem delete (hg : g.Linked) (hroot : root ∈ g.nodes)
    (hn : n ∈ (g.step (.delete root p)).nodes) : g.MarkTells (.delete root p) n := by
  have hstep : g.step (.delete root p) = orSame g (g.delete root p) :=
    step_of_called (by simpa [Event.called])
  cases h : g.delete root p with
  | error fault =>
    refine .of_same (fun m hm => ?_) (not_updates rfl) (by rw [hstep, h]; rfl)
    cases hm with
    | delete _ hdone => cases h.symm.trans hdone
  | ok result =>
    obtain ⟨name, parent, rest, -, -, hdetach, hend⟩ := delete_eq_ok h
    obtain ⟨hdetached, hchild⟩ := detached_of_detach hdetach
    have hlinks : rest.SameLinks (rest.markDirty parent) := sameLinks_markDirty
    have hmarked : g.step (.delete root p) = rest.markDirty parent := by
      rw [hstep, h]
      exact hend
    have hupdate : ¬ g.Updates (.delete root p) n := not_updates rfl n
    rw [hmarked] at hn
    simp only [MarkTells, Reaches, hmarked, hdetached.isDirty,
      (hg.detach hdetach).isDirty_markDirty_iff ((hlinks.mem n).mp hn),
      touches_delete_iff hroot h (hg.parent?_of_child? hchild), hlinks.above_iff, exists_eq_left,
      hupdate, not_false_iff, and_true]
    exact or_comm

/-- A move marks the parent that the node has left and what is still above it, then the node and
what is above it now. -/
private theorem move (hg : g.Linked) (hroot : root ∈ g.nodes)
    (hn : n ∈ (g.step (.move root source target)).nodes) :
    g.MarkTells (.move root source target) n := by
  have hstep : g.step (.move root source target) = orSame g (g.move root source target) :=
    step_of_called (by simpa [Event.called])
  cases h : g.move root source target with
  | error fault =>
    refine .of_same (fun m hm => ?_) (not_updates rfl) (by rw [hstep, h]; rfl)
    cases hm with
    | leave _ hdone => cases h.symm.trans hdone
    | arrive _ hdone => cases h.symm.trans hdone
  | ok result =>
    obtain ⟨name, node, old, new, joined, -, hnode, hold, hnew, hattach, hend⟩ := move_eq_ok h
    have hparent := hg.mem_of_lookupParent hroot hnew
    have hmoved := hg.mem_of_lookup hroot hnode
    have hjoined := hg.attach hparent hmoved hattach
    have hattached := (hg.attached hparent hmoved hattach).1
    have hfirst : joined.SameLinks (joined.markDirty old) := sameLinks_markDirty
    have hlinks : joined.SameLinks ((joined.markDirty old).markDirty node) :=
      hfirst.trans sameLinks_markDirty
    have hmarked : g.step (.move root source target) = (joined.markDirty old).markDirty node := by
      rw [hstep, h]
      exact hend
    have hupdate : ¬ g.Updates (.move root source target) n := not_updates rfl n
    rw [hmarked] at hn
    have hmem := (hlinks.mem n).mp hn
    have hdirty : ((joined.markDirty old).markDirty node).isDirty n = true ↔
        (g.isDirty n = true ∨ n = old ∨ joined.Above n old) ∨ n = node ∨ joined.Above n node := by
      rw [(hjoined.markDirty old).isDirty_markDirty_iff ((hfirst.mem n).mpr hmem),
        hjoined.isDirty_markDirty_iff hmem, hfirst.above_iff, hattached.isDirty]
    simp only [MarkTells, Reaches, hmarked, hdirty, touches_move_iff hroot h hnode hold,
      hlinks.above_iff, or_and_right, exists_or, exists_eq_left, hupdate, not_false_iff, and_true]
    rw [or_assoc, or_comm]

end MarkTells

/-- Every event leaves marks that tell of it. -/
theorem Linked.markTells (hg : g.Linked) (e : Event α) (hn : n ∈ (g.step e).nodes) :
    g.MarkTells e n := by
  by_cases hcalled : ∀ id ∈ e.called, id ∈ g.nodes
  · have hstep := step_of_called hcalled
    cases e with
    | create name payload =>
      exact .of_same (not_touches rfl) (not_updates rfl) (hstep ▸ hg.isDirty_create name payload)
    | attach parent child =>
      exact .of_same (not_touches rfl) (not_updates rfl) (hstep ▸ hg.isDirty_attach
        (hcalled _ (by simp [Event.called])) (hcalled _ (by simp [Event.called])) _)
    | attachAs parent name child =>
      exact .of_same (not_touches rfl) (not_updates rfl) (hstep ▸ hg.isDirty_attach
        (hcalled _ (by simp [Event.called])) (hcalled _ (by simp [Event.called])) name)
    | detach parent name =>
      exact .of_same (not_touches rfl) (not_updates rfl) (hstep ▸ isDirty_detach name)
    | update node payload =>
      refine .of_update (m := node) (not_touches rfl) (fun k => ⟨?_, ?_⟩)
        (hstep ▸ isDirty_update payload)
      · rintro ⟨⟩
        rfl
      · rintro rfl
        exact .update (hcalled _ (by simp [Event.called]))
    | markDirty node =>
      refine .of_markDirty (m := node) hg (fun k => ⟨?_, ?_⟩) (not_updates rfl) hstep hn
      · rintro ⟨⟩
        rfl
      · rintro rfl
        exact .markDirty (hcalled _ (by simp [Event.called]))
    | getOrCreate root path =>
      refine .of_same (not_touches rfl) (not_updates rfl) ?_
      rw [hstep, carryOut]
      cases h : g.getOrCreate root path with
      | error fault => rfl
      | ok result => exact hg.isDirty_getOrCreate (hcalled _ (by simp [Event.called])) h
    | insert root path payload => exact .insert hg (hcalled _ (by simp [Event.called]))
    | markDirtyAt root path => exact .markDirtyAt hg (hcalled _ (by simp [Event.called])) hn
    | move root source target => exact .move hg (hcalled _ (by simp [Event.called])) hn
    | delete root path => exact .delete hg (hcalled _ (by simp [Event.called])) hn
    | release held =>
      rw [hstep] at hn
      exact .of_same (not_touches rfl) (not_updates rfl) (hstep ▸ isDirty_collect hn)
  · exact .of_same (fun m hm => hcalled hm.called) (fun m hm => hcalled hm.called)
      (by rw [step_of_not_called hcalled])

/-! ### Runs -/

/-- A run that goes on by one event. -/
private theorem after_concat (events : List (Event α)) (e : Event α) :
    after (events ++ [e]) = (after events).step e := by
  rw [after, List.foldl_append]
  rfl

/-- A node that is marked has been reached since it was last renewed, and the other way round. -/
theorem isDirty_after_iff (events : List (Event α)) (hn : n ∈ (after events).nodes) :
    (after events).isDirty n = true ↔ Since (fun before e => (after before).Reaches e n)
      (fun before e => (after before).Renews e n) events := by
  induction events using List.reverseRecOn with
  | nil => exact absurd hn Std.ExtTreeMap.not_mem_empty
  | append_singleton events e ih =>
    rw [after_concat] at hn ⊢
    rw [since_concat_iff, Renews]
    refine ((Linked.after events).markTells e hn).trans (or_congr_right ?_)
    by_cases hold : n ∈ (after events).nodes
    · simp [ih hold, hold]
    · -- the node has only just been created
      simp [isDirty_eq_false hold, hold, hn]

/-- What leaves the marks of living nodes when it is carried out leaves them in any case. -/
private theorem isDirty_step_of_called (h : (∀ id ∈ e.called, id ∈ g.nodes) →
    (g.carryOut e).isDirty n = g.isDirty n) : (g.step e).isDirty n = g.isDirty n := by
  by_cases hcalled : ∀ id ∈ e.called, id ∈ g.nodes
  · rw [step_of_called hcalled, h hcalled]
  · rw [step_of_not_called hcalled]

/-- In every graph that can come about, a node is marked exactly if it was touched, or something
that it was above at that moment, since it was last updated or, without an update, created.
Attaching and detaching nodes changes no mark, and updating a node takes away its own mark only. -/
theorem marks_tell_touches (events : List (Event α)) :
    let g := after events
    (∀ n ∈ g.nodes, g.isDirty n = true ↔ Since (fun before e => (after before).Reaches e n)
      (fun before e => (after before).Renews e n) events) ∧
    (∀ parent child n, (g.step (.attach parent child)).isDirty n = g.isDirty n) ∧
    (∀ parent name child n, (g.step (.attachAs parent name child)).isDirty n = g.isDirty n) ∧
    (∀ parent name n, (g.step (.detach parent name)).isDirty n = g.isDirty n) ∧
    ∀ node payload n, (g.step (.update node payload)).isDirty n =
      if n = node then false else g.isDirty n := by
  intro g
  have hg : g.Linked := Linked.after events
  refine ⟨fun n hn => isDirty_after_iff events hn, ?_, ?_, ?_, ?_⟩
  · intro parent child n
    exact isDirty_step_of_called fun hcalled => hg.isDirty_attach
      (hcalled _ (by simp [Event.called])) (hcalled _ (by simp [Event.called])) _
  · intro parent name child n
    exact isDirty_step_of_called fun hcalled => hg.isDirty_attach
      (hcalled _ (by simp [Event.called])) (hcalled _ (by simp [Event.called])) name
  · intro parent name n
    exact isDirty_step_of_called fun _ => isDirty_detach name
  · intro node payload n
    by_cases hnode : node ∈ g.nodes
    · rw [step_of_called (by simpa [Event.called])]
      exact isDirty_update payload
    · rw [step_of_not_called (by simpa [Event.called])]
      split
      · subst n
        exact isDirty_eq_false hnode
      · rfl

/-- The node at `/a/b` is marked and updated, and then leaves `/a` for `/`. -/
def wayOut : List (Event Nat) :=
  [.create "" none, .getOrCreate 1 ⟨true, ["a", "b"]⟩, .markDirty 3, .update 3 7, .attach 1 3]

/-- The node at `/a` is still marked, for it was above the other one when that was touched; the
other one is not, for it has been updated since. -/
theorem marks_tell_touches_wayOut :
    let g := after wayOut
    2 ∈ g.nodes ∧ 3 ∈ g.nodes ∧ ¬ g.Above 2 3 ∧
      Since (fun before e => (after before).Reaches e 2)
        (fun before e => (after before).Renews e 2) wayOut ∧
      ¬ Since (fun before e => (after before).Reaches e 3)
        (fun before e => (after before).Renews e 3) wayOut := by
  obtain ⟨hmarks, -⟩ := marks_tell_touches wayOut
  have hmem : 2 ∈ (after wayOut).nodes ∧ 3 ∈ (after wayOut).nodes := by decide +kernel
  have hdirty : (after wayOut).isDirty 2 = true ∧ ¬ (after wayOut).isDirty 3 = true := by
    decide +kernel
  have habove : ¬ (after wayOut).Above 2 3 := by
    rw [← (Linked.after wayOut).acyclic.isAbove_iff]
    decide +kernel
  exact ⟨hmem.1, hmem.2, habove, (hmarks 2 hmem.1).mp hdirty.1,
    mt (hmarks 3 hmem.2).mpr hdirty.2⟩

end Graph
end LayeredStore.Tree
