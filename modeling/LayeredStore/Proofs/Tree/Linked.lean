import LayeredStore.Proofs.Tree.Links

/-!
# Linked graphs

In a linked graph both sides of every link agree and no node lies above itself. Main statements:
the nodes that go on living when others die are the ones held from outside with all that is below
them, and whatever is done to a linked graph, it stays one.
-/

namespace LayeredStore.Tree.Graph

variable {α : Type} {g g' : Graph α} {id x q parent c : NodeId} {n m : String}

/-! ### What dies -/

/-- What is below a node is what the node is passed from on the way upwards. -/
private theorem Linked.mem_subtree_iff (hg : g.Linked) {depth : Nat} :
    x ∈ g.subtree depth id ↔ id ∈ x :: g.climb depth x := by
  induction depth generalizing id with
  | zero => simp [subtree, climb, eq_comm]
  | succ depth ih =>
    rw [subtree, List.mem_cons, List.mem_cons, mem_climb_succ_iff, List.mem_flatMap]
    apply or_congr eq_comm
    constructor
    · rintro ⟨⟨m, c⟩, hchild, hmem⟩
      exact ⟨c, ih.mp hmem, hg.parent?_of_child? (mem_children_iff.mp hchild)⟩
    · rintro ⟨c, hmem, hparent⟩
      exact ⟨(g.name c, c), mem_children_iff.mpr (hg.child?_iff.mpr ⟨hparent, rfl⟩), ih.mpr hmem⟩

/-- The nodes that go on living are the ones held from outside and those below them. -/
theorem Linked.mem_collect_iff (hg : g.Linked) {held : List NodeId} :
    x ∈ (g.collect held).nodes ↔ x ∈ g.nodes ∧ ∃ h ∈ held, h = x ∨ g.Above h x := by
  rw [collect, Std.ExtTreeMap.mem_iff_isSome_getElem?, Std.ExtTreeMap.getElem?_filter',
    Std.ExtTreeMap.mem_iff_isSome_getElem?]
  have hliving : (Std.ExtTreeSet.ofList (held.flatMap (g.subtree g.nodes.size))).contains x = true ↔
      ∃ h ∈ held, h = x ∨ g.Above h x := by
    rw [Std.ExtTreeSet.contains_ofList, List.contains_iff_mem, List.mem_flatMap]
    simp only [hg.mem_subtree_iff, List.mem_cons, ← hg.acyclic.mem_ancestors_iff]
    rfl
  cases g.nodes[x]? <;> simp [← hliving, Option.filter]

/-- A node that goes on living has not changed. -/
theorem getElem?_collect {held : List NodeId} (hx : x ∈ (g.collect held).nodes) :
    (g.collect held).nodes[x]? = g.nodes[x]? := by
  obtain ⟨node, hnode⟩ := mem_nodes_iff.mp hx
  have hfilter := hnode
  rw [collect, Std.ExtTreeMap.getElem?_filter', Option.filter_eq_some_iff] at hfilter
  rw [hnode, hfilter.1]

namespace Linked

/-! ### What stays linked -/

/-- No nodes, no links. -/
theorem empty : (Graph.empty : Graph α).Linked where
  lt_next h := absurd h Std.ExtTreeMap.not_mem_empty
  pointer_lt h := by simp [pointer, Graph.empty] at h
  child?_iff := by simp [child?, Graph.parent?, Graph.empty]
  acyclic id h := by
    obtain ⟨parent, hparent, -⟩ := h.cases
    simp [Graph.parent?, Graph.empty] at hparent

theorem lt_next_of_sameNodes (hg : g.Linked) (h : g.SameNodes g') {id : NodeId}
    (hid : id ∈ g'.nodes) : id < g'.next := by
  rw [h.next]
  exact hg.lt_next ((h.mem id).mp hid)

theorem of_sameLinks (hg : g.Linked) (h : g.SameLinks g') : g'.Linked where
  lt_next := hg.lt_next_of_sameNodes h.toSameNodes
  pointer_lt hpointer := by
    rw [h.pointer] at hpointer
    rw [h.next]
    exact hg.pointer_lt hpointer
  child?_iff := by
    intro parent n c
    rw [h.child?, h.parent?, h.name]
    exact hg.child?_iff
  acyclic := hg.acyclic.mono fun id parent hparent => by rwa [h.parent?] at hparent

theorem of_created {payload : Option α} (hg : g.Linked) (h : g.Created g' n payload) :
    g'.Linked where
  lt_next hid := by
    rw [h.next]
    rcases (h.mem _).mp hid with rfl | hid
    · exact Nat.lt_succ_self _
    · exact Nat.lt_succ_of_lt (hg.lt_next hid)
  pointer_lt hpointer := by
    rw [h.pointer] at hpointer
    rw [h.next]
    exact Nat.lt_succ_of_lt (hg.pointer_lt hpointer)
  child?_iff := by
    intro parent m c
    rw [h.child?, h.parent? hg, h.name, hg.child?_iff]
    apply and_congr_right
    intro hparent
    rw [if_neg (Nat.ne_of_lt (hg.lt_next (mem_nodes_of_parent? hparent).1))]
  acyclic := hg.acyclic.mono fun id parent hparent => by rwa [h.parent? hg] at hparent

theorem of_detached (hg : g.Linked) (h : g.Detached g' parent n) : g'.Linked where
  lt_next := hg.lt_next_of_sameNodes h.toSameNodes
  pointer_lt {id q} hpointer := by
    rw [h.next]
    rw [h.pointer] at hpointer
    split at hpointer
    · cases hpointer
    · exact hg.pointer_lt hpointer
  child?_iff := by
    intro q m c
    rw [h.child?, h.parent?, h.name]
    by_cases hc : g.child? parent n = some c
    · -- the child that leaves was found in that one place
      rw [if_pos hc]
      constructor
      · intro hfound
        split at hfound
        · cases hfound
        · exact absurd (hg.child?_inj hc hfound) ‹_›
      · rintro ⟨hparent, -⟩
        cases hparent
    · rw [if_neg hc, ← hg.child?_iff]
      split
      · rename_i hplace
        obtain ⟨rfl, rfl⟩ := hplace
        simp [hc]
      · rfl
  acyclic := hg.acyclic.mono fun id q hparent => by
    rw [h.parent?] at hparent
    split at hparent
    · cases hparent
    · exact hparent

theorem of_attached (hg : g.Linked) (h : g.Attached g' parent n c) (hparent : parent ∈ g.nodes)
    (hnew : ¬ (c = parent ∨ g.Above c parent)) : g'.Linked where
  lt_next := hg.lt_next_of_sameNodes h.toSameNodes
  pointer_lt {id q} hpointer := by
    rw [h.next]
    rw [h.pointer] at hpointer
    split at hpointer
    · cases hpointer
      exact hg.lt_next hparent
    · split at hpointer
      · cases hpointer
      · exact hg.pointer_lt hpointer
  child?_iff := by
    intro q m x
    rw [h.child?, h.parent? hparent, h.name]
    by_cases hx : x = c
    · subst hx
      rw [if_pos rfl, if_pos rfl]
      by_cases hplace : q = parent ∧ m = n
      · simp [hplace]
      · rw [if_neg hplace]
        constructor
        · intro hfound
          split at hfound
          · cases hfound
          · contradiction
        · rintro ⟨hq, rfl⟩
          exact absurd ⟨(Option.some.inj hq).symm, rfl⟩ hplace
    · rw [if_neg hx, if_neg hx]
      by_cases hplace : q = parent ∧ m = n
      · -- another child of that name has lost its place
        obtain ⟨rfl, rfl⟩ := hplace
        rw [if_pos ⟨rfl, rfl⟩]
        constructor
        · intro hfound
          exact absurd (Option.some.inj hfound).symm hx
        · rintro ⟨hq, hname⟩
          split at hq
          · cases hq
          · exact absurd (hg.child?_iff.mpr ⟨hq, hname⟩) ‹_›
      · rw [if_neg hplace]
        have hsame : (if g.child? q m = some c then none else g.child? q m) = some x ↔
            g.child? q m = some x := by
          split
          · simp [*, Ne.symm hx]
          · rfl
        rw [hsame]
        split
        · simp only [reduceCtorEq, false_and, iff_false]
          intro hfound
          exact hplace (hg.child?_inj ‹_› hfound)
        · exact hg.child?_iff
  acyclic := by
    apply hg.acyclic.link hnew
    intro id a ha
    rw [h.parent? hparent] at ha
    split at ha
    · exact .inl ⟨‹_›, (Option.some.inj ha).symm⟩
    · split at ha
      · cases ha
      · exact .inr ha

theorem create (hg : g.Linked) (n : String) (payload : Option α) :
    (g.create n payload).2.Linked :=
  hg.of_created (hg.created n payload)

theorem update (hg : g.Linked) (id : NodeId) (payload : α) : (g.update id payload).Linked :=
  hg.of_sameLinks (sameLinks_update payload)

theorem markDirty (hg : g.Linked) (id : NodeId) : (g.markDirty id).Linked :=
  hg.of_sameLinks sameLinks_markDirty

theorem detach (hg : g.Linked) (h : g.detach parent n = some (c, g')) : g'.Linked :=
  hg.of_detached (detached_of_detach h).1

theorem attach (hg : g.Linked) (hparent : parent ∈ g.nodes) (hc : c ∈ g.nodes)
    {replaced : Option NodeId} (h : g.attach parent n c = .ok (replaced, g')) : g'.Linked :=
  hg.of_attached (hg.attached hparent hc h).1 hparent (hg.not_above_of_attach h)

/-- Where a node goes on living, so do its children. -/
theorem collect (hg : g.Linked) (held : List NodeId) : (g.collect held).Linked := by
  have hmem {id : NodeId} (hid : id ∈ (g.collect held).nodes) : id ∈ g.nodes :=
    (hg.mem_collect_iff.mp hid).1
  have hparent {id parent : NodeId} : (g.collect held).parent? id = some parent ↔
      g.parent? id = some parent ∧ parent ∈ (g.collect held).nodes := by
    constructor
    · intro h
      obtain ⟨hid, hlives⟩ := mem_nodes_of_parent? h
      obtain ⟨hpointer, -⟩ := parent?_eq_some_iff.mp h
      rw [pointer, getElem?_collect hid] at hpointer
      exact ⟨parent?_eq_some_iff.mpr ⟨hpointer, hmem hlives⟩, hlives⟩
    · rintro ⟨h, hlives⟩
      have hid : id ∈ (g.collect held).nodes := by
        obtain ⟨-, holder, hheld, habove⟩ := hg.mem_collect_iff.mp hlives
        refine hg.mem_collect_iff.mpr ⟨(mem_nodes_of_parent? h).1, holder, hheld, .inr ?_⟩
        rcases habove with rfl | habove
        · exact above_of_parent? h
        · exact habove.of_parent? h
      rw [parent?_eq_some_iff, pointer, getElem?_collect hid]
      exact ⟨(parent?_eq_some_iff.mp h).1, hlives⟩
  refine ⟨fun hid => hg.lt_next (hmem hid), ?_, ?_, ?_⟩
  · intro id parent hpointer
    rw [pointer, getElem?_collect (mem_nodes_of_pointer hpointer)] at hpointer
    exact hg.pointer_lt hpointer
  · intro parent n c
    rw [hparent]
    constructor
    · intro hchild
      have hlives := mem_nodes_of_child? hchild
      rw [child?, getElem?_collect hlives] at hchild
      have hlink := hg.child?_iff.mp hchild
      refine ⟨⟨hlink.1, hlives⟩, ?_⟩
      rw [name, getElem?_collect (mem_nodes_of_parent? (hparent.mpr ⟨hlink.1, hlives⟩)).1]
      exact hlink.2
    · rintro ⟨⟨h, hlives⟩, hname⟩
      rw [name, getElem?_collect (mem_nodes_of_parent? (hparent.mpr ⟨h, hlives⟩)).1] at hname
      rw [child?, getElem?_collect hlives]
      exact hg.child?_iff.mpr ⟨h, hname⟩
  · exact hg.acyclic.mono fun id parent h => (hparent.mp h).1

end Linked
end LayeredStore.Tree.Graph
