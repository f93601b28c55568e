import LayeredStore.Proofs.Tree.Ancestry

/-!
# Links

A link from a node to its child is kept twice: the node has the child among its children, under a
name, and the child has that name and points at the node. Main statements: where both sides agree,
what each operation does to names, links, payloads and marks, node by node.
-/

namespace LayeredStore.Tree.Graph

variable {α : Type} {g g' : Graph α} {id x q parent c : NodeId} {n m : String}

/-- What a node points at as its parent, alive or not. -/
def pointer (g : Graph α) (id : NodeId) : Option NodeId := g.nodes[id]?.bind Node.parent

/-- The parent of a node is what it points at, if that lives. -/
theorem parent?_eq_some_iff :
    g.parent? id = some parent ↔ g.pointer id = some parent ∧ parent ∈ g.nodes := by
  rw [parent?, Option.filter_eq_some_iff, Std.ExtTreeMap.contains_iff_mem, pointer]

theorem mem_nodes_iff : id ∈ g.nodes ↔ ∃ node, g.nodes[id]? = some node := by
  rw [Std.ExtTreeMap.mem_iff_isSome_getElem?, Option.isSome_iff_exists]

/-- Only a living node points at something. -/
theorem mem_nodes_of_pointer (h : g.pointer id = some parent) : id ∈ g.nodes := by
  obtain ⟨node, hnode, -⟩ := Option.bind_eq_some_iff.mp h
  exact mem_nodes_iff.mpr ⟨node, hnode⟩

/-- Only a living node has children. -/
theorem mem_nodes_of_child? (h : g.child? id n = some c) : id ∈ g.nodes := by
  obtain ⟨node, hnode, -⟩ := Option.bind_eq_some_iff.mp h
  exact mem_nodes_iff.mpr ⟨node, hnode⟩

/-- A node that does not live has no children. -/
theorem child?_eq_none (h : id ∉ g.nodes) : g.child? id n = none := by
  rw [Option.eq_none_iff_forall_ne_some]
  intro c hc
  exact h (mem_nodes_of_child? hc)

/-- The children of a node with their names are what is found under these names. -/
theorem mem_children_iff : (n, c) ∈ g.children id ↔ g.child? id n = some c := by
  cases hnode : g.nodes[id]? with
  | none => simp [children, child?, hnode]
  | some node => simp [children, child?, hnode, Std.ExtTreeMap.mem_toList_iff_getElem?_eq_some]

/-! ### One node changed -/

section Modify

variable {f : Node α → Node α}

theorem getElem?_modify :
    (g.modify id f).nodes[x]? = if x = id then g.nodes[x]?.map f else g.nodes[x]? := by
  simp only [modify, Std.ExtTreeMap.getElem?_modify, Std.LawfulEqCmp.compare_eq_iff_eq]
  by_cases h : x = id
  · subst h
    simp
  · simp [h, Ne.symm h]

@[simp] theorem mem_modify : x ∈ (g.modify id f).nodes ↔ x ∈ g.nodes := Std.ExtTreeMap.mem_modify

/-- What is read off a node, after one has been changed. -/
theorem bind_modify {β : Type} {r : Node α → Option β} : (g.modify id f).nodes[x]?.bind r =
    if x = id then g.nodes[x]?.bind fun node => r (f node) else g.nodes[x]?.bind r := by
  rw [getElem?_modify]
  split
  · exact Option.bind_map ..
  · rfl

theorem name_modify (hf : ∀ node, (f node).name = node.name) :
    (g.modify id f).name x = g.name x := by
  simp only [name, Option.map_eq_bind, bind_modify, Function.comp_def, hf, ite_self]

theorem isDirty_modify (hf : ∀ node, (f node).dirty = node.dirty) :
    (g.modify id f).isDirty x = g.isDirty x := by
  simp only [isDirty, Option.map_eq_bind, bind_modify, Function.comp_def, hf, ite_self]

theorem pointer_modify (hf : ∀ node, (f node).parent = node.parent) :
    (g.modify id f).pointer x = g.pointer x := by
  simp only [pointer, bind_modify, hf, ite_self]

theorem payload?_modify (hf : ∀ node, (f node).payload = node.payload) :
    (g.modify id f).payload? x = g.payload? x := by
  simp only [payload?, bind_modify, hf, ite_self]

theorem child?_modify (hf : ∀ node, (f node).children = node.children) :
    (g.modify id f).child? x n = g.child? x n := by
  simp only [child?, bind_modify, hf, ite_self]

/-- What is found after a node has got one more child. -/
private theorem child?_modify_insert (hid : id ∈ g.nodes) :
    (g.modify id fun node => { node with children := node.children.insert n c }).child? x m =
      if x = id ∧ m = n then some c else g.child? x m := by
  obtain ⟨node, hnode⟩ := mem_nodes_iff.mp hid
  rw [child?, child?, bind_modify]
  by_cases hx : x = id
  · subst hx
    by_cases hm : m = n
    · simp [hnode, hm]
    · simp [hnode, hm, Std.ExtTreeMap.getElem?_insert, Ne.symm hm]
  · simp [hx]

/-- What is found after a node has lost a child. -/
theorem child?_modify_erase :
    (g.modify id fun node => { node with children := node.children.erase n }).child? x m =
      if x = id ∧ m = n then none else g.child? x m := by
  rw [child?, child?, bind_modify]
  by_cases hx : x = id
  · by_cases hm : m = n
    · simp [hx, hm]
    · simp [hx, hm, Std.ExtTreeMap.getElem?_erase, Ne.symm hm]
  · simp [hx]

/-- The name of a node after one has been put in another place. -/
private theorem name_modify_place (hid : id ∈ g.nodes) :
    (g.modify id fun node => { node with name := n, parent := some parent }).name x =
      if x = id then n else g.name x := by
  obtain ⟨node, hnode⟩ := mem_nodes_iff.mp hid
  rw [name, name, getElem?_modify]
  by_cases hx : x = id
  · simp [hx, hnode]
  · rw [if_neg hx, if_neg hx]

/-- What a node points at after one has been put in another place. -/
private theorem pointer_modify_place (hid : id ∈ g.nodes) :
    (g.modify id fun node => { node with name := n, parent := some parent }).pointer x =
      if x = id then some parent else g.pointer x := by
  obtain ⟨node, hnode⟩ := mem_nodes_iff.mp hid
  rw [pointer, pointer, getElem?_modify]
  by_cases hx : x = id
  · simp [hx, hnode]
  · rw [if_neg hx, if_neg hx]

/-- Only an orphan has lost what it points at. -/
theorem pointer_orphan : (g.orphan id).pointer x = if x = id then none else g.pointer x := by
  rw [pointer, pointer, orphan, bind_modify, Option.bind_fun_none]

end Modify

/-! ### Kinds of changes -/

/-- The same nodes live, and the same one is next. -/
structure SameNodes (g g' : Graph α) : Prop where
  next : g'.next = g.next
  mem : ∀ id, id ∈ g'.nodes ↔ id ∈ g.nodes

/-- A change that leaves all links and names as they are. -/
structure SameLinks (g g' : Graph α) : Prop extends SameNodes g g' where
  name : ∀ id, g'.name id = g.name id
  pointer : ∀ id, g'.pointer id = g.pointer id
  child? : ∀ id n, g'.child? id n = g.child? id n

/-- A change that leaves the payloads and the marks of all nodes as they are. -/
structure SameContents (g g' : Graph α) : Prop extends SameNodes g g' where
  payload? : ∀ id, g'.payload? id = g.payload? id
  isDirty : ∀ id, g'.isDirty id = g.isDirty id

/-- `c` becomes the child of `parent` that is called `n`: it is found nowhere else, and the child
that had its place points at nothing. -/
structure Attached (g g' : Graph α) (parent : NodeId) (n : String) (c : NodeId) : Prop
    extends SameContents g g' where
  name : ∀ id, g'.name id = if id = c then n else g.name id
  pointer : ∀ id, g'.pointer id =
    if id = c then some parent else if g.child? parent n = some id then none else g.pointer id
  child? : ∀ id m, g'.child? id m =
    if id = parent ∧ m = n then some c else if g.child? id m = some c then none else g.child? id m

/-- The child of `parent` that is called `n` leaves its place. -/
structure Detached (g g' : Graph α) (parent : NodeId) (n : String) : Prop
    extends SameContents g g' where
  name : ∀ id, g'.name id = g.name id
  pointer : ∀ id, g'.pointer id = if g.child? parent n = some id then none else g.pointer id
  child? : ∀ id m, g'.child? id m = if id = parent ∧ m = n then none else g.child? id m

theorem SameNodes.refl (g : Graph α) : g.SameNodes g := ⟨rfl, fun _ => .rfl⟩

theorem SameNodes.trans {g'' : Graph α} (h : g.SameNodes g') (h' : g'.SameNodes g'') :
    g.SameNodes g'' :=
  ⟨h'.next.trans h.next, fun id => (h'.mem id).trans (h.mem id)⟩

theorem SameNodes.modify (id : NodeId) (f : Node α → Node α) : g.SameNodes (g.modify id f) :=
  ⟨rfl, fun _ => mem_modify⟩

/-- The parent of a node is what it points at, if that lived before. -/
theorem SameNodes.parent? (h : g.SameNodes g') (id : NodeId) :
    g'.parent? id = (g'.pointer id).filter g.nodes.contains := by
  have hcontains : g'.nodes.contains = g.nodes.contains := by
    ext id
    rw [Bool.eq_iff_iff, Std.ExtTreeMap.contains_iff_mem, Std.ExtTreeMap.contains_iff_mem, h.mem]
  rw [Graph.parent?, hcontains, pointer]

theorem SameLinks.parent? (h : g.SameLinks g') (id : NodeId) : g'.parent? id = g.parent? id := by
  rw [h.toSameNodes.parent?, h.pointer]
  rfl

theorem Attached.parent? (h : g.Attached g' parent n c) (hparent : parent ∈ g.nodes)
    (id : NodeId) : g'.parent? id = if id = c then some parent
      else if g.child? parent n = some id then none else g.parent? id := by
  rw [h.toSameNodes.parent?, h.pointer]
  split
  · simpa using hparent
  · split <;> rfl

theorem Detached.parent? (h : g.Detached g' parent n) (id : NodeId) :
    g'.parent? id = if g.child? parent n = some id then none else g.parent? id := by
  rw [h.toSameNodes.parent?, h.pointer]
  split <;> rfl

theorem SameContents.refl (g : Graph α) : g.SameContents g :=
  ⟨.refl g, fun _ => rfl, fun _ => rfl⟩

theorem SameContents.trans {g'' : Graph α} (h : g.SameContents g') (h' : g'.SameContents g'') :
    g.SameContents g'' where
  toSameNodes := h.toSameNodes.trans h'.toSameNodes
  payload? id := (h'.payload? id).trans (h.payload? id)
  isDirty id := (h'.isDirty id).trans (h.isDirty id)

theorem SameContents.modify {f : Node α → Node α} (id : NodeId)
    (hpayload : ∀ node, (f node).payload = node.payload)
    (hdirty : ∀ node, (f node).dirty = node.dirty) : g.SameContents (g.modify id f) where
  toSameNodes := .modify id f
  payload? _ := payload?_modify hpayload
  isDirty _ := isDirty_modify hdirty

theorem SameLinks.refl (g : Graph α) : g.SameLinks g :=
  ⟨.refl g, fun _ => rfl, fun _ => rfl, fun _ _ => rfl⟩

theorem SameLinks.trans {g'' : Graph α} (h : g.SameLinks g') (h' : g'.SameLinks g'') :
    g.SameLinks g'' where
  toSameNodes := h.toSameNodes.trans h'.toSameNodes
  name id := (h'.name id).trans (h.name id)
  pointer id := (h'.pointer id).trans (h.pointer id)
  child? id n := (h'.child? id n).trans (h.child? id n)

/-- Where both sides of every link agree, no node lies above itself, and no node points at one that
is yet to come. -/
structure Linked (g : Graph α) : Prop where
  lt_next : ∀ {id}, id ∈ g.nodes → id < g.next
  pointer_lt : ∀ {id parent}, g.pointer id = some parent → parent < g.next
  child?_iff : ∀ {parent n c}, g.child? parent n = some c ↔ g.parent? c = some parent ∧ g.name c = n
  acyclic : g.Acyclic

/-! ### What each operation does -/

theorem sameLinks_update (payload : α) : g.SameLinks (g.update id payload) where
  toSameNodes := .modify id _
  name _ := name_modify fun _ => rfl
  pointer _ := pointer_modify fun _ => rfl
  child? _ _ := child?_modify fun _ => rfl

theorem sameLinks_markDirty : g.SameLinks (g.markDirty id) := by
  rw [markDirty]
  generalize id :: g.ancestors id = marked
  induction marked generalizing g with
  | nil => exact SameLinks.refl g
  | cons a marked ih =>
    refine SameLinks.trans ?_ ih
    exact ⟨.modify a _, fun _ => name_modify fun _ => rfl,
      fun _ => pointer_modify fun _ => rfl, fun _ _ => child?_modify fun _ => rfl⟩

/-- Only the payload of one node is replaced. -/
theorem payload?_update (hid : id ∈ g.nodes) (payload : α) :
    (g.update id payload).payload? x = if x = id then some payload else g.payload? x := by
  obtain ⟨node, hnode⟩ := mem_nodes_iff.mp hid
  rw [payload?, payload?, update, getElem?_modify]
  by_cases hx : x = id
  · simp [hx, hnode]
  · rw [if_neg hx, if_neg hx]

/-- Only the mark of one node is taken away. -/
theorem isDirty_update (payload : α) :
    (g.update id payload).isDirty x = if x = id then false else g.isDirty x := by
  rw [isDirty, isDirty, update, getElem?_modify]
  split
  · cases g.nodes[x]? <;> rfl
  · rfl

theorem payload?_markDirty : (g.markDirty id).payload? x = g.payload? x := by
  rw [markDirty]
  generalize id :: g.ancestors id = marked
  induction marked generalizing g with
  | nil => rfl
  | cons a marked ih => rw [List.foldl_cons, ih, payload?_modify (by simp)]

/-- The marked nodes are the one that is meant and those above it, and those that were marked. -/
theorem isDirty_markDirty (hx : x ∈ g.nodes) :
    (g.markDirty id).isDirty x = (g.isDirty x || decide (x ∈ id :: g.ancestors id)) := by
  rw [markDirty]
  generalize id :: g.ancestors id = marked
  induction marked generalizing g with
  | nil => simp
  | cons a marked ih =>
    rw [List.foldl_cons, ih (mem_modify.mpr hx), isDirty, getElem?_modify]
    obtain ⟨node, hnode⟩ := mem_nodes_iff.mp hx
    by_cases ha : x = a
    · simp [← ha, hnode]
    · simp [isDirty, ha]

namespace Linked

/-- The next node does not live yet. -/
theorem next_notMem (hg : g.Linked) : g.next ∉ g.nodes :=
  fun h => Nat.lt_irrefl _ (hg.lt_next h)

/-- Wherever a child is found it has its parent there. -/
theorem parent?_of_child? (hg : g.Linked) (h : g.child? parent n = some c) :
    g.parent? c = some parent :=
  (hg.child?_iff.mp h).1

/-- A child that is found lives. -/
theorem mem_of_child? (hg : g.Linked) (h : g.child? parent n = some c) : c ∈ g.nodes :=
  (mem_nodes_of_parent? (hg.parent?_of_child? h)).1

/-- A node is found in one place only. -/
theorem child?_inj (hg : g.Linked) (h : g.child? parent n = some c) (h' : g.child? q m = some c) :
    q = parent ∧ m = n := by
  obtain ⟨hparent, hname⟩ := hg.child?_iff.mp h
  obtain ⟨hparent', hname'⟩ := hg.child?_iff.mp h'
  exact ⟨Option.some.inj (hparent'.symm.trans hparent), hname'.symm.trans hname⟩

/-- A node that leaves its place is found nowhere. -/
private theorem child?_leave (hg : g.Linked) :
    (g.leave c).child? q m = if g.child? q m = some c then none else g.child? q m := by
  cases hparent : g.parent? c with
  | none =>
    have hne : g.child? q m ≠ some c := by
      intro h
      rw [hg.parent?_of_child? h] at hparent
      cases hparent
    simp [leave, hparent, hne]
  | some parent =>
    have hchild : g.child? parent (g.name c) = some c := hg.child?_iff.mpr ⟨hparent, rfl⟩
    simp only [leave, hparent, if_pos hchild, child?_modify_erase]
    by_cases h : g.child? q m = some c
    · rw [if_pos h, if_pos (hg.child?_inj hchild h)]
    · rw [if_neg h, if_neg]
      rintro ⟨rfl, rfl⟩
      exact h hchild

end Linked

/-- A node leaves its place by being erased from the children of some node, if at all. -/
theorem leave_cases (g : Graph α) (c : NodeId) : g.leave c = g ∨ ∃ (parent : NodeId) (n : String),
    g.leave c = g.modify parent fun node => { node with children := node.children.erase n } := by
  rw [leave]
  split
  · split
    · exact .inr ⟨_, _, rfl⟩
    · exact .inl rfl
  · exact .inl rfl

private theorem sameContents_leave : g.SameContents (g.leave c) := by
  rcases leave_cases g c with h | ⟨parent, n, h⟩
  · rw [h]
    exact SameContents.refl g
  · rw [h]
    exact SameContents.modify parent (fun _ => rfl) fun _ => rfl

private theorem name_leave : (g.leave c).name x = g.name x := by
  rcases leave_cases g c with h | ⟨parent, n, h⟩
  · rw [h]
  · exact h ▸ name_modify fun _ => rfl

private theorem pointer_leave : (g.leave c).pointer x = g.pointer x := by
  rcases leave_cases g c with h | ⟨parent, n, h⟩
  · rw [h]
  · exact h ▸ pointer_modify fun _ => rfl

/-- The node `c` put under `parent` by the name `n`, whatever is there. -/
def place (g : Graph α) (parent : NodeId) (n : String) (c : NodeId) : Graph α :=
  (g.modify c fun node => { node with name := n, parent := some parent }).modify parent
    fun node => { node with children := node.children.insert n c }

/-- The graph with one node at most pointing at no parent. -/
def orphan? (g : Graph α) : Option NodeId → Graph α
  | some id => g.orphan id
  | none => g

private theorem sameContents_place : g.SameContents (g.place parent n c) := by
  have hnamed : g.SameContents
      (g.modify c fun node => { node with name := n, parent := some parent }) :=
    SameContents.modify c (by simp) (by simp)
  exact hnamed.trans (SameContents.modify parent (by simp) (by simp))

private theorem sameContents_orphan? (old : Option NodeId) : g.SameContents (g.orphan? old) := by
  cases old with
  | none => exact SameContents.refl g
  | some id => exact SameContents.modify id (by simp) (by simp)

private theorem name_place (hc : c ∈ g.nodes) :
    (g.place parent n c).name x = if x = c then n else g.name x := by
  rw [place, name_modify (by simp), name_modify_place hc]

private theorem pointer_place (hc : c ∈ g.nodes) :
    (g.place parent n c).pointer x = if x = c then some parent else g.pointer x := by
  rw [place, pointer_modify (by simp), pointer_modify_place hc]

private theorem child?_place (hparent : parent ∈ g.nodes) : (g.place parent n c).child? x m =
    if x = parent ∧ m = n then some c else g.child? x m := by
  rw [place, child?_modify_insert (mem_modify.mpr hparent)]
  split
  · rfl
  · rw [child?_modify (by simp)]

private theorem name_orphan? (old : Option NodeId) : (g.orphan? old).name x = g.name x := by
  cases old with
  | none => rfl
  | some id => exact name_modify fun _ => rfl

private theorem pointer_orphan? (old : Option NodeId) :
    (g.orphan? old).pointer x = if old = some x then none else g.pointer x := by
  cases old with
  | none => rfl
  | some id => simp [orphan?, pointer_orphan, eq_comm]

private theorem child?_orphan? (old : Option NodeId) :
    (g.orphan? old).child? x m = g.child? x m := by
  cases old with
  | none => rfl
  | some id => exact child?_modify fun _ => rfl

/-- Attaching, in three steps. -/
theorem attach_eq (g : Graph α) (parent : NodeId) (n : String) (c : NodeId) :
    g.attach parent n c = if c = parent ∨ g.isAbove c parent then .error ⟨g.name parent, g.name c⟩
      else .ok ((g.leave c).child? parent n,
        ((g.leave c).place parent n c).orphan? ((g.leave c).child? parent n)) := by
  rw [attach]
  split
  · rfl
  · cases h : (g.leave c).child? parent n <;> simp only [h] <;> rfl

/-- A node cannot be made a child of itself or of one below it, and of every other one it can. -/
theorem Linked.attach_eq_error_iff (hg : g.Linked) {cycle : Cycle} :
    g.attach parent n c = .error cycle ↔
      (c = parent ∨ g.Above c parent) ∧ cycle = ⟨g.name parent, g.name c⟩ := by
  rw [attach_eq, ← hg.acyclic.isAbove_iff]
  by_cases h : c = parent ∨ g.isAbove c parent = true
  · rw [if_pos h, Except.error.injEq, eq_comm]
    exact ⟨fun hcycle => ⟨h, hcycle⟩, And.right⟩
  · rw [if_neg h]
    constructor
    · intro hok
      cases hok
    · intro hcycle
      exact absurd hcycle.1 h

/-- A node that has been attached was neither its new parent nor above it. -/
theorem Linked.not_above_of_attach (hg : g.Linked) {result : Option NodeId × Graph α}
    (h : g.attach parent n c = .ok result) : ¬ (c = parent ∨ g.Above c parent) := by
  intro hcycle
  rw [hg.attach_eq_error_iff.mpr ⟨hcycle, rfl⟩] at h
  cases h

/-- What attaching a node does, and which one it gives back. -/
theorem Linked.attached (hg : g.Linked) (hparent : parent ∈ g.nodes) (hc : c ∈ g.nodes)
    {replaced : Option NodeId} (h : g.attach parent n c = .ok (replaced, g')) :
    g.Attached g' parent n c ∧
      replaced = if g.child? parent n = some c then none else g.child? parent n := by
  rw [attach_eq] at h
  split at h
  · cases h
  · obtain ⟨rfl, rfl⟩ := Prod.ext_iff.mp (Except.ok.inj h)
    have hreplaced := hg.child?_leave (c := c) (q := parent) (m := n)
    have hleft : g.SameContents (g.leave c) := sameContents_leave
    refine ⟨⟨?_, ?_, ?_, ?_⟩, hreplaced⟩
    · exact (hleft.trans sameContents_place).trans (sameContents_orphan? _)
    · intro x
      rw [name_orphan?, name_place ((hleft.mem c).mpr hc), name_leave]
    · intro x
      rw [pointer_orphan?, pointer_place ((hleft.mem c).mpr hc), pointer_leave, hreplaced]
      by_cases hx : x = c
      · subst hx
        simp
      · by_cases hchild : g.child? parent n = some c <;> simp [hx, hchild, Ne.symm hx]
    · intro q m
      rw [child?_orphan?, child?_place ((hleft.mem parent).mpr hparent), hg.child?_leave]

/-- What detaching a child does, and which one it gives back. -/
theorem detached_of_detach (h : g.detach parent n = some (c, g')) :
    g.Detached g' parent n ∧ g.child? parent n = some c := by
  obtain ⟨c, hchild, hc⟩ := Option.map_eq_some_iff.mp h
  obtain ⟨rfl, rfl⟩ := Prod.ext_iff.mp hc
  have herased : g.SameContents
      (g.modify parent fun node => { node with children := node.children.erase n }) :=
    SameContents.modify parent (by simp) (by simp)
  refine ⟨⟨?_, ?_, ?_, ?_⟩, hchild⟩
  · exact herased.trans (SameContents.modify c (by simp) (by simp))
  · intro x
    rw [orphan, name_modify (by simp), name_modify (by simp)]
  · intro x
    rw [pointer_orphan, pointer_modify (by simp), hchild]
    simp only [Option.some.injEq, eq_comm]
  · intro q m
    rw [orphan, child?_modify (by simp), child?_modify_erase]

/-- A new node has no links, and no other one has changed. -/
structure Created (g g' : Graph α) (n : String) (payload : Option α) : Prop where
  next : g'.next = g.next + 1
  mem : ∀ id, id ∈ g'.nodes ↔ id = g.next ∨ id ∈ g.nodes
  name : ∀ id, g'.name id = if id = g.next then n else g.name id
  payload? : ∀ id, g'.payload? id = if id = g.next then payload else g.payload? id
  isDirty : ∀ id, g'.isDirty id = if id = g.next then false else g.isDirty id
  pointer : ∀ id, g'.pointer id = g.pointer id
  child? : ∀ id m, g'.child? id m = g.child? id m

/-- What creating a node does. -/
theorem Linked.created (hg : g.Linked) (n : String) (payload : Option α) :
    g.Created (g.create n payload).2 n payload := by
  have hfresh : g.nodes[g.next]? = none := Std.ExtTreeMap.getElem?_eq_none hg.next_notMem
  have hnode (id : NodeId) : (g.create n payload).2.nodes[id]? =
      if id = g.next then some (.detached n payload) else g.nodes[id]? := by
    rw [create, Std.ExtTreeMap.getElem?_insert]
    simp only [Std.LawfulEqCmp.compare_eq_iff_eq, eq_comm (a := g.next)]
  refine ⟨rfl, ?_, ?_, ?_, ?_, ?_, ?_⟩
  · intro id
    rw [Std.ExtTreeMap.mem_iff_isSome_getElem?, hnode, Std.ExtTreeMap.mem_iff_isSome_getElem?]
    split <;> simp [*]
  · intro id
    rw [Graph.name, hnode]
    split <;> rfl
  · intro id
    rw [Graph.payload?, hnode]
    split <;> rfl
  · intro id
    rw [Graph.isDirty, hnode]
    split <;> rfl
  · intro id
    rw [Graph.pointer, Graph.pointer, hnode]
    split
    · subst id
      rw [hfresh]
      rfl
    · rfl
  · intro id m
    rw [Graph.child?, Graph.child?, hnode]
    split
    · subst id
      rw [hfresh]
      rfl
    · rfl

theorem Created.parent? {payload : Option α} (h : g.Created g' n payload) (hg : g.Linked)
    (id : NodeId) : g'.parent? id = g.parent? id := by
  ext parent
  rw [parent?_eq_some_iff, parent?_eq_some_iff, h.pointer, h.mem]
  constructor
  · rintro ⟨hpointer, rfl | hmem⟩
    · exact absurd (hg.pointer_lt hpointer) (Nat.lt_irrefl _)
    · exact ⟨hpointer, hmem⟩
  · rintro ⟨hpointer, hmem⟩
    exact ⟨hpointer, .inr hmem⟩

end LayeredStore.Tree.Graph
