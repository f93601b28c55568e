import LayeredStore.Proofs.Tree.Events
import Mathlib.Data.List.Induction
import Mathlib.Data.List.Infix

/-!
# Places

The names on the way from the root of a directory down to a node are the node's place. Main
statements: below a root every node has one place at most, the nodes above it are those at the
prefixes of its place, and what attaching or detaching a node does to all places.
-/

namespace LayeredStore.Tree.Graph

variable {α : Type} {g g' : Graph α} {id root parent a b c : NodeId} {n : String}
  {i j k r : List String}

/-- The node that names lead to from another one. -/
def descend (g : Graph α) (id : NodeId) (names : List String) : Option NodeId :=
  names.foldlM g.child? id

@[simp] theorem descend_nil : g.descend id [] = some id := rfl

theorem descend_append : g.descend id (j ++ r) = (g.descend id j).bind (g.descend · r) := by
  rw [descend, List.foldlM_append]
  rfl

/-- The last name leads to a child. -/
theorem descend_concat : g.descend id (k ++ [n]) = (g.descend id k).bind (g.child? · n) := by
  rw [descend_append]
  congr 1
  ext x
  simp [descend, List.foldlM_cons]

/-- One more name leads to the child of that name. -/
theorem descend_child (hj : g.descend root j = some parent) (n : String) :
    g.descend root (j ++ [n]) = g.child? parent n := by
  rw [descend_concat, hj, Option.bind_some]

/-- A place is not below its own child. -/
theorem not_concat_prefix_self (j : List String) (n : String) : ¬ j ++ [n] <+: j := by
  intro h
  have hlength := h.length_le
  rw [List.length_append, List.length_singleton] at hlength
  omega

/-- The places strictly above a child are those at or above its parent. -/
theorem prefix_and_ne_concat_iff : i <+: j ++ [n] ∧ i ≠ j ++ [n] ↔ i <+: j := by
  rw [List.prefix_concat_iff]
  constructor
  · rintro ⟨heq | hi, hne⟩
    · exact absurd heq hne
    · exact hi
  · intro hi
    refine ⟨.inr hi, ?_⟩
    rintro rfl
    exact not_concat_prefix_self j n hi

/-- Where all children are the same, names lead to the same nodes. -/
theorem descend_congr (h : ∀ id n, g'.child? id n = g.child? id n) :
    g'.descend id k = g.descend id k := by
  rw [descend, descend, show g'.child? = g.child? from funext fun id => funext (h id)]

theorem descend_markDirty (id : NodeId) : (g.markDirty id).descend root k = g.descend root k :=
  descend_congr sameLinks_markDirty.child?

namespace Linked

/-- Names lead from a node to itself and to what is below it. -/
theorem exists_descend_iff (hg : g.Linked) :
    (∃ r, g.descend a r = some b) ↔ a = b ∨ g.Above a b := by
  constructor
  · rintro ⟨r, hr⟩
    induction r using List.reverseRecOn generalizing b with
    | nil => exact .inl (Option.some.inj hr)
    | append_singleton r n ih =>
      rw [descend_concat] at hr
      obtain ⟨parent, hparent, hchild⟩ := Option.bind_eq_some_iff.mp hr
      have hlink := hg.parent?_of_child? hchild
      rcases ih hparent with rfl | habove
      · exact .inr (above_of_parent? hlink)
      · exact .inr (habove.of_parent? hlink)
  · rintro (rfl | habove)
    · exact ⟨[], rfl⟩
    · have hstep {x y : NodeId} (hlink : g.parent? y = some x) : g.child? x (g.name y) = some y :=
        hg.child?_iff.mpr ⟨hlink, rfl⟩
      induction habove with
      | @single y hlink => exact ⟨[] ++ [g.name y], (descend_child rfl _).trans (hstep hlink)⟩
      | @tail x y _ hlink ih =>
        obtain ⟨r, hr⟩ := ih
        exact ⟨r ++ [g.name y], (descend_child hr _).trans (hstep hlink)⟩

/-- Attaching a node changes nothing below it. -/
private theorem descend_attached_child (hg : g.Linked) (h : g.Attached g' parent n c)
    (hnew : ¬ (c = parent ∨ g.Above c parent)) : g'.descend c r = g.descend c r := by
  induction r using List.reverseRecOn with
  | nil => rfl
  | append_singleton r m ih =>
    rw [descend_concat, descend_concat, ih]
    cases hx : g.descend c r with
    | none => rfl
    | some x =>
      have hbelow : c = x ∨ g.Above c x := hg.exists_descend_iff.mp ⟨r, hx⟩
      rw [Option.bind_some, Option.bind_some, h.child?, if_neg, if_neg]
      · intro hchild
        have hover := above_of_parent? (hg.parent?_of_child? hchild)
        rcases hbelow with rfl | hbelow
        · exact hg.acyclic _ hover
        · exact hg.acyclic _ (hover.trans hbelow)
      · rintro ⟨rfl, -⟩
        exact hnew hbelow

/-- What was at or below a node whose place is taken by another one stays there, unless it is at or
below the other one. -/
theorem above_attached (hg : g.Linked) (h : g.Attached g' parent n c) (hparent : parent ∈ g.nodes)
    (habove : g.Above a b) (hb : ¬ (c = b ∨ g.Above c b)) (ha : g.child? parent n = some a) :
    g'.Above a b := by
  have hlink {x y : NodeId} (hx : a = x ∨ g.Above a x) (hy : ¬ (c = y ∨ g.Above c y))
      (hold : g.parent? y = some x) : g'.parent? y = some x := by
    rw [h.parent? hparent, if_neg fun he => hy (.inl he.symm), if_neg, hold]
    intro hreplaced
    obtain rfl := Option.some.inj (ha.symm.trans hreplaced)
    rcases hx with rfl | hx
    · exact hg.acyclic _ (above_of_parent? hold)
    · exact hg.acyclic _ (hx.of_parent? hold)
  induction habove with
  | single hold => exact above_of_parent? (hlink (.inl rfl) hb hold)
  | @tail x y hover hold ih =>
    refine (ih fun hx => hb (.inr ?_)).of_parent? (hlink (.inr hover) hb hold)
    rcases hx with rfl | hx
    · exact above_of_parent? hold
    · exact hx.of_parent? hold

end Linked

/-- A living node without parent and name, below which a directory has its nodes. -/
structure Rooted (g : Graph α) (root : NodeId) : Prop where
  linked : g.Linked
  mem : root ∈ g.nodes
  parent? : g.parent? root = none
  name : g.name root = ""

namespace Rooted

/-- What is found lives. -/
theorem mem_of_descend (hg : g.Rooted root) (h : g.descend root k = some a) : a ∈ g.nodes :=
  hg.linked.mem_of_foldlM hg.mem h

/-- The root is found under no name. -/
theorem child?_ne_root (hg : g.Rooted root) (id : NodeId) (n : String) :
    g.child? id n ≠ some root := by
  intro h
  have hparent := hg.linked.parent?_of_child? h
  rw [hg.parent?] at hparent
  cases hparent

/-- A node has one place at most. -/
theorem descend_inj (hg : g.Rooted root) (hj : g.descend root j = some a)
    (hk : g.descend root k = some a) : j = k := by
  induction j using List.reverseRecOn generalizing k a with
  | nil =>
    obtain rfl := Option.some.inj hj
    rcases List.eq_nil_or_concat' k with rfl | ⟨k, m, rfl⟩
    · rfl
    · rw [descend_concat] at hk
      obtain ⟨x, -, hchild⟩ := Option.bind_eq_some_iff.mp hk
      exact absurd hchild (hg.child?_ne_root x m)
  | append_singleton j n ih =>
    rw [descend_concat] at hj
    obtain ⟨x, hx, hchild⟩ := Option.bind_eq_some_iff.mp hj
    rcases List.eq_nil_or_concat' k with rfl | ⟨k, m, rfl⟩
    · obtain rfl := Option.some.inj hk
      exact absurd hchild (hg.child?_ne_root x n)
    · rw [descend_concat] at hk
      obtain ⟨y, hy, hchild'⟩ := Option.bind_eq_some_iff.mp hk
      obtain ⟨rfl, rfl⟩ := hg.linked.child?_inj hchild hchild'
      rw [ih hx hy]

/-- A node that is found is at or above another one exactly if it is at a prefix of its place. -/
theorem exists_descend_iff_of_descend (hg : g.Rooted root) (hj : g.descend root j = some a)
    (hk : g.descend root k = some b) : (∃ r, g.descend a r = some b) ↔ j <+: k := by
  constructor
  · rintro ⟨r, hr⟩
    have hplace : g.descend root (j ++ r) = some b := by rw [descend_append, hj]; exact hr
    exact ⟨r, hg.descend_inj hplace hk⟩
  · rintro ⟨r, rfl⟩
    rw [descend_append, hj] at hk
    exact ⟨r, hk⟩

/-- What is above a node that is found is found as well. -/
theorem exists_place_of_descend (hg : g.Rooted root) (hk : g.descend root k = some b)
    (h : ∃ r, g.descend a r = some b) : ∃ j, g.descend root j = some a := by
  rw [hg.linked.exists_descend_iff] at h
  induction k using List.reverseRecOn generalizing b with
  | nil =>
    obtain rfl := Option.some.inj hk
    rcases h with rfl | habove
    · exact ⟨[], rfl⟩
    · obtain ⟨parent, hparent, -⟩ := habove.cases
      rw [hg.parent?] at hparent
      cases hparent
  | append_singleton k n ih =>
    rcases h with rfl | habove
    · exact ⟨k ++ [n], hk⟩
    · rw [descend_concat] at hk
      obtain ⟨x, hx, hchild⟩ := Option.bind_eq_some_iff.mp hk
      obtain ⟨parent, hparent, hover⟩ := habove.cases
      rw [hg.linked.parent?_of_child? hchild] at hparent
      obtain rfl := Option.some.inj hparent
      exact ih hx hover

/-- The name of a node that is found is the last one of its place. -/
theorem name_eq (hg : g.Rooted root) (hk : g.descend root k = some a) :
    g.name a = k.getLast?.getD "" := by
  rcases List.eq_nil_or_concat' k with rfl | ⟨k, n, rfl⟩
  · obtain rfl := Option.some.inj hk
    exact hg.name
  · rw [descend_concat] at hk
    obtain ⟨x, -, hchild⟩ := Option.bind_eq_some_iff.mp hk
    simpa using (hg.linked.child?_iff.mp hchild).2

/-- The parent of a node that is found is at its place without the last name. -/
theorem parent?_eq (hg : g.Rooted root) (hk : g.descend root k = some a) (hne : k ≠ []) :
    g.parent? a = g.descend root k.dropLast := by
  obtain ⟨k, n, rfl⟩ := (List.eq_nil_or_concat' k).resolve_left hne
  rw [descend_concat] at hk
  obtain ⟨x, hx, hchild⟩ := Option.bind_eq_some_iff.mp hk
  rw [List.dropLast_concat, hx]
  exact hg.linked.parent?_of_child? hchild

/-! ### A node that is attached -/

section Attached

variable (hg : g.Rooted root) (h : g.Attached g' parent n c) (hj : g.descend root j = some parent)
  (hnew : ¬ (c = parent ∨ g.Above c parent))

include hg hj hnew

/-- The node was not at or above the place of its new parent. -/
theorem not_prefix_of_descend (hi : g.descend root i = some c) : ¬ i <+: j := by
  rw [← hg.exists_descend_iff_of_descend hi hj, hg.linked.exists_descend_iff]
  exact hnew

include h

/-- What is neither at nor below the old or the new place of the node stays where it is. -/
theorem descend_attached_elsewhere (hplace : ¬ j ++ [n] <+: k)
    (hold : ∀ i, i <+: k → g.descend root i ≠ some c) :
    g'.descend root k = g.descend root k := by
  induction k using List.reverseRecOn with
  | nil => rfl
  | append_singleton k m ih =>
    have hk := ih (fun hbelow => hplace (hbelow.trans (List.prefix_append k [m])))
      (fun i hi => hold i (hi.trans (List.prefix_append k [m])))
    rw [descend_concat, descend_concat, hk]
    cases hx : g.descend root k with
    | none => rfl
    | some x =>
      rw [Option.bind_some, Option.bind_some, h.child?, if_neg, if_neg]
      · intro hchild
        apply hold (k ++ [m]) (List.prefix_refl _)
        rw [descend_concat, hx]
        exact hchild
      · rintro ⟨rfl, rfl⟩
        rw [hg.descend_inj hj hx] at hplace
        exact hplace (List.prefix_refl _)

/-- What was below the node is now below its new place. -/
theorem descend_attached_place : g'.descend root (j ++ [n] ++ r) = g.descend c r := by
  have hparent : g'.descend root j = some parent := by
    rw [hg.descend_attached_elsewhere h hj hnew (not_concat_prefix_self j n), hj]
    · intro i hi hplace
      exact hg.not_prefix_of_descend hj hnew hplace hi
  rw [descend_append, descend_concat, hparent, Option.bind_some, h.child?, if_pos ⟨rfl, rfl⟩]
  exact hg.linked.descend_attached_child h hnew

/-- The node is at its new place. -/
theorem descend_attached_self : g'.descend root (j ++ [n]) = some c := by
  have hplace := hg.descend_attached_place (r := []) h hj hnew
  rwa [List.append_nil] at hplace

/-- Nothing is left at or below the old place of the node, unless the new place is above it. -/
theorem descend_attached_left (hplace : ¬ j ++ [n] <+: k) (hi : g.descend root i = some c)
    (hik : i <+: k) : g'.descend root k = none := by
  have hgone : g'.descend root i = none := by
    rcases List.eq_nil_or_concat' i with rfl | ⟨i, m, rfl⟩
    · exact absurd (List.nil_prefix) (hg.not_prefix_of_descend hj hnew hi)
    · have hsame : g'.descend root i = g.descend root i := by
        apply hg.descend_attached_elsewhere h hj hnew
        · intro hbelow
          exact hplace (hbelow.trans ((List.prefix_append i [m]).trans hik))
        · intro i' hi' hc
          rw [hg.descend_inj hc hi] at hi'
          exact not_concat_prefix_self i m hi'
      rw [descend_concat, hsame]
      rw [descend_concat] at hi
      obtain ⟨x, hx, hchild⟩ := Option.bind_eq_some_iff.mp hi
      rw [hx, Option.bind_some, h.child?, if_neg, if_pos hchild]
      rintro ⟨rfl, rfl⟩
      rw [hg.descend_inj hj hx] at hplace
      exact hplace hik
  obtain ⟨r, rfl⟩ := hik
  rw [descend_append, hgone]
  rfl

/-- A root stays one when a node is attached below it. -/
theorem attached : g'.Rooted root := by
  have hparent := hg.mem_of_descend hj
  have hroot : root ≠ c := by
    rintro rfl
    exact hnew (hg.linked.exists_descend_iff.mp ⟨j, hj⟩)
  refine ⟨hg.linked.of_attached h hparent hnew, (h.mem root).mpr hg.mem, ?_, ?_⟩
  · rw [h.parent? hparent, if_neg hroot, if_neg (hg.child?_ne_root parent n), hg.parent?]
  · rw [h.name, if_neg hroot, hg.name]

end Attached

/-! ### A node that is detached -/

section Detached

variable (hg : g.Rooted root) (h : g.Detached g' parent n) (hj : g.descend root j = some parent)

include hg h hj

/-- What is neither at nor below the place that gets free stays where it is. -/
theorem descend_detached_elsewhere (hplace : ¬ j ++ [n] <+: k) :
    g'.descend root k = g.descend root k := by
  induction k using List.reverseRecOn with
  | nil => rfl
  | append_singleton k m ih =>
    rw [descend_concat, descend_concat,
      ih fun hbelow => hplace (hbelow.trans (List.prefix_append k [m]))]
    cases hx : g.descend root k with
    | none => rfl
    | some x =>
      rw [Option.bind_some, Option.bind_some, h.child?, if_neg]
      rintro ⟨rfl, rfl⟩
      rw [hg.descend_inj hj hx] at hplace
      exact hplace (List.prefix_refl _)

/-- Nothing is left at or below the place that gets free. -/
theorem descend_detached_place (hplace : j ++ [n] <+: k) : g'.descend root k = none := by
  have hparent : g'.descend root j = some parent := by
    rw [hg.descend_detached_elsewhere h hj (not_concat_prefix_self j n), hj]
  obtain ⟨r, rfl⟩ := hplace
  rw [descend_append, descend_concat, hparent, Option.bind_some, h.child?, if_pos ⟨rfl, rfl⟩]
  rfl

omit hj in
/-- A root stays one when a node is detached. -/
theorem detached : g'.Rooted root := by
  refine ⟨hg.linked.of_detached h, (h.mem root).mpr hg.mem, ?_, ?_⟩
  · rw [h.parent?, if_neg (hg.child?_ne_root parent n), hg.parent?]
  · rw [h.name, hg.name]

end Detached

/-! ### Other changes -/

/-- A root stays one when no link changes. -/
theorem sameLinks (hg : g.Rooted root) (h : g.SameLinks g') : g'.Rooted root where
  linked := hg.linked.of_sameLinks h
  mem := (h.mem root).mpr hg.mem
  parent? := by rw [h.parent?, hg.parent?]
  name := by rw [h.name, hg.name]

/-- A root stays one when a node is created. -/
theorem created {payload : Option α} (hg : g.Rooted root) (h : g.Created g' n payload) :
    g'.Rooted root where
  linked := hg.linked.of_created h
  mem := (h.mem root).mpr (.inr hg.mem)
  parent? := by rw [h.parent? hg.linked, hg.parent?]
  name := by rw [h.name, if_neg (Nat.ne_of_lt (hg.linked.lt_next hg.mem)), hg.name]

theorem markDirty (hg : g.Rooted root) : (g.markDirty id).Rooted root :=
  hg.sameLinks sameLinks_markDirty

/-- What is found below a root that is held goes on living. -/
theorem mem_collect_of_descend (hg : g.Rooted root) {held : List NodeId} (hroot : root ∈ held)
    (h : g.descend root k = some a) : a ∈ (g.collect held).nodes :=
  hg.linked.mem_collect_iff.mpr
    ⟨hg.mem_of_descend h, root, hroot, hg.linked.exists_descend_iff.mp ⟨k, h⟩⟩

/-- Names lead to the same nodes below a root that is held. -/
theorem descend_collect (hg : g.Rooted root) {held : List NodeId} (hroot : root ∈ held) :
    (g.collect held).descend root k = g.descend root k := by
  induction k using List.reverseRecOn with
  | nil => rfl
  | append_singleton k n ih =>
    rw [descend_concat, descend_concat, ih]
    cases hx : g.descend root k with
    | none => rfl
    | some x =>
      rw [Option.bind_some, Option.bind_some, child?, child?,
        getElem?_collect (hg.mem_collect_of_descend hroot hx)]

/-- A root that is held stays one. -/
theorem collect (hg : g.Rooted root) {held : List NodeId} (hroot : root ∈ held) :
    (g.collect held).Rooted root := by
  have hmem : root ∈ (g.collect held).nodes :=
    hg.mem_collect_of_descend (k := []) hroot rfl
  have hnode := getElem?_collect hmem
  refine ⟨hg.linked.collect held, hmem, ?_, ?_⟩
  · rw [Option.eq_none_iff_forall_ne_some]
    intro parent hparent
    obtain ⟨hpointer, hlives⟩ := parent?_eq_some_iff.mp hparent
    rw [pointer, hnode] at hpointer
    have hold : g.parent? root = some parent :=
      parent?_eq_some_iff.mpr ⟨hpointer, (hg.linked.mem_collect_iff.mp hlives).1⟩
    rw [hg.parent?] at hold
    cases hold
  · rw [Graph.name, hnode]
    exact hg.name

end Rooted
end LayeredStore.Tree.Graph
