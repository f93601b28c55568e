import LayeredStore.Proofs.Tree.Places

/-!
# Outlines

The outline of a directory says what is held at every place, and nothing of nodes and links. Main
statements: what marking, updating, creating, attaching and detaching nodes does to the outline of
the directory that they are in.
-/

namespace LayeredStore.Tree

/-- What a node holds besides its links. -/
structure Content (α : Type) where
  payload : Option α
  dirty : Bool
deriving DecidableEq

/-- What is held at each place, if anything is. -/
abbrev Outline (α : Type) := List String → Option (Content α)

namespace Outline

variable {α : Type}

/-- What a new node holds. -/
def blank : Content α := ⟨none, false⟩

/-- Nothing but the root. -/
def start : Outline α := fun k => if k = [] then some blank else none

/-- Every place on the way to `k` is taken; those that were free hold nothing yet. -/
def grow (o : Outline α) (k : List String) : Outline α := fun j =>
  if j <+: k then some ((o j).getD blank) else o j

/-- One place gets a payload and is clean. -/
def put (o : Outline α) (k : List String) (payload : α) : Outline α := fun j =>
  if j = k then (o j).map fun _ => ⟨some payload, false⟩ else o j

/-- Some places are marked, those of them that are taken. -/
def mark (o : Outline α) (marked : List String → Prop) [DecidablePred marked] : Outline α :=
  fun j => (o j).map fun held => { held with dirty := held.dirty || decide (marked j) }

/-- Whatever is at or below a place is gone. -/
def remove (o : Outline α) (k : List String) : Outline α := fun j => if k <+: j then none else o j

/-- What was at or below the source is at and below the target, and nothing else is there; nothing
else is left at or below the source. -/
def relocate (o : Outline α) (source target : List String) : Outline α := fun j =>
  if target <+: j then o (source ++ j.drop target.length)
  else if source <+: j then none else o j

/-- What is left of an outline when a place is deleted: the places above it are marked. -/
def deleted (o : Outline α) (k : List String) : Outline α :=
  (o.remove k).mark fun j => j <+: k ∧ j ≠ k

/-- What a move makes of an outline. All places down to the target are marked, and those above the
source that are not at or below the target. -/
def moved (o : Outline α) (source target : List String) : Outline α :=
  (o.relocate source target).mark fun k =>
    k <+: target ∨ k <+: source ∧ k ≠ source ∧ ¬ target <+: k

/-- What a move takes from the target, unless that is the source. If it was above the source, it is
marked. -/
def replaced (o : Outline α) (source target : List String) : Option (Content α) :=
  if source = target then none else (o.mark (· <+: source)) target

private theorem mark_mark (o : Outline α) (marked more : List String → Prop) [DecidablePred marked]
    [DecidablePred more] : (o.mark marked).mark more = o.mark fun k => marked k ∨ more k := by
  funext k
  simp only [mark, Option.map_map, Bool.decide_or]
  congr 1
  funext held
  simp [Bool.or_assoc]

/-- Marking depends only on which places are marked. -/
theorem mark_congr (o : Outline α) {marked marked' : List String → Prop} [DecidablePred marked]
    [DecidablePred marked'] (h : ∀ k, marked k ↔ marked' k) : o.mark marked = o.mark marked' := by
  funext k
  simp only [mark, h k]

end Outline

namespace Graph

variable {α : Type} {g g' : Graph α} {id root parent c x : NodeId} {n : String}
  {j k source target : List String}

/-- What a node holds besides its links. -/
def content (g : Graph α) (id : NodeId) : Content α := ⟨g.payload? id, g.isDirty id⟩

/-- The outline of the directory below a root. -/
def outline (g : Graph α) (root : NodeId) : Outline α := fun k =>
  (g.lookup root ⟨true, k⟩).map g.content

theorem outline_apply : g.outline root k = (g.descend root k).map g.content := rfl

/-- A place below a root is taken where a node is found. -/
theorem isSome_outline_iff : (g.outline root k).isSome ↔ ∃ id, g.descend root k = some id := by
  rw [outline_apply, Option.isSome_map, Option.isSome_iff_exists]

/-- Nothing is found where nothing is seen. -/
theorem outline_eq_none_iff : g.outline root k = none ↔ g.descend root k = none := by
  rw [outline_apply, Option.map_eq_none_iff]

theorem SameContents.content (h : g.SameContents g') : g'.content = g.content := by
  funext id
  rw [Graph.content, Graph.content, h.payload?, h.isDirty]

theorem content_markDirty (hx : x ∈ g.nodes) : (g.markDirty id).content x =
    { g.content x with dirty := (g.content x).dirty || decide (x ∈ id :: g.ancestors id) } := by
  rw [content, payload?_markDirty, isDirty_markDirty hx]
  rfl

/-- The nodes that are marked with another one are those from which names lead to it. -/
theorem Linked.mem_marked_iff (hg : g.Linked) :
    x ∈ id :: g.ancestors id ↔ ∃ r, g.descend x r = some id := by
  rw [hg.exists_descend_iff, List.mem_cons, hg.acyclic.mem_ancestors_iff]

namespace Rooted

/-- Marking a node that is found marks all prefixes of its place. -/
theorem outline_markDirty (hg : g.Rooted root) (hj : g.descend root j = some id) :
    (g.markDirty id).outline root = (g.outline root).mark (· <+: j) := by
  funext k
  rw [outline_apply, descend_markDirty, Outline.mark, outline_apply]
  cases hk : g.descend root k with
  | none => rfl
  | some x =>
    have hmarked : x ∈ id :: g.ancestors id ↔ k <+: j := by
      rw [hg.linked.mem_marked_iff, hg.exists_descend_iff_of_descend hk hj]
    simp only [Option.map_some, content_markDirty (hg.mem_of_descend hk), hmarked]

/-- Marking a node that is not found changes nothing that is found. -/
private theorem outline_markDirty_of_lost (hg : g.Rooted root)
    (h : ∀ k, g.descend root k ≠ some id) : (g.markDirty id).outline root = g.outline root := by
  funext k
  rw [outline_apply, descend_markDirty, outline_apply]
  cases hk : g.descend root k with
  | none => rfl
  | some x =>
    have hmarked : x ∉ id :: g.ancestors id := by
      rw [hg.linked.mem_marked_iff]
      rintro ⟨r, hr⟩
      apply h (k ++ r)
      rw [descend_append, hk]
      exact hr
    simp [content_markDirty (hg.mem_of_descend hk), hmarked]

/-- A node that is not found is not marked together with one that is. -/
theorem content_markDirty_of_lost (hg : g.Rooted root) (hj : g.descend root j = some id)
    (hx : x ∈ g.nodes) (h : ∀ k, g.descend root k ≠ some x) :
    (g.markDirty id).content x = g.content x := by
  have hmarked : x ∉ id :: g.ancestors id := by
    rw [hg.linked.mem_marked_iff]
    intro hbelow
    obtain ⟨k, hk⟩ := hg.exists_place_of_descend hj hbelow
    exact h k hk
  simp [content_markDirty hx, hmarked]

/-- Updating a node that is found puts the payload in its place. -/
theorem outline_update (hg : g.Rooted root) (hj : g.descend root j = some id) (payload : α) :
    (g.update id payload).outline root = (g.outline root).put j payload := by
  funext k
  rw [outline_apply, descend_congr (sameLinks_update payload).child?, Outline.put, outline_apply]
  cases hk : g.descend root k with
  | none => simp
  | some x =>
    have hplace : x = id ↔ k = j := by
      constructor
      · rintro rfl
        exact hg.descend_inj hk hj
      · rintro rfl
        exact Option.some.inj (hk.symm.trans hj)
    rw [Option.map_some, content, payload?_update (hg.mem_of_descend hj), isDirty_update]
    by_cases hx : x = id
    · simp [hx, hplace.mp hx]
    · rw [if_neg hx, if_neg hx, if_neg (mt hplace.mpr hx)]
      rfl

/-- A root that is held keeps its outline. -/
theorem outline_collect (hg : g.Rooted root) {held : List NodeId} (hroot : root ∈ held) :
    (g.collect held).outline root = g.outline root := by
  funext k
  rw [outline_apply, outline_apply, hg.descend_collect hroot]
  cases hk : g.descend root k with
  | none => rfl
  | some x =>
    have hnode := getElem?_collect (hg.mem_collect_of_descend hroot hk)
    simp only [Option.map_some, content, payload?, isDirty, hnode]

/-- A node that is detached is gone with all that is below it. -/
theorem outline_detached (hg : g.Rooted root) (h : g.Detached g' parent n)
    (hj : g.descend root j = some parent) :
    g'.outline root = (g.outline root).remove (j ++ [n]) := by
  funext k
  rw [outline_apply, Outline.remove, h.toSameContents.content]
  by_cases hplace : j ++ [n] <+: k
  · rw [hg.descend_detached_place h hj hplace, if_pos hplace]
    rfl
  · rw [hg.descend_detached_elsewhere h hj hplace, if_neg hplace]
    rfl

/-- A node that is attached to a new parent in the same directory moves with all that is below. -/
theorem descend_relocated (hg : g.Rooted root) (h : g.Attached g' parent n c)
    (hj : g.descend root j = some parent) (hnew : ¬ (c = parent ∨ g.Above c parent))
    (hc : g.descend root source = some c) (k : List String) : g'.descend root k =
      if j ++ [n] <+: k then g.descend root (source ++ k.drop (j ++ [n]).length)
      else if source <+: k then none else g.descend root k := by
  by_cases hplace : j ++ [n] <+: k
  · rw [if_pos hplace]
    obtain ⟨r, rfl⟩ := hplace
    rw [hg.descend_attached_place h hj hnew, List.drop_left, descend_append, hc, Option.bind_some]
  · rw [if_neg hplace]
    by_cases hold : source <+: k
    · rw [if_pos hold, hg.descend_attached_left h hj hnew hplace hc hold]
    · rw [if_neg hold, hg.descend_attached_elsewhere h hj hnew hplace]
      intro i hi hfound
      rw [hg.descend_inj hfound hc] at hi
      exact hold hi

private theorem outline_relocated (hg : g.Rooted root) (h : g.Attached g' parent n c)
    (hj : g.descend root j = some parent) (hnew : ¬ (c = parent ∨ g.Above c parent))
    (hc : g.descend root source = some c) :
    g'.outline root = (g.outline root).relocate source (j ++ [n]) := by
  funext k
  rw [outline_apply, hg.descend_relocated h hj hnew hc, h.toSameContents.content, Outline.relocate]
  split
  · rfl
  · split <;> rfl

/-- What was found before and is found after a node was moved has moved along or has stayed. -/
private theorem place_relocated (hg : g.Rooted root) (h : g.Attached g' parent n c)
    (hj : g.descend root j = some parent) (hnew : ¬ (c = parent ∨ g.Above c parent))
    (hc : g.descend root source = some c) {i : List String} (hi : g.descend root i = some x)
    (hk : g'.descend root k = some x) : source <+: i ∨ i = k ∧ ¬ j ++ [n] <+: i := by
  rw [hg.descend_relocated h hj hnew hc] at hk
  by_cases hplace : j ++ [n] <+: k
  · rw [if_pos hplace] at hk
    exact .inl ⟨_, hg.descend_inj hk hi⟩
  · rw [if_neg hplace] at hk
    split at hk
    · cases hk
    · obtain rfl := hg.descend_inj hi hk
      exact .inr ⟨rfl, hplace⟩

/-! ### A node that is moved, and the marks that this leaves -/

section Moved

variable {oldParent : NodeId} {m : String} {i : List String} (hg : g.Rooted root)
  (h : g.Attached g' parent n c) (hj : g.descend root j = some parent)
  (hnew : ¬ (c = parent ∨ g.Above c parent)) (hi : g.descend root i = some oldParent)
  (hc : g.descend root (i ++ [m]) = some c)

include hg h hj hnew hi hc

/-- The parent that a node leaves stays where it is, unless it was at or below the node's new
place. -/
private theorem descend_oldParent (hplace : ¬ j ++ [n] <+: i) :
    g'.descend root i = some oldParent := by
  rw [hg.descend_relocated h hj hnew hc, if_neg hplace, if_neg (not_concat_prefix_self i m), hi]

private theorem descend_ne_oldParent (hplace : j ++ [n] <+: i) (k : List String) :
    g'.descend root k ≠ some oldParent := by
  intro hk
  rcases hg.place_relocated h hj hnew hc hi hk with hbelow | ⟨-, hne⟩
  · exact not_concat_prefix_self i m hbelow
  · exact hne hplace

/-- Marking first the parent that the node has left and then the node marks all places down to the
new one, and those down to the old one that have not been replaced. -/
theorem outline_moved : ((g'.markDirty oldParent).markDirty c).outline root =
    (g.outline root).moved (i ++ [m]) (j ++ [n]) := by
  have hrooted := hg.attached h hj hnew
  have hnode := (descend_markDirty oldParent).trans (hg.descend_attached_self h hj hnew)
  rw [Outline.moved, hrooted.markDirty.outline_markDirty hnode,
    ← hg.outline_relocated h hj hnew hc]
  by_cases hplace : j ++ [n] <+: i
  · -- the old parent has been replaced, or was below what has been
    rw [hrooted.outline_markDirty_of_lost (hg.descend_ne_oldParent h hj hnew hi hc hplace)]
    apply Outline.mark_congr
    intro k
    constructor
    · exact .inl
    · rintro (hk | ⟨hk, -, hne⟩)
      · exact hk
      · exact (List.prefix_or_prefix_of_prefix hk
          (hplace.trans (List.prefix_append i [m]))).resolve_right hne
  · rw [hrooted.outline_markDirty (hg.descend_oldParent h hj hnew hi hc hplace), Outline.mark_mark]
    apply Outline.mark_congr
    intro k
    rw [← and_assoc, prefix_and_ne_concat_iff, or_comm]
    apply or_congr_right
    constructor
    · intro hk
      exact ⟨hk, fun hne => hplace (hne.trans hk)⟩
    · exact And.left

/-- The node that is replaced is marked exactly if it was above the one that is moved. -/
theorem content_replaced {old : NodeId} (hold : g.child? parent n = some old) (hne : old ≠ c) :
    ((g'.markDirty oldParent).markDirty c).content old =
      { g.content old with dirty := (g.content old).dirty || decide (j ++ [n] <+: i ++ [m]) } := by
  have hrooted := hg.attached h hj hnew
  have hplaced := (descend_child hj n).trans hold
  have hmem : old ∈ g'.nodes := (h.mem old).mpr (hg.mem_of_descend hplaced)
  have hmem' : old ∈ (g'.markDirty oldParent).nodes := (sameLinks_markDirty.mem old).mpr hmem
  have hsource : j ++ [n] ≠ i ++ [m] := by
    intro heq
    rw [heq, hc] at hplaced
    exact hne (Option.some.inj hplaced).symm
  have hlost (k : List String) : g'.descend root k ≠ some old := by
    intro hk
    rcases hg.place_relocated h hj hnew hc hplaced hk with hbelow | ⟨-, hself⟩
    · rcases List.prefix_concat_iff.mp hbelow with heq | hbelow
      · exact hsource heq.symm
      · exact hg.not_prefix_of_descend hj hnew hc hbelow
    · exact hself (List.prefix_refl _)
  have hnode := (descend_markDirty oldParent).trans (hg.descend_attached_self h hj hnew)
  rw [hrooted.markDirty.content_markDirty_of_lost hnode hmem' fun k => by
    rw [descend_markDirty]; exact hlost k]
  by_cases hplace : j ++ [n] <+: i
  · -- the old parent was at or below the node that is replaced, and still is
    have hover : old ∈ oldParent :: g'.ancestors oldParent := by
      obtain ⟨r, hr⟩ := (hg.exists_descend_iff_of_descend hplaced hi).mpr hplace
      rcases hg.linked.exists_descend_iff.mp ⟨r, hr⟩ with rfl | habove
      · exact List.mem_cons_self
      · refine List.mem_cons_of_mem _ (hrooted.linked.acyclic.mem_ancestors_iff.mpr ?_)
        refine hg.linked.above_attached h (hg.mem_of_descend hj) habove ?_ hold
        rw [← hg.linked.exists_descend_iff, hg.exists_descend_iff_of_descend hc hi]
        exact not_concat_prefix_self i m
    rw [content_markDirty hmem, h.toSameContents.content]
    simp [hover, hplace.trans (List.prefix_append i [m])]
  · rw [hrooted.content_markDirty_of_lost (hg.descend_oldParent h hj hnew hi hc hplace) hmem hlost,
      h.toSameContents.content]
    simp [List.prefix_concat_iff, hplace, hsource]

end Moved

/-! ### Nodes that are made where they are missing -/

/-- A child made where it was missing takes one more place. -/
theorem childOrNew (hg : g.Rooted root) (hj : g.descend root j = some id) (n : String) :
    (g.childOrNew id n).2.Rooted root ∧
      (g.childOrNew id n).2.descend root (j ++ [n]) = some (g.childOrNew id n).1 ∧
      (g.childOrNew id n).2.outline root = fun k =>
        if k = j ++ [n] then some ((g.outline root k).getD Outline.blank)
        else g.outline root k := by
  rcases hg.linked.childOrNew_cases (hg.mem_of_descend hj) n with
    ⟨c, hchild, h⟩ | ⟨hchild, hnew, joined, h, hattached⟩
  · have hplace := (descend_child hj n).trans hchild
    rw [h]
    refine ⟨hg, hplace, ?_⟩
    funext k
    by_cases hk : k = j ++ [n]
    · rw [if_pos hk, hk, outline_apply, hplace]
      rfl
    · rw [if_neg hk]
  · have hcreated := hg.linked.created n none
    have hgrown := hg.created hcreated
    have hsame (k : List String) : (g.create n none).2.descend root k = g.descend root k :=
      descend_congr hcreated.child?
    have hj' := (hsame j).trans hj
    -- nothing is below the new node
    have hbare (m : String) : (g.create n none).2.child? g.next m = none := by
      rw [hcreated.child?, child?_eq_none hg.linked.next_notMem]
    have hplace (r : List String) := hgrown.descend_attached_place (r := r) hattached hj' hnew
    rw [h]
    refine ⟨hgrown.attached hattached hj' hnew, ?_, ?_⟩
    · rw [← List.append_nil (j ++ [n]), hplace]
      rfl
    · funext k
      rw [outline_apply, outline_apply, hattached.toSameContents.content]
      by_cases hk : j ++ [n] <+: k
      · obtain ⟨r, rfl⟩ := hk
        rw [hplace, descend_append, descend_concat, hj, Option.bind_some, hchild]
        cases r with
        | nil =>
          rw [List.append_nil, if_pos rfl]
          simp [content, hcreated.payload?, hcreated.isDirty, Outline.blank]
        | cons m r => simp [descend, List.foldlM_cons, hbare]
      · have hne : k ≠ j ++ [n] := fun he => hk (he ▸ List.prefix_refl _)
        rw [if_neg hne, hgrown.descend_attached_elsewhere hattached hj' hnew hk, hsame]
        · cases hx : g.descend root k with
          | none => rfl
          | some x =>
            have hold := Nat.ne_of_lt (hg.linked.lt_next (hg.mem_of_descend hx))
            simp [content, hcreated.payload?, hcreated.isDirty, hold]
        · intro i hi hnext
          rw [hsame] at hnext
          exact hg.linked.next_notMem (hg.mem_of_descend hnext)

/-- Going down and making what is missing takes all places on the way. -/
theorem foldl_childOrNew (hg : g.Rooted root) (k : List String) {id : NodeId} {g' : Graph α}
    (h : k.foldl (fun (id, g) name => g.childOrNew id name) (root, g) = (id, g')) :
    g'.Rooted root ∧ g'.descend root k = some id ∧ g'.outline root = (g.outline root).grow k := by
  induction k using List.reverseRecOn generalizing id g' with
  | nil =>
    obtain ⟨rfl, rfl⟩ : root = id ∧ g = g' := by simpa using h
    refine ⟨hg, rfl, ?_⟩
    funext k
    simp only [Outline.grow, List.prefix_nil]
    by_cases hk : k = []
    · rw [if_pos hk, hk]
      rfl
    · rw [if_neg hk]
  | append_singleton k n ih =>
    rw [List.foldl_append, List.foldl_cons, List.foldl_nil] at h
    obtain ⟨hrooted, hplace, houtline⟩ := ih rfl
    obtain ⟨hrooted', hplace', houtline'⟩ := hrooted.childOrNew hplace n
    obtain ⟨rfl, rfl⟩ := Prod.ext_iff.mp h
    refine ⟨hrooted', hplace', houtline'.trans ?_⟩
    funext i
    simp only [houtline, Outline.grow, List.prefix_concat_iff]
    by_cases hi : i = k ++ [n]
    · subst hi
      simp [not_concat_prefix_self]
    · simp only [hi, if_false, false_or]

end Rooted
end Graph
end LayeredStore.Tree
