import LayeredStore.Proofs.Tree.Outline
import Mathlib.Data.Set.Finite.Basic

/-!
# Directories as maps

Seen from outside, a directory is a finite map from places to what is held there, with every place
above a place that is taken being taken as well. Main statement: every operation of a directory
does to its outline what its description says, and answers or fails accordingly, in every run of
operations from an empty directory on.
-/

namespace LayeredStore.Tree

/-- What can be asked of a directory. A release is given the nodes that are held from outside. -/
inductive Operation (α : Type)
  | lookup (path : Path)
  | getOrCreate (path : Path)
  | insert (path : Path) (payload : α)
  | markDirty (path : Path)
  | update (path : Path) (payload : α)
  | move (source target : Path)
  | delete (path : Path)
  | release (held : List NodeId)

namespace Graph

variable {α : Type}

/-- An operation of the directory below a root, with the node that it gives back. -/
def perform (g : Graph α) (root : NodeId) : Operation α → Except Fault (Option NodeId × Graph α)
  | .lookup p => .ok (g.lookup root p, g)
  | .getOrCreate p => (g.getOrCreate root p).map fun (id, g') => (some id, g')
  | .insert p payload => (g.insert root p payload).map fun (id, g') => (some id, g')
  | .markDirty p => .ok (g.lookup root p, (g.markDirtyAt root p).getD g)
  | .update p payload =>
    .ok (g.lookup root p, ((g.lookup root p).map fun id => g.update id payload).getD g)
  | .move source target => g.move root source target
  | .delete p => (g.delete root p).map fun (id, g') => (some id, g')
  | .release held => .ok (none, g.collect (root :: held))

/-- The graph after some operations of one directory. -/
def performAll (g : Graph α) (root : NodeId) (ops : List (Operation α)) : Graph α :=
  ops.foldl (fun g op => orSame g (g.perform root op)) g

/-- What can be seen of a result: what the node given back holds, and the outline. -/
def seen (root : NodeId) : Option NodeId × Graph α → Option (Content α) × Outline α :=
  fun (node, g) => (node.map g.content, g.outline root)

end Graph

namespace Outline

variable {α : Type}

/-- What is held at an absolute path. -/
def lookup (o : Outline α) (p : Path) : Option (Content α) :=
  if p.absolute then o p.segments else none

/-- What a path asks for is changed, if it is there, and given back. -/
def changeAt (o : Outline α) (p : Path) (changed : Outline α) : Option (Content α) × Outline α :=
  if (o.lookup p).isSome then (changed.lookup p, changed) else (none, o)

/-- A move in an outline: the source and the place above the target must be taken, the target must
not be below the source, and neither can be the root. -/
def move (o : Outline α) (source target : Path) : Except Fault (Option (Content α) × Outline α) :=
  let s := source.segments
  let t := target.segments
  if source.absolute = false then .error (.relative source)
  else if target.absolute = false then .error (.relative target)
  else if t = [] then .error (.root .moveTarget)
  else if o s = none then .error (.notFound source)
  else if s = [] then .error (.root .moved)
  else if o t.dropLast = none then .error (.notFound target)
  else if s <+: t.dropLast then .error (.cycle ⟨t.dropLast.getLast?.getD "", s.getLast?.getD ""⟩)
  else .ok (o.replaced s t, o.moved s t)

/-- A deletion in an outline: the place must be taken, and it cannot be the root. -/
def delete (o : Outline α) (p : Path) : Except Fault (Option (Content α) × Outline α) :=
  let k := p.segments
  if p.absolute = false then .error (.relative p)
  else if k = [] then .error (.root .deleted)
  else if o k = none then .error (.notFound p)
  else .ok (o k, o.deleted k)

/-- What an operation does to an outline, with what the node given back holds. -/
def perform (o : Outline α) : Operation α → Except Fault (Option (Content α) × Outline α)
  | .lookup p => .ok (o.lookup p, o)
  | .getOrCreate p =>
    if p.absolute = false then .error (.relative p)
    else .ok (o.grow p.segments p.segments, o.grow p.segments)
  | .insert p payload =>
    if p.absolute = false then .error (.relative p)
    else .ok (some ⟨some payload, false⟩, (o.grow p.segments).put p.segments payload)
  | .markDirty p => .ok (o.changeAt p (o.mark (· <+: p.segments)))
  | .update p payload => .ok (o.changeAt p (o.put p.segments payload))
  | .move source target => o.move source target
  | .delete p => o.delete p
  | .release _ => .ok (none, o)

/-- The outline after some operations. -/
def performAll (o : Outline α) (ops : List (Operation α)) : Outline α :=
  ops.foldl (fun o op => orSame o (o.perform op)) o

end Outline

namespace Graph

variable {α : Type} {g g' : Graph α} {root id : NodeId} {p : Path}

/-- A result shows an outcome: both fail in the same way, or what can be seen of the one is the
other, and the root has stayed a root. -/
inductive Shows (root : NodeId) : Except Fault (Option NodeId × Graph α) →
    Except Fault (Option (Content α) × Outline α) → Prop
  | fault (f : Fault) : Shows root (.error f) (.error f)
  | done {node : Option NodeId} {g : Graph α} (h : g.Rooted root) :
    Shows root (.ok (node, g)) (.ok (node.map g.content, g.outline root))

namespace Shows

variable {x : Except Fault (Option NodeId × Graph α)}
  {y : Except Fault (Option (Content α) × Outline α)}

private theorem map_seen (h : Shows root x y) : x.map (seen root) = y := by
  cases h <;> rfl

/-- The root has stayed a root, and the outline is the expected one. -/
private theorem orSame (hg : g.Rooted root) (h : Shows root x y) :
    (orSame g x).Rooted root ∧ (Tree.orSame g x).outline root = Tree.orSame (g.outline root) y := by
  cases h with
  | fault f => exact ⟨hg, rfl⟩
  | done h => exact ⟨h, rfl⟩

theorem of_ok {node : Option NodeId} {held : Option (Content α)} {o : Outline α}
    (h : g.Rooted root) (hheld : node.map g.content = held) (ho : g.outline root = o) :
    Shows root (.ok (node, g)) (.ok (held, o)) := by
  subst hheld ho
  exact .done h

end Shows

/-- Looking up a path finds what the outline has there. -/
theorem lookup_outline (p : Path) :
    (g.outline root).lookup p = (g.lookup root p).map g.content := by
  rw [Outline.lookup, lookup]
  split
  · rfl
  · rfl

theorem lookup_eq (hp : p.absolute = true) : g.lookup root p = g.descend root p.segments := by
  rw [lookup, if_pos hp]
  rfl

theorem lookup_eq_some_iff :
    g.lookup root p = some id ↔ p.absolute = true ∧ g.descend root p.segments = some id := by
  rw [lookup]
  split <;> simp [*, descend]

/-- The last name of a path that ends in a name. -/
private theorem name?_eq {j : List String} {n : String} (h : p.segments = j ++ [n]) :
    p.name? = some n := by
  rw [Path.name?, h, List.getLast?_concat]

/-- The node above the place that a path names is found by all names but the last one. -/
private theorem lookupParent_eq {j : List String} {n : String} (hp : p.absolute = true)
    (h : p.segments = j ++ [n]) : g.lookupParent root p = g.descend root j := by
  simp [lookupParent, Path.parent?, h, lookup, hp, descend]

namespace Rooted

/-- Going down and making what is missing succeeds on every absolute path. -/
theorem getOrCreate (hg : g.Rooted root) (hp : p.absolute = true) :
    ∃ id g', g.getOrCreate root p = .ok (id, g') ∧ g'.Rooted root ∧
      g'.descend root p.segments = some id ∧
      g'.outline root = (g.outline root).grow p.segments := by
  refine ⟨_, _, ?_, hg.foldl_childOrNew p.segments rfl⟩
  rw [Graph.getOrCreate, requireAbsolute, if_pos hp]
  rfl

private theorem shows_getOrCreate (hg : g.Rooted root) (p : Path) :
    Shows root (g.perform root (.getOrCreate p)) ((g.outline root).perform (.getOrCreate p)) := by
  rw [perform, Outline.perform]
  cases hp : p.absolute with
  | false =>
    rw [if_pos rfl, Graph.getOrCreate, requireAbsolute, hp]
    exact .fault _
  | true =>
    obtain ⟨id, g', h, hrooted, hplace, houtline⟩ := hg.getOrCreate hp
    rw [if_neg Bool.noConfusion, h, ← houtline]
    apply Shows.of_ok hrooted _ rfl
    rw [outline_apply, hplace]

private theorem shows_insert (hg : g.Rooted root) (p : Path) (payload : α) :
    Shows root (g.perform root (.insert p payload))
      ((g.outline root).perform (.insert p payload)) := by
  rw [perform, Outline.perform]
  cases hp : p.absolute with
  | false =>
    rw [if_pos rfl, Graph.insert, Graph.getOrCreate, requireAbsolute, hp]
    exact .fault _
  | true =>
    obtain ⟨id, g', h, hrooted, hplace, houtline⟩ := hg.getOrCreate hp
    rw [if_neg Bool.noConfusion, Graph.insert, h, ← houtline]
    apply Shows.of_ok (hrooted.sameLinks (sameLinks_update payload))
    · simp [content, payload?_update (hrooted.mem_of_descend hplace), isDirty_update]
    · exact hrooted.outline_update hplace payload

/-- What changes the node at a path, and no links, shows as a change of the outline at that path. -/
private theorem shows_changeAt (hg : g.Rooted root) (p : Path) {change : NodeId → Graph α}
    {changed : Outline α} (hlinks : ∀ id, g.SameLinks (change id))
    (hchange : ∀ id, g.descend root p.segments = some id → (change id).outline root = changed) :
    Shows root (.ok (g.lookup root p, ((g.lookup root p).map change).getD g))
      (.ok ((g.outline root).changeAt p changed)) := by
  rw [Outline.changeAt, lookup_outline, Option.isSome_map]
  cases h : g.lookup root p with
  | none => exact .of_ok hg rfl rfl
  | some id =>
    obtain ⟨hp, hplace⟩ := lookup_eq_some_iff.mp h
    rw [Option.isSome_some, if_pos rfl, ← hchange id hplace, lookup_outline]
    refine .of_ok (hg.sameLinks (hlinks id)) ?_ rfl
    rw [lookup_eq hp, descend_congr (hlinks id).child?, hplace]
    rfl

private theorem shows_markDirty (hg : g.Rooted root) (p : Path) :
    Shows root (g.perform root (.markDirty p)) ((g.outline root).perform (.markDirty p)) :=
  hg.shows_changeAt p (fun _ => sameLinks_markDirty) fun _ hplace => hg.outline_markDirty hplace

private theorem shows_update (hg : g.Rooted root) (p : Path) (payload : α) :
    Shows root (g.perform root (.update p payload))
      ((g.outline root).perform (.update p payload)) :=
  hg.shows_changeAt p (fun _ => sameLinks_update payload) fun _ hplace =>
    hg.outline_update hplace payload

/-- A node that is detached takes what is below it along, and the places above it get marked. -/
private theorem shows_detached {parent c : NodeId} {n : String} {j : List String}
    (hg : g.Rooted root) (h : g.Detached g' parent n) (hj : g.descend root j = some parent)
    (hc : g.descend root (j ++ [n]) = some c) :
    Shows root (.ok (some c, g'.markDirty parent))
      (.ok (g.outline root (j ++ [n]), (g.outline root).deleted (j ++ [n]))) := by
  have hrooted := hg.detached h
  have hparent : g'.descend root j = some parent := by
    rw [hg.descend_detached_elsewhere h hj (not_concat_prefix_self j n), hj]
  have hlost (k : List String) : g'.descend root k ≠ some c := by
    intro hk
    by_cases hplace : j ++ [n] <+: k
    · rw [hg.descend_detached_place h hj hplace] at hk
      cases hk
    · rw [hg.descend_detached_elsewhere h hj hplace] at hk
      rw [hg.descend_inj hc hk] at hplace
      exact hplace (List.prefix_refl k)
  have hmem := (h.mem c).mpr (hg.mem_of_descend hc)
  apply Shows.of_ok hrooted.markDirty
  · rw [Option.map_some, hrooted.content_markDirty_of_lost hparent hmem hlost,
      h.toSameContents.content, outline_apply, hc]
    rfl
  · rw [hrooted.outline_markDirty hparent, hg.outline_detached h hj, Outline.deleted]
    exact Outline.mark_congr _ fun k => prefix_and_ne_concat_iff.symm

private theorem shows_delete (hg : g.Rooted root) (p : Path) :
    Shows root (g.perform root (.delete p)) ((g.outline root).perform (.delete p)) := by
  rw [perform, Outline.perform, Outline.delete]
  cases hp : p.absolute with
  | false =>
    rw [if_pos rfl, Graph.delete, requireAbsolute, hp]
    exact .fault _
  | true =>
    rw [if_neg Bool.noConfusion, Graph.delete, requireAbsolute, if_pos hp]
    rcases List.eq_nil_or_concat' p.segments with hroot | ⟨j, n, hsegments⟩
    · rw [if_pos hroot, Path.name?, hroot]
      exact .fault _
    · rw [if_neg (by simp [hsegments]), name?_eq hsegments, lookupParent_eq hp hsegments, hsegments]
      cases hj : g.descend root j with
      | none =>
        have hnone : g.descend root (j ++ [n]) = none := by rw [descend_concat, hj]; rfl
        rw [if_pos (outline_eq_none_iff.mpr hnone)]
        exact .fault _
      | some parent =>
        simp only [Option.elim, bind, Except.bind]
        cases hdetach : g.detach parent n with
        | none =>
          have hnone := (descend_child hj n).trans (Option.map_eq_none_iff.mp hdetach)
          rw [if_pos (outline_eq_none_iff.mpr hnone)]
          exact .fault _
        | some result =>
          obtain ⟨c, rest⟩ := result
          obtain ⟨hdetached, hchild⟩ := detached_of_detach hdetach
          have hc := (descend_child hj n).trans hchild
          rw [if_neg (by rw [outline_eq_none_iff, hc]; exact Option.some_ne_none c)]
          exact hg.shows_detached hdetached hj hc

/-- The node is found at its new place with all that is below it, and the one that was there before
is given back. -/
private theorem shows_moved {parent oldParent c : NodeId} {m n : String} {i j : List String}
    (hg : g.Rooted root) (h : g.Attached g' parent n c) (hj : g.descend root j = some parent)
    (hnew : ¬ (c = parent ∨ g.Above c parent)) (hi : g.descend root i = some oldParent)
    (hc : g.descend root (i ++ [m]) = some c) : Shows root
    (.ok (if g.child? parent n = some c then none else g.child? parent n,
      (g'.markDirty oldParent).markDirty c))
    (.ok ((g.outline root).replaced (i ++ [m]) (j ++ [n]),
      (g.outline root).moved (i ++ [m]) (j ++ [n]))) := by
  have hrooted := hg.attached h hj hnew
  refine .of_ok hrooted.markDirty.markDirty ?_ (hg.outline_moved h hj hnew hi hc)
  have hplaced := descend_child hj n
  rw [Outline.replaced]
  by_cases heq : i ++ [m] = j ++ [n]
  · rw [if_pos heq, if_pos (by rw [← hplaced, ← heq, hc])]
    rfl
  · rw [if_neg heq, if_neg fun hchild => heq (hg.descend_inj hc (hplaced.trans hchild)),
      Outline.mark, outline_apply, hplaced]
    cases hold : g.child? parent n with
    | none => rfl
    | some old =>
      rw [Option.map_some, Option.map_some, Option.map_some,
        hg.content_replaced h hj hnew hi hc hold]
      rintro rfl
      exact heq (hg.descend_inj hc (hplaced.trans hold))

/-- A node that is found is moved to a place below another one, unless that is below the node. -/
private theorem shows_attach {parent oldParent c : NodeId} {m n : String} {i j : List String}
    (hg : g.Rooted root) (hj : g.descend root j = some parent)
    (hi : g.descend root i = some oldParent) (hc : g.descend root (i ++ [m]) = some c) :
    Shows root
      (((g.attach parent n c).mapError Fault.cycle).bind fun (replaced, joined) =>
        pure (replaced, (joined.markDirty oldParent).markDirty c))
      (if i ++ [m] <+: j then
          .error (.cycle ⟨j.getLast?.getD "", (i ++ [m]).getLast?.getD ""⟩)
        else .ok ((g.outline root).replaced (i ++ [m]) (j ++ [n]),
          (g.outline root).moved (i ++ [m]) (j ++ [n]))) := by
  have hcycle : (c = parent ∨ g.Above c parent) ↔ i ++ [m] <+: j := by
    rw [← hg.linked.exists_descend_iff, hg.exists_descend_iff_of_descend hc hj]
  cases hattach : g.attach parent n c with
  | error cycle =>
    obtain ⟨hbelow, rfl⟩ := hg.linked.attach_eq_error_iff.mp hattach
    rw [if_pos (hcycle.mp hbelow), ← hg.name_eq hj, ← hg.name_eq hc]
    exact .fault _
  | ok result =>
    obtain ⟨replaced, joined⟩ := result
    have hnew := hg.linked.not_above_of_attach hattach
    obtain ⟨hattached, rfl⟩ :=
      hg.linked.attached (hg.mem_of_descend hj) (hg.mem_of_descend hc) hattach
    rw [if_neg (mt hcycle.mpr hnew)]
    exact hg.shows_moved hattached hj hnew hi hc

private theorem shows_move (hg : g.Rooted root) (source target : Path) :
    Shows root (g.perform root (.move source target))
      ((g.outline root).perform (.move source target)) := by
  rw [perform, Outline.perform, Outline.move]
  cases hs : source.absolute with
  | false =>
    rw [if_pos rfl, Graph.move, requireAbsolute, hs]
    exact .fault _
  | true =>
    rw [if_neg Bool.noConfusion, Graph.move, requireAbsolute, if_pos hs]
    cases ht : target.absolute with
    | false =>
      rw [if_pos rfl, requireAbsolute, ht]
      exact .fault _
    | true =>
      rw [if_neg Bool.noConfusion, requireAbsolute, if_pos ht]
      rcases List.eq_nil_or_concat' target.segments with htarget | ⟨j, n, htarget⟩
      · rw [if_pos htarget, Path.name?, htarget]
        exact .fault _
      · rw [if_neg (by simp [htarget]), name?_eq htarget, lookupParent_eq ht htarget, htarget,
          List.dropLast_concat, lookup_eq hs]
        cases hc : g.descend root source.segments with
        | none =>
          rw [if_pos (outline_eq_none_iff.mpr hc)]
          exact .fault _
        | some c =>
          rw [if_neg (by rw [outline_eq_none_iff, hc]; exact Option.some_ne_none c)]
          simp only [Option.elim, bind, Except.bind]
          rcases List.eq_nil_or_concat' source.segments with hsource | ⟨i, m, hsource⟩
          · rw [hsource] at hc
            obtain rfl := Option.some.inj hc
            rw [if_pos hsource, hg.parent?]
            exact .fault _
          · have hne : source.segments ≠ [] := by simp [hsource]
            obtain ⟨oldParent, hi⟩ : ∃ oldParent, g.descend root i = some oldParent := by
              rw [hsource, descend_concat] at hc
              obtain ⟨oldParent, hi, -⟩ := Option.bind_eq_some_iff.mp hc
              exact ⟨oldParent, hi⟩
            rw [if_neg hne, hg.parent?_eq hc hne, hsource, List.dropLast_concat, hi]
            cases hj : g.descend root j with
            | none =>
              rw [if_pos (outline_eq_none_iff.mpr hj)]
              exact .fault _
            | some parent =>
              rw [if_neg (by rw [outline_eq_none_iff, hj]; exact Option.some_ne_none parent)]
              exact hg.shows_attach hj hi (hsource ▸ hc)

/-- Every operation shows. -/
theorem shows_perform (hg : g.Rooted root) (op : Operation α) :
    Shows root (g.perform root op) ((g.outline root).perform op) := by
  cases op with
  | lookup p => exact .of_ok hg (lookup_outline p).symm rfl
  | getOrCreate p => exact hg.shows_getOrCreate p
  | insert p payload => exact hg.shows_insert p payload
  | markDirty p => exact hg.shows_markDirty p
  | update p payload => exact hg.shows_update p payload
  | move source target => exact hg.shows_move source target
  | delete p => exact hg.shows_delete p
  | release held =>
    have hroot : root ∈ root :: held := List.mem_cons_self
    exact .of_ok (hg.collect hroot) rfl (hg.outline_collect hroot)

/-! ### Runs -/

/-- Any operations keep a root, and do to the outline what they do to the directory. -/
theorem performAll (hg : g.Rooted root) (ops : List (Operation α)) :
    (g.performAll root ops).Rooted root ∧
      (g.performAll root ops).outline root = (g.outline root).performAll ops := by
  induction ops generalizing g with
  | nil => exact ⟨hg, rfl⟩
  | cons op ops ih =>
    obtain ⟨hrooted, houtline⟩ := (hg.shows_perform op).orSame hg
    obtain ⟨hrooted', houtline'⟩ := ih hrooted
    refine ⟨hrooted', houtline'.trans ?_⟩
    rw [houtline]
    rfl

/-- There are not more places taken than there are nodes. -/
theorem finite_outline (hg : g.Rooted root) : {k | (g.outline root k).isSome}.Finite := by
  apply Set.Finite.of_finite_image (f := g.descend root)
  · apply (List.finite_toSet (g.nodes.keys.map some)).subset
    rintro _ ⟨k, hk, rfl⟩
    obtain ⟨id, hid⟩ := isSome_outline_iff.mp hk
    rw [Set.mem_ofPred_eq, hid, List.mem_map]
    exact ⟨id, Std.ExtTreeMap.mem_keys.mpr (hg.mem_of_descend hid), rfl⟩
  · intro j hj k _ hjk
    obtain ⟨id, hid⟩ := isSome_outline_iff.mp hj
    exact hg.descend_inj hid (hjk ▸ hid)

end Rooted

/-- Above a place that is taken every place is taken. -/
theorem isSome_outline_of_isPrefix {j k : List String} (hjk : j <+: k)
    (hk : (g.outline root k).isSome) : (g.outline root j).isSome := by
  obtain ⟨r, rfl⟩ := hjk
  obtain ⟨id, hid⟩ := isSome_outline_iff.mp hk
  rw [descend_append] at hid
  obtain ⟨parent, hparent, -⟩ := Option.bind_eq_some_iff.mp hid
  exact isSome_outline_iff.mpr ⟨parent, hparent⟩

/-- A new node without a name is a root with an empty directory below it. -/
theorem Linked.rooted_create (hg : g.Linked) :
    (g.create "" none).2.Rooted g.next ∧ (g.create "" none).2.outline g.next = Outline.start := by
  have hcreated := hg.created "" none
  refine ⟨⟨hg.create "" none, (hcreated.mem g.next).mpr (.inl rfl), ?_, ?_⟩, ?_⟩
  · rw [hcreated.parent? hg, Option.eq_none_iff_forall_ne_some]
    intro parent hparent
    exact hg.next_notMem (mem_nodes_of_parent? hparent).1
  · rw [hcreated.name, if_pos rfl]
  · funext k
    rw [outline_apply, Outline.start]
    cases k with
    | nil => simp [content, hcreated.payload?, hcreated.isDirty, Outline.blank]
    | cons n k =>
      have hchild : (g.create "" none).2.child? g.next n = none := by
        rw [hcreated.child?, child?_eq_none hg.next_notMem]
      simp [descend, List.foldlM_cons, hchild]

/-- A directory that starts empty, among whatever other nodes, is a finite map from places to what
is held there: after any operations it has the outline that they give, the next operation answers,
fails and changes the outline as it says, and one that fails changes nothing. -/
theorem directories_are_maps (events : List (Event α)) (ops : List (Operation α)) :
    let root := (after events).next
    let created := ((after events).create "" none).2
    let g := created.performAll root ops
    let o := Outline.start.performAll ops
    g.outline root = o ∧
    (∀ op, (g.perform root op).map (seen root) = o.perform op) ∧
    (∀ j k, j <+: k → (o k).isSome → (o j).isSome) ∧
    {k | (o k).isSome}.Finite ∧
    ∀ op f, g.perform root op = .error f → created.performAll root (ops ++ [op]) = g := by
  intro root created g o
  obtain ⟨hcreated, hstart⟩ := (Linked.after events).rooted_create
  obtain ⟨hg, hrun⟩ := hcreated.performAll ops
  have houtline : g.outline root = o := hrun.trans (hstart ▸ rfl)
  rw [← houtline]
  refine ⟨rfl, ?_, ?_, hg.finite_outline, ?_⟩
  · intro op
    exact (hg.shows_perform op).map_seen
  · intro j k hjk hk
    exact isSome_outline_of_isPrefix hjk hk
  · intro op f hfault
    rw [Graph.performAll, List.foldl_append, List.foldl_cons, List.foldl_nil]
    exact congrArg (orSame g) hfault

/-- The node at `/a/b` is moved to `/a`, over the node that was above it. Its child moves along, and
the new node at `/a` cannot be moved below that child. -/
theorem directories_are_maps_upwards :
    let root := (after ([] : List (Event Nat))).next
    let created := ((after ([] : List (Event Nat))).create "" none).2
    let g := created.performAll root [.insert ⟨true, ["a", "b", "c"]⟩ 7,
      .insert ⟨true, ["a", "b"]⟩ 8, .move ⟨true, ["a", "b"]⟩ ⟨true, ["a"]⟩]
    g.outline root ["a"] = some ⟨some 8, true⟩ ∧ g.outline root ["a", "c"] = some ⟨some 7, false⟩ ∧
      g.outline root ["a", "b"] = none ∧
      (g.perform root (.move ⟨true, ["a"]⟩ ⟨true, ["a", "c", "d"]⟩)).map (seen root) =
        .error (.cycle ⟨"c", "a"⟩) := by
  obtain ⟨houtline, hperform, -⟩ := directories_are_maps ([] : List (Event Nat))
    [.insert ⟨true, ["a", "b", "c"]⟩ 7, .insert ⟨true, ["a", "b"]⟩ 8,
      .move ⟨true, ["a", "b"]⟩ ⟨true, ["a"]⟩]
  refine ⟨?_, ?_, ?_, (hperform _).trans rfl⟩
  all_goals
    rw [houtline]
    decide

end Graph
end LayeredStore.Tree
