import LayeredStore.Proofs.Tree.Addresses

/-!
# Names in use

Every name under which a node has a child was given by some event. So where no event gives the empty
name, nothing is left out of the path of a node. Main statement: then a topmost node has each node
at or below it at one path only, and this is the path that the node gives.
-/

namespace LayeredStore.Tree

/-- The names that an event can give to children. -/
def Event.names {α : Type} (g : Graph α) : Event α → List String
  | .attach _ child => [g.name child]
  | .attachAs _ name _ => [name]
  | .getOrCreate _ path | .insert _ path _ | .move _ _ path => path.segments
  | .create _ _ | .detach _ _ | .update _ _ | .markDirty _ | .markDirtyAt _ _ | .delete _ _
  | .release _ => []

namespace Graph

variable {α : Type} {g g' : Graph α} {id root parent a c : NodeId} {n m : String}

/-- The names that events can give to children, one event after the other. -/
def givenNames (g : Graph α) : List (Event α) → List String
  | [] => []
  | e :: events => e.names g ++ (g.step e).givenNames events

/-- Whether some node has a child of this name. -/
def Uses (g : Graph α) (n : String) : Prop := ∃ parent c, g.child? parent n = some c

/-- Whether a node is another one or is below it. -/
def AtOrBelow (g : Graph α) (root id : NodeId) : Prop := id = root ∨ g.Above root id

/-! ### What an event does to the names in use -/

namespace Uses

/-- Where no child is found that was not found before, no other name is in use. -/
theorem of_child? (h : ∀ id n c, g'.child? id n = some c → g.child? id n = some c)
    (hn : g'.Uses n) : g.Uses n := by
  obtain ⟨parent, c, hc⟩ := hn
  exact ⟨parent, c, h parent n c hc⟩

theorem of_sameLinks (h : g.SameLinks g') (hn : g'.Uses n) : g.Uses n :=
  hn.of_child? fun id n c hc => by rwa [h.child?] at hc

private theorem of_created {payload : Option α} (h : g.Created g' m payload) (hn : g'.Uses n) :
    g.Uses n :=
  hn.of_child? fun id n c hc => by rwa [h.child?] at hc

private theorem of_detached (h : g.Detached g' parent m) (hn : g'.Uses n) : g.Uses n := by
  apply hn.of_child?
  intro id n c hc
  rw [h.child?] at hc
  split at hc
  · cases hc
  · exact hc

/-- Only the name of the node that is attached can be new. -/
private theorem of_attached (h : g.Attached g' parent m c) (hn : g'.Uses n) : g.Uses n ∨ n = m := by
  obtain ⟨q, x, hx⟩ := hn
  rw [h.child?] at hx
  split at hx
  · next hplace => exact .inr hplace.2
  · split at hx
    · cases hx
    · exact .inl ⟨q, x, hx⟩

private theorem of_collect {held : List NodeId} (hn : (g.collect held).Uses n) : g.Uses n := by
  apply hn.of_child?
  intro id n c hc
  rwa [child?, getElem?_collect (mem_nodes_of_child? hc)] at hc

/-- An operation that fails puts no name in use. -/
private theorem of_orSame {ε β : Type} {x : Except ε (β × Graph α)} {names : List String}
    (h : ∀ b g', x = .ok (b, g') → g'.Uses n → g.Uses n ∨ n ∈ names)
    (hn : (orSame g x).Uses n) : g.Uses n ∨ n ∈ names := by
  cases x with
  | error e => exact .inl hn
  | ok result => exact h result.1 result.2 rfl hn

/-- The names on the way to a node that is found are in use. -/
private theorem of_descend {k : List String} (hk : g.descend id k = some a) (hn : n ∈ k) :
    g.Uses n := by
  induction k using List.reverseRecOn generalizing a with
  | nil => cases hn
  | append_singleton k m ih =>
    rw [descend_concat] at hk
    obtain ⟨parent, hparent, hchild⟩ := Option.bind_eq_some_iff.mp hk
    rcases List.mem_append.mp hn with hn | hn
    · exact ih hparent hn
    · rw [List.mem_singleton.mp hn]
      exact ⟨parent, a, hchild⟩

end Uses

namespace Linked

private theorem uses_attach (hg : g.Linked) (hparent : parent ∈ g.nodes) (hc : c ∈ g.nodes)
    {replaced : Option NodeId} (h : g.attach parent m c = .ok (replaced, g')) (hn : g'.Uses n) :
    g.Uses n ∨ n ∈ [m] :=
  (hn.of_attached (hg.attached hparent hc h).1).imp_right List.mem_singleton.mpr

private theorem uses_childOrNew (hg : g.Linked) (hid : id ∈ g.nodes)
    (hn : (g.childOrNew id m).2.Uses n) : g.Uses n ∨ n = m := by
  rcases hg.childOrNew_cases hid m with ⟨c, -, h⟩ | ⟨-, -, joined, h, hattached⟩
  · rw [h] at hn
    exact .inl hn
  · rw [h] at hn
    exact (hn.of_attached hattached).imp_left fun h => h.of_created (hg.created m none)

theorem uses_getOrCreate {p : Path} (hg : g.Linked) (hroot : root ∈ g.nodes)
    (h : g.getOrCreate root p = .ok (id, g')) (hn : g'.Uses n) : g.Uses n ∨ n ∈ p.segments := by
  have hend := getOrCreate_eq_ok h
  clear h
  generalize p.segments = names at hend
  induction names generalizing g root with
  | nil =>
    obtain ⟨rfl, rfl⟩ := Prod.ext_iff.mp hend
    exact .inl hn
  | cons m names ih =>
    obtain ⟨hlinked, hmem⟩ := hg.childOrNew hroot m
    rcases ih hlinked hmem hend with hold | hold
    · rcases hg.uses_childOrNew hroot hold with hold | rfl
      · exact .inl hold
      · exact .inr List.mem_cons_self
    · exact .inr (List.mem_cons_of_mem m hold)

private theorem uses_move {source target : Path} {replaced : Option NodeId} (hg : g.Linked)
    (hroot : root ∈ g.nodes) (h : g.move root source target = .ok (replaced, g'))
    (hn : g'.Uses n) : g.Uses n ∨ n ∈ target.segments := by
  obtain ⟨name, node, old, new, joined, hname, hnode, -, hnew, hattach, rfl⟩ := move_eq_ok h
  have hjoined : joined.Uses n := (hn.of_sameLinks sameLinks_markDirty).of_sameLinks
    sameLinks_markDirty
  rcases hg.uses_attach (hg.mem_of_lookupParent hroot hnew) (hg.mem_of_lookup hroot hnode) hattach
    hjoined with hold | hself
  · exact .inl hold
  · rw [List.mem_singleton.mp hself]
    exact .inr (List.mem_of_getLast? hname)

private theorem uses_insert {p : Path} {payload : α} (hg : g.Linked) (hroot : root ∈ g.nodes)
    (h : g.insert root p payload = .ok (id, g')) (hn : g'.Uses n) :
    g.Uses n ∨ n ∈ p.segments := by
  obtain ⟨⟨_, grown⟩, hgrown, hend⟩ := bind_eq_ok.mp h
  obtain ⟨rfl, rfl⟩ := Prod.ext_iff.mp (Except.ok.inj hend)
  exact hg.uses_getOrCreate hroot hgrown (hn.of_sameLinks (sameLinks_update payload))

private theorem uses_delete {p : Path} (h : g.delete root p = .ok (id, g')) (hn : g'.Uses n) :
    g.Uses n := by
  obtain ⟨name, parent, rest, -, -, hdetach, rfl⟩ := delete_eq_ok h
  exact (hn.of_sameLinks sameLinks_markDirty).of_detached (detached_of_detach hdetach).1

/-- Every name in use after an event was in use before or is one that the event can give. -/
theorem uses_step (hg : g.Linked) {e : Event α} (hn : (g.step e).Uses n) :
    g.Uses n ∨ n ∈ e.names g := by
  rw [Graph.step] at hn
  split at hn
  · next hcalled =>
    cases e with
    | create name payload => exact .inl (hn.of_created (hg.created name payload))
    | attach parent child =>
      exact Uses.of_orSame (fun _ _ h => hg.uses_attach (hcalled _ (by simp [Event.called]))
        (hcalled _ (by simp [Event.called])) h) hn
    | attachAs parent name child =>
      exact Uses.of_orSame (fun _ _ h => hg.uses_attach (hcalled _ (by simp [Event.called]))
        (hcalled _ (by simp [Event.called])) h) hn
    | detach parent name =>
      cases h : g.detach parent name with
      | none => exact .inl (by simpa [carryOut, h] using hn)
      | some result =>
        have hrest : result.2.Uses n := by simpa [carryOut, h] using hn
        exact .inl (hrest.of_detached (detached_of_detach h).1)
    | update node payload => exact .inl (hn.of_sameLinks (sameLinks_update payload))
    | markDirty node => exact .inl (hn.of_sameLinks sameLinks_markDirty)
    | getOrCreate root path =>
      exact Uses.of_orSame
        (fun _ _ h => hg.uses_getOrCreate (hcalled _ (by simp [Event.called])) h) hn
    | insert root path payload =>
      exact Uses.of_orSame (fun _ _ h => hg.uses_insert (hcalled _ (by simp [Event.called])) h) hn
    | markDirtyAt root path =>
      cases h : g.lookup root path with
      | none => exact .inl (by simpa [carryOut, markDirtyAt, h] using hn)
      | some node =>
        have hmarked : (g.markDirty node).Uses n := by
          simpa [carryOut, markDirtyAt, h] using hn
        exact .inl (hmarked.of_sameLinks sameLinks_markDirty)
    | move root source target =>
      exact Uses.of_orSame (fun _ _ h => hg.uses_move (hcalled _ (by simp [Event.called])) h) hn
    | delete root path =>
      exact Uses.of_orSame (fun _ _ h hdone => .inl (uses_delete h hdone)) hn
    | release held => exact .inl hn.of_collect
  · exact .inl hn

/-- Every name in use after some events was in use before or is one that they can give. -/
theorem uses_foldl_step (hg : g.Linked) (events : List (Event α))
    (hn : (events.foldl Graph.step g).Uses n) : g.Uses n ∨ n ∈ g.givenNames events := by
  induction events generalizing g with
  | nil => exact .inl hn
  | cons e events ih =>
    rw [givenNames, List.mem_append]
    rcases ih (hg.step e) hn with hold | hgiven
    · exact (hg.uses_step hold).imp_right .inl
    · exact .inr (.inr hgiven)

/-- Where the empty name is not in use, a topmost node has at a path the node at or below it that
gives this path, and nothing else. -/
theorem lookup_eq_some_iff_path_eq (hg : g.Linked) (hnames : ¬ g.Uses "")
    (hroot : g.parent? root = none) {p : Path} :
    g.lookup root p = some id ↔ g.AtOrBelow root id ∧ g.path id = p := by
  have hplace {k : List String} (hk : g.descend root k = some id) : g.path id = ⟨true, k⟩ := by
    have hgapless : (⟨true, k⟩ : Path).Gapless := fun hgap => hnames (Uses.of_descend hk hgap)
    rw [hg.path_eq hroot hk]
    exact Path.ofSegments_segments_eq_iff.mpr hgapless
  rw [lookup_eq_some_iff]
  constructor
  · rintro ⟨habsolute, hk⟩
    have hbelow := hg.exists_descend_iff.mp ⟨_, hk⟩
    exact ⟨hbelow.imp_left Eq.symm, by rw [hplace hk, ← habsolute]⟩
  · rintro ⟨hbelow, rfl⟩
    obtain ⟨k, hk⟩ := hg.exists_descend_iff.mpr (hbelow.imp_left Eq.symm)
    rw [hplace hk]
    exact ⟨rfl, hk⟩

end Linked

/-- No name is in use before anything has happened. -/
private theorem not_uses_empty (n : String) : ¬ (Graph.empty : Graph α).Uses n := by
  rintro ⟨parent, c, hc⟩
  exact absurd (mem_nodes_of_child? hc) Std.ExtTreeMap.not_mem_empty

/-- **Paths and lookups are inverse.** Whatever has happened to nodes, if no child was ever given
the empty name, then a node without parent finds at a path exactly the node, at it or below it, that
gives this path, if there is one. So each of these nodes is found at one path, and at no other. -/
theorem lookups_invert_paths (events : List (Event α))
    (hnames : "" ∉ (Graph.empty : Graph α).givenNames events) {root : NodeId}
    (hroot : (after events).parent? root = none) :
    let g := after events
    (∀ p id, g.lookup root p = some id ↔ g.AtOrBelow root id ∧ g.path id = p) ∧
    ∀ id, g.AtOrBelow root id → ∃! p, g.lookup root p = some id := by
  intro g
  have hg : g.Linked := Linked.after events
  have hunused : ¬ g.Uses "" := by
    intro hgap
    rcases Linked.empty.uses_foldl_step events hgap with hold | hgiven
    · exact not_uses_empty "" hold
    · exact hnames hgiven
  have hinverse (p : Path) (id : NodeId) :
      g.lookup root p = some id ↔ g.AtOrBelow root id ∧ g.path id = p :=
    hg.lookup_eq_some_iff_path_eq hunused hroot
  refine ⟨hinverse, ?_⟩
  intro id hbelow
  refine ⟨g.path id, (hinverse _ id).mpr ⟨hbelow, rfl⟩, ?_⟩
  intro p hp
  exact ((hinverse p id).mp hp).2.symm

/-- A node without a name is put below `/a` as `/a/c`, and then `/a` is moved to `/z`. -/
def renamed : List (Event Nat) := [.create "" none, .insert 1 ⟨true, ["a", "b"]⟩ 7,
  .create "" none, .attachAs 2 "c" 4, .move 1 ⟨true, ["a"]⟩ ⟨true, ["z"]⟩]

/-- The node is found at `/z/c`, which is the path that it gives, and nowhere else. -/
theorem lookups_invert_paths_renamed :
    let g := after renamed
    "" ∉ (Graph.empty : Graph Nat).givenNames renamed ∧ g.parent? 1 = none ∧
      g.lookup 1 ⟨true, ["z", "c"]⟩ = some 4 ∧ g.AtOrBelow 1 4 ∧ g.path 4 = ⟨true, ["z", "c"]⟩ ∧
      ∃! p, g.lookup 1 p = some 4 := by
  have hnames : "" ∉ (Graph.empty : Graph Nat).givenNames renamed := by decide +kernel
  have hroot : (after renamed).parent? 1 = none := by decide +kernel
  have hfound : (after renamed).lookup 1 ⟨true, ["z", "c"]⟩ = some 4 := by decide +kernel
  obtain ⟨hinverse, hunique⟩ := lookups_invert_paths renamed hnames hroot
  obtain ⟨hbelow, hpath⟩ := (hinverse _ 4).mp hfound
  exact ⟨hnames, hroot, hfound, hbelow, hpath, hunique 4 hbelow⟩

end Graph
end LayeredStore.Tree
