import LayeredStore.Tree.Graph
import Mathlib.Data.List.Perm.Subperm
import Mathlib.Logic.Relation

/-!
# Ancestry

A node lies above another one if a chain of parents leads from the latter to the former. Main
statements: where no node lies above itself, a walk from parent to parent ends within as many
steps as there are nodes, and it passes exactly the nodes above; and one more link closes no
circle unless the new child lay above its parent, or was it.
-/

namespace LayeredStore.Tree.Graph

variable {α : Type} {g g' : Graph α} {a b c id parent : NodeId}

/-- Whether `a` lies strictly above `b`. -/
def Above (g : Graph α) (a b : NodeId) : Prop :=
  Relation.TransGen (fun a b => g.parent? b = some a) a b

/-- No node lies above itself. -/
def Acyclic (g : Graph α) : Prop := ∀ id, ¬ g.Above id id

/-- A parent and its child live. -/
theorem mem_nodes_of_parent? (h : g.parent? id = some parent) :
    id ∈ g.nodes ∧ parent ∈ g.nodes := by
  obtain ⟨hpointer, hlives⟩ := Option.filter_eq_some_iff.mp h
  obtain ⟨node, hnode, -⟩ := Option.bind_eq_some_iff.mp hpointer
  exact ⟨Std.ExtTreeMap.mem_iff_isSome_getElem?.mpr (by rw [hnode]; rfl), hlives⟩

/-- A parent lies above its child. -/
theorem above_of_parent? (h : g.parent? id = some parent) : g.Above parent id :=
  Relation.TransGen.single h

/-- What lies above a parent lies above its child. -/
theorem Above.of_parent? (h : g.Above a parent) (hparent : g.parent? id = some parent) :
    g.Above a id :=
  Relation.TransGen.tail h hparent

theorem Above.trans (h : g.Above a b) (h' : g.Above b c) : g.Above a c :=
  Relation.TransGen.trans h h'

/-- What lies above a node is its parent or lies above that. -/
theorem Above.cases (h : g.Above a id) :
    ∃ parent, g.parent? id = some parent ∧ (a = parent ∨ g.Above a parent) := by
  cases h with
  | single h => exact ⟨a, h, .inl rfl⟩
  | tail h h' => exact ⟨_, h', .inr h⟩

/-! ### Walks upwards -/

/-- A walk goes on from the parent. -/
theorem climb_succ (h : g.parent? id = some parent) (steps : Nat) :
    g.climb (steps + 1) id = parent :: g.climb steps parent := by
  simp [climb, h]

/-- A walk ends where there is no parent. -/
theorem climb_eq_nil (h : g.parent? id = none) (steps : Nat) : g.climb steps id = [] := by
  cases steps <;> simp [climb, h]

/-- A walk passes nodes above only. -/
theorem above_of_mem_climb {steps : Nat} (h : a ∈ g.climb steps id) : g.Above a id := by
  induction steps generalizing id with
  | zero => simp [climb] at h
  | succ steps ih =>
    cases hparent : g.parent? id with
    | none => simp [climb_eq_nil hparent] at h
    | some parent =>
      rw [climb_succ hparent, List.mem_cons] at h
      rcases h with rfl | h
      · exact above_of_parent? hparent
      · exact (ih h).of_parent? hparent

/-- A longer walk goes on where a shorter one ends. -/
private theorem climb_prefix_climb {steps more : Nat} (h : steps ≤ more) (id : NodeId) :
    g.climb steps id <+: g.climb more id := by
  induction steps generalizing more id with
  | zero => exact List.nil_prefix
  | succ steps ih =>
    obtain ⟨more, rfl⟩ := Nat.exists_eq_add_one_of_ne_zero (show more ≠ 0 by omega)
    cases hparent : g.parent? id with
    | none =>
      rw [climb_eq_nil hparent]
      exact List.nil_prefix
    | some parent =>
      rw [climb_succ hparent, climb_succ hparent, List.prefix_cons_inj]
      exact ih (by omega) parent

/-- A walk of one step more leads to the parents of what is passed. -/
theorem mem_climb_succ_iff {steps : Nat} :
    a ∈ g.climb (steps + 1) id ↔ ∃ b ∈ id :: g.climb steps id, g.parent? b = some a := by
  induction steps generalizing id with
  | zero => cases hparent : g.parent? id <;> simp [climb, hparent, eq_comm]
  | succ steps ih =>
    cases hparent : g.parent? id with
    | none => simp [climb_eq_nil hparent, hparent]
    | some parent =>
      rw [climb_succ hparent, climb_succ hparent, List.mem_cons, ih]
      simp [hparent, eq_comm (a := a)]

/-- What lies above a node is passed by a walk that is long enough. -/
private theorem Above.exists_mem_climb (h : g.Above a b) : ∃ steps, a ∈ g.climb steps b := by
  induction h with
  | single h => exact ⟨1, by simp [climb_succ h]⟩
  | tail _ h' ih =>
    obtain ⟨steps, hmem⟩ := ih
    exact ⟨steps + 1, by simp [climb_succ h', hmem]⟩

/-- A walk that has ended before its steps were used up is not made longer by more of them. -/
private theorem climb_eq_of_length_lt {steps more : Nat} (h : (g.climb steps id).length < steps)
    (hle : steps ≤ more) : g.climb more id = g.climb steps id := by
  induction steps generalizing more id with
  | zero => omega
  | succ steps ih =>
    obtain ⟨more, rfl⟩ := Nat.exists_eq_add_one_of_ne_zero (show more ≠ 0 by omega)
    cases hparent : g.parent? id with
    | none => rw [climb_eq_nil hparent, climb_eq_nil hparent]
    | some parent =>
      rw [climb_succ hparent, List.length_cons] at h
      rw [climb_succ hparent, climb_succ hparent, ih (by omega) (by omega)]

namespace Acyclic

/-- A walk passes no node twice. -/
private theorem nodup_climb (h : g.Acyclic) (steps : Nat) (id : NodeId) :
    (id :: g.climb steps id).Nodup := by
  induction steps generalizing id with
  | zero => simp [climb]
  | succ steps ih =>
    cases hparent : g.parent? id with
    | none => simp [climb_eq_nil hparent]
    | some parent =>
      rw [climb_succ hparent]
      refine List.nodup_cons.mpr ⟨?_, ih parent⟩
      intro hmem
      rcases List.mem_cons.mp hmem with rfl | hmem
      · exact h id (above_of_parent? hparent)
      · exact h id ((above_of_mem_climb hmem).of_parent? hparent)

/-- A walk from a living node has fewer steps than there are nodes. -/
private theorem length_climb_lt (h : g.Acyclic) (hid : id ∈ g.nodes) (steps : Nat) :
    (g.climb steps id).length < g.nodes.size := by
  have hsubset : id :: g.climb steps id ⊆ g.nodes.keys := by
    intro a ha
    rw [Std.ExtTreeMap.mem_keys]
    rcases List.mem_cons.mp ha with rfl | ha
    · exact hid
    · obtain ⟨child, hchild, -⟩ := Relation.TransGen.head'_iff.mp (above_of_mem_climb ha)
      exact (mem_nodes_of_parent? hchild).2
  have hlength := ((h.nodup_climb steps id).subperm hsubset).length_le
  rw [List.length_cons, Std.ExtTreeMap.length_keys] at hlength
  omega

/-- As many steps as there are nodes are enough for every walk. -/
private theorem climb_eq_ancestors (h : g.Acyclic) {steps : Nat} (hsteps : g.nodes.size ≤ steps)
    (id : NodeId) : g.climb steps id = g.ancestors id := by
  by_cases hid : id ∈ g.nodes
  · exact climb_eq_of_length_lt (h.length_climb_lt hid _) hsteps
  · have hnone : g.parent? id = none := by
      rw [Option.eq_none_iff_forall_ne_some]
      intro parent hparent
      exact hid (mem_nodes_of_parent? hparent).1
    rw [ancestors, climb_eq_nil hnone, climb_eq_nil hnone]

/-- The ancestors of a node are its parent and the ancestors of that. -/
theorem ancestors_eq (h : g.Acyclic) (id : NodeId) :
    g.ancestors id = (g.parent? id).elim [] fun parent => parent :: g.ancestors parent := by
  rw [← h.climb_eq_ancestors (Nat.le_succ _) id]
  cases hparent : g.parent? id with
  | none => exact climb_eq_nil hparent _
  | some parent => exact climb_succ hparent _

/-- Going from parent to parent comes to an end. -/
theorem wellFounded (h : g.Acyclic) : WellFounded fun a b => g.parent? b = some a := by
  apply Subrelation.wf (r := fun a b => (g.ancestors a).length < (g.ancestors b).length)
  · intro a b hparent
    rw [h.ancestors_eq b, hparent]
    exact Nat.lt_succ_self _
  · exact InvImage.wf _ Nat.lt_wfRel.wf

/-- The ancestors of a node are the nodes above it. -/
theorem mem_ancestors_iff (h : g.Acyclic) : a ∈ g.ancestors b ↔ g.Above a b := by
  constructor
  · exact above_of_mem_climb
  · intro habove
    obtain ⟨steps, hmem⟩ := habove.exists_mem_climb
    rw [← h.climb_eq_ancestors (Nat.le_max_right steps _)]
    exact (climb_prefix_climb (Nat.le_max_left steps g.nodes.size) b).subset hmem

/-- Looking for a node on the way upwards finds it exactly if it lies above. -/
theorem isAbove_iff (h : g.Acyclic) : g.isAbove a b = true ↔ g.Above a b := by
  rw [isAbove, List.contains_iff_mem, h.mem_ancestors_iff]

/-! ### Links that come and go -/

/-- Where there are no new links there are no new circles. -/
theorem mono (h : g.Acyclic)
    (hlinks : ∀ id parent, g'.parent? id = some parent → g.parent? id = some parent) :
    g'.Acyclic := by
  intro id hcircle
  exact h id (Relation.TransGen.mono (fun a b => hlinks b a) _ _ hcircle)

/-- One new link closes no circle unless its child was above its parent, or was it. -/
theorem link (h : g.Acyclic) (hnew : ¬ (c = parent ∨ g.Above c parent))
    (hlinks : ∀ id a, g'.parent? id = some a → id = c ∧ a = parent ∨ g.parent? id = some a) :
    g'.Acyclic := by
  have hsplit {a b : NodeId} (habove : g'.Above a b) : g.Above a b ∨
      (a = parent ∨ g.Above a parent) ∧ (c = b ∨ g.Above c b) := by
    induction habove with
    | single hlink =>
      rcases hlinks _ _ hlink with ⟨rfl, rfl⟩ | hold
      · exact .inr ⟨.inl rfl, .inl rfl⟩
      · exact .inl (above_of_parent? hold)
    | tail _ hlink ih =>
      rcases hlinks _ _ hlink with ⟨rfl, rfl⟩ | hold
      · rcases ih with hover | ⟨hover, -⟩
        · exact .inr ⟨.inr hover, .inl rfl⟩
        · exact .inr ⟨hover, .inl rfl⟩
      · rcases ih with hover | ⟨hover, rfl | hunder⟩
        · exact .inl (hover.of_parent? hold)
        · exact .inr ⟨hover, .inr (above_of_parent? hold)⟩
        · exact .inr ⟨hover, .inr (hunder.of_parent? hold)⟩
  intro id hcircle
  rcases hsplit hcircle with hold | ⟨rfl | hover, rfl | hunder⟩
  · exact h id hold
  · exact hnew (.inl rfl)
  · exact hnew (.inr hunder)
  · exact hnew (.inr hover)
  · exact hnew (.inr (hunder.trans hover))

end Acyclic
end LayeredStore.Tree.Graph
