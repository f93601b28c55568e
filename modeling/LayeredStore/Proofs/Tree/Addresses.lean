import LayeredStore.Proofs.Path.Origins
import LayeredStore.Proofs.Tree.Directories

/-!
# Addresses

The path that a node gives consists of the names on the way to it, the empty ones left out. So a
node that is made at a path gives back that path unless the path has an empty segment. Main
statement: this happens to no path but those that lead back to a record with an empty segment.
-/

namespace LayeredStore.Tree.Graph

variable {α : Type} {g : Graph α} {root a : NodeId} {k : List String} {p : Path}

namespace Linked

/-- The names of a node and of those above it, but for the topmost one, make up its place below
that. -/
private theorem names_eq (hg : g.Linked) (hroot : g.parent? root = none)
    (hk : g.descend root k = some a) :
    (a :: g.ancestors a).dropLast.reverse.map g.name = k := by
  induction k using List.reverseRecOn generalizing a with
  | nil =>
    obtain rfl := Option.some.inj hk
    rw [hg.acyclic.ancestors_eq, hroot]
    rfl
  | append_singleton k n ih =>
    rw [descend_concat] at hk
    obtain ⟨parent, hparent, hchild⟩ := Option.bind_eq_some_iff.mp hk
    obtain ⟨hlink, hname⟩ := hg.child?_iff.mp hchild
    rw [hg.acyclic.ancestors_eq, hlink, Option.elim_some, List.dropLast_cons_cons,
      List.reverse_cons, List.map_append, ih hparent, List.map_singleton, hname]

/-- A node that is found below a topmost one gives the path of its place. -/
theorem path_eq (hg : g.Linked) (hroot : g.parent? root = none)
    (hk : g.descend root k = some a) : g.path a = .ofSegments true k := by
  rw [path, hg.names_eq hroot hk]

end Linked

namespace Rooted

/-- A node made at an absolute path gives that path without its empty segments. -/
theorem exists_getOrCreate_path (hg : g.Rooted root) (hp : p.absolute = true) :
    ∃ id g', g.getOrCreate root p = .ok (id, g') ∧ g'.path id = .ofSegments true p.segments ∧
      (g'.path id = p ↔ p.Gapless) := by
  obtain ⟨id, g', hdone, hrooted, hplace, -⟩ := hg.getOrCreate hp
  have hpath := hrooted.linked.path_eq hrooted.parent? hplace
  refine ⟨id, g', hdone, hpath, ?_⟩
  rw [hpath, ← hp]
  exact Path.ofSegments_segments_eq_iff

end Rooted

/-- Whatever texts are taken over as records, the paths made from them and from scratch have
non-empty segments only exactly if the recorded ones have. In a directory that starts empty, after
any operations, a node is made at every absolute path; it gives the non-empty segments of that
path, and so gives the path itself exactly if that has no empty ones. -/
theorem paths_are_addresses_unless_recorded (events : List (Event α)) (ops : List (Operation α))
    (records : Set String) :
    let root := (after events).next
    let g := ((after events).create "" none).2.performAll root ops
    ((∀ p, Path.Made records p → p.Gapless) ↔
      ∀ text ∈ records, ∀ p, Path.ofText? text = some p → p.Gapless) ∧
    ∀ p : Path, p.absolute = true → ∃ id g', g.getOrCreate root p = .ok (id, g') ∧
      g'.path id = .ofSegments true p.segments ∧ (g'.path id = p ↔ p.Gapless) := by
  intro root g
  have hg : g.Rooted root := ((Linked.after events).rooted_create.1.performAll ops).1
  exact ⟨Path.made_gapless_iff, fun p => hg.exists_getOrCreate_path⟩

/-- A record of the path `/a/b`. -/
def nestedRecord : String := "\x7b\"absolute\":true,\"segments\":[\"a\",\"b\"]\x7d"

/-- All paths made where `/a/b` is recorded have non-empty segments only, and a node made at `/a/b`
in a fresh directory gives that path. -/
theorem paths_are_addresses_unless_recorded_nested :
    (∀ p, Path.Made {nestedRecord} p → p.Gapless) ∧
    ∃ id g', ((Graph.empty : Graph Nat).create "" none).2.getOrCreate 1 ⟨true, ["a", "b"]⟩ =
      .ok (id, g') ∧ g'.path id = ⟨true, ["a", "b"]⟩ := by
  obtain ⟨hmade, haddress⟩ := paths_are_addresses_unless_recorded (α := Nat) [] [] {nestedRecord}
  constructor
  · apply hmade.mpr
    rintro text rfl p hp
    have hread : Path.ofText? nestedRecord = some ⟨true, ["a", "b"]⟩ := by decide +kernel
    obtain rfl := Option.some.inj (hread.symm.trans hp)
    decide
  · obtain ⟨id, g', hdone, -, hpath⟩ := haddress ⟨true, ["a", "b"]⟩ rfl
    exact ⟨id, g', hdone, hpath.mpr (by decide)⟩

/-- A record of a path with an empty segment. -/
def gappedRecord : String := "\x7b\"absolute\":true,\"segments\":[\"a\",\"\"]\x7d"

/-- Not all paths have non-empty segments only, for a record can bring an empty one; a node made at
such a path gives another one. -/
theorem not_paths_are_addresses :
    (¬ ∀ p, Path.Made Set.univ p → p.Gapless) ∧
    ¬ ∀ p, Path.Made Set.univ p → p.absolute = true →
      ∃ id g', ((Graph.empty : Graph Nat).create "" none).2.getOrCreate 1 p = .ok (id, g') ∧
        g'.path id = p := by
  have hread : Path.ofText? gappedRecord = some ⟨true, ["a", ""]⟩ := by decide +kernel
  have hmade : Path.Made Set.univ ⟨true, ["a", ""]⟩ := .record (Set.mem_univ gappedRecord) hread
  have hgap : ¬ (⟨true, ["a", ""]⟩ : Path).Gapless := by decide
  refine ⟨fun h => hgap (h _ hmade), fun h => hgap ?_⟩
  obtain ⟨id, g', hdone, hpath⟩ := h _ hmade rfl
  have hfresh := (Linked.after ([] : List (Event Nat))).rooted_create.1
  obtain ⟨id', g'', hdone', -, hiff⟩ := hfresh.exists_getOrCreate_path (p := ⟨true, ["a", ""]⟩) rfl
  obtain ⟨rfl, rfl⟩ := Prod.ext_iff.mp (Except.ok.inj (hdone.symm.trans hdone'))
  exact hiff.mp hpath

end LayeredStore.Tree.Graph
