import LayeredStore.Proofs.Store.Losses

/-!
# Moves between disjoint places

In a plain tree no path has a segment `.` or `..`. Main statement: a move between two places in a
plain tree, of which neither lies below the other, succeeds exactly if its source is there, its
target is in a folder, and what is at the target may be replaced. Then the target has below it what
the source had, the source has nothing, and all else is as it was; otherwise nothing changes. A
plain tree remains one.
-/

namespace LayeredStore

/-- Whether no segment of a path is `.` or `..`. -/
def Path.IsPlain (p : Path) : Prop := ∀ segment ∈ p.segments, IsName segment

instance (p : Path) : Decidable p.IsPlain :=
  inferInstanceAs (Decidable (∀ segment ∈ p.segments, segment ≠ Path.here ∧ segment ≠ Path.up))

namespace Store

/-- A tree with plain paths only. -/
structure IsPlainTree (s : Store) : Prop where
  tree : s.IsTree
  plain : ∀ path, s.contains path = true → path.IsPlain

variable {s : Store} {source target place : Path} {replace : Bool}

/-- In a tree a move to a place above which its source does not lie is refused or goes through. -/
private theorem IsTree.move_cases (h : s.IsTree) (hapart' : source.startsWith target = false)
    (replace : Bool) :
    (∃ f, s.move source target replace = (s, .error f)) ∨
    s.GoesThrough source target replace ∧
      s.move source target replace =
        ((s.cleared target).relocateAll source target, .ok target) := by
  rcases Store.move_cases s source target replace with hrefused | ⟨f, hvain, -⟩ | hgo
  · exact .inl hrefused
  · -- only the root has no folder above it, and everything lies below the root
    obtain rfl := h.eq_root_of_clearsInVain hvain
    simp [h.startsWith_root hvain.stored] at hapart'
  · exact .inr hgo

namespace IsPlainTree

/-- In a plain tree everything at or below a source has a new place of its own. -/
private theorem takenApart (h : s.IsPlainTree) (source target : Path) :
    s.TakenApart source target :=
  takenApart_of_isName fun key hkey => h.plain key (mem_below.mp hkey).1

/-- In a plain tree a key is taken as far below the target as it is below the source. -/
private theorem relocated_eq (h : s.IsPlainTree) {rest : List String}
    (hstored : s.contains ⟨source.absolute, source.segments ++ rest⟩ = true) (target : Path) :
    relocated source target ⟨source.absolute, source.segments ++ rest⟩ =
      ⟨target.absolute, target.segments ++ rest⟩ :=
  relocated_append (h.plain _ hstored) target

section Apart

variable (h : s.IsPlainTree) (hapart : target.startsWith source = false)
  (hapart' : source.startsWith target = false)

include h hapart hapart'

/-- What is found at a place below the target was as far below the source. -/
theorem get?_relocateAll_cleared (rest : List String) :
    ((s.cleared target).relocateAll source target).get?
        ⟨target.absolute, target.segments ++ rest⟩ =
      s.get? ⟨source.absolute, source.segments ++ rest⟩ := by
  have hunder : (⟨source.absolute, source.segments ++ rest⟩ : Path).startsWith source = true :=
    Path.startsWith_iff_exists.mpr ⟨rest, rfl⟩
  have hplace : (⟨target.absolute, target.segments ++ rest⟩ : Path).startsWith target = true :=
    Path.startsWith_iff_exists.mpr ⟨rest, rfl⟩
  cases hsource : s.contains ⟨source.absolute, source.segments ++ rest⟩ with
  | true =>
    rw [← h.relocated_eq hsource target]
    exact (h.takenApart source target).get?_relocated hapart hapart'
      (mem_below.mpr ⟨hsource, hunder⟩)
  | false =>
    -- whatever is there has been taken there, but only this key would have been
    have hnone : s.get? ⟨source.absolute, source.segments ++ rest⟩ = none := by
      simpa [contains_eq_isSome] using hsource
    rw [hnone, Option.eq_none_iff_forall_ne_some]
    intro e he
    have hthere : (⟨target.absolute, target.segments ++ rest⟩ : Path) ∈
        ((s.cleared target).relocateAll source target).below target :=
      mem_below.mpr ⟨by rw [contains_eq_isSome, he]; rfl, hplace⟩
    rw [below_relocateAll_cleared hapart hapart' (h.tree.grounded target),
      Finset.mem_image] at hthere
    obtain ⟨key, hkey, hsame⟩ := hthere
    obtain ⟨hstored, hbelow⟩ := mem_below.mp hkey
    obtain ⟨rest', rfl⟩ := Path.startsWith_iff_exists.mp hbelow
    rw [h.relocated_eq hstored] at hsame
    obtain rfl : rest' = rest := by simpa using hsame
    simp [hsource] at hstored

/-- A plain tree remains one if everything is taken from a source to a plain target apart. -/
theorem relocateAll_cleared (hgo : s.GoesThrough source target replace)
    (htarget : target.IsPlain) :
    ((s.cleared target).relocateAll source target).IsPlainTree := by
  refine ⟨?_, ?_⟩
  · have hkept := (h.tree.move_iff source target replace).mpr
    rw [hgo.move_eq] at hkept
    apply hkept
    rintro (⟨-, f, hvain⟩ | ⟨-, -, hburies⟩)
    · simpa [hvain.orphan] using hgo.parent
    · obtain ⟨key, hstored, -, segment, hsegment, hdots⟩ :=
        h.tree.exists_not_isName_of_buries hburies
      exact hdots (h.plain key hstored segment hsegment)
  · intro path hpath
    cases hbelow : path.startsWith target with
    | true =>
      obtain ⟨rest, rfl⟩ := Path.startsWith_iff_exists.mp hbelow
      rw [contains_eq_isSome, h.get?_relocateAll_cleared hapart hapart',
        ← contains_eq_isSome] at hpath
      have hkey := h.plain _ hpath
      refine List.forall_mem_append.mpr ⟨htarget, ?_⟩
      exact (List.forall_mem_append.mp hkey).2
    | false =>
      cases hsource : path.startsWith source with
      | true =>
        rw [contains_eq_isSome, get?_relocateAll_cleared_eq_none hapart hapart' hsource] at hpath
        simp at hpath
      | false =>
        rw [contains_eq_isSome, Store.get?_relocateAll_cleared hsource hbelow,
          ← contains_eq_isSome] at hpath
        exact h.plain path hpath

end Apart

end IsPlainTree

/-- **A move between disjoint places takes all of its source to its target and nothing else.** Take
a move in a plain tree, to a plain target, where neither source nor target lies below the other. It
succeeds exactly if the source is stored, the parent of the target is a folder, and the target is
absent or to be replaced. If it succeeds, a place below the target holds what was as far below the
source, nothing is left at or below the source, and everything outside is as it was. If it fails,
the store is what it was. In any case it is a plain tree. -/
theorem moves_reroot (h : s.IsPlainTree) (htarget : target.IsPlain)
    (hapart : target.startsWith source = false) (hapart' : source.startsWith target = false)
    (replace : Bool) :
    let t := (s.move source target replace).1
    let answer := (s.move source target replace).2
    ((∃ place, answer = .ok place) ↔ s.contains source = true ∧
      (∃ folder, target.parent? = some folder ∧ s.get? folder = some .folder) ∧
      (s.contains target = false ∨ replace = true)) ∧
    (∀ place, answer = .ok place → place = target ∧
      (∀ rest, t.get? ⟨target.absolute, target.segments ++ rest⟩ =
        s.get? ⟨source.absolute, source.segments ++ rest⟩) ∧
      (∀ path, path.startsWith source = true → t.get? path = none) ∧
      ∀ path, path.startsWith source = false → path.startsWith target = false →
        t.get? path = s.get? path) ∧
    (∀ f, answer = .error f → t = s) ∧
    t.IsPlainTree := by
  intro t answer
  have hsucceeds : (∃ place, answer = .ok place) ↔ s.GoesThrough source target replace :=
    ⟨fun ⟨_, hplace⟩ => (goesThrough_of_move_eq_ok hplace).1,
      fun hgo => ⟨target, congrArg Prod.snd hgo.move_eq⟩⟩
  refine ⟨?_, ?_, ?_, ?_⟩
  · rw [hsucceeds, ← requireParent_eq_ok_iff, ← Bool.not_eq_true, ← imp_iff_not_or]
    exact ⟨fun hgo => ⟨hgo.stored, hgo.parent, hgo.allowed⟩,
      fun ⟨hstored, hparent, hallowed⟩ => ⟨hstored, hapart, hallowed, hparent⟩⟩
  · intro place hplace
    obtain ⟨hgo, rfl⟩ := goesThrough_of_move_eq_ok hplace
    have ht : t = (s.cleared target).relocateAll source target := congrArg Prod.fst hgo.move_eq
    rw [ht]
    exact ⟨rfl, h.get?_relocateAll_cleared hapart hapart',
      fun _ => get?_relocateAll_cleared_eq_none hapart hapart',
      fun _ => get?_relocateAll_cleared⟩
  · intro f hf
    rcases h.tree.move_cases hapart' replace with ⟨f', hmove⟩ | ⟨hgo, hmove⟩
    · exact congrArg Prod.fst hmove
    · exact absurd (hf.symm.trans (congrArg Prod.snd hmove)) (by simp)
  · rcases h.tree.move_cases hapart' replace with ⟨f, hmove⟩ | ⟨hgo, hmove⟩
    · have ht : t = s := congrArg Prod.fst hmove
      rw [ht]
      exact h
    · have ht : t = (s.cleared target).relocateAll source target := congrArg Prod.fst hmove
      rw [ht]
      exact h.relocateAll_cleared hapart hapart' hgo htarget

/-- A folder with a file in it is moved into another folder. -/
theorem moves_reroot_nested :
    let a : Path := ⟨true, ["a"]⟩
    let b : Path := ⟨true, ["c", "b"]⟩
    let s := ((Provider.new 100).after [(⟨0⟩, .createFolder a),
      (⟨0⟩, .write (a.child "x") false .empty none), (⟨0⟩, .createFolder ⟨true, ["c"]⟩)]).store
    let t := (s.move a b false).1
    s.IsPlainTree ∧ b.IsPlain ∧ b.startsWith a = false ∧ a.startsWith b = false ∧
      (s.move a b false).2 = .ok b ∧ t.get? (b.child "x") = s.get? (a.child "x") ∧
      t.get? (a.child "x") = none ∧ t.IsPlainTree := by
  intro a b s t
  have htree : s.IsTree := by
    have hfirst := (Provider.isTree_serve_iff (p := .new 100) IsTree.initial ⟨0⟩
      (.createFolder a)).mpr id
    have hsecond := (Provider.isTree_serve_iff hfirst ⟨0⟩
      (.write (a.child "x") false .empty none)).mpr id
    exact (Provider.isTree_serve_iff hsecond ⟨0⟩ (.createFolder ⟨true, ["c"]⟩)).mpr id
  have hkeys : ∀ key ∈ s.entries.keys, key.IsPlain := by decide +kernel
  have hplain : s.IsPlainTree :=
    ⟨htree, fun path hpath => hkeys path
      (Std.ExtTreeMap.mem_keys.mpr (Std.ExtTreeMap.contains_iff_mem.mp hpath))⟩
  have hb : b.IsPlain := by decide
  have hba : b.startsWith a = false := by decide
  have hab : a.startsWith b = false := by decide
  obtain ⟨hiff, hplaces, -, hafter⟩ := moves_reroot hplain hb hba hab false
  have hfolder : s.requireParent b = .ok () := by decide +kernel
  obtain ⟨place, hplace⟩ := hiff.mpr ⟨by decide +kernel, requireParent_eq_ok_iff.mp hfolder,
    .inl (by decide +kernel)⟩
  obtain ⟨rfl, hbelow, hsource, -⟩ := hplaces place hplace
  exact ⟨hplain, hb, hba, hab, hplace, hbelow ["x"], hsource (a.child "x") (by decide), hafter⟩

end Store
end LayeredStore
