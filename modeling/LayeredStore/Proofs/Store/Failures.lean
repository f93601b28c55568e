import LayeredStore.Proofs.Store.Hierarchy

/-!
# Failed requests

Main statement: a request that fails leaves the provider as it was, unless it is a move that clears
its target before it finds that there is no folder above it. In a tree only the root has no folder
above it, and then nothing is left at all.
-/

namespace LayeredStore.Provider

open Store

variable {p : Provider} {now : Timestamp} {r : Request} {f : Failure}

/-- A change that fails is none. -/
private theorem commit_eq_of_failure {α : Type} {change : Answer (α × Store)} {reply : α → Reply}
    (h : (p.commit change reply).2 = .failure f) : (p.commit change reply).1 = p := by
  cases change with
  | error f' => rfl
  | ok result => simp [commit, Outcome.value, Outcome.failure] at h

/-- **A failed request changes nothing but what a move clears in vain.** A request that fails
changes the provider exactly if it is a move that is to replace what is at its target, while its
source is stored and does not lie above the target and the target has no folder above it. Then all
that is at or below the target is gone, and nothing else changes. If the store is a tree the target
is the root, and the store is empty afterwards. -/
theorem failed_request_changes_iff (h : (p.serve now r).2 = .failure f) :
    ((p.serve now r).1 ≠ p ↔ ∃ source target replace, r = .move source target replace ∧
      p.store.ClearsInVain source target replace f) ∧
    ∀ source target replace, r = .move source target replace →
      p.store.ClearsInVain source target replace f →
        (p.serve now r).1 = { p with store := p.store.removeSubtree target } ∧
        (p.store.IsTree → target = .root ∧ f = .alreadyExists .root ∧
          ∀ path, (p.serve now r).1.store.contains path = false) := by
  constructor
  · have hunchanged (hsame : (p.serve now r).1 = p)
        (hmove : ∀ source target replace, r ≠ .move source target replace) :
        (p.serve now r).1 ≠ p ↔ ∃ source target replace, r = .move source target replace ∧
          p.store.ClearsInVain source target replace f :=
      iff_of_false (not_not.mpr hsame) fun ⟨source, target, replace, hr, _⟩ =>
        hmove source target replace hr
    cases r with
    | metadata path => exact hunchanged rfl (by simp)
    | list folder token => exact hunchanged rfl (by simp)
    | quota folder => exact hunchanged rfl (by simp)
    | read file offset count => exact hunchanged rfl (by simp)
    | write file replace data modified => exact hunchanged (commit_eq_of_failure h) (by simp)
    | createFolder folder => exact hunchanged (commit_eq_of_failure h) (by simp)
    | deleteFile file => exact hunchanged (commit_eq_of_failure h) (by simp)
    | deleteFolder folder => exact hunchanged (commit_eq_of_failure h) (by simp)
    | move source target replace =>
      rcases p.store.move_cases source target replace with
        ⟨f', hmove⟩ | ⟨f', hvain, hmove⟩ | ⟨hgo, hmove⟩
      · refine iff_of_false (by simp [serve, hmove]) ?_
        rintro ⟨source, target, replace, ⟨⟩, hvain⟩
        exact hvain.removeSubtree_ne (congrArg Prod.fst (hvain.move_eq.symm.trans hmove))
      · obtain rfl : f' = f := by simpa [serve, hmove, Except.map, Outcome.failure] using h
        refine iff_of_true ?_ ⟨source, target, replace, rfl, hvain⟩
        intro hsame
        exact hvain.removeSubtree_ne (by simpa [serve, hmove] using congrArg Provider.store hsame)
      · simp [serve, hmove, Except.map, Outcome.failure] at h
  · rintro source target replace rfl hvain
    have hserve : (p.serve now (.move source target replace)).1 =
        { p with store := p.store.removeSubtree target } := by
      simp [serve, hvain.move_eq]
    refine ⟨hserve, ?_⟩
    intro htree
    obtain rfl := htree.eq_root_of_clearsInVain hvain
    refine ⟨rfl, ?_, ?_⟩
    · have horphan := hvain.orphan
      rw [requireParent, Path.parent?_eq_none_iff.mpr rfl] at horphan
      simpa [eq_comm] using horphan
    · intro path
      rw [hserve, contains_eq_isSome, get?_removeSubtree]
      split
      · rfl
      · next houtside =>
        by_contra hstored
        exact houtside (htree.startsWith_root
          ((contains_eq_isSome _ path).trans ((Bool.not_eq_false _).mp hstored)))

/-- A folder that is to replace the root. -/
private theorem clearsInVain_folder_root :
    ((new 100).after [(⟨0⟩, .createFolder ⟨true, ["a"]⟩)]).store.ClearsInVain ⟨true, ["a"]⟩ .root
      true (.alreadyExists .root) :=
  ⟨by decide +kernel, by decide, by decide +kernel, rfl, by decide +kernel⟩

/-- A folder is to replace the root: that fails, and nothing is left. -/
theorem failed_request_changes_iff_root :
    let a : Path := ⟨true, ["a"]⟩
    let p := (new 100).after [(⟨0⟩, .createFolder a)]
    (p.serve ⟨0⟩ (.move a .root true)).2 = .failure (.alreadyExists .root) ∧
      p.store.ClearsInVain a .root true (.alreadyExists .root) ∧
      (p.serve ⟨0⟩ (.move a .root true)).1 ≠ p ∧
      ∀ path, (p.serve ⟨0⟩ (.move a .root true)).1.store.contains path = false := by
  intro a p
  have hvain : p.store.ClearsInVain a .root true (.alreadyExists .root) := clearsInVain_folder_root
  have hfails : (p.serve ⟨0⟩ (.move a .root true)).2 = .failure (.alreadyExists .root) := by
    simp [serve, hvain.move_eq, Except.map, Outcome.failure]
  have htree : p.store.IsTree :=
    (isTree_serve_iff IsTree.initial ⟨0⟩ (.createFolder a)).mpr id
  obtain ⟨hiff, hmoves⟩ := failed_request_changes_iff hfails
  exact ⟨hfails, hvain, hiff.mpr ⟨a, .root, true, rfl, hvain⟩,
    ((hmoves a .root true rfl hvain).2 htree).2.2⟩

/-- It is not so that a failed request leaves the store as it was. -/
theorem not_failed_requests_change_nothing :
    ¬ ∀ (pageSize : UInt64) (requests : List (Timestamp × Request)) (now : Timestamp)
      (r : Request) (f : Failure),
      (((new pageSize).after requests).serve now r).2 = .failure f →
      (((new pageSize).after requests).serve now r).1.store =
        ((new pageSize).after requests).store := by
  intro h
  let a : Path := ⟨true, ["a"]⟩
  let requests : List (Timestamp × Request) := [(⟨0⟩, .createFolder a)]
  let p := (new 100).after requests
  have hvain : p.store.ClearsInVain a .root true (.alreadyExists .root) := clearsInVain_folder_root
  have hmove : p.serve ⟨0⟩ (.move a .root true) =
      ({ p with store := p.store.removeSubtree .root }, .failure (.alreadyExists .root)) := by
    simp [serve, hvain.move_eq, Except.map, Outcome.failure]
  have hsame := h 100 requests ⟨0⟩ (.move a .root true) (.alreadyExists .root)
    (congrArg Prod.snd hmove)
  exact hvain.removeSubtree_ne ((congrArg (·.1.store) hmove).symm.trans hsame)

end LayeredStore.Provider
