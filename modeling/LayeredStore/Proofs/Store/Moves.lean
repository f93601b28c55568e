import LayeredStore.Proofs.Path.Steps
import LayeredStore.Proofs.Store.Scope
import Mathlib.Data.List.Induction

/-!
# What a move does

Main statements: a move refuses and changes nothing, or clears its target and then finds no
folder above it, or takes everything from its source to its target; and what is at a place
after that comes from the last key that is taken there.
-/

namespace LayeredStore.Store

/-! ### The three ways to end -/

/-- The store with nothing at or below a path, if something is stored at the path. -/
def cleared (s : Store) (target : Path) : Store :=
  if s.contains target then s.removeSubtree target else s

/-- Whether there is a folder above a path does not depend on what is below the path. -/
theorem requireParent_removeSubtree (s : Store) (path : Path) :
    (s.removeSubtree path).requireParent path = s.requireParent path := by
  unfold requireParent
  split
  · next parent hparent =>
    obtain ⟨name, rfl⟩ := Path.parent?_eq_some_iff.mp hparent
    simp [requireFolder, get?_removeSubtree, Path.startsWith_child_eq_false]
  · rfl

/-- Whether there is a folder above a path does not depend on whether the path is cleared. -/
private theorem requireParent_cleared (s : Store) (target : Path) :
    (s.cleared target).requireParent target = s.requireParent target := by
  unfold cleared
  split
  · exact s.requireParent_removeSubtree target
  · rfl

/-- There is a folder above a path exactly if its parent is stored as one. -/
theorem requireParent_eq_ok_iff {s : Store} {path : Path} :
    s.requireParent path = .ok () ↔
      ∃ folder, path.parent? = some folder ∧ s.get? folder = some .folder := by
  unfold requireParent
  cases path.parent? with
  | none => simp
  | some folder => rcases he : s.get? folder with _ | _ | _ <;> simp [requireFolder, he]

/-- A move clears its target and then fails: what it would replace has no folder above it. -/
structure ClearsInVain (s : Store) (source target : Path) (replace : Bool) (f : Failure) :
    Prop where
  stored : s.contains source = true
  apart : target.startsWith source = false
  taken : s.contains target = true
  allowed : replace = true
  orphan : s.requireParent target = .error f

/-- A move takes its source to its target. -/
structure GoesThrough (s : Store) (source target : Path) (replace : Bool) : Prop where
  stored : s.contains source = true
  apart : target.startsWith source = false
  allowed : s.contains target = true → replace = true
  parent : s.requireParent target = .ok ()

/-- What has no folder above it and cannot be replaced is cleared all the same. -/
theorem ClearsInVain.move_eq {s : Store} {source target : Path} {replace : Bool} {f : Failure}
    (h : s.ClearsInVain source target replace f) :
    s.move source target replace = (s.removeSubtree target, .error f) := by
  obtain ⟨hstored, hapart, htaken, hallowed, horphan⟩ := h
  simp [move, hstored, hapart, htaken, hallowed, requireParent_removeSubtree, horphan]

/-- What is cleared is not what it was. -/
theorem ClearsInVain.removeSubtree_ne {s : Store} {source target : Path} {replace : Bool}
    {f : Failure} (h : s.ClearsInVain source target replace f) : s.removeSubtree target ≠ s := by
  intro hsame
  have htaken := h.taken
  rw [← hsame, contains_eq_isSome, get?_removeSubtree, if_pos target.startsWith_refl] at htaken
  simp at htaken

/-- What is allowed and has a folder above it is done. -/
theorem GoesThrough.move_eq {s : Store} {source target : Path} {replace : Bool}
    (h : s.GoesThrough source target replace) : s.move source target replace =
      ((s.cleared target).relocateAll source target, .ok target) := by
  obtain ⟨hstored, hapart, hallowed, hparent⟩ := h
  rw [← requireParent_cleared, cleared] at hparent
  have hnot : (s.contains target && !replace) = false := by
    cases ht : s.contains target with
    | false => rfl
    | true => simp [hallowed ht]
  simp [move, hstored, hapart, hnot, hparent, cleared]

/-- All that a move can do. -/
theorem move_cases (s : Store) (source target : Path) (replace : Bool) :
    (∃ f, s.move source target replace = (s, .error f)) ∨
    (∃ f, s.ClearsInVain source target replace f ∧
      s.move source target replace = (s.removeSubtree target, .error f)) ∨
    s.GoesThrough source target replace ∧
      s.move source target replace =
        ((s.cleared target).relocateAll source target, .ok target) := by
  cases hsource : s.contains source with
  | false => exact .inl ⟨.notFound source, by simp [move, hsource]⟩
  | true =>
    cases hapart : target.startsWith source with
    | true => exact .inl ⟨_, by simp only [move, hsource, hapart]; rfl⟩
    | false =>
      cases hparent : s.requireParent target with
      | error f =>
        cases htaken : s.contains target with
        | false => exact .inl ⟨f, by simp [move, hsource, hapart, htaken, hparent]⟩
        | true =>
          cases replace with
          | false => exact .inl ⟨.alreadyExists target, by simp [move, hsource, hapart, htaken]⟩
          | true =>
            have hvain : s.ClearsInVain source target true f :=
              ⟨hsource, hapart, htaken, rfl, hparent⟩
            exact .inr (.inl ⟨f, hvain, hvain.move_eq⟩)
      | ok u =>
        by_cases hallowed : s.contains target = true → replace = true
        · have hgo : s.GoesThrough source target replace := ⟨hsource, hapart, hallowed, hparent⟩
          exact .inr (.inr ⟨hgo, hgo.move_eq⟩)
        · obtain ⟨htaken, hreplace⟩ : s.contains target = true ∧ replace = false := by
            simpa using hallowed
          exact .inl ⟨.alreadyExists target, by simp [move, hsource, hapart, htaken, hreplace]⟩

/-! ### New places -/

/-- The source is taken to the target. -/
theorem relocated_self (source target : Path) : relocated source target source = target := by
  simp [relocated, Path.resolve, Path.between]

/-- Among names a key is taken as far below the target as it is below the source. -/
theorem relocated_append {source : Path} {rest : List String}
    (h : ∀ segment ∈ source.segments ++ rest, Path.IsName segment) (target : Path) :
    relocated source target ⟨source.absolute, source.segments ++ rest⟩ =
      ⟨target.absolute, target.segments ++ rest⟩ := by
  have hbetween := Path.segments_between_append h
  rw [relocated, Path.resolve, hbetween]
  rfl

/-- A key of names is as far below the source as its new place is below the target. -/
theorem exists_relocated_eq_append {source key : Path} (hbelow : key.startsWith source = true)
    (h : ∀ segment ∈ key.segments, Path.IsName segment) (target : Path) :
    ∃ rest, key = ⟨source.absolute, source.segments ++ rest⟩ ∧
      relocated source target key = ⟨target.absolute, target.segments ++ rest⟩ := by
  obtain ⟨rest, rfl⟩ := Path.startsWith_iff_exists.mp hbelow
  exact ⟨rest, rfl, relocated_append h target⟩

/-! ### What is at a place afterwards -/

/-- The last of some keys that are taken to a place. -/
def lastTo (source target : Path) (keys : List Path) (place : Path) : Option Path :=
  (keys.filter (relocated source target · = place)).getLast?

/-- After some keys have been taken to their places, what is at a place comes from the last one
that is taken there, or was there before. -/
theorem get?_foldl_relocate_of_startsWith {s : Store} {source target : Path} {keys : List Path}
    (hnodup : keys.Nodup) (hstored : ∀ key ∈ keys, s.contains key = true)
    (hapart : ∀ key ∈ keys, key.startsWith target = false) {place : Path}
    (hplace : place.startsWith target = true) :
    (keys.foldl (relocate source target) s).get? place =
      match lastTo source target keys place with
      | some key => s.get? key
      | none => s.get? place := by
  induction keys using List.reverseRecOn with
  | nil => rfl
  | append_singleton keys key ih =>
    rw [List.nodup_append] at hnodup
    simp only [List.forall_mem_append, List.forall_mem_singleton] at hstored hapart
    have hfresh : key ∉ keys := fun hmem => hnodup.2.2 key hmem key (by simp) rfl
    have hkey : (keys.foldl (relocate source target) s).get? key = s.get? key :=
      get?_foldl_relocate hfresh hapart.2 s
    obtain ⟨e, he⟩ : ∃ e, s.get? key = some e := by
      simpa [contains_eq_isSome, Option.isSome_iff_exists] using hstored.2
    have hne : key ≠ place := by
      rintro rfl
      simp [hapart.2] at hplace
    rw [List.foldl_append, List.foldl_cons, List.foldl_nil, relocate, hkey, he]
    simp only [get?_put, get?_remove, if_neg hne, ih hnodup.1 hstored.1 hapart.1]
    by_cases hlast : relocated source target key = place
    · simp [lastTo, hlast, he]
    · simp [lastTo, hlast]

/-- A key that has been taken to its place is gone, unless it is at or below the target. -/
private theorem get?_foldl_relocate_of_mem {source target path : Path} {keys : List Path}
    (hmem : path ∈ keys) (hpath : path.startsWith target = false) (s : Store) :
    (keys.foldl (relocate source target) s).get? path = none := by
  induction keys generalizing s with
  | nil => simp at hmem
  | cons key keys ih =>
    rw [List.foldl_cons]
    by_cases hlater : path ∈ keys
    · exact ih hlater _
    · obtain rfl : path = key := by simpa [hlater] using hmem
      rw [get?_foldl_relocate hlater hpath]
      cases he : s.get? path with
      | none => simp [relocate, he]
      | some e =>
        have hne : relocated source target path ≠ path := by
          intro h
          rw [← h, startsWith_relocated] at hpath
          simp at hpath
        rw [relocate, he]
        simp [get?_put, get?_remove, hne]

/-- What is at `key` is taken to `place`, and nothing from a later key is. -/
structure Settles (s : Store) (source target key place : Path) : Prop where
  stored : s.contains key = true
  below : key.startsWith source = true
  relocated_eq : relocated source target key = place
  last : ∀ other, s.contains other = true → other.startsWith source = true →
    relocated source target other = place → (compare other key).isLE = true

/-- In an ascending list the last element is the greatest. -/
private theorem getLast?_eq_some_iff {keys : List Path}
    (h : keys.Pairwise fun a b => compare a b = .lt) {key : Path} :
    keys.getLast? = some key ↔ key ∈ keys ∧ ∀ other ∈ keys, (compare other key).isLE = true := by
  constructor
  · intro hlast
    obtain ⟨before, rfl⟩ := List.getLast?_eq_some_iff.mp hlast
    refine ⟨by simp, ?_⟩
    intro other hother
    rcases List.mem_append.mp hother with hmem | hmem
    · rw [(List.pairwise_append.mp h).2.2 other hmem key (by simp)]
      rfl
    · have hself : compare key key = .eq := Std.ReflCmp.compare_self
      rw [List.mem_singleton.mp hmem, hself]
      rfl
  · rintro ⟨hmem, hle⟩
    cases hlast : keys.getLast? with
    | none => simp [List.getLast?_eq_none_iff.mp hlast] at hmem
    | some last =>
      obtain ⟨before, rfl⟩ := List.getLast?_eq_some_iff.mp hlast
      rcases List.mem_append.mp hmem with hbefore | hsame
      · have hlt := (List.pairwise_append.mp h).2.2 key hbefore last (by simp)
        have hswap : compare last key = (compare key last).swap := Std.OrientedCmp.eq_swap
        have hle' := hle last (by simp)
        rw [hswap, hlt] at hle'
        simp at hle'
      · rw [List.mem_singleton.mp hsame]

/-- The keys that a move takes to new places, in the order in which it does so. -/
def movedKeys (s : Store) (source : Path) : List Path :=
  s.entries.keys.filter (·.startsWith source)

theorem mem_movedKeys {s : Store} {source key : Path} :
    key ∈ s.movedKeys source ↔ s.contains key = true ∧ key.startsWith source = true := by
  rw [movedKeys, List.mem_filter, Std.ExtTreeMap.mem_keys, ← Std.ExtTreeMap.contains_iff_mem]
  rfl

/-- The last key taken to a place is the one that settles it. -/
theorem lastTo_eq_some_iff {s : Store} {source target key place : Path} :
    lastTo source target (s.movedKeys source) place = some key ↔
      s.Settles source target key place := by
  have hordered : ((s.movedKeys source).filter (relocated source target · = place)).Pairwise
      fun a b => compare a b = .lt :=
    (Std.ExtTreeMap.ordered_keys.filter _).filter _
  rw [lastTo, getLast?_eq_some_iff hordered]
  simp only [List.mem_filter, mem_movedKeys, decide_eq_true_eq]
  constructor
  · rintro ⟨⟨⟨hstored, hbelow⟩, hplace⟩, hlast⟩
    exact ⟨hstored, hbelow, hplace, fun other ho hb hp => hlast other ⟨⟨ho, hb⟩, hp⟩⟩
  · rintro ⟨hstored, hbelow, hplace, hlast⟩
    exact ⟨⟨⟨hstored, hbelow⟩, hplace⟩, fun other h => hlast other h.1.1 h.1.2 h.2⟩

/-- Where one key is taken, one settles. -/
theorem exists_settles {s : Store} {source key : Path} (target : Path)
    (hstored : s.contains key = true) (hbelow : key.startsWith source = true) :
    ∃ last, s.Settles source target last (relocated source target key) := by
  cases hlast : lastTo source target (s.movedKeys source) (relocated source target key) with
  | some last => exact ⟨last, lastTo_eq_some_iff.mp hlast⟩
  | none =>
    have hempty := List.getLast?_eq_none_iff.mp hlast
    have hmem : key ∈ (s.movedKeys source).filter
        (relocated source target · = relocated source target key) := by
      simp [mem_movedKeys, hstored, hbelow]
    rw [hempty] at hmem
    simp at hmem

/-- Clearing a target leaves all other paths as they are. -/
theorem get?_cleared {s : Store} {target path : Path} (hpath : path.startsWith target = false) :
    (s.cleared target).get? path = s.get? path := by
  unfold cleared
  split
  · simp [get?_removeSubtree, hpath]
  · rfl

variable {s : Store} {source target : Path}

/-- Whether nothing is stored below a path at which nothing is stored. -/
def Grounded (s : Store) (path : Path) : Prop :=
  s.contains path = false → ∀ other, other.startsWith path = true → s.get? other = none

/-- What lies above something stored is stored, if it is grounded. -/
theorem Grounded.contains_of_startsWith {path other : Path} (h : s.Grounded path)
    (hother : s.contains other = true) (hbelow : other.startsWith path = true) :
    s.contains path = true := by
  by_contra habsent
  have hnone := h (by simpa using habsent) other hbelow
  simp [contains_eq_isSome, hnone] at hother

/-- Nothing is left at or below a cleared target. -/
theorem get?_cleared_eq_none (h : s.Grounded target) {path : Path}
    (hpath : path.startsWith target = true) : (s.cleared target).get? path = none := by
  unfold cleared
  split
  · rw [get?_removeSubtree, if_pos hpath]
  · next htarget => exact h (by simpa using htarget) path hpath

/-- If the source lies below the target it is cleared too, and nothing is taken anywhere. -/
theorem relocateAll_cleared_of_startsWith (htaken : s.contains target = true)
    (hbelow : source.startsWith target = true) :
    (s.cleared target).relocateAll source target = s.removeSubtree target := by
  have hkeys : (s.removeSubtree target).movedKeys source = [] := by
    rw [List.eq_nil_iff_forall_not_mem]
    intro key hkey
    obtain ⟨hstored, hkey⟩ := mem_movedKeys.mp hkey
    rw [contains_eq_isSome, get?_removeSubtree, if_pos (Path.startsWith_trans hkey hbelow)]
      at hstored
    simp at hstored
  rw [cleared, if_pos htaken]
  exact congrArg (List.foldl (relocate source target) (s.removeSubtree target)) hkeys

/-- What lies at or below one of two paths that lie apart does not lie below the other. -/
private theorem startsWith_eq_false (hapart : target.startsWith source = false)
    (hapart' : source.startsWith target = false) {path : Path}
    (hpath : path.startsWith source = true) : path.startsWith target = false := by
  rw [Bool.eq_false_iff]
  intro hbelow
  rcases Path.startsWith_or_startsWith hbelow hpath with h | h
  · simp [hapart] at h
  · simp [hapart'] at h

/-- Clearing a target changes nothing about the keys below a source that lies apart. -/
private theorem settles_cleared_iff (hapart : target.startsWith source = false)
    (hapart' : source.startsWith target = false) {key place : Path} :
    (s.cleared target).Settles source target key place ↔ s.Settles source target key place := by
  have hcontains (key : Path) (hkey : key.startsWith source = true) :
      (s.cleared target).contains key = s.contains key := by
    simp only [contains_eq_isSome, get?_cleared (startsWith_eq_false hapart hapart' hkey)]
  constructor
  · rintro ⟨hstored, hbelow, hplace, hlast⟩
    refine ⟨hcontains key hbelow ▸ hstored, hbelow, hplace, ?_⟩
    intro other ho hb hp
    exact hlast other (by rwa [hcontains other hb]) hb hp
  · rintro ⟨hstored, hbelow, hplace, hlast⟩
    refine ⟨by rwa [hcontains key hbelow], hbelow, hplace, ?_⟩
    intro other ho hb hp
    exact hlast other (hcontains other hb ▸ ho) hb hp

/-- After everything has been taken from a source to a cleared target apart from it, what is at or
below the target comes from the last key that was taken there, or was there before. -/
private theorem get?_relocateAll_cleared_eq (hapart : target.startsWith source = false)
    (hapart' : source.startsWith target = false) {place : Path}
    (hplace : place.startsWith target = true) :
    ((s.cleared target).relocateAll source target).get? place =
      match lastTo source target ((s.cleared target).movedKeys source) place with
      | some key => (s.cleared target).get? key
      | none => (s.cleared target).get? place :=
  get?_foldl_relocate_of_startsWith (Std.ExtTreeMap.nodup_keys.filter _)
    (fun _ hkey => (mem_movedKeys.mp hkey).1)
    (fun _ hkey => startsWith_eq_false hapart hapart' (mem_movedKeys.mp hkey).2) hplace

/-- The key that settles a place is what is found there. -/
theorem Settles.get?_relocateAll_cleared {key place : Path}
    (h : s.Settles source target key place) (hapart : target.startsWith source = false)
    (hapart' : source.startsWith target = false) :
    ((s.cleared target).relocateAll source target).get? place = s.get? key := by
  have hplace : place.startsWith target = true := h.relocated_eq ▸ startsWith_relocated ..
  have hlast := lastTo_eq_some_iff.mpr ((settles_cleared_iff hapart hapart').mpr h)
  rw [get?_relocateAll_cleared_eq hapart hapart' hplace, hlast]
  exact get?_cleared (startsWith_eq_false hapart hapart' h.below)

/-- If nothing was left at or below the target, all that is there has been taken there. -/
theorem get?_relocateAll_cleared_eq_some_iff (hapart : target.startsWith source = false)
    (hapart' : source.startsWith target = false)
    (hempty : ∀ path, path.startsWith target = true → (s.cleared target).get? path = none)
    {place : Path} (hplace : place.startsWith target = true) {e : Entry} :
    ((s.cleared target).relocateAll source target).get? place = some e ↔
      ∃ key, s.Settles source target key place ∧ s.get? key = some e := by
  constructor
  · intro he
    cases hlast : lastTo source target ((s.cleared target).movedKeys source) place with
    | none =>
      rw [get?_relocateAll_cleared_eq hapart hapart' hplace, hlast, hempty place hplace] at he
      simp at he
    | some key =>
      have hsettles := (settles_cleared_iff hapart hapart').mp (lastTo_eq_some_iff.mp hlast)
      exact ⟨key, hsettles, hsettles.get?_relocateAll_cleared hapart hapart' ▸ he⟩
  · rintro ⟨key, hsettles, he⟩
    rwa [hsettles.get?_relocateAll_cleared hapart hapart']

/-- Outside of source and target nothing changes. -/
theorem get?_relocateAll_cleared {path : Path} (hsource : path.startsWith source = false)
    (htarget : path.startsWith target = false) :
    ((s.cleared target).relocateAll source target).get? path = s.get? path := by
  refine (get?_foldl_relocate ?_ htarget _).trans (get?_cleared htarget)
  intro hmem
  simp [hsource] at hmem

/-- After that nothing is left at or below the source. -/
theorem get?_relocateAll_cleared_eq_none (hapart : target.startsWith source = false)
    (hapart' : source.startsWith target = false) {path : Path}
    (hpath : path.startsWith source = true) :
    ((s.cleared target).relocateAll source target).get? path = none := by
  have houtside := startsWith_eq_false hapart hapart' hpath
  by_cases hmem : path ∈ (s.cleared target).movedKeys source
  · exact get?_foldl_relocate_of_mem hmem houtside _
  · refine (get?_foldl_relocate hmem houtside _).trans ?_
    simpa [mem_movedKeys, hpath, contains_eq_isSome] using hmem

end LayeredStore.Store
