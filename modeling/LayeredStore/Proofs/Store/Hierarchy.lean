import LayeredStore.Proofs.Store.Moves

/-!
# The store as a hierarchy

A store is a tree if the root is a folder and everything else lies in a folder. Main statement: a
provider's store stays a tree from request to request, until a move wants to replace the root, or
takes a file where it takes the contents of a folder too, which needs keys whose new places
coincide.
-/

namespace LayeredStore

namespace Store

/-- The root is a folder, and all else lies in a folder. -/
structure IsTree (s : Store) : Prop where
  root : s.get? .root = some .folder
  parent : ∀ path, s.contains path = true → path ≠ .root →
    ∃ folder, path.parent? = some folder ∧ s.get? folder = some .folder

/-- A move leaves a file where it puts something below: the file is the last of what it takes to a
place, and something else is taken to a place below that. -/
def Buries (s : Store) (source target : Path) : Prop :=
  ∃ file data modified key place, s.get? file = some (.file data modified) ∧
    s.Settles source target file place ∧
    s.contains key = true ∧ key.startsWith source = true ∧
    (relocated source target key).startsWith place = true ∧ relocated source target key ≠ place

end Store

/-- What can make a tree of a store something else: a move that clears the root and then fails, and
a move that puts something below a file. -/
def Request.Breaks (s : Store) : Request → Prop
  | .move source target replace =>
    target = .root ∧ (∃ f, s.ClearsInVain source target replace f) ∨
    source.startsWith target = false ∧ s.GoesThrough source target replace ∧ s.Buries source target
  | .metadata .. | .list .. | .quota .. | .read .. | .write .. | .createFolder .. | .deleteFile ..
  | .deleteFolder .. => False

namespace Store.IsTree

variable {s : Store} {path folder : Path} {name : String}

/-- At first the store is a tree. -/
theorem initial : Store.initial.IsTree := by
  refine ⟨by simp [get?_initial], ?_⟩
  intro path hpath hne
  simp [contains_eq_isSome, get?_initial, hne] at hpath

/-- What has a child stored is a folder. -/
theorem get?_of_child (h : s.IsTree) (hchild : s.contains (path.child name) = true) :
    s.get? path = some .folder := by
  obtain ⟨folder, hparent, hfolder⟩ := h.parent _ hchild (by simp [Path.child, Path.root])
  obtain rfl : path = folder := by simpa using hparent
  exact hfolder

/-- What is stored lies below the root. -/
theorem startsWith_root (h : s.IsTree) (hpath : s.contains path = true) :
    path.startsWith .root = true := by
  obtain ⟨absolute, segments⟩ := path
  induction segments using List.reverseRecOn with
  | nil =>
    cases absolute with
    | true => exact Path.startsWith_refl .root
    | false =>
      obtain ⟨folder, hparent, -⟩ := h.parent _ hpath (by simp [Path.root])
      simp [Path.parent?] at hparent
  | append_singleton segments name ih =>
    have hfolder : s.get? ⟨absolute, segments⟩ = some .folder := h.get?_of_child hpath
    have habove : s.contains ⟨absolute, segments⟩ = true := by
      rw [contains_eq_isSome, hfolder]
      rfl
    exact Path.startsWith_child_iff.mpr (.inl (ih habove))

/-- What lies above something stored is a folder. -/
theorem get?_of_startsWith (h : s.IsTree) (hpath : s.contains path = true)
    (hbelow : path.startsWith folder = true) (hne : path ≠ folder) :
    s.get? folder = some .folder := by
  induction path, hbelow using Path.startsWith_induction with
  | self => exact absurd rfl hne
  | child path name hbelow ih =>
    have hfolder := h.get?_of_child hpath
    by_cases hself : path = folder
    · rwa [← hself]
    · exact ih (by simp [contains_eq_isSome, hfolder]) hself

/-- Nothing is stored below what is not stored. -/
private theorem get?_eq_none_of_startsWith (h : s.IsTree) (hfolder : s.contains folder = false)
    (hbelow : path.startsWith folder = true) : s.get? path = none := by
  cases he : s.get? path with
  | none => rfl
  | some e =>
    by_cases hne : path = folder
    · simp [contains_eq_isSome, ← hne, he] at hfolder
    · have hget := h.get?_of_startsWith (by simp [contains_eq_isSome, he]) hbelow hne
      simp [contains_eq_isSome, hget] at hfolder

/-- In a tree every path is grounded. -/
theorem grounded (h : s.IsTree) (path : Path) : s.Grounded path :=
  fun hpath _ hbelow => h.get?_eq_none_of_startsWith hpath hbelow

/-! ### Changes of single paths -/

/-- A tree stays one if something is put in a folder, but no file over a folder. -/
theorem put (h : s.IsTree) (hparent : s.requireParent path = .ok ()) {e : Entry}
    (he : s.get? path = some .folder → e = .folder) : (s.put path e).IsTree := by
  have hfolder {other : Path} (hother : s.get? other = some .folder) :
      (s.put path e).get? other = some .folder := by
    rw [get?_put]
    split
    · next hsame =>
      subst hsame
      rw [he hother]
    · exact hother
  refine ⟨hfolder h.root, ?_⟩
  intro other hother hne
  have habove : ∃ folder, other.parent? = some folder ∧ s.get? folder = some .folder := by
    by_cases hsame : path = other
    · exact hsame ▸ requireParent_eq_ok_iff.mp hparent
    · refine h.parent other ?_ hne
      simpa [contains_eq_isSome, get?_put, hsame] using hother
  obtain ⟨folder, hup, hget⟩ := habove
  exact ⟨folder, hup, hfolder hget⟩

/-- A tree stays one if a file is removed. -/
theorem remove (h : s.IsTree) (hfile : s.get? path ≠ some .folder) : (s.remove path).IsTree := by
  have hfolder {other : Path} (hother : s.get? other = some .folder) :
      (s.remove path).get? other = some .folder := by
    rw [get?_remove, if_neg, hother]
    rintro rfl
    exact hfile hother
  refine ⟨hfolder h.root, ?_⟩
  intro other hother hne
  have hstored : s.contains other = true := by
    rw [contains_eq_isSome, get?_remove] at hother
    rw [contains_eq_isSome]
    split at hother
    · simp at hother
    · exact hother
  obtain ⟨folder, hup, hget⟩ := h.parent other hstored hne
  exact ⟨folder, hup, hfolder hget⟩

/-- A tree stays one if anything but the root is removed with all below it. -/
theorem removeSubtree (h : s.IsTree) (hroot : Path.root.startsWith path = false) :
    (s.removeSubtree path).IsTree := by
  refine ⟨by rw [get?_removeSubtree, hroot]; exact h.root, ?_⟩
  intro other hother hne
  rw [contains_eq_isSome, get?_removeSubtree] at hother
  split at hother
  · simp at hother
  · next houtside =>
    obtain ⟨folder, hup, hget⟩ := h.parent other (contains_eq_isSome s other ▸ hother) hne
    refine ⟨folder, hup, ?_⟩
    obtain ⟨name, rfl⟩ := Path.parent?_eq_some_iff.mp hup
    rw [get?_removeSubtree, if_neg, hget]
    exact fun hbelow => houtside (Path.startsWith_child_iff.mpr (.inl hbelow))

/-! ### Moves -/

variable {source target key place : Path} {replace : Bool}

/-- The new places of a key and of its child are adjacent. -/
private theorem adjacent_relocated_child (source target key : Path) (name : String) :
    Path.Adjacent (relocated source target key).segments
      (relocated source target (key.child name)).segments :=
  (Path.adjacent_between_child source key name).append_left target.segments

/-- Every place between the target and the new place of a key is the new place of a key above, and
that is a folder. -/
private theorem exists_relocated_eq (h : s.IsTree) (hstored : s.contains key = true)
    (hbelow : key.startsWith source = true) (hplace : place.startsWith target = true)
    (habove : (relocated source target key).startsWith place = true) :
    ∃ above, s.contains above = true ∧ above.startsWith source = true ∧
      relocated source target above = place ∧ (above = key ∨ s.get? above = some .folder) := by
  induction key, hbelow using Path.startsWith_induction with
  | self =>
    rw [relocated_self] at habove
    refine ⟨source, hstored, Path.startsWith_refl source, ?_, .inl rfl⟩
    rw [relocated_self]
    exact Path.startsWith_antisymm habove hplace
  | child key name hbelow ih =>
    have hfolder := h.get?_of_child hstored
    by_cases hself : relocated source target (key.child name) = place
    · exact ⟨_, hstored, Path.startsWith_child_iff.mpr (.inl hbelow), hself, .inl rfl⟩
    · -- what ends before the child's new place does not go beyond its parent's
      have hprefix : (relocated source target key).startsWith place = true := by
        obtain ⟨hflag, hsegments⟩ := Path.startsWith_iff.mp habove
        refine Path.startsWith_iff.mpr ⟨hflag,
          (adjacent_relocated_child source target key name).isPrefix hsegments ?_⟩
        intro hsame
        exact hself ((Path.mk.injEq ..).mpr ⟨hflag, hsame.symm⟩)
      obtain ⟨above, hs, hb, hp, hwhich⟩ :=
        ih (by rw [contains_eq_isSome, hfolder]; rfl) hprefix
      refine ⟨above, hs, hb, hp, .inr ?_⟩
      rcases hwhich with rfl | hget
      · exact hfolder
      · exact hget

/-- In a tree nothing is left at or below a cleared target. -/
private theorem get?_cleared_eq_none (h : s.IsTree) (hpath : path.startsWith target = true) :
    (s.cleared target).get? path = none :=
  Store.get?_cleared_eq_none (h.grounded target) hpath

/-- What a move goes through with has its target in a folder, so the target is not the root. -/
private theorem root_startsWith_eq_false (hgo : s.GoesThrough source target replace) :
    Path.root.startsWith target = false := by
  obtain ⟨folder, hup, -⟩ := requireParent_eq_ok_iff.mp hgo.parent
  obtain ⟨name, rfl⟩ := Path.parent?_eq_some_iff.mp hup
  simp [Path.startsWith, Path.root, Path.child]

/-- Taking a source to a target that it does not lie below leaves a tree exactly if no file comes to
lie above anything. -/
private theorem relocateAll_iff (h : s.IsTree) (hgo : s.GoesThrough source target replace)
    (hapart' : source.startsWith target = false) :
    ((s.cleared target).relocateAll source target).IsTree ↔ ¬ s.Buries source target := by
  have hapart := hgo.apart
  have hinside {place : Path} (hplace : place.startsWith target = true) {e : Entry} :=
    get?_relocateAll_cleared_eq_some_iff (s := s) hapart hapart'
      (fun path => h.get?_cleared_eq_none) hplace (e := e)
  obtain ⟨above, htop, habove⟩ := requireParent_eq_ok_iff.mp hgo.parent
  obtain ⟨name, rfl⟩ := Path.parent?_eq_some_iff.mp htop
  constructor
  · rintro htree ⟨file, data, modified, key, place, hfile, hsettles, hstored, hbelow, hplace, hne⟩
    obtain ⟨last, hlast⟩ := exists_settles (above.child name) hstored hbelow
    obtain ⟨e, he⟩ := Option.isSome_iff_exists.mp (contains_eq_isSome s last ▸ hlast.stored)
    have hthere := (hinside (startsWith_relocated source (above.child name) key)).mpr
      ⟨last, hlast, he⟩
    have hget := (hinside (hsettles.relocated_eq ▸ startsWith_relocated ..)).mpr
      ⟨file, hsettles, hfile⟩
    have hfolder := htree.get?_of_startsWith (by rw [contains_eq_isSome, hthere]; rfl) hplace hne
    simp [hget] at hfolder
  · intro hburies
    refine ⟨?_, ?_⟩
    · have hroot : Path.root.startsWith source = false := by
        rw [Bool.eq_false_iff]
        intro hbelow
        have hchild : (above.child name).startsWith .root = true :=
          Path.startsWith_child_iff.mpr
            (.inl (h.startsWith_root (by rw [contains_eq_isSome, habove]; rfl)))
        simp [Path.startsWith_trans hchild hbelow] at hapart
      rw [get?_relocateAll_cleared hroot (root_startsWith_eq_false hgo)]
      exact h.root
    · intro path hpath hne
      obtain ⟨e, he⟩ := Option.isSome_iff_exists.mp (contains_eq_isSome _ path ▸ hpath)
      cases htarget : path.startsWith (above.child name) with
      | false =>
        cases hsource : path.startsWith source with
        | true => simp [get?_relocateAll_cleared_eq_none hapart hapart' hsource] at he
        | false =>
          rw [get?_relocateAll_cleared hsource htarget] at he
          obtain ⟨folder, hup, hget⟩ :=
            h.parent path (by rw [contains_eq_isSome, he]; rfl) hne
          obtain ⟨last, rfl⟩ := Path.parent?_eq_some_iff.mp hup
          refine ⟨folder, hup, ?_⟩
          rw [get?_relocateAll_cleared (Path.startsWith_eq_false_of_child hsource)
            (Path.startsWith_eq_false_of_child htarget), hget]
      | true =>
        obtain ⟨key, hsettles, -⟩ := (hinside htarget).mp he
        by_cases hself : path = above.child name
        · refine ⟨above, hself ▸ htop, ?_⟩
          rw [get?_relocateAll_cleared (Path.startsWith_eq_false_of_child hapart)
            (above.startsWith_child_eq_false name), habove]
        · -- the parent of the place is the new place of a folder above the key
          obtain ⟨folder, last, rfl, hfolder⟩ := Path.exists_child_of_startsWith htarget hself
          refine ⟨folder, folder.parent?_child last, ?_⟩
          have hplace := hsettles.relocated_eq
          obtain ⟨upper, hstored, hupper, hupperplace, hwhich⟩ := h.exists_relocated_eq
            hsettles.stored hsettles.below hfolder
            (hplace ▸ Path.startsWith_child_iff.mpr (.inl folder.startsWith_refl))
          obtain ⟨final, hfinal⟩ := exists_settles (above.child name) hstored hupper
          rw [hupperplace] at hfinal
          obtain ⟨e', he'⟩ :=
            Option.isSome_iff_exists.mp (contains_eq_isSome s final ▸ hfinal.stored)
          rw [(hinside hfolder).mpr ⟨final, hfinal, he'⟩]
          cases e' with
          | folder => rfl
          | file data modified =>
            refine absurd ⟨final, data, modified, key, folder, he', hfinal, hsettles.stored,
              hsettles.below, ?_, ?_⟩ hburies
            · rw [hplace]
              exact Path.startsWith_child_iff.mpr (.inl folder.startsWith_refl)
            · rw [hplace]
              intro hsame
              have hnot := folder.startsWith_child_eq_false last
              rw [hsame, folder.startsWith_refl] at hnot
              simp at hnot

/-- No file comes to lie above anything if all that is moved has names only. -/
theorem exists_not_isName_of_buries (h : s.IsTree) (hburies : s.Buries source target) :
    ∃ key, s.contains key = true ∧ key.startsWith source = true ∧
      ∃ segment ∈ key.segments, ¬ Path.IsName segment := by
  by_contra hnames
  push Not at hnames
  obtain ⟨file, data, modified, key, place, hfile, hsettles, hstored, hbelow, hplace, hne⟩ :=
    hburies
  obtain ⟨first, rfl, hfirst⟩ := exists_relocated_eq_append hsettles.below
    (hnames file hsettles.stored hsettles.below) target
  obtain ⟨second, rfl, hsecond⟩ := exists_relocated_eq_append hbelow
    (hnames key hstored hbelow) target
  rw [← hsettles.relocated_eq, hfirst, hsecond] at hplace hne
  -- the file is as far above the other key as its place is above the other place
  have hprefix : first <+: second := by
    simpa [Path.startsWith_iff, List.prefix_append_right_inj] using hplace
  have hbelow : (⟨source.absolute, source.segments ++ second⟩ : Path).startsWith
      ⟨source.absolute, source.segments ++ first⟩ = true := by
    simp [Path.startsWith_iff, List.prefix_append_right_inj, hprefix]
  have hfolder := h.get?_of_startsWith hstored hbelow (by simpa using hne)
  simp [hfile] at hfolder

/-- In a tree only the root is stored and has no folder above it. -/
theorem eq_root_of_clearsInVain (h : s.IsTree) {f : Failure}
    (hvain : s.ClearsInVain source target replace f) : target = .root := by
  by_contra hne
  have hparent := requireParent_eq_ok_iff.mpr (h.parent target hvain.taken hne)
  simp [hvain.orphan] at hparent

/-- A move leaves a tree exactly if it does not break it. -/
theorem move_iff (h : s.IsTree) (source target : Path) (replace : Bool) :
    (s.move source target replace).1.IsTree ↔
      ¬ (Request.move source target replace).Breaks s := by
  rcases s.move_cases source target replace with
    ⟨f, hmove⟩ | ⟨f, hvain, hmove⟩ | ⟨hgo, hmove⟩
  · rw [hmove]
    refine iff_of_true h ?_
    rintro (⟨-, f', hvain⟩ | ⟨-, hgo, -⟩)
    · exact hvain.removeSubtree_ne (congrArg Prod.fst (hvain.move_eq.symm.trans hmove))
    · simpa using congrArg Prod.snd (hgo.move_eq.symm.trans hmove)
  · obtain rfl := h.eq_root_of_clearsInVain hvain
    rw [hmove]
    refine iff_of_false ?_ (not_not.mpr (.inl ⟨rfl, f, hvain⟩))
    intro htree
    have hroot := htree.root
    rw [get?_removeSubtree, if_pos Path.root.startsWith_refl] at hroot
    simp at hroot
  · have hnot : ¬ ∃ f, s.ClearsInVain source target replace f := by
      rintro ⟨f, hvain⟩
      simpa [hvain.orphan] using hgo.parent
    rw [hmove]
    cases hapart' : source.startsWith target with
    | false => simp [Request.Breaks, hnot, hapart', hgo, h.relocateAll_iff hgo hapart']
    | true =>
      -- the source is cleared with the target, and nothing is left to be taken
      refine iff_of_true ?_ (by simp [Request.Breaks, hnot, hapart'])
      have htaken := (h.grounded target).contains_of_startsWith hgo.stored hapart'
      rw [relocateAll_cleared_of_startsWith htaken hapart']
      exact h.removeSubtree (root_startsWith_eq_false hgo)

end Store.IsTree

/-! ### Requests -/

namespace Provider

open Store

/-- A change keeps a tree if it does so where it succeeds. -/
private theorem isTree_commit {α : Type} {p : Provider} (hp : p.store.IsTree)
    {change : Answer (α × Store)} (reply : α → Reply)
    (h : ∀ a t, change = .ok (a, t) → t.IsTree) : (p.commit change reply).1.store.IsTree := by
  cases change with
  | error f => exact hp
  | ok result => exact h result.1 result.2 rfl

/-- A served request leaves a tree exactly if it does not break it. -/
theorem isTree_serve_iff {p : Provider} (h : p.store.IsTree) (now : Timestamp) (r : Request) :
    (p.serve now r).1.store.IsTree ↔ ¬ r.Breaks p.store := by
  cases r with
  | metadata path => exact iff_of_true h id
  | list folder token => exact iff_of_true h id
  | quota folder => exact iff_of_true h id
  | read file offset count => exact iff_of_true h id
  | write file replace data modified =>
    refine iff_of_true (isTree_commit h _ ?_) id
    intro item t ht
    obtain ⟨-, rfl⟩ := eq_put_of_write ht
    exact h.put (requireParent_of_write ht) fun hf => absurd hf (get?_ne_folder_of_write ht)
  | createFolder folder =>
    refine iff_of_true (isTree_commit h _ ?_) id
    intro made t ht
    have ht := eq_ok_of_map ht
    rw [eq_put_of_createFolder ht]
    exact h.put (requireParent_of_createFolder ht) fun _ => rfl
  | deleteFile file =>
    refine iff_of_true (isTree_commit h _ ?_) id
    intro done t ht
    have ht := eq_ok_of_map ht
    obtain ⟨data, modified, hfile⟩ := exists_file_of_deleteFile ht
    rw [eq_remove_of_deleteFile ht]
    exact h.remove (by simp [hfile])
  | deleteFolder folder =>
    refine iff_of_true (isTree_commit h _ ?_) id
    intro done t ht
    have ht := eq_ok_of_map ht
    rw [eq_removeSubtree_of_deleteFolder ht]
    refine h.removeSubtree ?_
    rw [Bool.eq_false_iff]
    intro hbelow
    obtain ⟨hflag, hempty⟩ := Path.startsWith_iff.mp hbelow
    have hroot := isRoot_eq_false_of_deleteFolder ht
    simp [Path.isRoot, ← hflag, List.prefix_nil.mp hempty, Path.root] at hroot
  | move source target replace => exact h.move_iff source target replace

/-- The provider after some requests, each served at its moment. -/
def after (p : Provider) (requests : List (Timestamp × Request)) : Provider :=
  requests.foldl (fun p (now, r) => (p.serve now r).1) p

@[simp] theorem after_append (p : Provider) (first second : List (Timestamp × Request)) :
    p.after (first ++ second) = (p.after first).after second := List.foldl_append

/-- **The store is a tree until a move breaks it.** However requests follow each other from the
store with nothing but the root folder on, the store is a tree before, between and after all of
them exactly if none of them breaks the store it meets: no move wants to replace the root, and
none leaves a file where it puts something below. The latter takes a key with a segment `.` or `..`
at or below the source of the move. -/
theorem stores_are_trees_iff (pageSize : UInt64) (requests : List (Timestamp × Request)) :
    ((∀ before, before <+: requests → ((new pageSize).after before).store.IsTree) ↔
      ∀ before now r since, requests = before ++ (now, r) :: since →
        ¬ r.Breaks ((new pageSize).after before).store) ∧
    ∀ (s : Store) (r : Request), s.IsTree → r.Breaks s →
      ∃ source target replace, r = .move source target replace ∧
        (target = .root ∧ replace = true ∨
          ∃ key, s.contains key = true ∧ key.startsWith source = true ∧
            ∃ segment ∈ key.segments, segment = "." ∨ segment = "..") := by
  refine ⟨⟨?_, ?_⟩, ?_⟩
  · rintro htrees before now r since rfl
    have hbefore := htrees before (List.prefix_append before _)
    have hnext := htrees (before ++ [(now, r)]) ⟨since, by simp⟩
    rw [after_append] at hnext
    exact (isTree_serve_iff hbefore now r).mp hnext
  · intro hkeeps before hbefore
    induction before using List.reverseRecOn with
    | nil => exact IsTree.initial
    | append_singleton before turn ih =>
      obtain ⟨now, r⟩ := turn
      obtain ⟨since, rfl⟩ := hbefore
      have hpast := ih ⟨(now, r) :: since, by simp⟩
      rw [after_append]
      exact (isTree_serve_iff hpast now r).mpr (hkeeps before now r since (by simp))
  · intro s r htree hbreaks
    cases r with
    | move source target replace =>
      refine ⟨source, target, replace, rfl, ?_⟩
      rcases hbreaks with ⟨hroot, f, hvain⟩ | ⟨-, -, hburies⟩
      · exact .inl ⟨hroot, hvain.allowed⟩
      · obtain ⟨key, hstored, hbelow, segment, hmem, hdots⟩ :=
          htree.exists_not_isName_of_buries hburies
        refine .inr ⟨key, hstored, hbelow, segment, hmem, ?_⟩
        rw [Path.IsName, not_and_or, not_not, not_not] at hdots
        exact hdots
    | _ => exact absurd hbreaks id

/-- A file named `.` is moved with the folder it is in, and takes its place: what else was in the
folder then lies below a file. -/
theorem stores_are_trees_iff_dotted :
    let a : Path := ⟨true, ["a"]⟩
    let requests : List (Timestamp × Request) :=
      [(⟨0⟩, .createFolder a), (⟨0⟩, .write (a.child ".") false .empty none),
        (⟨0⟩, .write (a.child "x") false .empty none), (⟨0⟩, .move a ⟨true, ["b"]⟩ false)]
    ∃ before, before <+: requests ∧ ¬ ((new 100).after before).store.IsTree := by
  intro a requests
  by_contra htrees
  push Not at htrees
  let moved := (new 100).after (requests.take 3)
  refine (stores_are_trees_iff 100 requests).1.mp htrees (requests.take 3) ⟨0⟩
    (.move a ⟨true, ["b"]⟩ false) [] rfl (.inr ⟨by decide, ?_, ?_⟩)
  · exact ⟨by decide +kernel, by decide, by decide +kernel, by decide +kernel⟩
  · refine ⟨a.child ".", .empty, ⟨0⟩, a.child "x", ⟨true, ["b"]⟩, ?_, ?_, ?_, ?_, ?_, ?_⟩
    · with_unfolding_all rfl
    · exact lastTo_eq_some_iff.mp (by decide +kernel)
    · decide +kernel
    · decide
    · decide +kernel
    · decide +kernel

/-- It is not so that the store is always a tree. -/
theorem not_stores_are_trees :
    ¬ ∀ (pageSize : UInt64) (requests : List (Timestamp × Request)),
      ((new pageSize).after requests).store.IsTree := by
  intro h
  have hroot := (h 100 [(⟨0⟩, .createFolder ⟨true, ["a"]⟩),
    (⟨0⟩, .move ⟨true, ["a"]⟩ .root true)]).root
  have hgone : ((new 100).after [(⟨0⟩, .createFolder ⟨true, ["a"]⟩),
    (⟨0⟩, .move ⟨true, ["a"]⟩ .root true)]).store.contains .root = false := by decide +kernel
  simp [contains_eq_isSome, hroot] at hgone

end Provider
end LayeredStore
