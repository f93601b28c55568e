import LayeredStore.Proofs.Store.Hierarchy
import Mathlib.Data.Finset.Card

/-!
# What a move loses

A move carries something over if it is found at or below the target afterwards. Main statement: a
move that succeeds carries everything over, and nothing else is found there, exactly if its source
does not lie below its target and it takes no two things to one place. In a tree of names only the
first can fail: what lies below the target is removed with the target before anything is taken
there.
-/

namespace LayeredStore.Store

variable {s : Store} {source target place : Path} {replace : Bool}

/-- The paths at or below a path at which something is stored. -/
def below (s : Store) (path : Path) : Finset Path := (s.movedKeys path).toFinset

@[simp] theorem mem_below {path key : Path} :
    key ∈ s.below path ↔ s.contains key = true ∧ key.startsWith path = true := by
  rw [below, List.mem_toFinset, mem_movedKeys]

/-- Whether all that one store has at or below a source is found in another one at or below a
target: what is at the source at the target, and distinct items at distinct places. -/
def Carries (s t : Store) (source target : Path) : Prop :=
  ∃ place : Path → Path, place source = target ∧ Set.InjOn place (s.below source) ∧
    ∀ key ∈ s.below source, place key ∈ t.below target ∧ t.get? (place key) = s.get? key

/-- Whether everything at or below a source has a new place of its own. -/
def TakenApart (s : Store) (source target : Path) : Prop :=
  Set.InjOn (relocated source target) (s.below source)

/-- Names are taken apart. -/
theorem takenApart_of_isName
    (h : ∀ key ∈ s.below source, ∀ segment ∈ key.segments, Path.IsName segment) :
    s.TakenApart source target := by
  intro key hkey other hother hsame
  obtain ⟨rest, rfl, hrest⟩ := exists_relocated_eq_append (mem_below.mp hkey).2 (h key hkey) target
  obtain ⟨rest', rfl, hrest'⟩ :=
    exists_relocated_eq_append (mem_below.mp hother).2 (h other hother) target
  rw [hrest, hrest'] at hsame
  simpa using hsame

/-- What is taken to a place of its own settles there. -/
private theorem TakenApart.settles (h : s.TakenApart source target) {key : Path}
    (hkey : key ∈ s.below source) :
    s.Settles source target key (relocated source target key) := by
  obtain ⟨hstored, hbelow⟩ := mem_below.mp hkey
  refine ⟨hstored, hbelow, rfl, ?_⟩
  intro other hother hunder hsame
  have hself : compare key key = .eq := Std.ReflCmp.compare_self
  obtain rfl : other = key := h (mem_below.mpr ⟨hother, hunder⟩) hkey hsame
  rw [hself]
  rfl

/-! ### Sources apart from their targets -/

section Apart

variable (hapart : target.startsWith source = false) (hapart' : source.startsWith target = false)

include hapart hapart'

/-- What is taken apart is found at its new place. -/
theorem TakenApart.get?_relocated (h : s.TakenApart source target) {key : Path}
    (hkey : key ∈ s.below source) :
    ((s.cleared target).relocateAll source target).get? (relocated source target key) =
      s.get? key :=
  (h.settles hkey).get?_relocateAll_cleared hapart hapart'

/-- What is taken apart is carried over. -/
private theorem TakenApart.carries (h : s.TakenApart source target) :
    s.Carries ((s.cleared target).relocateAll source target) source target := by
  refine ⟨relocated source target, relocated_self source target, h, ?_⟩
  intro key hkey
  have hget := h.get?_relocated hapart hapart' hkey
  refine ⟨mem_below.mpr ⟨?_, startsWith_relocated source target key⟩, hget⟩
  rw [contains_eq_isSome, hget, ← contains_eq_isSome]
  exact (mem_below.mp hkey).1

/-- Below a grounded target there is what has been taken there, and nothing else. -/
theorem below_relocateAll_cleared (hground : s.Grounded target) :
    ((s.cleared target).relocateAll source target).below target =
      (s.below source).image (relocated source target) := by
  have hempty : ∀ path, path.startsWith target = true → (s.cleared target).get? path = none :=
    fun path => get?_cleared_eq_none hground
  ext place
  simp only [mem_below, Finset.mem_image]
  constructor
  · rintro ⟨hstored, hplace⟩
    obtain ⟨e, he⟩ := Option.isSome_iff_exists.mp (contains_eq_isSome _ place ▸ hstored)
    obtain ⟨key, hsettles, -⟩ :=
      (get?_relocateAll_cleared_eq_some_iff hapart hapart' hempty hplace).mp he
    exact ⟨key, ⟨hsettles.stored, hsettles.below⟩, hsettles.relocated_eq⟩
  · rintro ⟨key, ⟨hstored, hbelow⟩, rfl⟩
    obtain ⟨last, hsettles⟩ := exists_settles target hstored hbelow
    refine ⟨?_, startsWith_relocated source target key⟩
    rw [contains_eq_isSome, hsettles.get?_relocateAll_cleared hapart hapart', ← contains_eq_isSome]
    exact hsettles.stored

/-- As much is found below a grounded target as was below the source exactly if everything has a
new place of its own. -/
theorem card_below_relocateAll_cleared_iff (hground : s.Grounded target) :
    (((s.cleared target).relocateAll source target).below target).card =
      (s.below source).card ↔ s.TakenApart source target := by
  rw [below_relocateAll_cleared hapart hapart' hground]
  exact Finset.card_image_iff

end Apart

/-! ### Moves -/

/-- A move that succeeds is one that goes through, and leads to its target. -/
theorem goesThrough_of_move_eq_ok (h : (s.move source target replace).2 = .ok place) :
    s.GoesThrough source target replace ∧ target = place := by
  rcases s.move_cases source target replace with
    ⟨f, hmove⟩ | ⟨f, -, hmove⟩ | ⟨hgo, hmove⟩
  · simp [hmove] at h
  · simp [hmove] at h
  · rw [hmove] at h
    exact ⟨hgo, Except.ok.inj h⟩

/-- **A move loses nothing that lies apart from its target and has a new place of its own.** Take a
move that succeeds. It carries over all that is at or below its source, if the source does not lie
at or below the target and no two paths at or below the source have one new place. If nothing lies
below the target unless something is at the target, as in every tree, it does so only then, and
only then the target has as many paths at or below it afterwards as the source had. New places are
distinct wherever no segment is `.` or `..`. -/
theorem moves_lose_nothing_iff (h : (s.move source target replace).2 = .ok place) :
    let t := (s.move source target replace).1
    place = target ∧
    (source.startsWith target = false ∧ s.TakenApart source target →
      s.Carries t source target) ∧
    (s.Grounded target →
      (s.Carries t source target ∧ (t.below target).card = (s.below source).card ↔
        source.startsWith target = false ∧ s.TakenApart source target)) ∧
    (s.IsTree → s.Grounded target) ∧
    ((∀ key ∈ s.below source, ∀ segment ∈ key.segments, segment ≠ "." ∧ segment ≠ "..") →
      s.TakenApart source target) := by
  intro t
  obtain ⟨hgo, rfl⟩ := goesThrough_of_move_eq_ok h
  have ht : t = (s.cleared target).relocateAll source target := congrArg Prod.fst hgo.move_eq
  rw [ht]
  refine ⟨rfl, ?_, ?_, fun htree => htree.grounded target, takenApart_of_isName⟩
  · rintro ⟨hapart', hdistinct⟩
    exact hdistinct.carries hgo.apart hapart'
  · intro hground
    cases hapart' : source.startsWith target with
    | false =>
      rw [card_below_relocateAll_cleared_iff hgo.apart hapart' hground]
      exact ⟨fun hboth => ⟨rfl, hboth.2⟩,
        fun hboth => ⟨hboth.2.carries hgo.apart hapart', hboth.2⟩⟩
    | true =>
      -- the source is removed with the target, and nothing is left at either
      refine iff_of_false ?_ (by simp)
      rintro ⟨⟨place, rfl, -, hplace⟩, -⟩
      obtain ⟨hthere, -⟩ := hplace source (mem_below.mpr ⟨hgo.stored, source.startsWith_refl⟩)
      have htaken := hground.contains_of_startsWith hgo.stored hapart'
      have hfound := (mem_below.mp hthere).1
      rw [relocateAll_cleared_of_startsWith htaken hapart', contains_eq_isSome,
        get?_removeSubtree, if_pos (place source).startsWith_refl] at hfound
      simp at hfound

/-- A folder replaces another one: it is found there with the file in it, and nothing else is. -/
theorem moves_lose_nothing_iff_replaced :
    let a : Path := ⟨true, ["a"]⟩
    let b : Path := ⟨true, ["b"]⟩
    let s := ((Provider.new 100).after [(⟨0⟩, .createFolder a),
      (⟨0⟩, .write (a.child "x") false .empty none), (⟨0⟩, .createFolder b),
      (⟨0⟩, .write (b.child "y") false .empty none)]).store
    let t := (s.move a b true).1
    (s.move a b true).2 = .ok b ∧ s.Carries t a b ∧ (t.below b).card = (s.below a).card := by
  intro a b s t
  have hgo : s.GoesThrough a b true :=
    ⟨by decide +kernel, by decide, fun _ => rfl, by decide +kernel⟩
  have hmove : (s.move a b true).2 = .ok b := congrArg Prod.snd hgo.move_eq
  obtain ⟨-, -, hiff, -, hnames⟩ := moves_lose_nothing_iff hmove
  have htaken : s.contains b = true := by decide +kernel
  have hground : s.Grounded b := fun habsent => absurd (htaken.symm.trans habsent) (by simp)
  exact ⟨hmove, (hiff hground).mpr ⟨by decide, hnames (by decide +kernel)⟩⟩

/-- It is not so that a move that succeeds loses nothing: a folder replaced by the one in it. -/
theorem not_moves_lose_nothing : ¬ ∀ (pageSize : UInt64) (requests : List (Timestamp × Request))
    (source target place : Path) (replace : Bool),
    let s := ((Provider.new pageSize).after requests).store
    let t := (s.move source target replace).1
    (s.move source target replace).2 = .ok place →
      s.Carries t source target ∧ (t.below target).card = (s.below source).card := by
  intro h
  let a : Path := ⟨true, ["a"]⟩
  let requests : List (Timestamp × Request) :=
    [(⟨0⟩, .createFolder a), (⟨0⟩, .createFolder (a.child "b"))]
  let s := ((Provider.new 100).after requests).store
  have hgo : s.GoesThrough (a.child "b") a true :=
    ⟨by decide +kernel, by decide, fun _ => rfl, by decide +kernel⟩
  obtain ⟨-, hcount⟩ := h 100 requests (a.child "b") a a true (congrArg Prod.snd hgo.move_eq)
  have hbefore : (s.below (a.child "b")).card = 1 := by decide +kernel
  have hafter : ((s.move (a.child "b") a true).1.below a).card = 0 := by decide +kernel
  exact absurd (hafter.symm.trans (hcount.trans hbefore)) (by decide)

end LayeredStore.Store
