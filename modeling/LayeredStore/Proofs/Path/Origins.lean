import LayeredStore.Json.Parse
import LayeredStore.Path.Arithmetic
import LayeredStore.Item.Record
import Mathlib.Data.Set.Defs

/-!
# Where paths come from

A path is read from a text, built from segments, taken over from a record, or computed from other
paths. No computation invents a segment but `..`, and the first two ways leave no empty segment.
Main statement: every made path is without empty segments exactly if all recorded ones are.
-/

namespace LayeredStore.Path

variable {p q base target : Path} {records : Set String}

/-- Whether no segment is empty. -/
def Gapless (p : Path) : Prop := "" ∉ p.segments

instance (p : Path) : Decidable p.Gapless := inferInstanceAs (Decidable (¬ _))

/-- The path that the text of a record writes. -/
def ofText? (text : String) : Option Path := (Json.parse? text).bind ofJson?

/-- The paths that can be made where `records` are the texts that paths are taken over from. -/
inductive Made (records : Set String) : Path → Prop
  | parse (text : String) : Made records (parse text)
  | ofSegments (absolute : Bool) (segments : List String) :
    Made records (ofSegments absolute segments)
  | record {text : String} {p : Path} (hrecord : text ∈ records) (hread : ofText? text = some p) :
    Made records p
  | parent {p q : Path} (hp : Made records p) (h : p.parent? = some q) : Made records q
  | subpath {p q : Path} {start stop : Nat} (hp : Made records p)
    (h : p.subpath start stop = .ok q) : Made records q
  | normalize {p : Path} (hp : Made records p) : Made records p.normalize
  | resolve {p q : Path} (hp : Made records p) (hq : Made records q) : Made records (p.resolve q)
  | resolveSibling {p q : Path} (hp : Made records p) (hq : Made records q) :
    Made records (p.resolveSibling q)
  | relativize {base target q : Path} (hbase : Made records base) (htarget : Made records target)
    (h : base.relativize target = .ok q) : Made records q

/-! ### The segments of computed paths -/

/-- A parent has segments of its child only. -/
theorem segments_parent?_subset (h : p.parent? = some q) : q.segments ⊆ p.segments := by
  obtain ⟨name, rfl⟩ := parent?_eq_some_iff.mp h
  exact List.subset_append_left q.segments [name]

/-- A part of a path has segments of the whole only. -/
theorem segments_subpath_subset {start stop : Nat} (h : p.subpath start stop = .ok q) :
    q.segments ⊆ p.segments := by
  unfold subpath at h
  split at h
  · obtain rfl := Except.ok.inj h
    exact List.Subset.trans (List.drop_subset ..) (List.take_subset ..)
  · cases h

/-- What is on a stack after one more segment was on it before, or is that segment. -/
private theorem climb_subset (stack : List String) (segment : String) :
    climb stack segment ⊆ segment :: stack := by
  unfold climb
  split
  · exact List.subset_cons_self segment stack
  · split
    · subst segment
      cases stack with
      | nil => exact List.Subset.refl [up]
      | cons top below =>
        simp only
        split
        · exact List.Subset.refl _
        · exact List.Subset.trans (List.subset_cons_self top below) (List.subset_cons_self up _)
    · exact List.Subset.refl _

/-- Normalization leaves segments out and adds none. -/
theorem segments_normalize_subset (p : Path) : p.normalize.segments ⊆ p.segments := by
  have hstack (segments stack : List String) :
      segments.foldl climb stack ⊆ segments ++ stack := by
    induction segments generalizing stack with
    | nil => exact List.Subset.refl stack
    | cons segment segments ih =>
      have hrest : segments ⊆ segment :: segments ++ stack :=
        List.Subset.trans (List.subset_cons_self segment segments) (List.subset_append_left _ stack)
      have hclimbed : climb stack segment ⊆ segment :: segments ++ stack :=
        List.Subset.trans (climb_subset stack segment)
          (List.cons_subset_cons segment (List.subset_append_right segments stack))
      exact List.Subset.trans (ih (climb stack segment))
        (List.append_subset.mpr ⟨hrest, hclimbed⟩)
  intro s hs
  have hmem := hstack p.segments [] (List.mem_reverse.mp hs)
  rwa [List.append_nil] at hmem

/-- A resolved path has segments of the two paths only. -/
theorem segments_resolve_subset (p q : Path) :
    (p.resolve q).segments ⊆ p.segments ++ q.segments := by
  unfold resolve
  split
  · exact List.subset_append_right p.segments q.segments
  · exact List.Subset.refl _

theorem segments_resolveSibling_subset (p q : Path) :
    (p.resolveSibling q).segments ⊆ p.segments ++ q.segments := by
  unfold resolveSibling
  cases hparent : p.parent? with
  | none => exact List.subset_append_right p.segments q.segments
  | some parent =>
    have hsegments := List.Subset.trans (segments_parent?_subset hparent)
      (List.subset_append_left p.segments q.segments)
    exact List.Subset.trans (segments_resolve_subset parent q)
      (List.append_subset.mpr ⟨hsegments, List.subset_append_right p.segments q.segments⟩)

/-- What is left of the second list is the end of it. -/
private theorem dropShared_snd_suffix (a b : List String) : (dropShared a b).2 <:+ b := by
  fun_induction dropShared a b with
  | case1 as b bs ih => exact ih.trans (List.suffix_cons b bs)
  | case2 => exact List.suffix_refl _
  | case3 => exact List.suffix_refl _

/-- The way from one path to another leads up, or along segments of the target. -/
theorem segments_between_subset (base target : Path) :
    (base.between target).segments ⊆ up :: target.segments := by
  intro s hs
  rcases List.mem_append.mp hs with hs | hs
  · rw [List.eq_of_mem_replicate hs]
    exact List.mem_cons_self
  · exact List.mem_cons_of_mem up
      (segments_normalize_subset target ((dropShared_snd_suffix ..).subset hs))

theorem segments_relativize_subset (h : base.relativize target = .ok q) :
    q.segments ⊆ up :: target.segments := by
  unfold relativize at h
  split at h
  · obtain rfl := Except.ok.inj h
    exact segments_between_subset base target
  · cases h

/-! ### Empty segments -/

namespace Gapless

/-- A path with segments of a path without empty ones has no empty ones. -/
private theorem of_subset (hp : p.Gapless) (h : q.segments ⊆ p.segments) : q.Gapless :=
  fun hgap => hp (h hgap)

/-- The same for segments of two paths. -/
private theorem of_subset_append {r : Path} (hp : p.Gapless) (hq : q.Gapless)
    (h : r.segments ⊆ p.segments ++ q.segments) : r.Gapless :=
  fun hgap => (List.mem_append.mp (h hgap)).elim hp hq

end Gapless

/-- Building a path anew from its own segments changes it exactly if it has empty ones. -/
theorem ofSegments_segments_eq_iff : ofSegments p.absolute p.segments = p ↔ p.Gapless := by
  obtain ⟨absolute, segments⟩ := p
  rw [ofSegments, Gapless, mk.injEq, List.filter_eq_self]
  simp only [true_and, decide_eq_true_eq]
  exact ⟨fun h hgap => h "" hgap rfl, fun h s hs he => h (he ▸ hs)⟩

/-- Every empty segment of a made path comes from a record. -/
theorem Made.gapless {p : Path} (hp : Made records p)
    (hrecords : ∀ text ∈ records, ∀ p, ofText? text = some p → p.Gapless) : p.Gapless := by
  induction hp with
  | parse text => exact fun hgap => ne_empty_of_mem_segments_parse hgap rfl
  | ofSegments absolute segments => exact fun hgap => ne_empty_of_mem_segments_ofSegments hgap rfl
  | record hrecord hread => exact hrecords _ hrecord _ hread
  | parent _ h hp => exact hp.of_subset (segments_parent?_subset h)
  | subpath _ h hp => exact hp.of_subset (segments_subpath_subset h)
  | normalize _ hp => exact hp.of_subset (segments_normalize_subset _)
  | resolve _ _ hp hq => exact hp.of_subset_append hq (segments_resolve_subset ..)
  | resolveSibling _ _ hp hq => exact hp.of_subset_append hq (segments_resolveSibling_subset ..)
  | relativize _ _ h _ htarget =>
    intro hgap
    rcases List.mem_cons.mp (segments_relativize_subset h hgap) with hup | hgap
    · exact absurd hup (by decide)
    · exact htarget hgap

/-- The made paths are without empty segments exactly if the recorded ones are. -/
theorem made_gapless_iff : (∀ p, Made records p → p.Gapless) ↔
    ∀ text ∈ records, ∀ p, ofText? text = some p → p.Gapless := by
  constructor
  · intro h text hrecord p hread
    exact h p (.record hrecord hread)
  · intro hrecords p hp
    exact hp.gapless hrecords

end LayeredStore.Path
