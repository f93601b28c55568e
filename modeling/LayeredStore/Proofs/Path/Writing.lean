import LayeredStore.Path.Journey
import LayeredStore.Proofs.Path.Origins

/-!
# Paths and their texts

A segment is written as it is, and reading cuts at every separator and drops what is empty. Main
statement: a path is read back from its text exactly if every segment is one that reading can give,
neither empty nor with a separator in it. Reading gives such paths only and every computation keeps
them, so all paths on a journey among them are read back from their texts.
-/

namespace LayeredStore.Path

variable {p q base target : Path}

/-- Whether reading can give every segment: none is empty or has a separator in it. -/
def Legible (p : Path) : Prop := ∀ s ∈ p.segments, s ≠ "" ∧ separator ∉ s.toList

instance (p : Path) : Decidable p.Legible := inferInstanceAs (Decidable (∀ _ ∈ _, _))

/-! ### Reading -/

/-- No piece between separators has a separator in it. -/
private theorem separator_notMem_of_mem_cut {text : List Char} :
    ∀ piece ∈ cut text, separator ∉ piece := by
  rw [cut_eq_splitOn]
  induction text with
  | nil => simp
  | cons c text ih =>
    obtain ⟨first, rest, hpieces⟩ :=
      List.exists_cons_of_ne_nil (List.splitOn_ne_nil separator text)
    rw [List.splitOn_cons_eq_if_modifyHead, hpieces]
    rw [hpieces, List.forall_mem_cons] at ih
    by_cases hc : c = separator
    · simpa [hc] using ih
    · simpa [hc, Ne.symm hc] using ih

/-- Every path that is read is legible. -/
theorem legible_parse (text : String) : (parse text).Legible := by
  intro s hs
  refine ⟨ne_empty_of_mem_segments_parse hs, ?_⟩
  obtain ⟨piece, hpiece, rfl⟩ := List.mem_map.mp hs
  rw [String.toList_ofList]
  exact separator_notMem_of_mem_cut piece (List.mem_filter.mp hpiece).1

/-- A separator in front of a text adds an empty piece only. -/
private theorem filter_cut_separator_cons (text : List Char) :
    (cut (separator :: text)).filter (· ≠ []) = (cut text).filter (· ≠ []) := by
  simp [cut_eq_splitOn, List.splitOn_cons_eq_if_modifyHead]

section Pieces

variable {pieces : List (List Char)} (h : ∀ piece ∈ pieces, piece ≠ [] ∧ separator ∉ piece)

include h

/-- Pieces that are not empty and have no separator in them are cut out of the text that joins
them. -/
private theorem filter_cut_intercalate :
    (cut ([separator].intercalate pieces)).filter (· ≠ []) = pieces := by
  cases hpieces : pieces with
  | nil => rfl
  | cons piece rest =>
    rw [← hpieces, cut_eq_splitOn,
      List.splitOn_intercalate separator (fun piece hp => (h piece hp).2) (by simp [hpieces]),
      List.filter_eq_self]
    intro piece hp
    simpa using (h piece hp).1

/-- The text that joins them does not begin with a separator. -/
private theorem head?_intercalate_ne_separator :
    ([separator].intercalate pieces).head? ≠ some separator := by
  cases pieces with
  | nil => simp
  | cons piece rest =>
    obtain ⟨hne, hnotMem⟩ := h piece List.mem_cons_self
    obtain ⟨c, piece, rfl⟩ := List.exists_cons_of_ne_nil hne
    have hc : c ≠ separator := fun hc => hnotMem (by simp [hc])
    cases rest <;> simp [hc]

end Pieces

/-! ### Writing -/

/-- The characters of a written path. -/
private theorem toList_text (p : Path) :
    p.text.toList = (if p.absolute then [separator] else []) ++
      [separator].intercalate (p.segments.map String.toList) := by
  have hslash : "/".toList = [separator] := rfl
  cases hflag : p.absolute <;> simp [text, hflag, hslash]

/-- A legible path is read back from its text. -/
theorem Legible.parse_text (h : p.Legible) : parse p.text = p := by
  have hpieces : ∀ piece ∈ p.segments.map String.toList, piece ≠ [] ∧ separator ∉ piece := by
    intro piece hpiece
    obtain ⟨s, hs, rfl⟩ := List.mem_map.mp hpiece
    exact ⟨by simpa using (h s hs).1, (h s hs).2⟩
  refine (Path.mk.injEq ..).mpr ⟨?_, ?_⟩
  · rw [toList_text]
    cases p.absolute with
    | true => simp
    | false => simpa using head?_intercalate_ne_separator hpieces
  · have hcut : (cut p.text.toList).filter (· ≠ []) = p.segments.map String.toList := by
      rw [toList_text]
      cases p.absolute with
      | true => exact (filter_cut_separator_cons _).trans (filter_cut_intercalate hpieces)
      | false => exact filter_cut_intercalate hpieces
    rw [hcut, List.map_map]
    simp

/-- Legible paths, and no others, are read back from their texts. -/
theorem parse_text_eq_iff : parse p.text = p ↔ p.Legible :=
  ⟨fun h => h ▸ legible_parse p.text, Legible.parse_text⟩

/-! ### Journeys -/

/-- The paths that a step takes besides the one it is made from. -/
def Step.operands : Step → List Path
  | .parent | .normalize | .subpath .. => []
  | .resolve other | .resolveSibling other => [other]
  | .relativize target => [target]
  | .relativizeFrom base => [base]

/-- A step invents no segment but `..`. -/
private theorem Step.mem_segments_of_apply {step : Step} (h : step.apply p = .path q) {s : String}
    (hs : s ∈ q.segments) : s = up ∨ ∃ r ∈ p :: step.operands, s ∈ r.segments := by
  have hboth {other : Path} (hmem : s ∈ p.segments ++ other.segments) :
      ∃ r ∈ [p, other], s ∈ r.segments := by simpa using hmem
  cases step with
  | parent =>
    cases hparent : p.parent? with
    | none => simp [apply, hparent] at h
    | some parent =>
      obtain rfl : parent = q := by simpa [apply, hparent] using h
      exact .inr ⟨p, List.mem_cons_self, segments_parent?_subset hparent hs⟩
  | normalize =>
    obtain rfl : p.normalize = q := Arrival.path.inj h
    exact .inr ⟨p, List.mem_cons_self, segments_normalize_subset p hs⟩
  | resolve other =>
    obtain rfl : p.resolve other = q := Arrival.path.inj h
    exact .inr (hboth (segments_resolve_subset p other hs))
  | resolveSibling other =>
    obtain rfl : p.resolveSibling other = q := Arrival.path.inj h
    exact .inr (hboth (segments_resolveSibling_subset p other hs))
  | relativize target =>
    have hway := segments_relativize_subset (Arrival.ofExcept_eq_path_iff.mp h) hs
    exact (List.mem_cons.mp hway).imp_right fun hmem => ⟨target, by simp [operands], hmem⟩
  | relativizeFrom base =>
    have hway := segments_relativize_subset (Arrival.ofExcept_eq_path_iff.mp h) hs
    exact (List.mem_cons.mp hway).imp_right fun hmem => ⟨p, List.mem_cons_self, hmem⟩
  | subpath start stop =>
    have hpart := segments_subpath_subset (Arrival.ofExcept_eq_path_iff.mp h) hs
    exact .inr ⟨p, List.mem_cons_self, hpart⟩

/-- A step from a legible path, with legible paths, arrives at a legible path. -/
theorem Step.legible_of_apply {step : Step} (h : step.apply p = .path q)
    (hall : ∀ r ∈ p :: step.operands, r.Legible) : q.Legible := by
  intro s hs
  rcases mem_segments_of_apply h hs with rfl | ⟨r, hr, hmem⟩
  · decide
  · exact hall r hr s hmem

/-- All paths on a journey from a legible path, with legible paths, are legible. -/
theorem legible_of_mem_journey {steps : List Step}
    (hall : ∀ r ∈ p :: steps.flatMap Step.operands, r.Legible)
    (h : .path q ∈ (journey p steps).1) : q.Legible := by
  induction steps generalizing p with
  | nil => cases h
  | cons step steps ih =>
    rw [List.flatMap_cons, List.forall_mem_cons, List.forall_mem_append] at hall
    obtain ⟨hp, hoperands, hrest⟩ := hall
    have harrival {r : Path} (hr : step.apply p = .path r) : r.Legible :=
      Step.legible_of_apply hr (List.forall_mem_cons.mpr ⟨hp, hoperands⟩)
    rcases List.mem_cons.mp h with hq | hq
    · exact harrival hq.symm
    · -- the journey goes on from where the step arrived, or from where it started
      refine ih (List.forall_mem_cons.mpr ⟨?_, hrest⟩) hq
      cases hr : step.apply p with
      | path r => exact harrival hr
      | nowhere => exact hp
      | fault f => exact hp

/-- **Legible paths are what texts stand for.** A path is read back from its text exactly if no
segment is empty or has a separator in it. Every path that is read is such a path, and so is
whatever a step computes from such paths; so every path on a journey from such a path, along steps
that take only such paths, is read back from its text. -/
theorem texts_are_read_back (p : Path) (steps : List Step) :
    (parse p.text = p ↔ p.Legible) ∧ (∀ text, (parse text).Legible) ∧
      (∀ (step : Step) (q : Path), (∀ r ∈ p :: step.operands, r.Legible) →
        step.apply p = .path q → q.Legible) ∧
      ((∀ r ∈ p :: steps.flatMap Step.operands, r.Legible) →
        ∀ q, .path q ∈ (journey p steps).1 → parse q.text = q) := by
  refine ⟨parse_text_eq_iff, legible_parse, ?_, ?_⟩
  · intro step q hall h
    exact Step.legible_of_apply h hall
  · intro hall q h
    exact (legible_of_mem_journey hall h).parse_text

/-- From `/a/b` to a neighbour, and back to a path relative to `/x`; and a segment that reading
cuts. -/
theorem texts_are_read_back_neighbour :
    let p := parse "//a/b/"
    let steps : List Step :=
      [.resolveSibling (parse "../c"), .normalize, .relativizeFrom (parse "/x")]
    let q : Path := ⟨false, ["..", "c"]⟩
    let cuttable : Path := ⟨false, ["a/b"]⟩
    (∀ r ∈ p :: steps.flatMap Step.operands, r.Legible) ∧ .path q ∈ (journey p steps).1 ∧
      parse q.text = q ∧ parse cuttable.text ≠ cuttable := by
  intro p steps q cuttable
  have hall : ∀ r ∈ p :: steps.flatMap Step.operands, r.Legible := by decide
  have hq : .path q ∈ (journey p steps).1 := .tail _ (.tail _ (.head _))
  obtain ⟨-, -, -, hjourney⟩ := texts_are_read_back p steps
  obtain ⟨hiff, -⟩ := texts_are_read_back cuttable []
  exact ⟨hall, hq, hjourney hall q hq, fun h => absurd (hiff.mp h) (by decide)⟩

end LayeredStore.Path
