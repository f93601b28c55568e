import Mathlib.Data.List.Basic

/-!
# What has happened since

What a run of events has led to often depends on whether one thing has happened and another thing
has not happened since. Main statement: after one more event this is so exactly if that event makes
it so, or if it was so before and the event does not undo it.
-/

namespace LayeredStore

variable {ε : Type} {happens undoes : List ε → ε → Prop} {events : List ε} {e : ε}

/-- In a run of events, one of them made something happen, and none after it has undone it. Whether
an event does either may depend on the events before it. -/
def Since (happens undoes : List ε → ε → Prop) (events : List ε) : Prop :=
  ∃ before e later, events = before ++ e :: later ∧ happens before e ∧
    ∀ between e' rest, later = between ++ e' :: rest → ¬ undoes (before ++ e :: between) e'

/-- Without events nothing has happened. -/
theorem not_since_nil : ¬ Since happens undoes [] := by
  rintro ⟨before, e, later, h, -⟩
  simp at h

/-- One more event makes it happen, or it has happened and the event does not undo it. -/
theorem since_concat_iff : Since happens undoes (events ++ [e]) ↔
    happens events e ∨ Since happens undoes events ∧ ¬ undoes events e := by
  constructor
  · rintro ⟨before, made, later, h, hmade, hkept⟩
    rcases List.eq_nil_or_concat' later with rfl | ⟨later, last, rfl⟩
    · obtain ⟨rfl, rfl⟩ := List.append_singleton_inj.mp h
      exact .inl hmade
    · have hsplit : events ++ [e] = (before ++ made :: later) ++ [last] := by simpa using h
      obtain ⟨rfl, rfl⟩ := List.append_singleton_inj.mp hsplit
      refine .inr ⟨⟨before, made, later, rfl, hmade, ?_⟩, hkept later e [] rfl⟩
      rintro between e' rest rfl
      exact hkept between e' (rest ++ [e]) (by simp)
  · rintro (hmade | ⟨⟨before, made, later, rfl, hmade, hkept⟩, hlast⟩)
    · refine ⟨events, e, [], rfl, hmade, ?_⟩
      intro between e' rest h
      simp at h
    · refine ⟨before, made, later ++ [e], by simp, hmade, ?_⟩
      intro between e' rest h
      rcases List.eq_nil_or_concat' rest with rfl | ⟨rest, last, rfl⟩
      · obtain ⟨rfl, rfl⟩ := List.append_singleton_inj.mp h
        exact hlast
      · have hsplit : later ++ [e] = (between ++ e' :: rest) ++ [last] := by simpa using h
        obtain ⟨rfl, -⟩ := List.append_singleton_inj.mp hsplit
        exact hkept between e' rest rfl

end LayeredStore
