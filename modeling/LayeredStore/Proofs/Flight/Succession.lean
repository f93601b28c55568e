import Mathlib.Data.List.Induction
import LayeredStore.Proofs.Flight.Sharing

/-!
# What later callers come to share

A run goes on from a desk in use. Main statements: a call that has its ticket on the board later on
either had it there before or was started since, and who comes later shares such a call.
-/

namespace LayeredStore.Desk.Watched

variable {K V : Type} [Ord K] [Std.TransOrd K]

@[simp] theorem after_nil (w : Watched K V) : w.after [] = w := rfl

@[simp] theorem after_cons (w : Watched K V) (e : Event K V) (es : List (Event K V)) :
    w.after (e :: es) = (w.step e).after es := rfl

@[simp] theorem after_append (w : Watched K V) (es es' : List (Event K V)) :
    w.after (es ++ es') = (w.after es).after es' := List.foldl_append

/-- The ledger looks on in a run. -/
theorem desk_after (w : Watched K V) (es : List (Event K V)) :
    (w.after es).desk = es.foldl Desk.step w.desk := by
  induction es generalizing w with
  | nil => rfl
  | cons e es ih => rw [after_cons, ih, desk_step, List.foldl_cons]

/-- Ticket numbers only grow. -/
private theorem next_le_next_step (w : Watched K V) (e : Event K V) :
    w.desk.next ≤ (w.step e).desk.next := by
  cases e with
  | enter caller key =>
    cases hb : w.desk.board[key]? with
    | some t => simp [step, enter_of_some hb]
    | none => simp [step, enter_of_none hb]
  | land ticket outcome =>
    simp only [desk_step, Desk.step, Desk.land]
    split <;> exact Nat.le_refl _
  | leave caller => exact Nat.le_refl _
  | evict key => exact Nat.le_refl _
  | evictWhere drop => exact Nat.le_refl _

/-- A call after a run was there before, and what the run has done to it cannot put it back on the
board; or it was started since. -/
theorem mem_after {w : Watched K V} {es : List (Event K V)} {r : CallRecord K V}
    (hr : r ∈ (w.after es).calls) :
    (∃ r₀ ∈ w.calls, r₀.ticket = r.ticket ∧ r₀.key = r.key ∧
      (r₀.evicted = true → r.evicted = true) ∧ (r₀.standing = none → r.standing = none)) ∨
    w.desk.next ≤ r.ticket := by
  induction es generalizing w with
  | nil => exact .inl ⟨r, hr, rfl, rfl, id, id⟩
  | cons e es ih =>
    rcases ih hr with ⟨r₁, hr₁, ht, hk, hev, hoff⟩ | hnext
    · rcases mem_step hr₁ with ⟨r₀, hr₀, rfl⟩ | ⟨caller, key, -, -, rfl⟩
      · refine .inl ⟨r₀, hr₀, ht, hk, fun he => hev ?_, fun hs => hoff ?_⟩
        · simp [CallRecord.after, he]
        · exact CallRecord.standing_after_of_none hs e
      · exact .inr (Nat.le_of_eq ht)
    · exact .inr (Nat.le_trans (next_le_next_step w e) hnext)

/-- No call is struck out of the ledger in a run. -/
theorem exists_mem_after {w : Watched K V} {r : CallRecord K V} (hr : r ∈ w.calls)
    (es : List (Event K V)) :
    ∃ r' ∈ (w.after es).calls, r'.ticket = r.ticket ∧ r'.key = r.key := by
  induction es generalizing w r with
  | nil => exact ⟨r, hr, rfl, rfl⟩
  | cons e es ih =>
    obtain ⟨r', hr', ht, hk⟩ := ih (after_mem_step hr e)
    exact ⟨r', hr', ht, hk⟩

/-- A call that has ended after a run had ended so before, or ended so in the run. -/
theorem ended_after {w : Watched K V} {es : List (Event K V)} {r : CallRecord K V}
    (hr : r ∈ (w.after es).calls) {outcome : Outcome V} (ho : r.outcome = some outcome) :
    (∃ r₀ ∈ w.calls, r₀.ticket = r.ticket ∧ r₀.key = r.key ∧ r₀.outcome = some outcome) ∨
      .land r.ticket outcome ∈ es := by
  induction es generalizing w with
  | nil => exact .inl ⟨r, hr, rfl, rfl, ho⟩
  | cons e es ih =>
    rcases ih hr with ⟨r₁, hr₁, ht, hk, ho₁⟩ | hland
    · rcases mem_step hr₁ with ⟨r₀, hr₀, rfl⟩ | ⟨caller, key, -, -, rfl⟩
      · rcases Option.or_eq_some_iff.mp ho₁ with ho₀ | ⟨-, hend⟩
        · exact .inl ⟨r₀, hr₀, ht, hk, ho₀⟩
        · refine .inr (List.mem_cons.mpr (.inl ?_))
          cases e with
          | land ticket o =>
            obtain ⟨rfl, rfl⟩ : ticket = r₀.ticket ∧ o = outcome := by
              simpa [Event.end?] using hend
            rw [← ht]
            rfl
          | _ => simp [Event.end?] at hend
      · simp at ho₁
    · exact .inr (List.mem_cons_of_mem _ hland)

/-- A call that is not evicted was started after all calls for its key were. -/
theorem le_ticket_of_not_evicted {w : Watched K V} {es : List (Event K V)} {r : CallRecord K V}
    (hr : r ∈ (w.after es).calls) (he : r.evicted = false)
    (hevicted : ∀ r₀ ∈ w.calls, r₀.key = r.key → r₀.evicted = true) : w.desk.next ≤ r.ticket := by
  rcases mem_after hr with ⟨r₀, hr₀, -, hk, hev, -⟩ | hnext
  · simp [hev (hevicted r₀ hr₀ hk)] at he
  · exact hnext

variable [Std.LawfulEqOrd K]

/-- Who shares a call after an event shared it before, or has come to its ticket on the board just
now. -/
theorem share_step {w : Watched K V} {e : Event K V} {caller : Nat} {key : K} {ticket : Nat}
    (h : (w.step e).shares[caller]? = some (key, ticket)) :
    w.shares[caller]? = some (key, ticket) ∨
      e = .enter caller key ∧ ∃ t, (w.step e).desk.board[key]? = some t ∧ t.id = ticket := by
  cases e with
  | enter c k =>
    by_cases hc : c = caller
    · subst hc
      have hshare := shares_enter w c k
      change (w.enter c k).shares[c]? = some (key, ticket) at h
      rw [h] at hshare
      obtain ⟨t, ht, he⟩ := Option.map_eq_some_iff.mp hshare.symm
      obtain ⟨rfl, rfl⟩ := Prod.mk.inj he
      exact .inr ⟨rfl, t, ht, rfl⟩
    · have hother : ∀ d ∈ [(.enter c k : Event K V)], d.isOf caller = false := by
        simp [Event.isOf, hc]
      exact .inl ((shares_after hother w).symm.trans h)
  | leave c =>
    by_cases hc : c = caller
    · subst hc
      simp [step] at h
    · have hother : ∀ d ∈ [(.leave c : Event K V)], d.isOf caller = false := by
        simp [Event.isOf, hc]
      exact .inl ((shares_after hother w).symm.trans h)
  | land t outcome => exact .inl h
  | evict k => exact .inl h
  | evictWhere drop => exact .inl h

/-- Who shares a call after a run shared it before, or has come in the run. -/
theorem share_or_enter {w : Watched K V} {es : List (Event K V)} {caller : Nat} {key : K}
    {ticket : Nat} (h : (w.after es).shares[caller]? = some (key, ticket)) :
    w.shares[caller]? = some (key, ticket) ∨ .enter caller key ∈ es := by
  induction es generalizing w with
  | nil => exact .inl h
  | cons e es ih =>
    rcases ih h with hshare | henter
    · rcases share_step hshare with hshare | ⟨rfl, -⟩
      · exact .inl hshare
      · exact .inr List.mem_cons_self
    · exact .inr (List.mem_cons_of_mem _ henter)

/-- **Who comes later shares a later call.** Of the calls that were started before, it can share
only the one whose ticket was on the board for its key. -/
theorem Sound.share_after {w : Watched K V} (h : w.Sound) {es : List (Event K V)} {caller : Nat}
    {key : K} {ticket : Nat} (habsent : w.shares[caller]? = none)
    (hshare : (w.after es).shares[caller]? = some (key, ticket)) :
    w.desk.next ≤ ticket ∨ ∃ t, w.desk.board[key]? = some t ∧ t.id = ticket := by
  -- by induction on the run from its end, where the caller may have come
  induction es using List.reverseRecOn with
  | nil => simp [habsent] at hshare
  | append_singleton es e ih =>
    rw [after_append] at hshare
    rcases share_step hshare with hshare | ⟨rfl, t, ht, rfl⟩
    · exact ih hshare
    · obtain ⟨r, hr, rfl, hs⟩ := (((h.after es).step (.enter caller key)).board key t).mp ht
      have hid := ((r.standing_eq_some_iff t).mp hs).2.1
      have hr : r ∈ (w.after (es ++ [.enter caller r.key])).calls := by simpa using hr
      rcases mem_after hr with ⟨r₀, hr₀, hticket, hkey, -, hoff⟩ | hnext
      · cases hs₀ : r₀.standing with
        | none => simp [hoff hs₀] at hs
        | some t₀ =>
          refine .inr ⟨t₀, (h.board r.key t₀).mpr ⟨r₀, hr₀, hkey, hs₀⟩, ?_⟩
          rw [((r₀.standing_eq_some_iff t₀).mp hs₀).2.1, hticket, hid]
      · exact .inl (hid ▸ hnext)

end LayeredStore.Desk.Watched
