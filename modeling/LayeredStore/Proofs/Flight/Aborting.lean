import LayeredStore.Proofs.Flight.Succession

/-!
# Callers that give up

A caller that gives up leaves its seat, and that is all that the desk learns of it: no call belongs
to the caller that has started it. Main statement: two runs in which the same happens, but that in
one of them some callers give up, start and end the same calls with the same outcomes, have the same
tickets on the board after every event, and tell the same to all callers that have not given up.
-/

namespace LayeredStore.Desk

variable {K V : Type}

/-- The events of a run in which callers give up after some of them. -/
def withAborts (run : List (Event K V × List Nat)) : List (Event K V) :=
  run.flatMap fun entry => entry.1 :: entry.2.map Event.leave

/-- The events of the same run if nobody gives up. -/
def withoutAborts (run : List (Event K V × List Nat)) : List (Event K V) := run.map Prod.fst

/-- The callers that give up in a run. -/
def aborted (run : List (Event K V × List Nat)) : List Nat := run.flatMap Prod.snd

variable [Ord K]

/-- That a caller leaves means nothing to the calls. -/
@[simp] theorem CallRecord.after_leave (r : CallRecord K V) (caller : Nat) :
    r.after (.leave caller) = r := by
  simp [CallRecord.after, Event.evicts, Event.end?]

/-! ### Tables of callers -/

/-- Two tables have the same for all callers but some. -/
def SameBut {A : Type} (gone : List Nat) (m m' : Std.ExtTreeMap Nat A) : Prop :=
  ∀ caller ∉ gone, m[caller]? = m'[caller]?

namespace SameBut

variable {A : Type} {gone : List Nat} {m m' : Std.ExtTreeMap Nat A}

private theorem insert (h : SameBut gone m m') (caller : Nat) (a : A) :
    SameBut gone (m.insert caller a) (m'.insert caller a) := by
  intro other hother
  simp only [Std.ExtTreeMap.getElem?_insert, h other hother]

private theorem erase (h : SameBut gone m m') (caller : Nat) :
    SameBut gone (m.erase caller) (m'.erase caller) := by
  intro other hother
  simp only [Std.ExtTreeMap.getElem?_erase, h other hother]

private theorem map (h : SameBut gone m m') (f : Nat → A → A) :
    SameBut gone (m.map f) (m'.map f) := by
  intro other hother
  simp only [Std.ExtTreeMap.getElem?_map, h other hother]

/-- It does not matter if one of the callers is taken out of one of the tables. -/
private theorem erase_left (h : SameBut gone m m') {caller : Nat} (hgone : caller ∈ gone) :
    SameBut gone (m.erase caller) m' := by
  intro other hother
  have hne : caller ≠ other := fun he => hother (he ▸ hgone)
  rw [← h other hother]
  simp [Std.ExtTreeMap.getElem?_erase, hne]

end SameBut

/-! ### Desks that differ in some seats -/

namespace Watched

/-- Two desks with their ledgers are the same but for the seats of some callers. -/
structure AgreesBut (gone : List Nat) (w w' : Watched K V) : Prop where
  next : w.desk.next = w'.desk.next
  board : w.desk.board = w'.desk.board
  running : w.desk.calls = w'.desk.calls
  calls : w.calls = w'.calls
  seats : SameBut gone w.desk.seats w'.desk.seats
  shares : SameBut gone w.shares w'.shares

namespace AgreesBut

theorem refl (gone : List Nat) (w : Watched K V) : w.AgreesBut gone w :=
  ⟨rfl, rfl, rfl, rfl, fun _ _ => rfl, fun _ _ => rfl⟩

variable [Std.TransOrd K] {gone : List Nat} {w w' : Watched K V}

/-- Callers are received in the same way. -/
private theorem admission (h : w.AgreesBut gone w') (caller : Nat) (key : K) :
    (w.desk.enter caller key).2 = (w'.desk.enter caller key).2 := by
  unfold Desk.enter
  rw [← h.board, ← h.next]
  cases w.desk.board[key]? <;> rfl

omit [Std.TransOrd K] in
/-- Callers that stay have the same answers. -/
private theorem answer? (h : w.AgreesBut gone w') {caller : Nat} (hc : caller ∉ gone) :
    w.desk.answer? caller = w'.desk.answer? caller := by
  rw [Desk.answer?, Desk.answer?, h.seats caller hc]

private theorem enter (h : w.AgreesBut gone w') (caller : Nat) (key : K) :
    (w.enter caller key).AgreesBut gone (w'.enter caller key) := by
  cases hb : w.desk.board[key]? with
  | some t =>
    have hb' : w'.desk.board[key]? = some t := h.board ▸ hb
    rw [enter_of_some hb, enter_of_some hb']
    exact ⟨h.next, h.board, h.running, h.calls, h.seats.insert caller _, h.shares.insert caller _⟩
  | none =>
    have hb' : w'.desk.board[key]? = none := h.board ▸ hb
    rw [enter_of_none hb, enter_of_none hb', ← h.next, ← h.board, ← h.running, ← h.calls]
    exact ⟨rfl, rfl, rfl, rfl, h.seats.insert caller _, h.shares.insert caller _⟩

private theorem land (h : w.AgreesBut gone w') (ticket : Nat) (outcome : Outcome V) :
    (w.step (.land ticket outcome)).AgreesBut gone (w'.step (.land ticket outcome)) := by
  have hcalls : w.calls.map (·.after (.land ticket outcome)) =
      w'.calls.map (·.after (.land ticket outcome)) := by rw [h.calls]
  cases hr : w.desk.calls[ticket]? with
  | none =>
    have hr' : w'.desk.calls[ticket]? = none := h.running ▸ hr
    refine ⟨?_, ?_, ?_, hcalls, ?_, h.shares⟩ <;>
      simp only [desk_step, Desk.step, Desk.land, hr, hr']
    exacts [h.next, h.board, h.running, h.seats]
  | some key =>
    have hr' : w'.desk.calls[ticket]? = some key := h.running ▸ hr
    refine ⟨?_, ?_, ?_, hcalls, ?_, h.shares⟩ <;>
      simp only [desk_step, Desk.step, Desk.land, hr, hr']
    · exact h.next
    · rw [Desk.boardAfter, Desk.boardAfter, Desk.holds, Desk.holds, h.board]
    · rw [h.running]
    · exact h.seats.map _

/-- What happens in both runs is met in the same way. -/
theorem step (h : w.AgreesBut gone w') (e : Event K V) :
    (w.step e).AgreesBut gone (w'.step e) := by
  have hcalls : w.calls.map (·.after e) = w'.calls.map (·.after e) := by rw [h.calls]
  cases e with
  | enter caller key => exact h.enter caller key
  | land ticket outcome => exact h.land ticket outcome
  | leave caller =>
    exact ⟨h.next, h.board, h.running, hcalls, h.seats.erase caller, h.shares.erase caller⟩
  | evict key =>
    exact ⟨h.next, congrArg (·.erase key) h.board, h.running, hcalls, h.seats, h.shares⟩
  | evictWhere drop =>
    exact ⟨h.next, congrArg (·.filter fun key _ => !drop key) h.board, h.running, hcalls, h.seats,
      h.shares⟩

/-- That a caller gives up in one of the runs makes no difference to the others. -/
private theorem leave (h : w.AgreesBut gone w') {caller : Nat} (hgone : caller ∈ gone) :
    (w.step (.leave caller)).AgreesBut gone w' := by
  have hcalls : w.calls.map (·.after (.leave caller)) = w'.calls := by simp [h.calls]
  exact ⟨h.next, h.board, h.running, hcalls, h.seats.erase_left hgone, h.shares.erase_left hgone⟩

/-- Nor does it when several of them give up. -/
private theorem leaves (h : w.AgreesBut gone w') {callers : List Nat}
    (hgone : ∀ c ∈ callers, c ∈ gone) : (w.after (callers.map .leave)).AgreesBut gone w' := by
  induction callers generalizing w with
  | nil => exact h
  | cons caller callers ih =>
    rw [List.map_cons, after_cons]
    exact ih (h.leave (hgone caller List.mem_cons_self))
      fun c hc => hgone c (List.mem_cons_of_mem _ hc)

/-- A whole run, with and without those that give up. -/
theorem after (h : w.AgreesBut gone w') {run : List (Event K V × List Nat)}
    (hgone : ∀ c ∈ aborted run, c ∈ gone) :
    (w.after (withAborts run)).AgreesBut gone (w'.after (withoutAborts run)) := by
  induction run generalizing w w' with
  | nil => exact h
  | cons entry run ih =>
    have hhere : ∀ c ∈ entry.2, c ∈ gone := fun c hc => hgone c (List.mem_append_left _ hc)
    have hthere : ∀ c ∈ aborted run, c ∈ gone := fun c hc => hgone c (List.mem_append_right _ hc)
    have hrun : withAborts (entry :: run) =
        (entry.1 :: entry.2.map .leave) ++ withAborts run := rfl
    rw [hrun, withoutAborts, List.map_cons, after_append, after_cons, after_cons]
    exact ih ((h.step entry.1).leaves hhere) hthere

end AgreesBut

variable [Std.TransOrd K]

/-- **Who gives up disturbs nobody.** Let callers give up at any moments of a run, those that have
started calls among them. After every event the same calls have been started for the same keys and
have ended in the same way, the same ones are under way, the same tickets are on the board, and
every request to come will be received in the same way. A caller that has not given up by then
shares the same call as in the run without the others' giving up, and has the same answer or
still none. -/
theorem aborts_disturb_nobody (run : List (Event K V × List Nat)) (n : Nat) :
    let torn : Watched K V := start.after (withAborts (run.take n))
    let calm : Watched K V := start.after (withoutAborts (run.take n))
    torn.calls = calm.calls ∧ torn.desk.calls = calm.desk.calls ∧
    torn.desk.board = calm.desk.board ∧
    (∀ (caller : Nat) (key : K),
      (torn.desk.enter caller key).2 = (calm.desk.enter caller key).2) ∧
    ∀ caller ∉ aborted (run.take n),
      torn.shares[caller]? = calm.shares[caller]? ∧
      torn.desk.answer? caller = calm.desk.answer? caller := by
  intro torn calm
  have h : torn.AgreesBut (aborted (run.take n)) calm := (AgreesBut.refl _ start).after fun _ => id
  refine ⟨h.calls, h.running, h.board, h.admission, fun caller hc => ?_⟩
  exact ⟨h.shares caller hc, h.answer? hc⟩

/-- The caller that has started a call gives up before it ends: the ticket stays on the board, and
the caller that has joined has its answer. -/
theorem aborts_disturb_nobody_first :
    let run : List (Event String Nat × List Nat) := [(.enter 1 "a", []), (.enter 2 "a", [1]),
      (.land 1 (.value 5), [])]
    (start.after (withAborts (run.take 2))).desk.board["a"]? = some ⟨1, false⟩ ∧
      2 ∉ aborted run ∧ (start.after (withAborts run)).desk.answer? 1 = none ∧
      (start.after (withAborts run)).desk.answer? 2 = some (.ok 5) := by
  intro run
  have hstays : 2 ∉ aborted run := by simp [aborted, run]
  obtain ⟨-, -, hboard, -⟩ := aborts_disturb_nobody run 2
  obtain ⟨-, -, -, -, hothers⟩ := aborts_disturb_nobody run 3
  refine ⟨?_, hstays, rfl, ?_⟩
  · rw [hboard]
    rfl
  · exact (hothers 2 hstays).2.trans rfl

end Watched
end LayeredStore.Desk
