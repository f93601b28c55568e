import LayeredStore.Proofs.Flight.Ledger

/-!
# Sharing calls

What callers and calls can rely on at a desk, in every run of events: which ticket is on the
board, when a load is started, what callers are told, and what the end of a call takes away. A
call that ends leaves its ticket behind if it crashes, and in no other case.
-/

namespace LayeredStore.Desk

variable {K V : Type} [Ord K]

/-- Whether an event is the coming or leaving of a caller. -/
def Event.isOf (e : Event K V) (caller : Nat) : Bool :=
  match e with
  | .enter c _ | .leave c => c = caller
  | .land .. | .evict .. | .evictWhere .. => false

variable [Std.TransOrd K]

namespace Watched

/-- On the board there is the ticket of the latest call for a key, as long as it stands. -/
theorem Sound.board_iff_latest [Std.LawfulEqOrd K] {w : Watched K V} (h : w.Sound) (key : K)
    (t : Ticket) : w.desk.board[key]? = some t ↔
      ∃ r, w.latest? key = some r ∧ r.standing = some t := by
  rw [h.board]
  constructor
  · rintro ⟨r, hr, hk, hs⟩
    cases hl : w.latest? key with
    | none =>
      have := List.find?_eq_none.mp hl r hr
      simp [hk] at this
    | some l =>
      refine ⟨l, rfl, ?_⟩
      obtain ⟨hlk, earlier, later, hsplit, hbefore⟩ := List.find?_eq_some_iff_append.mp hl
      have hlk : l.key = key := by simpa using hlk
      rw [hsplit] at hr
      rcases List.mem_append.mp hr with hr | hr
      · have := hbefore r hr
        simp [hk] at this
      · rcases List.mem_cons.mp hr with rfl | hr
        · exact hs
        · -- a call before the latest one is superseded
          have hp := h.superseded
          rw [hsplit] at hp
          have hoff := (List.pairwise_cons.mp (List.pairwise_append.mp hp).2.1).1 r hr
          simp [hoff (hlk.trans hk.symm)] at hs
  · rintro ⟨r, hl, hs⟩
    exact ⟨r, List.mem_of_find?_eq_some hl, by simpa using List.find?_some hl, hs⟩

/-- Who comes starts a call if nothing is on the board, and joins one otherwise. -/
theorem opened_iff (d : Desk K V) (caller : Nat) (key : K) :
    (d.enter caller key).2 = .opened d.next ↔ d.isInFlight key = false := by
  simp only [Desk.isInFlight, Std.ExtTreeMap.contains_eq_isSome_getElem?]
  cases hb : d.board[key]? <;> simp [Desk.enter, hb]

/-- Two running calls for one key are the same unless one of them is evicted. -/
theorem Sound.eq_of_running [Std.LawfulEqOrd K] {w : Watched K V} (h : w.Sound)
    {r r' : CallRecord K V} (hr : r ∈ w.calls) (hr' : r' ∈ w.calls) (hk : r.key = r'.key)
    (he : r.evicted = false) (he' : r'.evicted = false) (ho : r.outcome = none)
    (ho' : r'.outcome = none) : r = r' := by
  have hs : r.standing = some ⟨r.ticket, false⟩ := by simp [CallRecord.standing, he, ho]
  have hs' : r'.standing = some ⟨r'.ticket, false⟩ := by simp [CallRecord.standing, he', ho']
  have hb := (h.board r.key _).mpr ⟨r, hr, rfl, hs⟩
  rw [hk, (h.board r'.key _).mpr ⟨r', hr', rfl, hs'⟩] at hb
  exact h.eq_of_ticket_eq hr hr' (by simpa using hb.symm)

/-- What a caller came to share does not change while it stays. -/
theorem shares_after {caller : Nat} {es : List (Event K V)}
    (h : ∀ e ∈ es, e.isOf caller = false) (w : Watched K V) :
    (w.after es).shares[caller]? = w.shares[caller]? := by
  induction es generalizing w with
  | nil => rfl
  | cons e es ih =>
    have he := h e List.mem_cons_self
    refine (ih (fun e he => h e (List.mem_cons_of_mem _ he)) (w.step e)).trans ?_
    cases e with
    | enter c key =>
      have hne : c ≠ caller := by simpa [Event.isOf] using he
      cases hb : w.desk.board[key]? with
      | some t => simp [step, enter_of_some hb, Std.ExtTreeMap.getElem?_insert, hne]
      | none => simp [step, enter_of_none hb, Std.ExtTreeMap.getElem?_insert, hne]
    | leave c =>
      have hne : c ≠ caller := by simpa [Event.isOf] using he
      simp [step, Std.ExtTreeMap.getElem?_erase, hne]
    | land ticket outcome => rfl
    | evict key => rfl
    | evictWhere drop => rfl

/-- Who comes to share the ticket that is on the board then. -/
theorem shares_enter [Std.LawfulEqOrd K] (w : Watched K V) (caller : Nat) (key : K) :
    (w.enter caller key).shares[caller]? =
      ((w.enter caller key).desk.board[key]?).map fun t => (key, t.id) := by
  cases hb : w.desk.board[key]? with
  | some t => simp [enter_of_some hb, hb]
  | none => simp [enter_of_none hb]

/-- Once a caller has come a ticket is on the board. -/
theorem isSome_board_enter (w : Watched K V) (caller : Nat) (key : K) :
    ((w.enter caller key).desk.board[key]?).isSome = true := by
  cases hb : w.desk.board[key]? with
  | some t => simp [enter_of_some hb, hb]
  | none => simp [enter_of_none hb]

/-- A call whose ticket is off the board ends without touching the board. -/
private theorem Sound.board_land_of_evicted {w : Watched K V} (h : w.Sound) {r : CallRecord K V}
    (hr : r ∈ w.calls) (he : r.evicted = true) (outcome : Outcome V) :
    (w.desk.land r.ticket outcome).board = w.desk.board := by
  cases hc : w.desk.calls[r.ticket]? with
  | none => simp [Desk.land, hc]
  | some key =>
    obtain ⟨r', hr', ht, hk, ho⟩ := (h.running r.ticket key).mp hc
    obtain rfl := h.eq_of_ticket_eq hr' hr ht
    simp [Desk.land, hc, ← hk, Desk.boardAfter, h.holds_eq hr ho, he]

/-- **Calls are shared, in every run.** What is on the board is the ticket of the latest call for
the key, exactly as long as that call is not evicted and either runs or has crashed. A caller
starts a call exactly if nothing is on the board, so that of the running calls for a key at most
one is not evicted. Who has come and not left has the outcome of the call that it came to share
as soon as there is one, and no other answer, evicted or not. The end of an evicted call changes
nothing on the board. -/
theorem calls_are_shared [Std.LawfulEqOrd K] (es : List (Event K V)) :
    let w : Watched K V := start.after es
    (∀ (key : K) (t : Ticket), w.desk.board[key]? = some t ↔
      ∃ r, w.latest? key = some r ∧ r.evicted = false ∧ t.id = r.ticket ∧
        (r.outcome = none ∧ t.crashed = false ∨ r.outcome = some .crash ∧ t.crashed = true)) ∧
    (∀ (caller : Nat) (key : K),
      (w.desk.enter caller key).2 = .opened w.desk.next ↔ w.desk.isInFlight key = false) ∧
    (∀ r ∈ w.calls, ∀ r' ∈ w.calls, r.key = r'.key → r.evicted = false → r'.evicted = false →
      r.outcome = none → r'.outcome = none → r = r') ∧
    (∀ before since caller key, es = before ++ .enter caller key :: since →
      (∀ e ∈ since, e.isOf caller = false) →
      ∃ r ∈ w.calls, r.key = key ∧
        ((start.after before).enter caller key).desk.board[key]?.map Ticket.id =
          some r.ticket ∧
        w.desk.answer? caller = r.outcome.map Outcome.shared) ∧
    (∀ r ∈ w.calls, r.evicted = true → ∀ outcome,
      (w.desk.land r.ticket outcome).board = w.desk.board) := by
  intro w
  have h : w.Sound := sound_after_start es
  refine ⟨?_, opened_iff w.desk, ?_, ?_, ?_⟩
  · intro key t
    rw [h.board_iff_latest]
    simp only [CallRecord.standing_eq_some_iff]
  · intro r hr r' hr' hk he he' ho ho'
    exact h.eq_of_running hr hr' hk he he' ho ho'
  · intro before since caller key hes hstay
    have hw : w = ((start.after before).enter caller key).after since := by
      simp only [w, hes, after, List.foldl_append, List.foldl_cons, step]
    obtain ⟨t, ht⟩ := Option.isSome_iff_exists.mp
      (isSome_board_enter (start.after before : Watched K V) caller key)
    have hshare : w.shares[caller]? = some (key, t.id) := by
      rw [hw, shares_after hstay, shares_enter, ht]
      rfl
    obtain ⟨r, hr, hk, hid, hseat⟩ := h.shared caller key t.id hshare
    exact ⟨r, hr, hk, by simp [ht, hid], by simp [Desk.answer?, hseat]⟩
  · intro r hr he outcome
    exact h.board_land_of_evicted hr he outcome

/-- A call whose ticket is evicted ends after its successor has started: its caller has its
outcome, and the ticket of the successor stays on the board. -/
theorem calls_are_shared_after_eviction :
    let es : List (Event String Nat) := [.enter 1 "a", .evict "a", .enter 2 "a",
      .land 1 (.value 5)]
    (start.after es).desk.answer? 1 = some (.ok 5) ∧
      (start.after es).desk.board["a"]? = some ⟨2, false⟩ ∧
      ((start.after es).desk.land 1 (.value 7)).board = (start.after es).desk.board := by
  intro es
  have hcalls : (start.after es).calls =
      [⟨2, "a", false, none⟩, ⟨1, "a", true, some (.value 5)⟩] := rfl
  obtain ⟨hboard, -, -, hanswers, hland⟩ := calls_are_shared es
  refine ⟨?_, ?_, ?_⟩
  · obtain ⟨r, hr, -, hticket, hanswer⟩ := hanswers [] es.tail 1 "a" rfl (by simp [es, Event.isOf])
    have hfirst : ((start : Watched String Nat).after []).enter 1 "a" =
        start.enter 1 "a" := rfl
    have hid : r.ticket = 1 := by
      have hone : ((start : Watched String Nat).enter 1 "a").desk.board["a"]?.map Ticket.id =
          some 1 := rfl
      rw [hfirst, hone] at hticket
      exact (Option.some.inj hticket).symm
    rw [hcalls, List.mem_cons, List.mem_singleton] at hr
    rcases hr with rfl | rfl
    · simp at hid
    · exact hanswer
  · exact (hboard "a" ⟨2, false⟩).mpr ⟨_, by rw [latest?, hcalls]; rfl, rfl, rfl, .inl ⟨rfl, rfl⟩⟩
  · exact hland ⟨1, "a", true, some (.value 5)⟩ (by simp [hcalls]) rfl (.value 7)

/-! ### Calls that have ended -/

/-- An ended call has its ticket on the board exactly if it crashed and is not evicted. -/
theorem Sound.holds_iff_of_ended {w : Watched K V} (h : w.Sound) {r : CallRecord K V}
    (hr : r ∈ w.calls) {outcome : Outcome V} (ho : r.outcome = some outcome) :
    w.desk.holds r.key r.ticket = true ↔ outcome = .crash ∧ r.evicted = false := by
  constructor
  · intro hh
    cases hb : w.desk.board[r.key]? with
    | none => simp [Desk.holds, hb] at hh
    | some t =>
      have hid : t.id = r.ticket := by simpa [Desk.holds, hb] using hh
      obtain ⟨r', hr', -, hs⟩ := (h.board r.key t).mp hb
      obtain ⟨he, ht, ho'⟩ := (r'.standing_eq_some_iff t).mp hs
      obtain rfl := h.eq_of_ticket_eq hr' hr (ht.symm.trans hid)
      obtain ⟨hc, -⟩ : outcome = .crash ∧ t.crashed = true := by simpa [ho] using ho'
      exact ⟨hc, he⟩
  · rintro ⟨rfl, he⟩
    have hs : r.standing = some ⟨r.ticket, true⟩ := by simp [CallRecord.standing, he, ho]
    simp [Desk.holds, (h.board r.key _).mpr ⟨r, hr, rfl, hs⟩]

/-- An ended call stays as it ended in all that follows. -/
private theorem exists_ended_after {w : Watched K V} {r : CallRecord K V}
    (hr : r ∈ w.calls) {outcome : Outcome V} (ho : r.outcome = some outcome)
    (es : List (Event K V)) :
    ∃ r' ∈ (w.after es).calls, r'.ticket = r.ticket ∧ r'.key = r.key ∧
      r'.outcome = some outcome ∧ r'.evicted = (r.evicted || es.any (·.evicts r.key)) := by
  induction es generalizing w r with
  | nil => exact ⟨r, hr, rfl, rfl, ho, by simp⟩
  | cons e es ih =>
    have ho' : (r.after e).outcome = some outcome := by simp [CallRecord.after, ho]
    obtain ⟨r', hr', ht, hk, ho', he⟩ := ih (after_mem_step hr e) ho'
    refine ⟨r', hr', ht, hk, ho', ?_⟩
    rw [he, List.any_cons, ← Bool.or_assoc]
    rfl

/-- Nobody comes to share a call whose ticket is off the board. -/
private theorem Sound.shares_enter_ne_of_ended [Std.LawfulEqOrd K] {w : Watched K V} (h : w.Sound)
    {r : CallRecord K V} (hr : r ∈ w.calls) (hoff : w.desk.holds r.key r.ticket = false)
    (caller : Nat) (key : K) :
    (w.enter caller key).shares[caller]? ≠ some (key, r.ticket) := by
  intro hs
  cases hb : w.desk.board[key]? with
  | none =>
    have hid : w.desk.next = r.ticket := by simpa [enter_of_none hb] using hs
    have := h.bounded r hr
    omega
  | some t =>
    have hid : t.id = r.ticket := by simpa [enter_of_some hb] using hs
    obtain ⟨r', hr', hk, hst⟩ := (h.board key t).mp hb
    obtain ⟨-, hticket, -⟩ := (r'.standing_eq_some_iff t).mp hst
    obtain rfl := h.eq_of_ticket_eq hr' hr (hticket.symm.trans hid)
    subst hk
    simp [Desk.holds, hb, hid] at hoff

/-- **A call that ends leaves its ticket behind only by crashing.** After every run, the ticket of
a call that has ended is on the board exactly if the call crashed and is not evicted. Otherwise
it is never answered by again, whatever follows, and if no later call was started for the key the
next caller starts one. But the ticket of a crashed call stays until it is evicted: up to then
every caller for the key is told that the call was lost, and no call is started. -/
theorem ended_call_stays_iff [Std.LawfulEqOrd K] (es : List (Event K V)) {r : CallRecord K V}
    (hr : r ∈ (start.after es).calls) {outcome : Outcome V} (ho : r.outcome = some outcome) :
    ((start.after es).desk.holds r.key r.ticket = true ↔
      outcome = .crash ∧ r.evicted = false) ∧
    (¬(outcome = .crash ∧ r.evicted = false) →
      (∀ later caller key,
        (((start.after es).after later).enter caller key).shares[caller]? ≠
          some (key, r.ticket)) ∧
      ((start.after es).latest? r.key = some r → ∀ caller,
        ((start.after es).desk.enter caller r.key).2 = .opened (start.after es).desk.next)) ∧
    (outcome = .crash ∧ r.evicted = false →
      ∀ later, (∀ e ∈ later, e.evicts r.key = false) → ∀ caller,
        let desk := ((start.after es).after later).desk
        (desk.enter caller r.key).2 = .joined ∧
          (desk.enter caller r.key).1.answer? caller = some (.error .lostCall)) := by
  have h : (start.after es).Sound := sound_after_start es
  refine ⟨h.holds_iff_of_ended hr ho, ?_, ?_⟩
  · intro hn
    constructor
    · intro later caller key
      obtain ⟨r', hr', ht, hk, ho', he'⟩ := exists_ended_after hr ho later
      have h' := h.after later
      have hoff : ((start.after es).after later).desk.holds r'.key r'.ticket = false := by
        rw [Bool.eq_false_iff]
        intro hh
        obtain ⟨hc, hev⟩ := (h'.holds_iff_of_ended hr' ho').mp hh
        rw [he'] at hev
        exact hn ⟨hc, (Bool.or_eq_false_iff.mp hev).1⟩
      exact ht ▸ h'.shares_enter_ne_of_ended hr' hoff caller key
    · intro hl caller
      rw [opened_iff, Desk.isInFlight, Std.ExtTreeMap.contains_eq_isSome_getElem?,
        Option.isSome_eq_false_iff, Option.isNone_iff_eq_none, Option.eq_none_iff_forall_ne_some]
      intro t hb
      obtain ⟨l, hl', hs⟩ := (h.board_iff_latest r.key t).mp hb
      obtain rfl := Option.some.inj (hl.symm.trans hl')
      obtain ⟨he, -, ho'⟩ := (r.standing_eq_some_iff t).mp hs
      obtain ⟨hc, -⟩ : outcome = .crash ∧ t.crashed = true := by simpa [ho] using ho'
      exact hn ⟨hc, he⟩
  · rintro ⟨rfl, he⟩ later hlater caller
    obtain ⟨r', hr', ht, hk, ho', he'⟩ := exists_ended_after hr ho later
    have hany : later.any (·.evicts r.key) = false := List.any_eq_false.mpr (by simpa using hlater)
    have hs : r'.standing = some ⟨r'.ticket, true⟩ := by
      simp [CallRecord.standing, ho', he', he, hany]
    have hb := ((h.after later).board r.key _).mpr ⟨r', hr', hk, hs⟩
    simp [Desk.enter, hb, Desk.answer?]

/-- An evicted call ends well and its successor crashes: the ticket of the latter is left, and a
third caller learns from it that the call was lost. -/
theorem ended_call_stays_iff_second :
    let es : List (Event String Nat) := [.enter 1 "a", .evict "a", .enter 2 "a",
      .land 1 (.value 5), .land 2 .crash]
    (start.after es).calls = [⟨2, "a", false, some .crash⟩, ⟨1, "a", true, some (.value 5)⟩] ∧
      (start.after es).desk.holds "a" 2 = true ∧
      ((start.after es).desk.enter 3 "a").1.answer? 3 = some (.error .lostCall) := by
  intro es
  have hcalls : (start.after es).calls =
      [⟨2, "a", false, some .crash⟩, ⟨1, "a", true, some (.value 5)⟩] := rfl
  have hr : (⟨2, "a", false, some .crash⟩ : CallRecord String Nat) ∈ (start.after es).calls := by
    simp [hcalls]
  obtain ⟨hholds, -, hlost⟩ := ended_call_stays_iff es hr rfl
  exact ⟨hcalls, hholds.mpr ⟨rfl, rfl⟩, (hlost ⟨rfl, rfl⟩ [] (by simp) 3).2⟩

/-- It is not so that a call that has ended has its ticket off the board. -/
theorem not_ended_call_off_board :
    ¬ ∀ (es : List (Event String Nat)), ∀ r ∈ (start.after es).calls, r.outcome.isSome = true →
      (start.after es).desk.holds r.key r.ticket = false := by
  intro h
  have hcalls : (start.after ([.enter 1 "a", .land 1 .crash] : List (Event String Nat))).calls =
      [⟨1, "a", false, some .crash⟩] := rfl
  have hholds : (start.after ([.enter 1 "a", .land 1 .crash] : List (Event String Nat))).desk.holds
      "a" 1 = true := rfl
  have hoff := h [.enter 1 "a", .land 1 .crash] ⟨1, "a", false, some .crash⟩ (by simp [hcalls]) rfl
  simp [hholds] at hoff

end Watched
end LayeredStore.Desk
