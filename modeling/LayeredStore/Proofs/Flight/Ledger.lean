import LayeredStore.Flight.Desk

/-!
# The ledger of a desk

A ledger beside a desk writes down every call that is started there, whether its ticket has been
evicted since and how it ended, and for every caller the call that it came to share. It looks at
events only, and at how callers are received, never at what becomes of the board or of a seat.
Main statement: after every run of events, in any order, the desk is what its ledger says.
-/

namespace LayeredStore.Desk

/-- What can happen at a desk. -/
inductive Event (K V : Type)
  /-- A caller wants a key. -/
  | enter (caller : Nat) (key : K)
  /-- The call of a ticket ends. -/
  | land (ticket : Nat) (outcome : Outcome V)
  /-- A caller leaves, with its answer or because it gives up. -/
  | leave (caller : Nat)
  | evict (key : K)
  | evictWhere (drop : K → Bool)

/-- A call that was started at a desk. -/
structure CallRecord (K V : Type) where
  ticket : Nat
  key : K
  /-- Whether the tickets of the key were evicted since the call was started. -/
  evicted : Bool
  /-- How the call ended, if it has. -/
  outcome : Option (Outcome V)

/-- A desk with its ledger: the calls that were started, the latest one first, and for every
caller that is there the key that it asked for and the ticket that it came to share. -/
structure Watched (K V : Type) [Ord K] where
  desk : Desk K V
  calls : List (CallRecord K V)
  shares : Std.ExtTreeMap Nat (K × Nat)

variable {K V : Type}

namespace CallRecord

/-- The ticket that a call has on the board: there is one while the call runs and for good once
it has crashed, but not after an eviction. -/
def standing (r : CallRecord K V) : Option Ticket :=
  match r.evicted, r.outcome with
  | false, none => some ⟨r.ticket, false⟩
  | false, some .crash => some ⟨r.ticket, true⟩
  | _, _ => none

/-- A ticket stands exactly for a call that is not evicted and either runs or has crashed. -/
theorem standing_eq_some_iff (r : CallRecord K V) (t : Ticket) :
    r.standing = some t ↔ r.evicted = false ∧ t.id = r.ticket ∧
      (r.outcome = none ∧ t.crashed = false ∨ r.outcome = some .crash ∧ t.crashed = true) := by
  obtain ⟨ticket, key, evicted, outcome⟩ := r
  obtain ⟨id, crashed⟩ := t
  cases evicted with
  | true => simp [standing]
  | false =>
    rcases outcome with _ | _ | _
    · simp [standing, eq_comm]
    · simp [standing]
    · simp [standing, eq_comm]

end CallRecord

variable [Ord K]

/-- Whether an event takes the ticket of a key off the board by force. -/
def Event.evicts (e : Event K V) (key : K) : Bool :=
  match e with
  | .evict k => compare k key = .eq
  | .evictWhere drop => drop key
  | .enter .. | .land .. | .leave .. => false

/-- The outcome with which an event ends the call of a ticket. -/
def Event.end? (e : Event K V) (ticket : Nat) : Option (Outcome V) :=
  match e with
  | .land t outcome => if t = ticket then some outcome else none
  | .enter .. | .leave .. | .evict .. | .evictWhere .. => none

namespace CallRecord

/-- A call after one more event. It ends only once. -/
def after (r : CallRecord K V) (e : Event K V) : CallRecord K V :=
  { r with
    evicted := r.evicted || e.evicts r.key
    outcome := r.outcome.or (e.end? r.ticket) }

@[simp] theorem ticket_after (r : CallRecord K V) (e : Event K V) :
    (r.after e).ticket = r.ticket := rfl

@[simp] theorem key_after (r : CallRecord K V) (e : Event K V) : (r.after e).key = r.key := rfl

/-- That a caller comes means nothing to the calls that were started before. -/
@[simp] theorem after_enter (r : CallRecord K V) (caller : Nat) (key : K) :
    r.after (.enter caller key) = r := by
  simp [after, Event.evicts, Event.end?]

/-- A ticket that is off the board never comes back. -/
theorem standing_after_of_none {r : CallRecord K V} (h : r.standing = none) (e : Event K V) :
    (r.after e).standing = none := by
  obtain ⟨ticket, key, evicted, outcome⟩ := r
  cases evicted with
  | true => simp [standing, after]
  | false =>
    rcases outcome with _ | _ | _
    · simp [standing] at h
    · cases he : e.evicts key <;> simp [standing, after, he]
    · simp [standing] at h

/-- An event that ends no call takes a ticket off the board if it evicts its key. -/
private theorem standing_after_of_end?_eq_none {r : CallRecord K V} {e : Event K V}
    (h : e.end? r.ticket = none) :
    (r.after e).standing = if e.evicts r.key then none else r.standing := by
  obtain ⟨ticket, key, evicted, outcome⟩ := r
  have h : e.end? ticket = none := h
  cases he : e.evicts key <;> cases evicted <;> simp [standing, after, he, h]

/-- A call that has ended stays as it is when calls end, and so does any other call. -/
private theorem after_land_of_ne {r : CallRecord K V} {ticket : Nat}
    (h : r.ticket = ticket → r.outcome ≠ none) (outcome : Outcome V) :
    r.after (.land ticket outcome) = r := by
  obtain ⟨t, key, evicted, ended⟩ := r
  simp only [after, Event.evicts, Event.end?, Bool.or_false, CallRecord.mk.injEq, true_and]
  cases ended with
  | some o => rfl
  | none =>
    have hne : ticket ≠ t := fun he => h he.symm rfl
    simp [hne]

/-- A running call ends with the outcome of its landing. -/
private theorem after_land_of_running {r : CallRecord K V} (h : r.outcome = none)
    (outcome : Outcome V) :
    r.after (.land r.ticket outcome) = { r with outcome := some outcome } := by
  simp [after, Event.evicts, Event.end?, h]

end CallRecord

variable [Std.TransOrd K]

/-- The desk after an event. -/
def step (d : Desk K V) : Event K V → Desk K V
  | .enter caller key => (d.enter caller key).1
  | .land ticket outcome => d.land ticket outcome
  | .leave caller => d.leave caller
  | .evict key => d.evict key
  | .evictWhere drop => d.evictWhere drop

namespace Watched

/-- Nothing has happened yet. -/
def start : Watched K V := ⟨.empty, [], ∅⟩

/-- A caller is received. If that starts a call, the call is written down; either way the caller
comes to share the call whose ticket is on the board then. -/
def enter (w : Watched K V) (caller : Nat) (key : K) : Watched K V :=
  let (desk, admission) := w.desk.enter caller key
  { desk
    calls := match admission with
      | .opened ticket => ⟨ticket, key, false, none⟩ :: w.calls
      | .joined | .answered _ => w.calls
    shares := match desk.board[key]? with
      | some ticket => w.shares.insert caller (key, ticket.id)
      | none => w.shares }

/-- The desk and its ledger after an event. -/
def step (w : Watched K V) (e : Event K V) : Watched K V :=
  match e with
  | .enter caller key => w.enter caller key
  | .leave caller =>
    { desk := w.desk.step e, calls := w.calls.map (·.after e), shares := w.shares.erase caller }
  | .land .. | .evict .. | .evictWhere .. =>
    { desk := w.desk.step e, calls := w.calls.map (·.after e), shares := w.shares }

/-- The desk and its ledger after a run of events. -/
def after (w : Watched K V) (es : List (Event K V)) : Watched K V := es.foldl step w

/-- The call for a key that was started most recently. -/
def latest? (w : Watched K V) (key : K) : Option (CallRecord K V) :=
  w.calls.find? fun r => compare r.key key = .eq

/-- The ledger looks on. -/
@[simp] theorem desk_step (w : Watched K V) (e : Event K V) :
    (w.step e).desk = w.desk.step e := by
  cases e <;> rfl

/-- The desk is what its ledger says: which calls run, what is on the board, and what callers
are told. Of all calls for one key only the latest one can have its ticket on the board. -/
structure Sound (w : Watched K V) : Prop where
  ordered : w.calls.Pairwise fun later earlier => earlier.ticket < later.ticket
  bounded : ∀ r ∈ w.calls, r.ticket < w.desk.next
  running : ∀ (ticket : Nat) (key : K), w.desk.calls[ticket]? = some key ↔
    ∃ r ∈ w.calls, r.ticket = ticket ∧ r.key = key ∧ r.outcome = none
  board : ∀ (key : K) (t : Ticket), w.desk.board[key]? = some t ↔
    ∃ r ∈ w.calls, r.key = key ∧ r.standing = some t
  superseded : w.calls.Pairwise fun later earlier =>
    later.key = earlier.key → earlier.standing = none
  absent : ∀ caller : Nat, w.shares[caller]? = none → w.desk.seats[caller]? = none
  shared : ∀ (caller : Nat) (key : K) (ticket : Nat), w.shares[caller]? = some (key, ticket) →
    ∃ r ∈ w.calls, r.key = key ∧ r.ticket = ticket ∧
      w.desk.seats[caller]? = some ⟨ticket, r.outcome.map Outcome.shared⟩

/-! ### Calls after an event -/

omit [Std.TransOrd K] in
private theorem ordered_after {calls : List (CallRecord K V)}
    (h : calls.Pairwise fun later earlier => earlier.ticket < later.ticket) (e : Event K V) :
    (calls.map (·.after e)).Pairwise fun later earlier => earlier.ticket < later.ticket :=
  List.pairwise_map.mpr h

omit [Std.TransOrd K] in
private theorem superseded_after {calls : List (CallRecord K V)}
    (h : calls.Pairwise fun later earlier => later.key = earlier.key → earlier.standing = none)
    (e : Event K V) :
    (calls.map (·.after e)).Pairwise fun later earlier =>
      later.key = earlier.key → earlier.standing = none :=
  List.pairwise_map.mpr (h.imp fun {_ _} hs he => CallRecord.standing_after_of_none (hs he) e)

omit [Std.TransOrd K] in
private theorem bounded_after {calls : List (CallRecord K V)} {next : Nat}
    (h : ∀ r ∈ calls, r.ticket < next) (e : Event K V) :
    ∀ r ∈ calls.map (·.after e), r.ticket < next := by
  intro r hr
  obtain ⟨r₀, hr₀, rfl⟩ := List.mem_map.mp hr
  exact h r₀ hr₀

/-- A call is known by its ticket. -/
theorem Sound.eq_of_ticket_eq {w : Watched K V} (h : w.Sound) {r r' : CallRecord K V}
    (hr : r ∈ w.calls) (hr' : r' ∈ w.calls) (he : r.ticket = r'.ticket) : r = r' := by
  have hp : w.calls.Pairwise fun a b => a.ticket = b.ticket → a = b :=
    h.ordered.imp fun {_ _} hlt he => by omega
  have hf : w.calls.Pairwise (flip fun a b => a.ticket = b.ticket → a = b) :=
    h.ordered.imp fun {_ _} hlt he => by omega
  exact hp.forall_of_forall_of_flip (fun _ _ _ => rfl) hf hr hr' he

/-! ### The start of a run -/

/-- At an empty desk an empty ledger is right. -/
theorem sound_start : (start : Watched K V).Sound where
  ordered := List.Pairwise.nil
  bounded := by simp [start]
  running := by simp [start, Desk.empty]
  board := by simp [start, Desk.empty]
  superseded := List.Pairwise.nil
  absent := by simp [start, Desk.empty]
  shared := by simp [start]

/-! ### Callers come -/

/-- Who comes to a ticket on the board joins its call. -/
theorem enter_of_some {w : Watched K V} {key : K} {t : Ticket} (hb : w.desk.board[key]? = some t)
    (caller : Nat) :
    w.enter caller key =
      { desk := { w.desk with
          seats := w.desk.seats.insert caller
            ⟨t.id, if t.crashed then some (.error .lostCall) else none⟩ }
        calls := w.calls
        shares := w.shares.insert caller (key, t.id) } := by
  simp [enter, Desk.enter, hb]

/-- Who finds no ticket on the board starts a call. -/
theorem enter_of_none {w : Watched K V} {key : K} (hb : w.desk.board[key]? = none)
    (caller : Nat) :
    w.enter caller key =
      { desk := ⟨w.desk.next + 1, w.desk.board.insert key ⟨w.desk.next, false⟩,
          w.desk.calls.insert w.desk.next key, w.desk.seats.insert caller ⟨w.desk.next, none⟩⟩
        calls := ⟨w.desk.next, key, false, none⟩ :: w.calls
        shares := w.shares.insert caller (key, w.desk.next) } := by
  simp [enter, Desk.enter, hb]

/-- No call is struck out of the ledger. -/
theorem after_mem_step {w : Watched K V} {r : CallRecord K V} (hr : r ∈ w.calls)
    (e : Event K V) : r.after e ∈ (w.step e).calls := by
  cases e with
  | enter caller key =>
    rw [CallRecord.after_enter]
    cases hb : w.desk.board[key]? with
    | some t => simpa [step, enter_of_some hb] using hr
    | none => simp [step, enter_of_none hb, hr]
  | land ticket outcome => exact List.mem_map_of_mem hr
  | leave caller => exact List.mem_map_of_mem hr
  | evict key => exact List.mem_map_of_mem hr
  | evictWhere drop => exact List.mem_map_of_mem hr

/-- Every call in the ledger was there before, or was started just now. -/
theorem mem_step {w : Watched K V} {e : Event K V} {r : CallRecord K V}
    (hr : r ∈ (w.step e).calls) :
    (∃ r₀ ∈ w.calls, r = r₀.after e) ∨
      ∃ caller key, e = .enter caller key ∧ w.desk.board[key]? = none ∧
        r = ⟨w.desk.next, key, false, none⟩ := by
  have hmap (hr : r ∈ w.calls.map (·.after e)) : ∃ r₀ ∈ w.calls, r = r₀.after e := by
    obtain ⟨r₀, hr₀, rfl⟩ := List.mem_map.mp hr
    exact ⟨r₀, hr₀, rfl⟩
  cases e with
  | enter caller key =>
    cases hb : w.desk.board[key]? with
    | some t =>
      refine .inl ⟨r, ?_, (CallRecord.after_enter r caller key).symm⟩
      simpa [step, enter_of_some hb] using hr
    | none =>
      have hr : r = ⟨w.desk.next, key, false, none⟩ ∨ r ∈ w.calls := by
        simpa [step, enter_of_none hb] using hr
      rcases hr with rfl | hr
      · exact .inr ⟨caller, key, rfl, hb, rfl⟩
      · exact .inl ⟨r, hr, (CallRecord.after_enter r caller key).symm⟩
  | land ticket outcome => exact .inl (hmap hr)
  | leave caller => exact .inl (hmap hr)
  | evict key => exact .inl (hmap hr)
  | evictWhere drop => exact .inl (hmap hr)

private theorem Sound.enter_joined {w : Watched K V} (h : w.Sound) {key : K} {t : Ticket}
    (hb : w.desk.board[key]? = some t) (caller : Nat) : (w.enter caller key).Sound := by
  rw [enter_of_some hb]
  refine ⟨h.ordered, h.bounded, h.running, h.board, h.superseded, ?_, ?_⟩
  · intro c hc
    rw [Std.ExtTreeMap.getElem?_insert] at hc ⊢
    split at hc
    · simp at hc
    · next hne => simpa [hne] using h.absent c hc
  · intro c k ticket hc
    rw [Std.ExtTreeMap.getElem?_insert] at hc ⊢
    split at hc
    · next he =>
      obtain ⟨rfl, rfl⟩ : key = k ∧ t.id = ticket := by simpa using hc
      obtain ⟨r, hr, hk, hs⟩ := (h.board key t).mp hb
      obtain ⟨-, hid, ho⟩ := (r.standing_eq_some_iff t).mp hs
      refine ⟨r, hr, hk, hid.symm, ?_⟩
      rcases ho with ⟨ho, hcr⟩ | ⟨ho, hcr⟩
      · simp [he, ho, hcr]
      · simp [he, ho, hcr, Outcome.shared]
    · next hne => simpa [hne] using h.shared c k ticket hc

private theorem Sound.enter_opened [Std.LawfulEqOrd K] {w : Watched K V} (h : w.Sound) {key : K}
    (hb : w.desk.board[key]? = none) (caller : Nat) : (w.enter caller key).Sound := by
  -- no call for the key can stand on the board, so the new one supersedes them all
  have hoff : ∀ r ∈ w.calls, r.key = key → r.standing = none := by
    intro r hr hk
    cases hs : r.standing with
    | none => rfl
    | some t =>
      have := (h.board key t).mpr ⟨r, hr, hk, hs⟩
      simp [hb] at this
  have hnew : (⟨w.desk.next, key, false, none⟩ : CallRecord K V).standing =
      some ⟨w.desk.next, false⟩ := rfl
  rw [enter_of_none hb]
  refine ⟨?_, ?_, ?_, ?_, ?_, ?_, ?_⟩
  · exact List.pairwise_cons.mpr ⟨h.bounded, h.ordered⟩
  · intro r hr
    rcases List.mem_cons.mp hr with rfl | hr
    · exact Nat.lt_succ_self _
    · exact Nat.lt_succ_of_lt (h.bounded r hr)
  · intro ticket k
    simp only [Std.ExtTreeMap.getElem?_insert, List.mem_cons, exists_eq_or_imp]
    by_cases he : w.desk.next = ticket
    · subst he
      have hno : ¬ ∃ r ∈ w.calls, r.ticket = w.desk.next ∧ r.key = k ∧ r.outcome = none := by
        rintro ⟨r, hr, ht, -⟩
        have := h.bounded r hr
        omega
      simp [hno]
    · simp [he, h.running ticket k]
  · intro k t
    simp only [Std.ExtTreeMap.getElem?_insert, List.mem_cons, exists_eq_or_imp]
    by_cases he : key = k
    · subst he
      have hno : ¬ ∃ r ∈ w.calls, r.key = key ∧ r.standing = some t := by
        rintro ⟨r, hr, hk, hs⟩
        simp [hoff r hr hk] at hs
      simp [hno, hnew]
    · simp [he, h.board k t]
  · exact List.pairwise_cons.mpr ⟨fun r hr hk => hoff r hr hk.symm, h.superseded⟩
  · intro c hc
    rw [Std.ExtTreeMap.getElem?_insert] at hc ⊢
    split at hc
    · simp at hc
    · next hne => simpa [hne] using h.absent c hc
  · intro c k ticket hc
    rw [Std.ExtTreeMap.getElem?_insert] at hc ⊢
    split at hc
    · next he =>
      obtain ⟨rfl, rfl⟩ : key = k ∧ w.desk.next = ticket := by simpa using hc
      exact ⟨_, List.mem_cons_self, rfl, rfl, by simp [he]⟩
    · next hne =>
      obtain ⟨r, hr, hk, ht, hs⟩ := h.shared c k ticket hc
      exact ⟨r, List.mem_cons_of_mem _ hr, hk, ht, by simpa [hne] using hs⟩

/-- The ledger stays right when a caller comes. -/
theorem Sound.enter [Std.LawfulEqOrd K] {w : Watched K V} (h : w.Sound) (caller : Nat)
    (key : K) : (w.enter caller key).Sound := by
  cases hb : w.desk.board[key]? with
  | some t => exact h.enter_joined hb caller
  | none => exact h.enter_opened hb caller

/-! ### Calls end -/

/-- A landing without a running call changes nothing. -/
private theorem Sound.land_of_none {w : Watched K V} (h : w.Sound) {ticket : Nat}
    (hc : w.desk.calls[ticket]? = none) (outcome : Outcome V) :
    w.step (.land ticket outcome) = w := by
  have hcalls : w.calls.map (·.after (.land ticket outcome)) = w.calls := by
    rw [List.map_congr_left (g := id), List.map_id]
    intro r hr
    apply CallRecord.after_land_of_ne
    intro ht ho
    have := (h.running ticket r.key).mpr ⟨r, hr, ht, rfl, ho⟩
    simp [hc] at this
  simp [Watched.step, Desk.step, Desk.land, hc, hcalls]

/-- A landing ends one call and leaves all others alone. -/
private theorem Sound.mem_after_land {w : Watched K V} (h : w.Sound) {r₀ : CallRecord K V}
    (hr₀ : r₀ ∈ w.calls) (ho : r₀.outcome = none) (outcome : Outcome V) (r : CallRecord K V) :
    r ∈ w.calls.map (·.after (.land r₀.ticket outcome)) ↔
      r = { r₀ with outcome := some outcome } ∨ r ∈ w.calls ∧ r.ticket ≠ r₀.ticket := by
  constructor
  · intro hr
    obtain ⟨a, ha, rfl⟩ := List.mem_map.mp hr
    by_cases ht : a.ticket = r₀.ticket
    · obtain rfl := h.eq_of_ticket_eq ha hr₀ ht
      exact .inl (CallRecord.after_land_of_running ho outcome)
    · rw [CallRecord.after_land_of_ne (fun he => absurd he ht)]
      exact .inr ⟨ha, ht⟩
  · rintro (rfl | ⟨hr, ht⟩)
    · exact List.mem_map.mpr ⟨r₀, hr₀, CallRecord.after_land_of_running ho outcome⟩
    · exact List.mem_map.mpr ⟨r, hr, CallRecord.after_land_of_ne (fun he => absurd he ht) outcome⟩

/-- A call that runs has its ticket on the board unless it is evicted. -/
theorem Sound.holds_eq {w : Watched K V} (h : w.Sound) {r : CallRecord K V}
    (hr : r ∈ w.calls) (ho : r.outcome = none) : w.desk.holds r.key r.ticket = !r.evicted := by
  cases he : r.evicted with
  | false =>
    have hs : r.standing = some ⟨r.ticket, false⟩ :=
      (r.standing_eq_some_iff _).mpr ⟨he, rfl, .inl ⟨ho, rfl⟩⟩
    simp [Desk.holds, (h.board r.key _).mpr ⟨r, hr, rfl, hs⟩]
  | true =>
    cases hb : w.desk.board[r.key]? with
    | none => simp [Desk.holds, hb]
    | some t =>
      obtain ⟨r', hr', -, hs⟩ := (h.board r.key t).mp hb
      obtain ⟨hev, hid, -⟩ := (r'.standing_eq_some_iff t).mp hs
      have hne : t.id ≠ r.ticket := by
        intro hid'
        obtain rfl := h.eq_of_ticket_eq hr' hr (hid ▸ hid')
        simp [he] at hev
      simp [Desk.holds, hb, hne]

/-- The end of a call takes its own ticket off the board, unless it crashes, and no other. -/
private theorem Sound.board_after_land [Std.LawfulEqOrd K] {w : Watched K V} (h : w.Sound)
    {r₀ : CallRecord K V} (hr₀ : r₀ ∈ w.calls) (ho : r₀.outcome = none) (outcome : Outcome V)
    (key : K) (t : Ticket) :
    (w.desk.boardAfter r₀.key r₀.ticket outcome.crashed)[key]? = some t ↔
      r₀.key = key ∧ ({ r₀ with outcome := some outcome } : CallRecord K V).standing = some t ∨
      w.desk.board[key]? = some t ∧ t.id ≠ r₀.ticket := by
  have hid : w.desk.board[key]? = some t → t.id = r₀.ticket →
      r₀.key = key ∧ r₀.standing = some t := by
    intro hb hid
    obtain ⟨r, hr, hk, hs⟩ := (h.board key t).mp hb
    obtain rfl := h.eq_of_ticket_eq hr hr₀ (((r.standing_eq_some_iff t).mp hs).2.1 ▸ hid)
    exact ⟨hk, hs⟩
  simp only [Desk.boardAfter, h.holds_eq hr₀ ho]
  cases he : r₀.evicted with
  | true =>
    have hoff : r₀.standing = none := by simp [CallRecord.standing, he]
    have hne : w.desk.board[key]? = some t → t.id ≠ r₀.ticket := by
      intro hb hid'
      simp [(hid hb hid').2] at hoff
    simpa [CallRecord.standing] using hne
  | false =>
    have hon : w.desk.board[r₀.key]? = some ⟨r₀.ticket, false⟩ :=
      (h.board _ _).mpr ⟨r₀, hr₀, rfl,
        (r₀.standing_eq_some_iff _).mpr ⟨he, rfl, .inl ⟨ho, rfl⟩⟩⟩
    by_cases hk : r₀.key = key
    · subst hk
      cases outcome with
      | answer a =>
        have hne : (⟨r₀.ticket, false⟩ : Ticket) = t → t.id = r₀.ticket := fun h => h ▸ rfl
        simpa [Outcome.crashed, CallRecord.standing, hon] using hne
      | crash =>
        have hne : (⟨r₀.ticket, false⟩ : Ticket) = t → t.id = r₀.ticket := fun h => h ▸ rfl
        simpa [Outcome.crashed, CallRecord.standing, hon] using
          fun h h' => absurd (hne h) h'
    · have hne : w.desk.board[key]? = some t → t.id ≠ r₀.ticket :=
        fun hb hid' => hk (hid hb hid').1
      cases outcome with
      | answer a =>
        simpa [Outcome.crashed, hk, Std.ExtTreeMap.getElem?_erase] using hne
      | crash =>
        simpa [Outcome.crashed, hk, Std.ExtTreeMap.getElem?_insert] using hne

/-- The ledger stays right when a call ends. -/
theorem Sound.land [Std.LawfulEqOrd K] {w : Watched K V} (h : w.Sound) (ticket : Nat)
    (outcome : Outcome V) : (w.step (.land ticket outcome)).Sound := by
  cases hc : w.desk.calls[ticket]? with
  | none => rwa [h.land_of_none hc]
  | some key =>
    obtain ⟨r₀, hr₀, rfl, rfl, ho⟩ := (h.running ticket key).mp hc
    have hdesk : w.desk.step (.land r₀.ticket outcome) =
        { w.desk with
          board := w.desk.boardAfter r₀.key r₀.ticket outcome.crashed
          calls := w.desk.calls.erase r₀.ticket
          seats := w.desk.seats.map fun _ seat =>
            if seat.ticket = r₀.ticket then { seat with answer := some outcome.shared }
            else seat } := by
      simp [Desk.step, Desk.land, hc]
    have hmem := h.mem_after_land hr₀ ho outcome
    simp only [Watched.step, hdesk]
    refine ⟨ordered_after h.ordered _, bounded_after h.bounded _, ?_, ?_,
      superseded_after h.superseded _, ?_, ?_⟩
    · intro t k
      rw [Std.ExtTreeMap.getElem?_erase]
      by_cases ht : r₀.ticket = t
      · subst ht
        simp only [hmem, Nat.compare_eq_eq, ↓reduceIte, reduceCtorEq, false_iff]
        rintro ⟨r, rfl | ⟨-, hne⟩, ht, -, ho'⟩
        · simp at ho'
        · exact hne ht
      · simp only [hmem, Nat.compare_eq_eq, ht, ↓reduceIte, h.running t k]
        constructor
        · rintro ⟨r, hr, rfl, hk, ho'⟩
          exact ⟨r, .inr ⟨hr, fun he => ht he.symm⟩, rfl, hk, ho'⟩
        · rintro ⟨r, rfl | ⟨hr, -⟩, rfl, hk, ho'⟩
          · simp at ho'
          · exact ⟨r, hr, rfl, hk, ho'⟩
    · intro k t
      rw [h.board_after_land hr₀ ho]
      simp only [hmem]
      constructor
      · rintro (⟨hk, hs⟩ | ⟨hb, hid⟩)
        · exact ⟨_, .inl rfl, hk, hs⟩
        · obtain ⟨r, hr, hk, hs⟩ := (h.board k t).mp hb
          refine ⟨r, .inr ⟨hr, ?_⟩, hk, hs⟩
          rwa [← ((r.standing_eq_some_iff t).mp hs).2.1]
      · rintro ⟨r, rfl | ⟨hr, hne⟩, hk, hs⟩
        · exact .inl ⟨hk, hs⟩
        · refine .inr ⟨(h.board k t).mpr ⟨r, hr, hk, hs⟩, ?_⟩
          rwa [((r.standing_eq_some_iff t).mp hs).2.1]
    · intro c hs
      simp [Std.ExtTreeMap.getElem?_map, h.absent c hs]
    · intro c k t hs
      obtain ⟨r, hr, hk, rfl, hseat⟩ := h.shared c k t hs
      by_cases ht : r.ticket = r₀.ticket
      · obtain rfl := h.eq_of_ticket_eq hr hr₀ ht
        exact ⟨_, (hmem _).mpr (.inl rfl), hk, rfl, by simp [hseat]⟩
      · exact ⟨r, (hmem _).mpr (.inr ⟨hr, ht⟩), hk, rfl, by simp [hseat, ht]⟩

/-! ### Callers leave and tickets are evicted -/

/-- The ledger stays right under an event that neither starts nor ends a call, if it takes those
tickets off the board that it evicts. -/
private theorem Sound.of_quiet {w : Watched K V} (h : w.Sound) {e : Event K V}
    (he : ∀ ticket, e.end? ticket = none) {desk : Desk K V}
    {shares : Std.ExtTreeMap Nat (K × Nat)} (hnext : desk.next = w.desk.next)
    (hcalls : desk.calls = w.desk.calls)
    (hboard : ∀ key, desk.board[key]? = if e.evicts key then none else w.desk.board[key]?)
    (habsent : ∀ caller : Nat, shares[caller]? = none → desk.seats[caller]? = none)
    (hshared : ∀ (caller : Nat) (p : K × Nat), shares[caller]? = some p →
      w.shares[caller]? = some p ∧ desk.seats[caller]? = w.desk.seats[caller]?) :
    (⟨desk, w.calls.map (·.after e), shares⟩ : Watched K V).Sound := by
  have hout : ∀ r : CallRecord K V, (r.after e).outcome = r.outcome := by
    intro r
    simp [CallRecord.after, he]
  have hstand : ∀ r : CallRecord K V,
      (r.after e).standing = if e.evicts r.key then none else r.standing :=
    fun r => CallRecord.standing_after_of_end?_eq_none (he _)
  refine ⟨ordered_after h.ordered _, ?_, ?_, ?_, superseded_after h.superseded _, habsent, ?_⟩
  · simpa only [hnext] using bounded_after h.bounded e
  · intro ticket key
    rw [hcalls, h.running]
    constructor
    · rintro ⟨r, hr, ht, hk, ho⟩
      exact ⟨r.after e, List.mem_map_of_mem hr, ht, hk, by rw [hout, ho]⟩
    · rintro ⟨r', hr', ht, hk, ho⟩
      obtain ⟨r, hr, rfl⟩ := List.mem_map.mp hr'
      exact ⟨r, hr, ht, hk, by rwa [hout] at ho⟩
  · intro key t
    rw [hboard]
    constructor
    · intro hb
      split at hb
      · simp at hb
      · next hev =>
        obtain ⟨r, hr, rfl, hs⟩ := (h.board key t).mp hb
        exact ⟨r.after e, List.mem_map_of_mem hr, rfl, by simpa [hstand, hev] using hs⟩
    · rintro ⟨r', hr', hk, hs⟩
      obtain ⟨r, hr, rfl⟩ := List.mem_map.mp hr'
      rw [hstand] at hs
      split at hs
      · simp at hs
      · next hev =>
        obtain rfl : r.key = key := hk
        simpa [hev] using (h.board r.key t).mpr ⟨r, hr, rfl, hs⟩
  · intro c k t hs
    obtain ⟨hs', hseat⟩ := hshared c (k, t) hs
    obtain ⟨r, hr, hk, ht, hr'⟩ := h.shared c k t hs'
    exact ⟨r.after e, List.mem_map_of_mem hr, hk, ht, by rw [hseat, hr', hout]⟩

/-- The ledger stays right under every event. -/
theorem Sound.step [Std.LawfulEqOrd K] {w : Watched K V} (h : w.Sound) (e : Event K V) :
    (w.step e).Sound := by
  cases e with
  | enter caller key => exact h.enter caller key
  | land ticket outcome => exact h.land ticket outcome
  | leave caller =>
    refine h.of_quiet (fun _ => rfl) rfl rfl (fun _ => rfl) ?_ ?_
    · intro c hc
      change (w.desk.seats.erase caller)[c]? = none
      by_cases he : caller = c
      · subst he
        simp
      · simp only [Std.ExtTreeMap.getElem?_erase, Nat.compare_eq_eq, he, ↓reduceIte] at hc ⊢
        exact h.absent c hc
    · intro c p hc
      change _ ∧ (w.desk.seats.erase caller)[c]? = _
      by_cases he : caller = c
      · subst he
        simp at hc
      · simp only [Std.ExtTreeMap.getElem?_erase, Nat.compare_eq_eq, he, ↓reduceIte] at hc ⊢
        exact ⟨hc, trivial⟩
  | evict key =>
    refine h.of_quiet (fun _ => rfl) rfl rfl ?_ h.absent fun _ _ hc => ⟨hc, rfl⟩
    intro k
    change (w.desk.evict key).board[k]? = _
    rw [board_evict]
    simp only [Event.evicts, decide_eq_true_eq]
  | evictWhere drop =>
    exact h.of_quiet (fun _ => rfl) rfl rfl (w.desk.board_evictWhere drop) h.absent
      fun _ _ hc => ⟨hc, rfl⟩

/-- The ledger stays right in every run. -/
theorem Sound.after [Std.LawfulEqOrd K] {w : Watched K V} (h : w.Sound)
    (es : List (Event K V)) : (w.after es).Sound := by
  induction es generalizing w with
  | nil => exact h
  | cons e es ih => exact ih (h.step e)

/-- The ledger is right after every run that begins at an empty desk. -/
theorem sound_after_start [Std.LawfulEqOrd K] (es : List (Event K V)) :
    (start.after es).Sound :=
  sound_start.after es

end Watched
end LayeredStore.Desk
