import LayeredStore.Layer.Basic
import LayeredStore.Proofs.Cache.QuotaHits
import LayeredStore.Proofs.Flight.Succession

/-!
# The counters of a coalescing layer

Metadata, pages and quotas are asked for at three counters of the layer, each with a desk of its
own; whatever happens to the layer, the desk of every counter follows in the same way. Main
statements: what a change of the layer is at the desk of a counter, and what a request that comes
back takes off the boards and out of the kept quotas, which is exactly what it covers.
-/

namespace LayeredStore

/-! ### What a request covers -/

namespace Request

/-- Whether a request is one that may change what is stored. -/
def isMutation : Request → Bool
  | .write .. | .createFolder .. | .deleteFile .. | .deleteFolder .. | .move .. => true
  | .metadata .. | .list .. | .quota .. | .read .. => false

/-- Whether a folder is the parent of a path that a request may change. -/
def changesIn (r : Request) (folder : Path) : Bool :=
  match r with
  | .write path .. | .createFolder path | .deleteFile path | .deleteFolder path =>
    path.parent? = some folder
  | .move source target _ => source.parent? = some folder || target.parent? = some folder
  | .metadata .. | .list .. | .quota .. | .read .. => false

/-- Whether a request asks for the metadata or a page of exactly this path. -/
def isAt (lookup : Request) (path : Path) : Bool :=
  match lookup with
  | .metadata p | .list p _ => p = path
  | .quota .. | .read .. | .write .. | .createFolder .. | .deleteFile .. | .deleteFolder ..
  | .move .. => false

/-- Whether a request asks for the metadata, a page or the quota of a path or anything below. -/
def isBelow (lookup : Request) (path : Path) : Bool :=
  match lookup with
  | .metadata p | .list p _ | .quota p => p.startsWith path
  | .read .. | .write .. | .createFolder .. | .deleteFile .. | .deleteFolder .. | .move .. => false

/-- Whether a lookup is covered by a request: it is at the path that the other one writes or
creates, or at or below one that it deletes or moves something from or to. -/
def covers (r lookup : Request) : Bool :=
  match r with
  | .write path .. | .createFolder path => lookup.isAt path
  | .deleteFile path | .deleteFolder path => lookup.isBelow path
  | .move source target _ => lookup.isBelow source || lookup.isBelow target
  | .metadata .. | .list .. | .quota .. | .read .. => false

end Request

/-! ### Counters -/

/-- A counter of a coalescing layer: its desk, and the requests that are received there by the
keys that are shared at the desk. -/
structure Coalescer.Counter (K : Type) [Ord K] [Std.TransOrd K] where
  desk : Coalescer → Desk K Reply
  request : K → Request
  key? : Request → Option K
  key?_eq_some_iff : ∀ (r : Request) (k : K), key? r = some k ↔ request k = r
  /-- A request at the counter is answered from memory, or goes to the desk. -/
  receive_own : ∀ (c : Coalescer) (now : Nanoseconds) (caller : Nat) (k : K),
    (∃ a, (c.receive now caller (request k)).2 = some (.answered a) ∧
      desk (c.receive now caller (request k)).1 = desk c) ∨
    (c.receive now caller (request k)).2 = some ((desk c).enter caller k).2 ∧
      desk (c.receive now caller (request k)).1 = ((desk c).enter caller k).1
  receive_other : ∀ (c : Coalescer) (now : Nanoseconds) (caller : Nat) (r : Request),
    key? r = none → desk (c.receive now caller r).1 = desk c
  /-- A request that comes back evicts what it covers. -/
  returned : ∀ (c : Coalescer) (r : Request),
    desk (c.returned r) = (desk c).evictWhere fun k => r.covers (request k)
  land_own : ∀ (c : Coalescer) (ticket : Nat) (outcome : Outcome Reply) (k : K),
    desk (c.land ticket outcome (request k)) = (desk c).land ticket outcome
  land_other : ∀ (c : Coalescer) (ticket : Nat) (outcome : Outcome Reply) (r : Request),
    key? r = none → desk (c.land ticket outcome r) = desk c
  /-- Who leaves the counter with an answer has had it at the desk. -/
  collect_own : ∀ (c : Coalescer) (now : Nanoseconds) (caller : Nat) (k : K) (c' : Coalescer)
    (a : Answer Reply), c.collect now caller (request k) = some (c', a) →
      (desk c).answer? caller = some a ∧ desk c' = (desk c).leave caller
  collect_other : ∀ (c : Coalescer) (now : Nanoseconds) (caller : Nat) (r : Request)
    (c' : Coalescer) (a : Answer Reply), key? r = none →
      c.collect now caller r = some (c', a) → desk c' = desk c
  leave_own : ∀ (c : Coalescer) (caller : Nat) (k : K),
    desk (c.leave caller (request k)) = (desk c).leave caller
  leave_other : ∀ (c : Coalescer) (caller : Nat) (r : Request),
    key? r = none → desk (c.leave caller r) = desk c

namespace Desk

variable {K V : Type} [Ord K] [Std.TransOrd K] [Std.LawfulEqOrd K]

/-- Desks are the same if the same is on their boards and all else is the same. -/
theorem eq_of_board {d d' : Desk K V} (hnext : d.next = d'.next)
    (hboard : ∀ key : K, d.board[key]? = d'.board[key]?) (hcalls : d.calls = d'.calls)
    (hseats : d.seats = d'.seats) : d = d' := by
  obtain ⟨next, board, calls, seats⟩ := d
  obtain ⟨next', board', calls', seats'⟩ := d'
  obtain rfl : board = board' := Std.ExtTreeMap.ext_getElem? hboard
  simp_all

/-- To evict nothing changes nothing. -/
theorem evictWhere_false (d : Desk K V) : (d.evictWhere fun _ => false) = d := by
  apply eq_of_board
  · rfl
  · intro key
    simp [board_evictWhere]
  · rfl
  · rfl

/-- To evict one key is to evict all that are equal to it. -/
theorem evict_eq_evictWhere [DecidableEq K] (d : Desk K V) (key : K) :
    d.evict key = d.evictWhere fun k => k = key := by
  apply eq_of_board
  · rfl
  · intro k
    by_cases hk : key = k
    · simp [board_evict, board_evictWhere, hk]
    · simp [board_evict, board_evictWhere, hk, Ne.symm hk]
  · rfl
  · rfl

/-- To evict some keys and then others is to evict them all. -/
theorem evictWhere_evictWhere (d : Desk K V) (drop drop' : K → Bool) :
    (d.evictWhere drop).evictWhere drop' = d.evictWhere fun k => drop k || drop' k := by
  apply eq_of_board
  · rfl
  · intro k
    cases h : drop k <;> cases h' : drop' k <;> simp [board_evictWhere, h, h']
  · rfl
  · rfl

/-- To a ledger, too, nothing happens when nothing is evicted. -/
private theorem Watched.step_evictWhere_false (w : Watched K V) :
    w.step (.evictWhere fun _ => false) = w := by
  have hcalls : w.calls.map (·.after (.evictWhere fun _ => false)) = w.calls := by
    simp [CallRecord.after, Event.evicts, Event.end?]
  simp [Watched.step, Desk.step, evictWhere_false, hcalls]

/-- To a ledger, too, evicting some keys and then others is evicting them all. -/
private theorem Watched.step_evictWhere_evictWhere (w : Watched K V) (drop drop' : K → Bool) :
    (w.step (.evictWhere drop)).step (.evictWhere drop') =
      w.step (.evictWhere fun k => drop k || drop' k) := by
  have hcalls : (w.calls.map (·.after (.evictWhere drop))).map (·.after (.evictWhere drop')) =
      w.calls.map (·.after (.evictWhere fun k => drop k || drop' k)) := by
    simp [CallRecord.after, Event.evicts, Event.end?, Bool.or_assoc]
  simp [Watched.step, Desk.step, evictWhere_evictWhere, hcalls]

end Desk

namespace Coalescer.Counter

/-- Where the metadata of a path is asked for. -/
def metadata : Counter Path where
  desk c := c.metadata
  request := .metadata
  key?
    | .metadata path => some path
    | _ => none
  key?_eq_some_iff r k := by cases r <;> simp [eq_comm]
  receive_own c now caller k := .inr ⟨rfl, rfl⟩
  receive_other c now caller r h := by
    cases r with
    | metadata path => simp at h
    | _ => rfl
  returned c r := by
    cases r with
    | write file replace data modified => exact c.metadata.evict_eq_evictWhere file
    | createFolder folder => exact c.metadata.evict_eq_evictWhere folder
    | deleteFile file => rfl
    | deleteFolder folder => rfl
    | move source target replace => exact c.metadata.evictWhere_evictWhere _ _
    | _ => exact c.metadata.evictWhere_false.symm
  land_own c ticket outcome k := rfl
  land_other c ticket outcome r h := by
    cases r with
    | metadata path => simp at h
    | _ => rfl
  collect_own c now caller k c' a h := by
    obtain ⟨b, hb, he⟩ := Option.map_eq_some_iff.mp h
    obtain ⟨rfl, rfl⟩ := Prod.mk.inj he
    exact ⟨hb, rfl⟩
  collect_other c now caller r c' a hr h := by
    cases r with
    | metadata path => simp at hr
    | list folder token =>
      obtain ⟨b, hb, he⟩ := Option.map_eq_some_iff.mp h
      obtain ⟨rfl, rfl⟩ := Prod.mk.inj he
      rfl
    | quota folder =>
      obtain ⟨b, hb, he⟩ := Option.map_eq_some_iff.mp h
      obtain ⟨rfl, rfl⟩ := Prod.mk.inj he
      rfl
    | _ => simp [collect] at h
  leave_own c caller k := rfl
  leave_other c caller r h := by
    cases r with
    | metadata path => simp at h
    | _ => rfl

/-- Where the pages of a folder are asked for. -/
def listings : Counter PageKey where
  desk c := c.listings
  request k := .list k.folder k.token
  key?
    | .list folder token => some ⟨folder, token⟩
    | _ => none
  key?_eq_some_iff r k := by
    obtain ⟨folder, token⟩ := k
    cases r <;> simp [eq_comm]
  receive_own c now caller k := .inr ⟨rfl, rfl⟩
  receive_other c now caller r h := by
    cases r with
    | list folder token => simp at h
    | _ => rfl
  returned c r := by
    cases r with
    | move source target replace => exact c.listings.evictWhere_evictWhere _ _
    | write file replace data modified => rfl
    | createFolder folder => rfl
    | deleteFile file => rfl
    | deleteFolder folder => rfl
    | _ => exact c.listings.evictWhere_false.symm
  land_own c ticket outcome k := rfl
  land_other c ticket outcome r h := by
    cases r with
    | list folder token => simp at h
    | _ => rfl
  collect_own c now caller k c' a h := by
    obtain ⟨b, hb, he⟩ := Option.map_eq_some_iff.mp h
    obtain ⟨rfl, rfl⟩ := Prod.mk.inj he
    exact ⟨hb, rfl⟩
  collect_other c now caller r c' a hr h := by
    cases r with
    | list folder token => simp at hr
    | metadata path =>
      obtain ⟨b, hb, he⟩ := Option.map_eq_some_iff.mp h
      obtain ⟨rfl, rfl⟩ := Prod.mk.inj he
      rfl
    | quota folder =>
      obtain ⟨b, hb, he⟩ := Option.map_eq_some_iff.mp h
      obtain ⟨rfl, rfl⟩ := Prod.mk.inj he
      rfl
    | _ => simp [collect] at h
  leave_own c caller k := rfl
  leave_other c caller r h := by
    cases r with
    | list folder token => simp at h
    | _ => rfl

/-- Where the quota of a folder is asked for; what is kept there is answered from memory. -/
def quota : Counter Path where
  desk c := c.quota.desk
  request := .quota
  key?
    | .quota folder => some folder
    | _ => none
  key?_eq_some_iff r k := by cases r <;> simp [eq_comm]
  receive_own c now caller k := by
    cases hf : c.quota.outcomes.find? now k with
    | some a => exact .inl ⟨a, by simp [receive, QuotaCache.ask, hf]⟩
    | none => exact .inr (by simp [receive, QuotaCache.ask, hf])
  receive_other c now caller r h := by
    cases r with
    | quota folder => simp at h
    | _ => rfl
  returned c r := by
    cases r with
    | move source target replace => exact c.quota.desk.evictWhere_evictWhere _ _
    | deleteFile file => rfl
    | deleteFolder folder => rfl
    | _ => exact c.quota.desk.evictWhere_false.symm
  land_own c ticket outcome k := rfl
  land_other c ticket outcome r h := by
    cases r with
    | quota folder => simp at h
    | _ => rfl
  collect_own c now caller k c' a h := by
    obtain ⟨⟨q, b⟩, hq, he⟩ := Option.map_eq_some_iff.mp h
    obtain ⟨rfl, rfl⟩ := Prod.mk.inj he
    rw [QuotaCache.collect_eq] at hq
    obtain ⟨b, hb, he⟩ := Option.map_eq_some_iff.mp hq
    obtain ⟨rfl, rfl⟩ := Prod.mk.inj he
    exact ⟨hb, by simp only [QuotaCache.leave, QuotaCache.filed_frame]⟩
  collect_other c now caller r c' a hr h := by
    cases r with
    | quota folder => simp at hr
    | metadata path =>
      obtain ⟨b, hb, he⟩ := Option.map_eq_some_iff.mp h
      obtain ⟨rfl, rfl⟩ := Prod.mk.inj he
      rfl
    | list folder token =>
      obtain ⟨b, hb, he⟩ := Option.map_eq_some_iff.mp h
      obtain ⟨rfl, rfl⟩ := Prod.mk.inj he
      rfl
    | _ => simp [collect] at h
  leave_own c caller k := rfl
  leave_other c caller r h := by
    cases r with
    | quota folder => simp at h
    | _ => rfl

end Coalescer.Counter

/-! ### What a request takes away -/

namespace Coalescer

/-- What is on the board of a counter for a key when a request has come back. -/
theorem Counter.board_returned {K : Type} [Ord K] [Std.TransOrd K] [Std.LawfulEqOrd K]
    (v : Counter K) (c : Coalescer) (r : Request) (k : K) :
    (v.desk (c.returned r)).board[k]? =
      if r.covers (v.request k) then none else (v.desk c).board[k]? := by
  rw [v.returned, Desk.board_evictWhere]

/-- The ticket on the board for what a request asks for. -/
def ticket? (c : Coalescer) : Request → Option Ticket
  | .metadata path => c.metadata.board[path]?
  | .list folder token => c.listings.board[(⟨folder, token⟩ : PageKey)]?
  | .quota folder => c.quota.desk.board[folder]?
  | _ => none

/-- The outcome that is kept of what a request asks for, with the time of its insertion. -/
def kept? (c : Coalescer) : Request → Option (Nanoseconds × Answer Reply)
  | .quota folder => c.quota.outcomes.entries[folder]?
  | _ => none

/-- A request that comes back takes exactly the tickets off the boards that it covers. -/
theorem ticket?_returned (c : Coalescer) (r lookup : Request) :
    (c.returned r).ticket? lookup = if r.covers lookup then none else c.ticket? lookup := by
  cases lookup with
  | metadata path => exact Counter.metadata.board_returned c r path
  | list folder token => exact Counter.listings.board_returned c r ⟨folder, token⟩
  | quota folder => exact Counter.quota.board_returned c r folder
  | _ => simp [ticket?]

/-- Forgetting a subtree takes exactly the kept quotas there away. -/
private theorem kept?_forgetSubtree (c : Coalescer) (path : Path) (lookup : Request) :
    (c.forgetSubtree path).kept? lookup =
      if lookup.isBelow path then none else c.kept? lookup := by
  cases lookup with
  | quota folder =>
    by_cases hp : folder.startsWith path <;> cases he : c.quota.outcomes.entries[folder]? <;>
      simp [kept?, forgetSubtree, QuotaCache.invalidateSubtree, TimedMap.eraseWhere,
        Request.isBelow, hp, he]
  | _ => simp [kept?]

/-- A request that comes back forgets exactly the kept quotas that it covers. -/
theorem kept?_returned (c : Coalescer) (r lookup : Request) :
    (c.returned r).kept? lookup = if r.covers lookup then none else c.kept? lookup := by
  have hpath (path : Path) : (c.forgetPath path).kept? lookup =
      if lookup.isAt path then none else c.kept? lookup := by
    cases lookup <;> simp [kept?, forgetPath, Request.isAt]
  cases r with
  | write file replace data modified => exact hpath file
  | createFolder folder => exact hpath folder
  | deleteFile file => exact c.kept?_forgetSubtree file lookup
  | deleteFolder folder => exact c.kept?_forgetSubtree folder lookup
  | move source target replace =>
    refine (kept?_forgetSubtree _ target lookup).trans ?_
    rw [kept?_forgetSubtree c source lookup]
    cases hs : lookup.isBelow source <;> cases ht : lookup.isBelow target <;>
      simp [Request.covers, hs, ht]
  | _ => simp [returned, Request.covers]

/-! ### Changes of a layer -/

/-- What can happen to a coalescing layer. -/
inductive Change
  /-- A request arrives from outside. -/
  | receive (caller : Nat) (r : Request)
  /-- A request that was not shared comes back. -/
  | returned (r : Request)
  /-- The shared call of a ticket ends. -/
  | land (ticket : Nat) (outcome : Outcome Reply) (r : Request)
  /-- A waiting caller runs on, and leaves if it has an answer. -/
  | collect (caller : Nat) (r : Request)
  /-- A waiting caller gives up. -/
  | leave (caller : Nat) (r : Request)
  /-- Time passes. -/
  | pause (d : Nanoseconds)

/-- The caller that a change is about. -/
def Change.caller? : Change → Option Nat
  | .receive caller _ | .collect caller _ | .leave caller _ => some caller
  | .returned _ | .land .. | .pause _ => none

/-- How much time passes in a change. -/
def Change.span : Change → Nanoseconds
  | .pause d => d
  | .receive .. | .returned _ | .land .. | .collect .. | .leave .. => 0

/-- The layer after a change. -/
def apply (c : Coalescer) (now : Nanoseconds) : Change → Coalescer
  | .receive caller r => (c.receive now caller r).1
  | .returned r => c.returned r
  | .land ticket outcome r => c.land ticket outcome r
  | .collect caller r => match c.collect now caller r with
    | some (c', _) => c'
    | none => c
  | .leave caller r => c.leave caller r
  | .pause _ => c

namespace Counter

variable {K : Type} [Ord K] [Std.TransOrd K]

/-- A request at a counter does not go further in as it is. -/
theorem receive_ne_none (v : Counter K) (c : Coalescer) (now : Nanoseconds) (caller : Nat)
    (k : K) : (c.receive now caller (v.request k)).2 ≠ none := by
  rcases v.receive_own c now caller k with ⟨a, ha, -⟩ | ⟨ha, -⟩ <;> simp [ha]

/-- What a change of the layer is at the desk of a counter. -/
def events (v : Counter K) (c : Coalescer) (now : Nanoseconds) :
    Change → List (Desk.Event K Reply)
  | .receive caller r => match v.key? r, (c.receive now caller r).2 with
    | none, _ | some _, some (.answered _) => []
    | some k, _ => [.enter caller k]
  | .returned r => [.evictWhere fun k => r.covers (v.request k)]
  | .land ticket outcome r => if (v.key? r).isSome then [.land ticket outcome] else []
  | .collect caller r =>
    if (v.key? r).isSome && (c.collect now caller r).isSome then [.leave caller] else []
  | .leave caller r => if (v.key? r).isSome then [.leave caller] else []
  | .pause _ => []

/-- Who is received at a counter is answered from memory, or comes to the desk. -/
theorem events_receive (v : Counter K) (c : Coalescer) (now : Nanoseconds) (caller : Nat) (k : K) :
    (∃ a, (c.receive now caller (v.request k)).2 = some (.answered a) ∧
      v.events c now (.receive caller (v.request k)) = []) ∨
    (c.receive now caller (v.request k)).2 = some ((v.desk c).enter caller k).2 ∧
      v.events c now (.receive caller (v.request k)) = [.enter caller k] := by
  have hk : v.key? (v.request k) = some k := (v.key?_eq_some_iff _ k).mpr rfl
  rcases v.receive_own c now caller k with ⟨a, ha, -⟩ | ⟨hd, -⟩
  · exact .inl ⟨a, ha, by simp [events, hk, ha]⟩
  · refine .inr ⟨hd, ?_⟩
    cases hb : (v.desk c).board[k]? <;> simp [events, hk, hd, Desk.enter, hb]

/-- An event at the desk of a counter that is about a caller comes from a change that is about the
same caller. -/
theorem caller?_of_mem_events {v : Counter K} {c : Coalescer} {now : Nanoseconds} {ch : Change}
    {e : Desk.Event K Reply} (he : e ∈ v.events c now ch) {caller : Nat}
    (hof : e.isOf caller = true) : ch.caller? = some caller := by
  cases ch with
  | receive other r =>
    simp only [events] at he
    split at he
    · simp at he
    · simp at he
    · obtain rfl := List.mem_singleton.mp he
      simpa [Desk.Event.isOf, Change.caller?] using hof
  | returned r =>
    obtain rfl := List.mem_singleton.mp he
    simp [Desk.Event.isOf] at hof
  | land ticket outcome r =>
    obtain ⟨-, rfl⟩ : _ ∧ e = .land ticket outcome := by simpa [events] using he
    simp [Desk.Event.isOf] at hof
  | collect other r =>
    obtain ⟨-, rfl⟩ : _ ∧ e = .leave other := by simpa [events] using he
    simpa [Desk.Event.isOf, Change.caller?] using hof
  | leave other r =>
    obtain ⟨-, rfl⟩ : _ ∧ e = .leave other := by simpa [events] using he
    simpa [Desk.Event.isOf, Change.caller?] using hof
  | pause d => simp [events] at he

/-- A call that ends at the desk of a counter is one for a key of the counter. -/
theorem of_land_mem_events {v : Counter K} {c : Coalescer} {now : Nanoseconds} {ch : Change}
    {ticket : Nat} {outcome : Outcome Reply} (he : .land ticket outcome ∈ v.events c now ch) :
    ∃ k, ch = .land ticket outcome (v.request k) := by
  cases ch with
  | receive other r =>
    simp only [events] at he
    split at he <;> simp at he
  | land t o r =>
    obtain ⟨hown, rfl, rfl⟩ : (v.key? r).isSome = true ∧ ticket = t ∧ outcome = o := by
      simpa [events] using he
    obtain ⟨k, hk⟩ := Option.isSome_iff_exists.mp hown
    exact ⟨k, by rw [(v.key?_eq_some_iff r k).mp hk]⟩
  | returned r => simp [events] at he
  | collect other r => simp [events] at he
  | leave other r => simp [events] at he
  | pause d => simp [events] at he

/-- The desk of a counter follows every change of the layer. -/
theorem desk_apply (v : Counter K) (c : Coalescer) (now : Nanoseconds) (ch : Change) :
    v.desk (c.apply now ch) = (v.events c now ch).foldl Desk.step (v.desk c) := by
  cases ch with
  | receive caller r =>
    cases hk : v.key? r with
    | none => simp [apply, events, hk, v.receive_other c now caller r hk]
    | some k =>
      obtain rfl := (v.key?_eq_some_iff r k).mp hk
      rcases v.receive_own c now caller k with ⟨a, ha, hdesk⟩ | ⟨ha, hdesk⟩
      · simp [apply, events, hk, ha, hdesk]
      · cases hb : (v.desk c).board[k]? <;>
          simp [apply, events, hk, ha, hdesk, Desk.enter, hb, Desk.step]
  | returned r => exact v.returned c r
  | land ticket outcome r =>
    cases hk : v.key? r with
    | none => simp [apply, events, hk, v.land_other c ticket outcome r hk]
    | some k =>
      obtain rfl := (v.key?_eq_some_iff r k).mp hk
      simp [apply, events, hk, v.land_own, Desk.step]
  | collect caller r =>
    cases hc : c.collect now caller r with
    | none => simp [apply, events, hc]
    | some left =>
      obtain ⟨c', a⟩ := left
      cases hk : v.key? r with
      | none => simp [apply, events, hk, hc, v.collect_other c now caller r c' a hk hc]
      | some k =>
        obtain rfl := (v.key?_eq_some_iff r k).mp hk
        simp [apply, events, hk, hc, (v.collect_own c now caller k c' a hc).2, Desk.step]
  | leave caller r =>
    cases hk : v.key? r with
    | none => simp [apply, events, hk, v.leave_other c caller r hk]
    | some k =>
      obtain rfl := (v.key?_eq_some_iff r k).mp hk
      simp [apply, events, hk, v.leave_own, Desk.step]
  | pause d => rfl

end Counter

/-! ### The quota cache of a layer -/

/-- What a change of the layer is to its quota cache. -/
def Change.quotaEvents : Change → List (QuotaCache.Event Reply)
  | .receive caller (.quota folder) => [.ask caller folder]
  | .returned (.deleteFile path) | .returned (.deleteFolder path) => [.invalidateSubtree path]
  | .returned (.move source target _) => [.invalidateSubtree source, .invalidateSubtree target]
  | .land ticket outcome (.quota _) => [.land ticket outcome]
  | .collect caller (.quota _) => [.collect caller]
  | .leave caller (.quota _) => [.leave caller]
  | .pause d => [.sleep d]
  | _ => []

/-- The quota cache follows every change of the layer, its ledger like the one of any counter. -/
theorem quota_after (c : Coalescer) (now : Nanoseconds) (book : Desk.Watched Path Reply)
    (ch : Change) :
    (⟨c.quota, now, book⟩ : QuotaCache.Watched Reply).after ch.quotaEvents =
      ⟨(c.apply now ch).quota, now + ch.span, book.after (Counter.quota.events c now ch)⟩ := by
  have hown (folder : Path) : Counter.quota.key? (.quota folder) = some folder := rfl
  let s : QuotaCache.Watched Reply := ⟨c.quota, now, book⟩
  cases ch with
  | receive caller r =>
    cases r with
    | quota folder =>
      cases hf : c.quota.outcomes.find? now folder with
      | some a =>
        have hstep := QuotaCache.Watched.step_ask_of_hit (s := s) hf caller
        simpa [Change.quotaEvents, apply, receive, Counter.events, hown, QuotaCache.ask, hf,
          Change.span] using hstep
      | none =>
        have hstep := QuotaCache.Watched.step_ask_of_miss (s := s) hf caller
        rcases Counter.quota.events_receive c now caller folder with ⟨a, ha, -⟩ | ⟨-, hevents⟩
        · cases hb : c.quota.desk.board[folder]? <;>
            simp [Counter.quota, receive, QuotaCache.ask, hf, Desk.enter, hb] at ha
        · have hevents : Counter.quota.events c now (.receive caller (.quota folder)) =
              [.enter caller folder] := hevents
          simpa [Change.quotaEvents, apply, receive, QuotaCache.ask, hf, hevents, Change.span]
            using hstep
    | _ => rfl
  | returned r =>
    cases r with
    | deleteFile file => rfl
    | deleteFolder folder => rfl
    | move source target replace =>
      have hbook := book.step_evictWhere_evictWhere (·.startsWith source) (·.startsWith target)
      exact congrArg (QuotaCache.Watched.mk _ now) hbook
    | _ => exact congrArg (QuotaCache.Watched.mk _ now) book.step_evictWhere_false.symm
  | land ticket outcome r =>
    cases r with
    | quota folder => rfl
    | _ => rfl
  | collect caller r =>
    cases r with
    | quota folder =>
      cases ha : c.quota.desk.answer? caller with
      | none =>
        have hstep := QuotaCache.Watched.step_collect_of_none (s := s) ha
        simpa [Change.quotaEvents, apply, collect, QuotaCache.collect_eq, Counter.events, hown, ha,
          Change.span] using hstep
      | some a =>
        have hstep := QuotaCache.Watched.step_collect_of_some (s := s) ha
        simpa [Change.quotaEvents, apply, collect, QuotaCache.collect_eq, Counter.events, hown, ha,
          Change.span] using hstep
    | metadata path =>
      cases ha : c.metadata.answer? caller <;>
        simp [Change.quotaEvents, apply, collect, Counter.events, Counter.quota, ha, Change.span,
          QuotaCache.Watched.after]
    | list folder token =>
      cases ha : c.listings.answer? caller <;>
        simp [Change.quotaEvents, apply, collect, Counter.events, Counter.quota, ha, Change.span,
          QuotaCache.Watched.after]
    | _ => rfl
  | leave caller r =>
    cases r with
    | quota folder => rfl
    | _ => rfl
  | pause d => rfl

end Coalescer
end LayeredStore
