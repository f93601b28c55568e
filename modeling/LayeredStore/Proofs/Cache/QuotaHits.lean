import Mathlib
import LayeredStore.Cache.Quota
import LayeredStore.Proofs.Flight.Sharing

/-!
# What the quota cache answers from memory

Every order of requests, ends of lookups, departures, invalidations and passing time is a run of
a quota cache. Main statement: in every run, what is answered from memory is the outcome of a
lookup of the same folder, worth keeping and not yet expired, and nothing above the folder has
been invalidated since that lookup began.
-/

namespace LayeredStore.QuotaCache

variable {V : Type}

/-- The cache after a caller has filed the answer that it leaves with: the answer is kept or its
folder forgotten, unless something was invalidated since the caller came. -/
def filed (c : QuotaCache V) (now : Nanoseconds) (caller : Nat) (answer : Answer V) :
    QuotaCache V :=
  match c.lookups[caller]? with
  | some (folder, generation) =>
    if generation = c.generation then c.keep now folder answer else c
  | none => c

/-- To collect an answer is to file it and to leave. -/
theorem collect_eq (c : QuotaCache V) (now : Nanoseconds) (caller : Nat) :
    c.collect now caller = (c.desk.answer? caller).map fun answer =>
      ((c.filed now caller answer).leave caller, answer) := rfl

/-- A new cache keeps nothing and knows how long to keep. -/
theorem eq_of_new? {lifetime : Nanoseconds} {c : QuotaCache V}
    (h : new? lifetime = some c) : c = ⟨⟨lifetime, ∅⟩, .empty, 0, ∅, .zero⟩ := by
  obtain ⟨outcomes, hnew, rfl⟩ := Option.map_eq_some_iff.mp h
  unfold TimedMap.new? at hnew
  split at hnew
  · obtain rfl := Option.some.inj hnew
    rfl
  · simp at hnew

/-- Filing an answer changes nothing but what is kept. -/
theorem filed_frame (c : QuotaCache V) (now : Nanoseconds) (caller : Nat) (answer : Answer V) :
    (c.filed now caller answer).desk = c.desk ∧
      (c.filed now caller answer).lookups = c.lookups ∧
      (c.filed now caller answer).generation = c.generation ∧
      (c.filed now caller answer).outcomes.lifetime = c.outcomes.lifetime := by
  unfold filed keep
  split
  · split
    · split <;> exact ⟨rfl, rfl, rfl, rfl⟩
    · exact ⟨rfl, rfl, rfl, rfl⟩
  · exact ⟨rfl, rfl, rfl, rfl⟩

/-- What is kept after an answer was filed was kept before, or is that answer, filed in the
generation in which its caller came. -/
theorem entries_filed {c : QuotaCache V} {now : Nanoseconds} {caller : Nat} {answer : Answer V}
    {folder : Path} {moment : Nanoseconds} {kept : Answer V}
    (h : (c.filed now caller answer).outcomes.entries[folder]? = some (moment, kept)) :
    c.outcomes.entries[folder]? = some (moment, kept) ∨
      c.lookups[caller]? = some (folder, c.generation) ∧ isKept answer = true ∧
        moment = now ∧ kept = answer := by
  unfold filed at h
  split at h
  · next f generation hl =>
    split at h
    · next hg =>
      subst hg
      unfold keep at h
      split at h
      · next hk =>
        by_cases hf : f = folder
        · subst hf
          obtain ⟨rfl, rfl⟩ : now = moment ∧ answer = kept := by
            simpa [TimedMap.insert] using h
          exact .inr ⟨hl, hk, rfl, rfl⟩
        · exact .inl (by simpa [TimedMap.insert, Std.ExtTreeMap.getElem?_insert, hf] using h)
      · by_cases hf : f = folder
        · subst hf
          simp [TimedMap.erase] at h
        · exact .inl (by simpa [TimedMap.erase, Std.ExtTreeMap.getElem?_erase, hf] using h)
    · exact .inl h
  · exact .inl h

/-- What can happen to a quota cache. -/
inductive Event (V : Type)
  /-- A caller asks for a folder. -/
  | ask (caller : Nat) (folder : Path)
  /-- The lookup of a ticket ends. -/
  | land (ticket : Nat) (outcome : Outcome V)
  /-- A caller runs on, and leaves if it has an answer. -/
  | collect (caller : Nat)
  /-- A caller gives up. -/
  | leave (caller : Nat)
  | invalidateSubtree (path : Path)
  | sleep (d : Nanoseconds)

/-- Whether an event forgets what is known of a folder. -/
def Event.invalidates (e : Event V) (folder : Path) : Bool :=
  match e with
  | .invalidateSubtree path => folder.startsWith path
  | .ask .. | .land .. | .collect .. | .leave .. | .sleep .. => false

/-- A quota cache with its clock and the ledger of its desk. -/
structure Watched (V : Type) where
  cache : QuotaCache V
  now : Nanoseconds
  book : Desk.Watched Path V

namespace Watched

/-- A cache that nobody has used yet. -/
def start (c : QuotaCache V) (now : Nanoseconds) : Watched V := ⟨c, now, .start⟩

/-- What an event is at the desk; who is answered from memory does not come there. -/
def deskEvent? (s : Watched V) : Event V → Option (Desk.Event Path V)
  | .ask caller folder =>
    if (s.cache.outcomes.find? s.now folder).isSome then none else some (.enter caller folder)
  | .land ticket outcome => some (.land ticket outcome)
  | .collect caller => (s.cache.desk.answer? caller).map fun _ => .leave caller
  | .leave caller => some (.leave caller)
  | .invalidateSubtree path => some (.evictWhere (·.startsWith path))
  | .sleep _ => none

/-- The ledger after an event at the desk, if there is one. -/
def bookAfter (s : Watched V) (e : Event V) : Desk.Watched Path V :=
  match s.deskEvent? e with
  | some e => s.book.step e
  | none => s.book

/-- The cache after an event. -/
def cacheAfter (s : Watched V) : Event V → QuotaCache V
  | .ask caller folder => (s.cache.ask s.now caller folder).1
  | .land ticket outcome => s.cache.land ticket outcome
  | .collect caller => match s.cache.collect s.now caller with
    | some (cache, _) => cache
    | none => s.cache
  | .leave caller => s.cache.leave caller
  | .invalidateSubtree path => s.cache.invalidateSubtree path
  | .sleep _ => s.cache

/-- The clock after an event. -/
def nowAfter (s : Watched V) : Event V → Nanoseconds
  | .sleep d => s.now + d
  | .ask .. | .land .. | .collect .. | .leave .. | .invalidateSubtree .. => s.now

/-- The cache, its clock and its ledger after an event. -/
def step (s : Watched V) (e : Event V) : Watched V := ⟨s.cacheAfter e, s.nowAfter e, s.bookAfter e⟩

/-- The cache, its clock and its ledger after a run of events. -/
def after (s : Watched V) (es : List (Event V)) : Watched V := es.foldl step s

/-- The first landing of a ticket in a run brings an outcome. -/
def Lands (es : List (Event V)) (ticket : Nat) (outcome : Outcome V) : Prop :=
  ∃ early late, es = early ++ .land ticket outcome :: late ∧ ∀ o, .land ticket o ∉ early

/-- Where a call of the ledger comes from: a caller that asked for its folder started it, and what
the ledger says of it is what has happened since. -/
def Origin (s : Watched V) (es : List (Event V)) (r : Desk.CallRecord Path V) : Prop :=
  ∃ before asker since, es = before ++ .ask asker r.key :: since ∧
    ((s.after before).cache.ask (s.after before).now asker r.key).2 = .opened r.ticket ∧
    (r.evicted = false → ∀ e ∈ since, e.invalidates r.key = false) ∧
    (r.outcome = none → ∀ outcome, .land r.ticket outcome ∉ since) ∧
    (∀ outcome, r.outcome = some outcome → Lands since r.ticket outcome)

/-- An answer was put into the cache by a caller that left with it at some moment of a run. -/
def Inserted (s : Watched V) (es : List (Event V)) (folder : Path) (moment : Nanoseconds)
    (answer : Answer V) : Prop :=
  ∃ before collector later, es = before ++ .collect collector :: later ∧
    (s.after before).now = moment ∧
    ((s.after before).cache.collect moment collector).map Prod.snd = some answer ∧
    (s.after (before ++ [.collect collector])).cache.outcomes.entries[folder]? =
      some (moment, answer)

/-- After a run, the ledger is right, who waits in the present generation shares a call that is
not evicted, and what is kept is the outcome of such a call. -/
structure Sound (s : Watched V) (es : List (Event V)) : Prop where
  book : (s.after es).book.Sound
  desk : (s.after es).cache.desk = (s.after es).book.desk
  origin : ∀ r ∈ (s.after es).book.calls, Origin s es r
  lookups : ∀ (caller : Nat) (folder : Path) (generation : Nat),
    (s.after es).cache.lookups[caller]? = some (folder, generation) →
    generation ≤ (s.after es).cache.generation ∧
      ∃ r ∈ (s.after es).book.calls,
        (s.after es).book.shares[caller]? = some (folder, r.ticket) ∧ r.key = folder ∧
        (generation = (s.after es).cache.generation → r.evicted = false)
  kept : ∀ (folder : Path) (moment : Nanoseconds) (answer : Answer V),
    (s.after es).cache.outcomes.entries[folder]? = some (moment, answer) →
    isKept answer = true ∧ Inserted s es folder moment answer ∧
      ∃ r ∈ (s.after es).book.calls, r.key = folder ∧ r.evicted = false ∧
        r.outcome.map Outcome.shared = some answer

/-! ### Runs that go on -/

@[simp] theorem after_append (s : Watched V) (es es' : List (Event V)) :
    s.after (es ++ es') = (s.after es).after es' := List.foldl_append

@[simp] theorem after_singleton (s : Watched V) (e : Event V) : s.after [e] = s.step e := rfl

/-- The clock is never put back. -/
private theorem now_le_now_after (s : Watched V) (es : List (Event V)) :
    s.now ≤ (s.after es).now := by
  induction es generalizing s with
  | nil => exact Nat.le_refl _
  | cons e es ih =>
    refine Nat.le_trans ?_ (ih (s.step e))
    cases e with
    | sleep d => exact Nat.le_add_right _ _
    | _ => exact Nat.le_refl _

/-- What was put into the cache stays put in while the run goes on. -/
private theorem Inserted.snoc {s : Watched V} {es : List (Event V)} {folder : Path}
    {moment : Nanoseconds} {answer : Answer V} (h : Inserted s es folder moment answer)
    (e : Event V) : Inserted s (es ++ [e]) folder moment answer := by
  obtain ⟨before, collector, later, rfl, hnow, hleft, hentry⟩ := h
  exact ⟨before, collector, later ++ [e], by simp, hnow, hleft, hentry⟩

/-- A landing is the first one also when the run goes on. -/
private theorem Lands.snoc {es : List (Event V)} {ticket : Nat} {outcome : Outcome V}
    (h : Lands es ticket outcome) (e : Event V) : Lands (es ++ [e]) ticket outcome := by
  obtain ⟨early, late, rfl, hfirst⟩ := h
  exact ⟨early, late ++ [e], by simp, hfirst⟩

/-- The origin of a call stays the same while the run goes on, if the ledger follows. -/
private theorem Origin.snoc {s : Watched V} {es : List (Event V)} {r r' : Desk.CallRecord Path V}
    (h : Origin s es r) {e : Event V} (hticket : r'.ticket = r.ticket) (hkey : r'.key = r.key)
    (hevicted : r'.evicted = false → r.evicted = false ∧ e.invalidates r.key = false)
    (hnone : r'.outcome = none → r.outcome = none ∧ ∀ outcome, e ≠ .land r.ticket outcome)
    (hsome : ∀ outcome, r'.outcome = some outcome →
      r.outcome = some outcome ∨ r.outcome = none ∧ e = .land r.ticket outcome) :
    Origin s (es ++ [e]) r' := by
  obtain ⟨before, asker, since, rfl, hopened, hkeep, hrun, hend⟩ := h
  refine ⟨before, asker, since ++ [e], by simp [hkey], ?_, ?_, ?_, ?_⟩
  · rw [hkey, hticket]
    exact hopened
  · intro hr' e' he'
    obtain ⟨hr, he⟩ := hevicted hr'
    rw [hkey]
    rcases List.mem_append.mp he' with he' | he'
    · exact hkeep hr e' he'
    · obtain rfl := List.mem_singleton.mp he'
      exact he
  · intro hr' outcome hland
    obtain ⟨hr, he⟩ := hnone hr'
    rw [hticket] at hland
    rcases List.mem_append.mp hland with hland | hland
    · exact hrun hr outcome hland
    · exact he outcome (List.mem_singleton.mp hland).symm
  · intro outcome hr'
    rw [hticket]
    rcases hsome outcome hr' with hr | ⟨hr, rfl⟩
    · exact (hend outcome hr).snoc e
    · exact ⟨since, [], rfl, hrun hr⟩

/-! ### One event -/

/-- Who is answered from memory is only counted. -/
theorem step_ask_of_hit {s : Watched V} {folder : Path} {answer : Answer V}
    (h : s.cache.outcomes.find? s.now folder = some answer) (caller : Nat) :
    s.step (.ask caller folder) =
      ⟨{ s.cache with tally := s.cache.tally.count true }, s.now, s.book⟩ := by
  simp [step, cacheAfter, nowAfter, bookAfter, deskEvent?, ask, h]

/-- Who is not answered from memory comes to the desk. -/
theorem step_ask_of_miss {s : Watched V} {folder : Path}
    (h : s.cache.outcomes.find? s.now folder = none) (caller : Nat) :
    s.step (.ask caller folder) =
      ⟨{ s.cache with
          desk := (s.cache.desk.enter caller folder).1
          lookups := s.cache.lookups.insert caller (folder, s.cache.generation)
          tally := s.cache.tally.count false }, s.now, s.book.step (.enter caller folder)⟩ := by
  simp [step, cacheAfter, nowAfter, bookAfter, deskEvent?, ask, h]

/-- Who has an answer files it and leaves. -/
theorem step_collect_of_some {s : Watched V} {caller : Nat} {answer : Answer V}
    (h : s.cache.desk.answer? caller = some answer) :
    s.step (.collect caller) =
      ⟨(s.cache.filed s.now caller answer).leave caller, s.now, s.book.step (.leave caller)⟩ := by
  simp [step, cacheAfter, nowAfter, bookAfter, deskEvent?, collect_eq, h]

/-- Who has no answer stays. -/
theorem step_collect_of_none {s : Watched V} {caller : Nat}
    (h : s.cache.desk.answer? caller = none) : s.step (.collect caller) = s := by
  simp [step, cacheAfter, nowAfter, bookAfter, deskEvent?, collect_eq, h]

/-- At the desk of the cache the same happens as in the ledger. -/
private theorem desk_step {s : Watched V} (h : s.cache.desk = s.book.desk) (e : Event V) :
    (s.step e).cache.desk = (s.step e).book.desk := by
  cases e with
  | ask caller folder =>
    cases hf : s.cache.outcomes.find? s.now folder with
    | some a =>
      rw [step_ask_of_hit hf]
      exact h
    | none =>
      rw [step_ask_of_miss hf, Desk.Watched.desk_step, ← h]
      rfl
  | land ticket outcome =>
    simp [step, cacheAfter, bookAfter, deskEvent?, QuotaCache.land, h, Desk.step]
  | collect caller =>
    cases ha : s.cache.desk.answer? caller with
    | none =>
      rw [step_collect_of_none ha]
      exact h
    | some a =>
      rw [step_collect_of_some ha, Desk.Watched.desk_step, ← h]
      simp only [QuotaCache.leave, filed_frame, Desk.step]
  | leave caller =>
    simp [step, cacheAfter, bookAfter, deskEvent?, QuotaCache.leave, h, Desk.step]
  | invalidateSubtree path =>
    simp [step, cacheAfter, bookAfter, deskEvent?, QuotaCache.invalidateSubtree, h, Desk.step]
  | sleep d => exact h

/-- What happens at the desk comes from an event of the cache. -/
theorem deskEvent?_eq_some {s : Watched V} {e : Event V} {d : Desk.Event Path V}
    (h : s.deskEvent? e = some d) :
    (∃ caller folder, e = .ask caller folder ∧ s.cache.outcomes.find? s.now folder = none ∧
      d = .enter caller folder) ∨
    (∃ ticket outcome, e = .land ticket outcome ∧ d = .land ticket outcome) ∨
    (∃ caller, (e = .collect caller ∨ e = .leave caller) ∧ d = .leave caller) ∨
    ∃ path, e = .invalidateSubtree path ∧ d = .evictWhere (·.startsWith path) := by
  cases e with
  | ask caller folder =>
    obtain ⟨hf, rfl⟩ : s.cache.outcomes.find? s.now folder = none ∧
        Desk.Event.enter caller folder = d := by simpa [deskEvent?] using h
    exact .inl ⟨caller, folder, rfl, hf, rfl⟩
  | land ticket outcome => exact .inr (.inl ⟨ticket, outcome, rfl, (Option.some.inj h).symm⟩)
  | collect caller =>
    obtain ⟨-, -, rfl⟩ := Option.map_eq_some_iff.mp h
    exact .inr (.inr (.inl ⟨caller, .inl rfl, rfl⟩))
  | leave caller =>
    exact .inr (.inr (.inl ⟨caller, .inr rfl, (Option.some.inj h).symm⟩))
  | invalidateSubtree path => exact .inr (.inr (.inr ⟨path, rfl, (Option.some.inj h).symm⟩))
  | sleep d => simp [deskEvent?] at h

/-- At the desk, tickets are evicted by invalidations only. -/
private theorem evicts_of_deskEvent? {s : Watched V} {e : Event V} {d : Desk.Event Path V}
    (h : s.deskEvent? e = some d) (folder : Path) : d.evicts folder = e.invalidates folder := by
  obtain ⟨_, _, rfl, -, rfl⟩ | ⟨_, _, rfl, rfl⟩ | ⟨_, rfl | rfl, rfl⟩ | ⟨_, rfl, rfl⟩ :=
    deskEvent?_eq_some h <;> rfl

/-- What does not concern the desk invalidates nothing. -/
private theorem invalidates_of_deskEvent?_eq_none {s : Watched V} {e : Event V}
    (h : s.deskEvent? e = none) (folder : Path) : e.invalidates folder = false := by
  cases e with
  | invalidateSubtree path => simp [deskEvent?] at h
  | _ => rfl

/-- At the desk, calls are ended by landings only. -/
private theorem end?_of_deskEvent? {s : Watched V} {e : Event V} {d : Desk.Event Path V}
    (h : s.deskEvent? e = some d) (ticket : Nat) (outcome : Outcome V) :
    d.end? ticket = some outcome ↔ e = .land ticket outcome := by
  obtain ⟨_, _, rfl, -, rfl⟩ | ⟨_, _, rfl, rfl⟩ | ⟨_, rfl | rfl, rfl⟩ | ⟨_, rfl, rfl⟩ :=
    deskEvent?_eq_some h <;> simp [Desk.Event.end?]

/-- Who comes to the desk has asked, and found nothing in the cache. -/
private theorem ask_of_deskEvent? {s : Watched V} {e : Event V} {caller : Nat} {folder : Path}
    (h : s.deskEvent? e = some (.enter caller folder)) :
    e = .ask caller folder ∧ s.cache.outcomes.find? s.now folder = none := by
  obtain ⟨c, f, rfl, hf, he⟩ | ⟨_, _, -, he⟩ | ⟨_, -, he⟩ | ⟨_, -, he⟩ := deskEvent?_eq_some h
  · obtain ⟨rfl, rfl⟩ := Desk.Event.enter.inj he
    exact ⟨rfl, hf⟩
  · simp at he
  · simp at he
  · simp at he

/-- The ledger stays right, and so do the origins of its calls. -/
private theorem Sound.origin_snoc {s : Watched V} {es : List (Event V)} (h : Sound s es)
    (e : Event V) {r : Desk.CallRecord Path V} (hr : r ∈ (s.after (es ++ [e])).book.calls) :
    Origin s (es ++ [e]) r := by
  rw [after_append, after_singleton] at hr
  change r ∈ ((s.after es).bookAfter e).calls at hr
  unfold bookAfter at hr
  split at hr
  · next d hd =>
    rcases Desk.Watched.mem_step hr with ⟨r₀, hr₀, rfl⟩ | ⟨caller, folder, he, hb, rfl⟩
    · refine (h.origin r₀ hr₀).snoc rfl rfl ?_ ?_ ?_
      · intro hev
        obtain ⟨h₀, hd₀⟩ := Bool.or_eq_false_iff.mp hev
        exact ⟨h₀, evicts_of_deskEvent? hd _ ▸ hd₀⟩
      · intro hn
        obtain ⟨h₀, hd₀⟩ := Option.or_eq_none_iff.mp hn
        refine ⟨h₀, fun outcome he => ?_⟩
        simp [(end?_of_deskEvent? hd _ _).mpr he] at hd₀
      · intro outcome ho
        rcases Option.or_eq_some_iff.mp ho with ho | ⟨hn, ho⟩
        · exact .inl ho
        · exact .inr ⟨hn, (end?_of_deskEvent? hd _ _).mp ho⟩
    · subst he
      obtain ⟨rfl, hmiss⟩ := ask_of_deskEvent? hd
      rw [← h.desk] at hb ⊢
      refine ⟨es, caller, [], rfl, ?_, by simp, by simp, by simp⟩
      simp [ask, hmiss, Desk.enter, hb]
  · next hd =>
    refine (h.origin r hr).snoc rfl rfl ?_ ?_ fun _ => .inl
    · exact fun hev => ⟨hev, invalidates_of_deskEvent?_eq_none hd _⟩
    · exact fun hn => ⟨hn, fun outcome he => by simp [he, deskEvent?] at hd⟩

/-- No call is struck out of the ledger, and its end is not taken back. -/
private theorem exists_call_step {s : Watched V} {r : Desk.CallRecord Path V}
    (hr : r ∈ s.book.calls) (e : Event V) :
    ∃ r' ∈ (s.step e).book.calls, r'.ticket = r.ticket ∧ r'.key = r.key ∧
      r'.evicted = (r.evicted || e.invalidates r.key) ∧
      ∀ outcome, r.outcome = some outcome → r'.outcome = some outcome := by
  cases hd : s.deskEvent? e with
  | some d =>
    have hbook : (s.step e).book = s.book.step d := by simp [step, bookAfter, hd]
    rw [hbook]
    refine ⟨r.after d, Desk.Watched.after_mem_step hr d, rfl, rfl, ?_, ?_⟩
    · rw [← evicts_of_deskEvent? hd]
      rfl
    · intro outcome ho
      simp [Desk.CallRecord.after, ho]
  | none =>
    have hbook : (s.step e).book = s.book := by simp [step, bookAfter, hd]
    rw [hbook]
    exact ⟨r, hr, rfl, rfl, by simp [invalidates_of_deskEvent?_eq_none hd], fun _ ho => ho⟩

/-- What is kept after an event was kept before and is not invalidated, or a caller of the present
generation has left with it just now. -/
private theorem entries_step {s : Watched V} {e : Event V} {folder : Path} {moment : Nanoseconds}
    {answer : Answer V}
    (h : (s.step e).cache.outcomes.entries[folder]? = some (moment, answer)) :
    s.cache.outcomes.entries[folder]? = some (moment, answer) ∧ e.invalidates folder = false ∨
      ∃ collector, e = .collect collector ∧
        s.cache.desk.answer? collector = some answer ∧
        s.cache.lookups[collector]? = some (folder, s.cache.generation) ∧
        isKept answer = true ∧ moment = s.now := by
  cases e with
  | ask caller f =>
    cases hf : s.cache.outcomes.find? s.now f with
    | some a =>
      rw [step_ask_of_hit hf] at h
      exact .inl ⟨h, rfl⟩
    | none =>
      rw [step_ask_of_miss hf] at h
      exact .inl ⟨h, rfl⟩
  | land ticket outcome => exact .inl ⟨h, rfl⟩
  | collect caller =>
    cases ha : s.cache.desk.answer? caller with
    | none =>
      rw [step_collect_of_none ha] at h
      exact .inl ⟨h, rfl⟩
    | some a =>
      rw [step_collect_of_some ha] at h
      rcases entries_filed h with h | ⟨hl, hk, rfl, rfl⟩
      · exact .inl ⟨h, rfl⟩
      · exact .inr ⟨caller, rfl, ha, hl, hk, rfl⟩
  | leave caller => exact .inl ⟨h, rfl⟩
  | invalidateSubtree path =>
    have h : (s.cache.outcomes.eraseWhere (·.startsWith path)).entries[folder]? =
        some (moment, answer) := h
    rw [TimedMap.eraseWhere, Std.ExtTreeMap.getElem?_filter'] at h
    obtain ⟨h, hp⟩ := Option.filter_eq_some_iff.mp h
    exact .inl ⟨h, by simpa [Event.invalidates] using hp⟩
  | sleep d => exact .inl ⟨h, rfl⟩

private theorem leave_step {s : Watched V} {c caller : Nat} {p : Path × Nat}
    (h : (s.cache.lookups.erase c)[caller]? = some p) :
    s.cache.lookups[caller]? = some p ∧
      (s.book.step (.leave c)).shares[caller]? = s.book.shares[caller]? := by
  have hc : c ≠ caller := by
    rintro rfl
    simp at h
  refine ⟨by simpa [Std.ExtTreeMap.getElem?_erase, hc] using h, ?_⟩
  have hother : ∀ d ∈ [(.leave c : Desk.Event Path V)], d.isOf caller = false := by
    simp [Desk.Event.isOf, hc]
  exact Desk.Watched.shares_after hother s.book

/-- Who waits after an event has waited before, for the same call, or has come to the desk just
now. -/
private theorem lookups_step {s : Watched V} {e : Event V} {caller : Nat} {folder : Path}
    {generation : Nat} (h : (s.step e).cache.lookups[caller]? = some (folder, generation)) :
    s.cache.lookups[caller]? = some (folder, generation) ∧
        (s.step e).book.shares[caller]? = s.book.shares[caller]? ∨
      s.deskEvent? e = some (.enter caller folder) ∧ generation = s.cache.generation := by
  cases e with
  | ask c f =>
    cases hf : s.cache.outcomes.find? s.now f with
    | some a =>
      rw [step_ask_of_hit hf] at h ⊢
      exact .inl ⟨h, rfl⟩
    | none =>
      rw [step_ask_of_miss hf] at h ⊢
      by_cases hc : c = caller
      · subst hc
        obtain ⟨rfl, rfl⟩ : f = folder ∧ s.cache.generation = generation := by simpa using h
        exact .inr ⟨by simp [deskEvent?, hf], rfl⟩
      · refine .inl ⟨by simpa [Std.ExtTreeMap.getElem?_insert, hc] using h, ?_⟩
        have hother : ∀ d ∈ [(.enter c f : Desk.Event Path V)], d.isOf caller = false := by
          simp [Desk.Event.isOf, hc]
        exact Desk.Watched.shares_after hother s.book
  | land ticket outcome => exact .inl ⟨h, rfl⟩
  | collect c =>
    cases ha : s.cache.desk.answer? c with
    | none =>
      rw [step_collect_of_none ha] at h ⊢
      exact .inl ⟨h, rfl⟩
    | some a =>
      rw [step_collect_of_some ha] at h ⊢
      refine .inl (leave_step ?_)
      simpa only [QuotaCache.leave, filed_frame] using h
  | leave c => exact .inl (leave_step h)
  | invalidateSubtree path => exact .inl ⟨h, rfl⟩
  | sleep d => exact .inl ⟨h, rfl⟩

/-- An event begins a new generation, or invalidates nothing. -/
private theorem generation_step (s : Watched V) (e : Event V) :
    (s.step e).cache.generation = s.cache.generation + 1 ∨
      (s.step e).cache.generation = s.cache.generation ∧
        ∀ folder, e.invalidates folder = false := by
  cases e with
  | ask caller folder =>
    refine .inr ⟨?_, fun _ => rfl⟩
    cases hf : s.cache.outcomes.find? s.now folder with
    | some a => rw [step_ask_of_hit hf]
    | none => rw [step_ask_of_miss hf]
  | land ticket outcome => exact .inr ⟨rfl, fun _ => rfl⟩
  | collect caller =>
    refine .inr ⟨?_, fun _ => rfl⟩
    cases ha : s.cache.desk.answer? caller with
    | none => rw [step_collect_of_none ha]
    | some a =>
      rw [step_collect_of_some ha]
      simp only [QuotaCache.leave, filed_frame]
  | leave caller => exact .inr ⟨rfl, fun _ => rfl⟩
  | invalidateSubtree path => exact .inl rfl
  | sleep d => exact .inr ⟨rfl, fun _ => rfl⟩

/-- No event changes how long entries live. -/
private theorem lifetime_step (s : Watched V) (e : Event V) :
    (s.step e).cache.outcomes.lifetime = s.cache.outcomes.lifetime := by
  cases e with
  | ask caller folder =>
    cases hf : s.cache.outcomes.find? s.now folder with
    | some a => rw [step_ask_of_hit hf]
    | none => rw [step_ask_of_miss hf]
  | collect caller =>
    cases ha : s.cache.desk.answer? caller with
    | none => rw [step_collect_of_none ha]
    | some a =>
      rw [step_collect_of_some ha]
      simp only [QuotaCache.leave, filed_frame]
  | land ticket outcome => rfl
  | leave caller => rfl
  | invalidateSubtree path => rfl
  | sleep d => rfl

/-! ### Runs -/

/-- A cache that nobody has used yet has kept nothing, and nobody waits. -/
private theorem sound_start {lifetime now : Nanoseconds} {c : QuotaCache V}
    (h : new? lifetime = some c) : Sound (start c now) [] := by
  obtain rfl := eq_of_new? h
  exact {
    book := Desk.Watched.sound_start
    desk := rfl
    origin := fun r hr => absurd hr List.not_mem_nil
    lookups := by simp [start, after]
    kept := by simp [start, after] }

/-- Who comes to the desk shares a call that is not evicted. -/
private theorem exists_call_of_enter {w : Desk.Watched Path V} (h : w.Sound) (caller : Nat)
    (folder : Path) :
    ∃ r ∈ (w.enter caller folder).calls,
      (w.enter caller folder).shares[caller]? = some (folder, r.ticket) ∧ r.key = folder ∧
        r.evicted = false := by
  obtain ⟨t, ht⟩ := Option.isSome_iff_exists.mp (Desk.Watched.isSome_board_enter w caller folder)
  obtain ⟨r, hr, hk, hs⟩ := ((h.enter caller folder).board folder t).mp ht
  obtain ⟨he, hid, -⟩ := (r.standing_eq_some_iff t).mp hs
  exact ⟨r, hr, by simp [Desk.Watched.shares_enter, ht, hid], hk, he⟩

private theorem Sound.book_snoc {s : Watched V} {es : List (Event V)} (h : Sound s es)
    (e : Event V) : (s.after (es ++ [e])).book.Sound := by
  rw [after_append, after_singleton]
  change ((s.after es).bookAfter e).Sound
  unfold bookAfter
  split
  · exact h.book.step _
  · exact h.book

private theorem Sound.lookups_snoc {s : Watched V} {es : List (Event V)} (h : Sound s es)
    (e : Event V) (caller : Nat) (folder : Path) (generation : Nat)
    (hl : ((s.after es).step e).cache.lookups[caller]? = some (folder, generation)) :
    generation ≤ ((s.after es).step e).cache.generation ∧
      ∃ r ∈ ((s.after es).step e).book.calls,
        ((s.after es).step e).book.shares[caller]? = some (folder, r.ticket) ∧ r.key = folder ∧
        (generation = ((s.after es).step e).cache.generation → r.evicted = false) := by
  rcases lookups_step hl with ⟨hl, hshares⟩ | ⟨hd, rfl⟩
  · obtain ⟨hle, r, hr, hs, hk, hev⟩ := h.lookups caller folder generation hl
    obtain ⟨r', hr', ht', hk', he', -⟩ := exists_call_step hr e
    rcases generation_step (s.after es) e with hg | ⟨hg, hinv⟩
    · rw [hg]
      refine ⟨by omega, r', hr', by rw [hshares, hs, ht'], hk'.trans hk, ?_⟩
      intro hcontra
      omega
    · rw [hg]
      refine ⟨hle, r', hr', by rw [hshares, hs, ht'], hk'.trans hk, ?_⟩
      intro hpresent
      simp [he', hev hpresent, hinv]
  · obtain ⟨rfl, hmiss⟩ := ask_of_deskEvent? hd
    obtain ⟨r, hr, hs, hk, he⟩ := exists_call_of_enter h.book caller folder
    rw [step_ask_of_miss hmiss]
    exact ⟨Nat.le_refl _, r, hr, hs, hk, fun _ => he⟩

private theorem Sound.kept_snoc {s : Watched V} {es : List (Event V)} (h : Sound s es)
    (e : Event V) (folder : Path) (moment : Nanoseconds) (answer : Answer V)
    (hentry : ((s.after es).step e).cache.outcomes.entries[folder]? = some (moment, answer)) :
    isKept answer = true ∧ Inserted s (es ++ [e]) folder moment answer ∧
      ∃ r ∈ ((s.after es).step e).book.calls, r.key = folder ∧ r.evicted = false ∧
        r.outcome.map Outcome.shared = some answer := by
  rcases entries_step hentry with ⟨hold, hinv⟩ | ⟨collector, rfl, ha, hl, hk, rfl⟩
  · obtain ⟨hk, hins, r, hr, rfl, he, ho⟩ := h.kept folder moment answer hold
    obtain ⟨o, hend, rfl⟩ := Option.map_eq_some_iff.mp ho
    obtain ⟨r', hr', -, hk', he', ho'⟩ := exists_call_step hr e
    exact ⟨hk, hins.snoc e, r', hr', hk', by simp [he', he, hinv], by simp [ho' o hend]⟩
  · obtain ⟨-, r, hr, hs, rfl, hev⟩ := h.lookups collector _ _ hl
    obtain ⟨r₁, hr₁, -, ht, hseat⟩ := h.book.shared collector _ _ hs
    obtain rfl := h.book.eq_of_ticket_eq hr₁ hr ht
    obtain ⟨r', hr', -, hk', he', ho'⟩ := exists_call_step hr (.collect collector)
    have ho : r₁.outcome.map Outcome.shared = some answer := by
      rw [h.desk] at ha
      simpa [Desk.answer?, hseat] using ha
    obtain ⟨o, hend, rfl⟩ := Option.map_eq_some_iff.mp ho
    refine ⟨hk, ⟨es, collector, [], rfl, rfl, ?_, ?_⟩, r', hr', hk', ?_, by simp [ho' o hend]⟩
    · simp [collect_eq, ha]
    · rw [after_append, after_singleton]
      exact hentry
    · simp [he', hev rfl, Event.invalidates]

/-- Nothing unsound comes into a cache by one more event. -/
theorem Sound.snoc {s : Watched V} {es : List (Event V)} (h : Sound s es) (e : Event V) :
    Sound s (es ++ [e]) where
  book := h.book_snoc e
  desk := by
    rw [after_append, after_singleton]
    exact desk_step h.desk e
  origin := fun _ => h.origin_snoc e
  lookups := by
    rw [after_append, after_singleton]
    exact h.lookups_snoc e
  kept := by
    rw [after_append, after_singleton]
    exact h.kept_snoc e

/-- Nor does any by a run that goes on. -/
theorem Sound.append {s : Watched V} {es : List (Event V)} (h : Sound s es)
    (es' : List (Event V)) : Sound s (es ++ es') := by
  induction es' generalizing es with
  | nil => simpa using h
  | cons e es' ih => simpa using ih (h.snoc e)

/-- After every run of a new cache, all that is kept is sound. -/
theorem sound_after {lifetime now : Nanoseconds} {c : QuotaCache V} (h : new? lifetime = some c)
    (es : List (Event V)) : Sound (start c now) es :=
  (sound_start h).append es

/-- The lifetime of entries is fixed. -/
private theorem lifetime_after (s : Watched V) (es : List (Event V)) :
    (s.after es).cache.outcomes.lifetime = s.cache.outcomes.lifetime := by
  induction es generalizing s with
  | nil => rfl
  | cons e es ih => exact (ih (s.step e)).trans (lifetime_step s e)

/-- Only what is kept and lives answers at once. -/
theorem entry_of_answered {c : QuotaCache V} {now : Nanoseconds} {caller : Nat} {folder : Path}
    {answer : Answer V} (h : (c.ask now caller folder).2 = .answered answer) :
    ∃ moment, c.outcomes.entries[folder]? = some (moment, answer) ∧
      now - moment < c.outcomes.lifetime := by
  cases hf : c.outcomes.find? now folder with
  | some outcome =>
    obtain rfl : outcome = answer := by simpa [ask, hf] using h
    obtain ⟨⟨moment, kept⟩, hentry, rfl⟩ := Option.map_eq_some_iff.mp hf
    obtain ⟨hentry, hlives⟩ := Option.filter_eq_some_iff.mp hentry
    exact ⟨moment, hentry, by simpa [TimedMap.lives] using hlives⟩
  | none => cases hb : c.desk.board[folder]? <;> simp [ask, hf, Desk.enter, hb] at h

/-- What is worth keeping is a value, or one of the two lasting failures. -/
theorem isKept_iff (answer : Answer V) : isKept answer = true ↔
    (∃ value, answer = .ok value) ∨ (∃ path, answer = .error (.notFound path)) ∨
      ∃ path, answer = .error (.quotaNotAvailable path) := by
  cases answer with
  | ok value => simp [isKept]
  | error f => cases f <;> simp [isKept, Failure.isLasting]

/-- A crash leaves nothing worth keeping. -/
private theorem eq_answer_of_isKept {outcome : Outcome V} (h : isKept outcome.shared = true) :
    outcome = .answer outcome.shared := by
  cases outcome with
  | answer a => rfl
  | crash => simp [Outcome.shared, isKept, Failure.isLasting, Failure.lostCall] at h

/-- **What is answered from memory is sound, in every run.** It is what a lookup of the same folder
brought, a value or a lasting failure; a caller has put it in less than a lifetime ago; and since
that lookup began, neither the folder nor anything above it has been invalidated. -/
theorem answered_from_memory {lifetime now : Nanoseconds} {c : QuotaCache V}
    (hnew : new? lifetime = some c) (es : List (Event V)) (caller : Nat) (folder : Path)
    (answer : Answer V)
    (hit : (((start c now).after es).cache.ask ((start c now).after es).now caller folder).2 =
      .answered answer) :
    (∃ before asker since ticket,
      es = before ++ .ask asker folder :: since ∧
      (((start c now).after before).cache.ask ((start c now).after before).now asker folder).2 =
        .opened ticket ∧
      Lands since ticket (.answer answer) ∧
      ∀ path, .invalidateSubtree path ∈ since → folder.startsWith path = false) ∧
    ((∃ value, answer = .ok value) ∨ (∃ path, answer = .error (.notFound path)) ∨
      ∃ path, answer = .error (.quotaNotAvailable path)) ∧
    ∃ moment, Inserted (start c now) es folder moment answer ∧
      moment ≤ ((start c now).after es).now ∧
      ((start c now).after es).now - moment < lifetime := by
  have h : Sound (start c now) es := sound_after hnew es
  obtain ⟨moment, hentry, hlives⟩ := entry_of_answered hit
  obtain ⟨hk, hins, r, hr, rfl, he, ho⟩ := h.kept folder moment answer hentry
  obtain ⟨o, hend, rfl⟩ := Option.map_eq_some_iff.mp ho
  obtain ⟨before, asker, since, hes, hopened, hquiet, -, hlands⟩ := h.origin r hr
  refine ⟨⟨before, asker, since, r.ticket, hes, hopened, ?_, ?_⟩, (isKept_iff _).mp hk,
    moment, hins, ?_, ?_⟩
  · exact eq_answer_of_isKept hk ▸ hlands o hend
  · intro path hpath
    exact hquiet he _ hpath
  · obtain ⟨early, collector, late, rfl, hnow, -⟩ := hins
    rw [after_append, ← hnow]
    exact now_le_now_after _ _
  · rw [lifetime_after] at hlives
    obtain rfl := eq_of_new? hnew
    exact hlives

/-- Two callers share a lookup under which another folder is invalidated; the second one has come
after that and puts the outcome in, which answers a third caller nine seconds later. -/
theorem answered_from_memory_third :
    let es : List (Event Nat) := [.ask 1 ⟨true, ["a"]⟩, .invalidateSubtree ⟨true, ["b"]⟩,
      .ask 2 ⟨true, ["a"]⟩, .land 1 (.value 5), .collect 1, .collect 2, .sleep (ofSeconds 9)]
    ∃ c, new? (ofSeconds 10) = some c ∧
      (((start c 0).after es).cache.ask ((start c 0).after es).now 3 ⟨true, ["a"]⟩).2 =
        .answered (.ok 5) ∧
      ∃ moment, Inserted (start c 0) es ⟨true, ["a"]⟩ moment (.ok 5) ∧
        ((start c 0).after es).now - moment < ofSeconds 10 := by
  intro es
  have hnew : new? (ofSeconds 10) = some (⟨⟨ofSeconds 10, ∅⟩, .empty, 0, ∅, .zero⟩ :
      QuotaCache Nat) := rfl
  have hit : (((start ⟨⟨ofSeconds 10, ∅⟩, .empty, 0, ∅, .zero⟩ 0).after es).cache.ask
      ((start ⟨⟨ofSeconds 10, ∅⟩, .empty, 0, ∅, .zero⟩ 0).after es).now 3 ⟨true, ["a"]⟩).2 =
        .answered (.ok 5) := by cbv
  obtain ⟨-, -, moment, hins, -, hlives⟩ := answered_from_memory hnew es 3 _ _ hit
  exact ⟨_, hnew, hit, moment, hins, hlives⟩

end Watched
end LayeredStore.QuotaCache
