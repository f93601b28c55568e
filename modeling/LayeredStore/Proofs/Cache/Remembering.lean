import LayeredStore.Cache.Metadata
import LayeredStore.Proofs.Since
import Mathlib.Data.List.Induction

/-!
# What a metadata cache remembers

A cache that is used alone, and the history of what it has been told. Main statement: whatever has
been told, a path is answered with what was last put in for it, if that was less than a lifetime ago
and the path has not been forgotten since, and with nothing otherwise; and the tally counts the
answers of both kinds since the cache was last cleared.
-/

namespace LayeredStore.MetadataSession

variable {s : MetadataSession} {e : Event} {events : List Event} {lifetime now : Nanoseconds}
  {p : Path} {a : Answer Item}

/-- What an event puts into the cache, and for which path. -/
def Event.insertion? : Event → Option (Path × Answer Item)
  | .command (.insertFound item) => some (item.path, .ok item)
  | .command (.insertMissing path f) => some (path, .error f)
  | .command _ | .sleep _ => none

/-- Whether an event makes the cache forget a path. -/
def Event.forgets (e : Event) (p : Path) : Bool :=
  match e with
  | .command (.invalidate path) => p = path
  | .command (.invalidateSubtree path) => p.startsWith path
  | .command .clear => true
  | .command _ | .sleep _ => false

/-- Whether an event ends what was put in for a path before: something else is put in for it, or it
is forgotten. -/
def Event.ends (e : Event) (p : Path) : Prop :=
  e.insertion?.map Prod.fst = some p ∨ e.forgets p = true

/-- The session after some events. -/
def after (s : MetadataSession) (events : List Event) : MetadataSession :=
  events.foldl (fun s e => (s.step e).1) s

/-- How a session answers to some events, one after the other. -/
def responses (s : MetadataSession) : List Event → List MetadataCache.Response
  | [] => []
  | e :: rest => (s.step e).2 :: (s.step e).1.responses rest

/-- How often a path was known and how often none was, among some answers. -/
def tallyOf (answers : List MetadataCache.Response) : Tally where
  hits := answers.countP fun r => match r with
    | .remembered found => found.isSome
    | _ => false
  misses := answers.countP fun r => match r with
    | .remembered found => found.isNone
    | _ => false

/-! ### One event -/

/-- No event changes how long entries live. -/
private theorem lifetime_step (s : MetadataSession) (e : Event) :
    (s.step e).1.cache.outcomes.lifetime = s.cache.outcomes.lifetime := by
  cases e with
  | sleep d => rfl
  | command c => cases c <;> rfl

/-- What is found after an event has just been put in, or was found before and has not ended. -/
theorem find?_step_iff (s : MetadataSession) (e : Event) :
    (s.step e).1.cache.outcomes.find? now p = some a ↔
      (e.insertion? = some (p, a) ∧ now - s.now < s.cache.outcomes.lifetime) ∨
        s.cache.outcomes.find? now p = some a ∧ ¬ e.ends p := by
  have hinsert (path : Path) (put : Answer Item) :
      (s.cache.outcomes.insert s.now path put).find? now p = some a ↔
        (some (path, put) = some (p, a) ∧ now - s.now < s.cache.outcomes.lifetime) ∨
          s.cache.outcomes.find? now p = some a ∧ ¬ path = p := by
    simp only [TimedMap.find?_insert, Std.LawfulEqCmp.compare_eq_iff_eq]
    by_cases hpath : path = p
    · by_cases hlives : now - s.now < s.cache.outcomes.lifetime <;>
        simp [TimedMap.lives, hpath, hlives]
    · simp [hpath]
  cases e with
  | sleep d => simp [step, Event.insertion?, Event.ends, Event.forgets]
  | command c =>
    cases c with
    | insertFound item =>
      refine (hinsert item.path (.ok item)).trans ?_
      simp [Event.insertion?, Event.ends, Event.forgets]
    | insertMissing path f =>
      refine (hinsert path (.error f)).trans ?_
      simp [Event.insertion?, Event.ends, Event.forgets]
    | invalidate path =>
      simp only [step, MetadataCache.run, MetadataCache.invalidate, TimedMap.find?_erase,
        Std.LawfulEqCmp.compare_eq_iff_eq]
      by_cases hpath : path = p <;>
        simp [Event.insertion?, Event.ends, Event.forgets, hpath, eq_comm (a := p)]
    | invalidateSubtree path =>
      simp only [step, MetadataCache.run, MetadataCache.invalidateSubtree,
        TimedMap.find?_eraseWhere]
      by_cases hpath : p.startsWith path = true <;>
        simp [Event.insertion?, Event.ends, Event.forgets, hpath]
    | clear =>
      simp [step, MetadataCache.run, MetadataCache.clear, TimedMap.find?_clear, Event.insertion?,
        Event.ends, Event.forgets]
    | _ => simp [step, MetadataCache.run, MetadataCache.get, Event.insertion?, Event.ends,
        Event.forgets]

/-- Of the answers only those about a path count. -/
private theorem tallyOf_concat (answers : List MetadataCache.Response)
    (r : MetadataCache.Response) : tallyOf (answers ++ [r]) = match r with
      | .remembered found => (tallyOf answers).count found.isSome
      | _ => tallyOf answers := by
  cases r with
  | remembered found => cases found <;> simp [tallyOf, Tally.count]
  | _ => simp [tallyOf]

/-- What is answered is counted, unless the cache is cleared. -/
theorem tally_step {answers : List MetadataCache.Response} (h : s.cache.tally = tallyOf answers)
    (hclear : e ≠ .command .clear) :
    (s.step e).1.cache.tally = tallyOf (answers ++ [(s.step e).2]) := by
  rw [tallyOf_concat, ← h]
  cases e with
  | sleep d => rfl
  | command c =>
    cases c with
    | clear => exact absurd rfl hclear
    | _ => rfl

/-! ### Runs -/

theorem after_concat (s : MetadataSession) (events : List Event) (e : Event) :
    s.after (events ++ [e]) = ((s.after events).step e).1 := by
  rw [after, List.foldl_append]
  rfl

private theorem responses_concat (s : MetadataSession) (events : List Event) (e : Event) :
    s.responses (events ++ [e]) = s.responses events ++ [((s.after events).step e).2] := by
  induction events generalizing s with
  | nil => rfl
  | cons first events ih => exact congrArg (List.cons _) (ih _)

private theorem lifetime_after (s : MetadataSession) (events : List Event) :
    (s.after events).cache.outcomes.lifetime = s.cache.outcomes.lifetime := by
  induction events using List.reverseRecOn with
  | nil => rfl
  | append_singleton events e ih => rw [after_concat, lifetime_step, ih]

/-- A session starts with an empty cache. -/
private theorem eq_of_start? (h : start? lifetime = some s) : s = ⟨⟨⟨lifetime, ∅⟩, .zero⟩, 0⟩ := by
  obtain ⟨cache, hcache, rfl⟩ := Option.map_eq_some_iff.mp h
  obtain ⟨outcomes, hnew, rfl⟩ := Option.map_eq_some_iff.mp hcache
  rw [TimedMap.new?] at hnew
  split at hnew
  · obtain rfl := Option.some.inj hnew
    rfl
  · cases hnew

/-- What is found at some moment after a run was put in less than a lifetime before, and nothing
that was told since has ended it. -/
theorem find?_after_iff (h : start? lifetime = some s) (events : List Event) :
    (s.after events).cache.outcomes.find? now p = some a ↔
      Since (fun before e => e.insertion? = some (p, a) ∧ now - (s.after before).now < lifetime)
        (fun _ e => e.ends p) events := by
  have hlifetime : s.cache.outcomes.lifetime = lifetime := by rw [eq_of_start? h]
  induction events using List.reverseRecOn with
  | nil =>
    have hnone : s.cache.outcomes.find? now p = none := by simp [eq_of_start? h, TimedMap.find?]
    simp [after, hnone, not_since_nil]
  | append_singleton events e ih =>
    rw [since_concat_iff, after_concat, find?_step_iff, lifetime_after, hlifetime]
    exact or_congr_right (and_congr_left' ih)

/-- The tally counts the answers since the cache was last cleared. -/
theorem exists_tally_after (h : start? lifetime = some s) (events : List Event) :
    ∃ before since, events = before ++ since ∧
      (before = [] ∨ ∃ earlier, before = earlier ++ [.command .clear]) ∧
      .command .clear ∉ since ∧
      (s.after events).cache.tally = tallyOf ((s.after before).responses since) := by
  induction events using List.reverseRecOn with
  | nil => exact ⟨[], [], rfl, .inl rfl, List.not_mem_nil, by rw [eq_of_start? h]; rfl⟩
  | append_singleton events e ih =>
    by_cases hclear : e = .command .clear
    · subst hclear
      exact ⟨events ++ [.command .clear], [], by simp, .inr ⟨events, rfl⟩, List.not_mem_nil,
        by rw [after_concat]; rfl⟩
    · obtain ⟨before, since, rfl, hbefore, hsince, htally⟩ := ih
      refine ⟨before, since ++ [e], by simp, hbefore, ?_, ?_⟩
      · simp [hsince, Ne.symm hclear]
      · rw [after_concat, responses_concat, tally_step htally hclear]
        simp [after]

/-- In every session, a path is answered with what was last put in for it, if that was less than a
lifetime ago and the path has not been forgotten since, and otherwise with nothing; and the tally
that is shown counts both kinds of answers since the cache was last cleared. -/
theorem answers_follow_history (h : start? lifetime = some s) (events : List Event) :
    (∀ p, ∃ found, ((s.after events).step (.command (.get p))).2 = .remembered found ∧
      ∀ a, found = some a ↔
        Since (fun before e => e.insertion? = some (p, a) ∧
            (s.after events).now - (s.after before).now < lifetime)
          (fun _ e => e.ends p) events) ∧
    ∃ before since, events = before ++ since ∧
      (before = [] ∨ ∃ earlier, before = earlier ++ [.command .clear]) ∧
      .command .clear ∉ since ∧
      ((s.after events).step (.command .stats)).2 =
        .stats (tallyOf ((s.after before).responses since)) := by
  constructor
  · intro p
    exact ⟨_, rfl, fun a => find?_after_iff h events⟩
  · obtain ⟨before, since, hsplit, hbefore, hsince, htally⟩ := exists_tally_after h events
    exact ⟨before, since, hsplit, hbefore, hsince, congrArg MetadataCache.Response.stats htally⟩

/-- A session in which entries live for ten seconds. -/
def tenSeconds : MetadataSession := ⟨⟨⟨ofSeconds 10, ∅⟩, .zero⟩, 0⟩

/-- Folders at `/dir/a` and `/dirt` are put in; four seconds later one is asked for, and `/dir` is
forgotten with all below it. -/
def pruned : List Event :=
  [.command (.insertFound (.folder ⟨true, ["dir", "a"]⟩)),
    .command (.insertFound (.folder ⟨true, ["dirt"]⟩)), .sleep (ofSeconds 4),
    .command (.get ⟨true, ["dirt"]⟩), .command (.invalidateSubtree ⟨true, ["dir"]⟩)]

/-- What was put in for `/dirt` is answered, for it is not below `/dir`; for `/dir/a` there is
nothing left. -/
theorem answers_follow_history_pruned :
    let s := tenSeconds.after pruned
    let lasts (p : Path) (a : Answer Item) :=
      Since (fun before e => e.insertion? = some (p, a) ∧
          s.now - (tenSeconds.after before).now < ofSeconds 10) (fun _ e => e.ends p) pruned
    start? (ofSeconds 10) = some tenSeconds ∧
      lasts ⟨true, ["dirt"]⟩ (.ok (.folder ⟨true, ["dirt"]⟩)) ∧
      ∀ a, ¬ lasts ⟨true, ["dir", "a"]⟩ a := by
  intro s lasts
  have hstart : start? (ofSeconds 10) = some tenSeconds := rfl
  obtain ⟨hget, -⟩ := answers_follow_history hstart pruned
  obtain ⟨kept, hkept, hlasts⟩ := hget ⟨true, ["dirt"]⟩
  obtain ⟨lost, hlost, hgone⟩ := hget ⟨true, ["dir", "a"]⟩
  have hdirt : s.cache.outcomes.find? s.now ⟨true, ["dirt"]⟩ =
      some (.ok (.folder ⟨true, ["dirt"]⟩)) := by decide +kernel
  have hdir : s.cache.outcomes.find? s.now ⟨true, ["dir", "a"]⟩ = none := by decide +kernel
  refine ⟨hstart, (hlasts _).mp ?_, fun a ha => ?_⟩
  · exact (MetadataCache.Response.remembered.inj hkept).symm.trans hdirt
  · cases ((hgone a).mpr ha).symm.trans
      ((MetadataCache.Response.remembered.inj hlost).symm.trans hdir)

end LayeredStore.MetadataSession
