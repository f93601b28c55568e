import LayeredStore.Proofs.Traffic.Caching

/-!
# Lookups through a metadata cache

A lookup that the cache cannot answer goes to the provider, and its outcome is remembered on the
way back: a failure under the path that was looked up, an item under its own path, which the
provider may have chosen freely. Main statement: a lookup settles what is known of its path, and of
no other, unless it is answered with an item that has another path; what is known of that other path
is then overwritten, and of its own path nothing is known as before.
-/

namespace LayeredStore

namespace TimedMap

variable {K V : Type} [Ord K] [Std.TransOrd K] {m : TimedMap K V} {now later : Nanoseconds}
  {key : K}

/-- What is not found is not found later, if nothing is inserted. -/
private theorem find?_eq_none_of_le (h : m.find? now key = none) (hle : now ≤ later) :
    m.find? later key = none := by
  simp only [find?, Option.map_eq_none_iff, Option.filter_eq_none_iff] at h ⊢
  intro entry hentry
  have hdead := h entry hentry
  simp only [lives, decide_eq_true_eq, Nat.not_lt] at hdead ⊢
  exact hdead.trans (Nat.sub_le_sub_right hle entry.1)

end TimedMap

/-! ### What a lookup leaves -/

namespace MetadataCache

/-- The path that the answer to a lookup of a path says something of. -/
def subject (path : Path) : Answer Item → Path
  | .ok item => item.path
  | .error _ => path

/-- The answer to a lookup is of its own path unless it is an item with another one. -/
theorem subject_eq_iff {path : Path} {answer : Answer Item} :
    subject path answer = path ↔ ∀ item, answer = .ok item → item.path = path := by
  cases answer <;> simp [subject]

/-- Whether the answer to a lookup is kept: an item is, and of the failures an absence. -/
def keeps : Answer Item → Bool
  | .ok _ => true
  | .error f => f.isNotFound

/-- What is found after a lookup: its answer at the subject of the answer, if that is kept, and what
was there before at all other paths. -/
theorem find?_remember (c : MetadataCache) (since now : Nanoseconds) (path other : Path)
    (answer : Answer Item) :
    (c.remember since path (answer.map Reply.item)).outcomes.find? now other =
      if subject path answer = other then
        if keeps answer && c.outcomes.lives now since then some answer else none
      else c.outcomes.find? now other := by
  cases answer with
  | ok item =>
    have hfound := c.outcomes.find?_insert since now item.path other (.ok item)
    simpa [subject, keeps, remember, insertFound, Except.map] using hfound
  | error f =>
    cases hf : f.isNotFound with
    | true =>
      have hmissing := c.outcomes.find?_insert since now path other (.error f)
      simpa [subject, keeps, hf, remember, insertMissing, Except.map] using hmissing
    | false =>
      have herased := c.outcomes.find?_erase now path other
      simpa [subject, keeps, hf, remember, invalidate, Except.map] using herased

/-- A kept answer is found at its subject for a lifetime. -/
private theorem find?_remember_subject (c : MetadataCache) (since : Nanoseconds) (path : Path)
    {answer : Answer Item} (hkeeps : keeps answer = true) {d : Nanoseconds}
    (hd : d < c.outcomes.lifetime) :
    (c.remember since path (answer.map Reply.item)).outcomes.find? (since + d)
      (subject path answer) = some answer := by
  have hlives : c.outcomes.lives (since + d) since = true := by simpa [TimedMap.lives] using hd
  rw [find?_remember, if_pos rfl, hkeeps, hlives]
  rfl

end MetadataCache

namespace Traffic

variable {t : Traffic} {c : MetadataCache} {id : Nat} {path : Path}

/-- A caller looks a path up, and the task runs at once. -/
def lookUp (t : Traffic) (path : Path) : Traffic × Effect :=
  let (id, issued) := t.issue (.metadata path)
  issued.poll id

/-- The provider answers the lookup of a task, and the task runs on at once. -/
def answerLookup (t : Traffic) (id : Nat) (answer : Answer Item) : Traffic × Effect :=
  (t.respond id (.answer (answer.map Reply.item))).poll id

/-- What the cache knows of a path is what a lookup is answered with. -/
private theorem lookUp_of_find?_eq_some (hl : t.layers = [.metadata c]) {answer : Answer Item}
    (h : c.outcomes.find? t.now path = some answer) :
    (t.lookUp path).2 = .report (.answer (answer.map Reply.item)) := by
  simp [lookUp, issue, poll, enter, Task.entry, hl, descend, Layer.receive, MetadataCache.receive,
    MetadataCache.get, h, finish]

/-- A lookup of a path of which the cache knows nothing calls the provider. -/
theorem lookUp_of_find?_eq_none (hl : t.layers = [.metadata c])
    (h : c.outcomes.find? t.now path = none) : (t.lookUp path).2 = .call (.metadata path) ∧
      (t.lookUp path).1.tasks[t.next]? = some ⟨.caller, .metadata path, .calling⟩ ∧
      (t.lookUp path).1.now = t.now ∧
      (t.lookUp path).1.layers = [.metadata (c.get t.now path).2] := by
  simp [lookUp, issue, poll, enter, Task.entry, hl, descend, Layer.receive, MetadataCache.receive,
    MetadataCache.get, h, advance]

/-- A lookup that is answered reports the answer, and the cache remembers it. -/
theorem answerLookup_eq (hl : t.layers = [.metadata c])
    (htask : t.tasks[id]? = some ⟨.caller, .metadata path, .calling⟩) (answer : Answer Item) :
    (t.answerLookup id answer).2 = .report (.answer (answer.map Reply.item)) ∧
      (t.answerLookup id answer).1.now = t.now ∧
      (t.answerLookup id answer).1.layers =
        [.metadata (c.remember t.now path (answer.map Reply.item))] := by
  rw [answerLookup, poll_respond hl htask]
  exact ⟨rfl, rfl, rfl⟩

/-- Whether a lookup has settled what is known of its path, and nothing else: an item or an absence
is what the next lookup is answered with, without a call of the provider, after any other failure
nothing is kept, and all other paths are answered as before. -/
structure Settles (told : Traffic) (c c' : MetadataCache) (path : Path) (answer : Answer Item) :
    Prop where
  again : MetadataCache.keeps answer = true → ∀ d < c.outcomes.lifetime,
    ((told.tick d).lookUp path).2 = .report (.answer (answer.map Reply.item))
  forgotten : MetadataCache.keeps answer = false → c'.outcomes.entries[path]? = none
  others : ∀ other ≠ path, ∀ now, (c'.get now other).1 = (c.get now other).1

/-- An answer settles the path that was looked up if it is of that path. -/
private theorem settles_of_subject_eq (hl : t.layers = [.metadata c])
    (htask : t.tasks[id]? = some ⟨.caller, .metadata path, .calling⟩) {answer : Answer Item}
    (hown : MetadataCache.subject path answer = path) :
    (t.answerLookup id answer).1.Settles c
      (c.remember t.now path (answer.map Reply.item)) path answer := by
  obtain ⟨-, hnow, hlayers⟩ := answerLookup_eq hl htask answer
  refine ⟨?again, ?forgotten, ?others⟩
  case again =>
    intro hkeeps d hd
    have hlater : ((t.answerLookup id answer).1.tick d).layers =
        [.metadata (c.remember t.now path (answer.map Reply.item))] := hlayers
    have hmoment : ((t.answerLookup id answer).1.tick d).now = t.now + d :=
      congrArg (· + d) hnow
    have hfound := c.find?_remember_subject t.now path hkeeps hd
    rw [hown, ← hmoment] at hfound
    exact lookUp_of_find?_eq_some hlater hfound
  case forgotten =>
    intro hkeeps
    cases answer with
    | ok item => cases hkeeps
    | error f =>
      have hf : ¬ f.isNotFound = true := by simpa [MetadataCache.keeps] using hkeeps
      simp [MetadataCache.remember, Except.map, hf, MetadataCache.invalidate, TimedMap.erase]
  case others =>
    intro other hne now
    exact (c.find?_remember t.now now path other answer).trans (if_neg (hown.trans_ne hne.symm))

/-- An answer that is not of the path that was looked up leaves the next lookup to the provider, if
nothing was known of the path. -/
theorem lookUp_of_subject_ne (hl : t.layers = [.metadata c])
    (htask : t.tasks[id]? = some ⟨.caller, .metadata path, .calling⟩)
    (hmiss : c.outcomes.find? t.now path = none) (answer : Answer Item)
    (hne : MetadataCache.subject path answer ≠ path) (d : Nanoseconds) :
    (((t.answerLookup id answer).1.tick d).lookUp path).2 = .call (.metadata path) := by
  obtain ⟨-, hnow, hlayers⟩ := answerLookup_eq hl htask answer
  have hlater : ((t.answerLookup id answer).1.tick d).layers =
      [.metadata (c.remember t.now path (answer.map Reply.item))] := hlayers
  have hmoment : t.now ≤ ((t.answerLookup id answer).1.tick d).now :=
    hnow.symm.le.trans (Nat.le_add_right _ d)
  refine (lookUp_of_find?_eq_none hlater ?_).1
  rw [c.find?_remember, if_neg hne]
  exact TimedMap.find?_eq_none_of_le hmiss hmoment

/-- **Lookups settle their path.** A lookup that the provider answers settles its path and no other
one, unless it is answered with an item that has another path. After such an item nothing is known
of the path if nothing was known before, so that the next lookup calls the provider again; and the
item is found at its own path instead. -/
theorem lookups_settle_unless_path_differs (hl : t.layers = [.metadata c])
    (htask : t.tasks[id]? = some ⟨.caller, .metadata path, .calling⟩) (answer : Answer Item) :
    let told := t.answerLookup id answer
    told.2 = .report (.answer (answer.map Reply.item)) ∧
      ∃ c', told.1.layers = [.metadata c'] ∧
        ((∀ item, answer = .ok item → item.path = path) → told.1.Settles c c' path answer) ∧
        (c.outcomes.find? t.now path = none → ∀ item, answer = .ok item → item.path ≠ path →
          (∀ d, ((told.1.tick d).lookUp path).2 = .call (.metadata path)) ∧
          ∀ d < c.outcomes.lifetime, (c'.get (t.now + d) item.path).1 = some (.ok item) ∧
            ¬ told.1.Settles c c' path answer) := by
  intro told
  obtain ⟨hreport, hnow, hlayers⟩ := answerLookup_eq hl htask answer
  refine ⟨hreport, _, hlayers, ?_, ?_⟩
  · rw [← MetadataCache.subject_eq_iff]
    exact settles_of_subject_eq hl htask
  · rintro hmiss item rfl hne
    have hcalls := lookUp_of_subject_ne hl htask hmiss (.ok item) hne
    refine ⟨hcalls, fun d hd => ⟨c.find?_remember_subject t.now path rfl hd, fun hsettles => ?_⟩⟩
    have hreported := hsettles.again rfl d hd
    rw [hcalls d] at hreported
    cases hreported

/-- An absence settles: nine seconds later it is what a lookup is answered with. -/
theorem lookups_settle_unless_path_differs_missing :
    let a : Path := ⟨true, ["a"]⟩
    let c : MetadataCache := ⟨⟨ofSeconds 10, ∅⟩, .zero⟩
    let t := ((start [.metadata c] 0).lookUp a).1
    let told := t.answerLookup 0 (.error (.notFound a))
    t.layers = [.metadata (c.get 0 a).2] ∧
      t.tasks[0]? = some ⟨.caller, .metadata a, .calling⟩ ∧
      told.2 = .report (.failure (.notFound a)) ∧
      ((told.1.tick (ofSeconds 9)).lookUp a).2 = .report (.failure (.notFound a)) := by
  intro a c t told
  have hnew : c.outcomes.find? 0 a = none := by simp [c, TimedMap.find?]
  obtain ⟨-, htask, -, hl⟩ := lookUp_of_find?_eq_none (t := start [.metadata c] 0) rfl hnew
  obtain ⟨hreport, c', -, hsettles, -⟩ :=
    lookups_settle_unless_path_differs hl htask (.error (.notFound a))
  have hown : ∀ item, (.error (.notFound a) : Answer Item) = .ok item → item.path = a := by
    intro item h
    cases h
  exact ⟨hl, htask, hreport, (hsettles hown).again rfl (ofSeconds 9) (by decide)⟩

/-- It is not so that every lookup of a path of which nothing is known settles that path: the answer
may be an item with another path. -/
theorem not_lookups_settle : ¬ ∀ (t : Traffic) (c : MetadataCache) (id : Nat) (path : Path)
    (answer : Answer Item), t.layers = [.metadata c] →
      t.tasks[id]? = some ⟨.caller, .metadata path, .calling⟩ →
      c.outcomes.find? t.now path = none → ∃ c',
        (t.answerLookup id answer).1.layers = [.metadata c'] ∧
          (t.answerLookup id answer).1.Settles c c' path answer := by
  intro h
  let a : Path := ⟨true, ["a"]⟩
  let b : Item := .folder ⟨true, ["b"]⟩
  let c : MetadataCache := ⟨⟨ofSeconds 10, ∅⟩, .zero⟩
  have hnew : c.outcomes.find? 0 a = none := by simp [c, TimedMap.find?]
  obtain ⟨-, htask, hnow, hl⟩ := lookUp_of_find?_eq_none (t := start [.metadata c] 0) rfl hnew
  have hmiss : (c.get 0 a).2.outcomes.find? ((start [.metadata c] 0).lookUp a).1.now a = none := by
    rw [hnow]
    exact hnew
  obtain ⟨c', -, hsettles⟩ := h _ _ _ _ (.ok b) hl htask hmiss
  have hreported := hsettles.again rfl 0 (by decide)
  rw [lookUp_of_subject_ne hl htask hmiss (.ok b) (by decide) 0] at hreported
  cases hreported

end Traffic
end LayeredStore
