import LayeredStore.Proofs.Layer.Agreement
import LayeredStore.Proofs.Layer.Counter
import LayeredStore.Proofs.Traffic.Record

/-!
# What a metadata cache recalls after a change

A metadata cache remembers what comes back through it, and nothing tells it that a lookup which
comes back has been overtaken by a change. Main statement: what is recalled of a path after a
change there is what a lookup or a listing has brought that took effect after the change, or that
was under way when the change came back.
-/

namespace LayeredStore

/-- What the answer to a request says of a path, as far as a cache remembers it. -/
def Request.Teaches (r : Request) (reply : Answer Reply) (path : Path) (answer : Answer Item) :
    Prop :=
  match r, reply with
  | .metadata _, .ok (.item item) => item.path = path ∧ answer = .ok item
  | .metadata asked, .error f => asked = path ∧ f.isNotFound = true ∧ answer = .error f
  | .list .., .ok (.listing l) => ∃ item ∈ l.items, item.path = path ∧ answer = .ok item
  | _, _ => False

namespace MetadataCache

variable {c : MetadataCache} {now moment : Nanoseconds} {path : Path} {answer : Answer Item}

/-- What is kept after an insertion was kept before or has been inserted. -/
private theorem entries_insert {key : Path} {value : Answer Item}
    (h : (c.outcomes.insert now key value).entries[path]? = some (moment, answer)) :
    c.outcomes.entries[path]? = some (moment, answer) ∨ key = path ∧ answer = value := by
  by_cases hp : key = path
  · subst hp
    obtain ⟨-, rfl⟩ : now = moment ∧ value = answer := by simpa [TimedMap.insert] using h
    exact .inr ⟨rfl, rfl⟩
  · exact .inl (by simpa [TimedMap.insert, Std.ExtTreeMap.getElem?_insert, hp] using h)

/-- What is kept after a lookup has come back was kept before or is what the lookup teaches. -/
private theorem entries_remember {asked : Path} {reply : Answer Reply}
    (h : (c.remember now asked reply).outcomes.entries[path]? = some (moment, answer)) :
    c.outcomes.entries[path]? = some (moment, answer) ∨
      (Request.metadata asked).Teaches reply path answer := by
  cases reply with
  | error f =>
    simp only [remember] at h
    split at h
    · next hf =>
      rcases entries_insert h with h | ⟨rfl, rfl⟩
      · exact .inl h
      · exact .inr ⟨rfl, hf, rfl⟩
    · by_cases hp : asked = path
      · subst hp
        simp [invalidate, TimedMap.erase] at h
      · refine .inl ?_
        simpa [invalidate, TimedMap.erase, Std.ExtTreeMap.getElem?_erase, hp] using h
  | ok reply =>
    cases reply with
    | item item =>
      rcases entries_insert h with h | ⟨rfl, rfl⟩
      · exact .inl h
      · exact .inr ⟨rfl, rfl⟩
    | _ => exact .inl h

/-- What is kept after a listing has come back was kept before or is what the listing teaches. -/
private theorem entries_rememberAll {folder : Path} {token : Option String} {reply : Answer Reply}
    (h : (c.rememberAll now reply).outcomes.entries[path]? = some (moment, answer)) :
    c.outcomes.entries[path]? = some (moment, answer) ∨
      (Request.list folder token).Teaches reply path answer := by
  have hitems (items : List Item) (d : MetadataCache)
      (h : (items.foldl (fun d item => d.insertFound now item) d).outcomes.entries[path]? =
        some (moment, answer)) :
      d.outcomes.entries[path]? = some (moment, answer) ∨
        ∃ item ∈ items, item.path = path ∧ answer = .ok item := by
    induction items generalizing d with
    | nil => exact .inl h
    | cons item items ih =>
      rcases ih (d.insertFound now item) h with h | ⟨other, hmem, hother⟩
      · rcases entries_insert h with h | ⟨rfl, rfl⟩
        · exact .inl h
        · exact .inr ⟨item, List.mem_cons_self, rfl, rfl⟩
      · exact .inr ⟨other, List.mem_cons_of_mem _ hmem, hother⟩
  cases reply with
  | error f => exact .inl h
  | ok reply =>
    cases reply with
    | listing l => exact hitems l.items c h
    | _ => exact .inl h

/-- Nothing new is kept when what a request may change is forgotten. -/
private theorem entries_of_forget {r : Request}
    (h : (c.forget r).outcomes.entries[path]? = some (moment, answer)) :
    c.outcomes.entries[path]? = some (moment, answer) := by
  rw [entries_forget] at h
  split at h
  · simp at h
  · exact h

/-- Nothing new is kept when a request arrives. -/
private theorem entries_receive {r : Request}
    (h : (c.receive now r).1.outcomes.entries[path]? = some (moment, answer)) :
    c.outcomes.entries[path]? = some (moment, answer) := by
  cases r with
  | metadata asked => exact h
  | _ => exact entries_of_forget h

/-- What is kept when a request comes back was kept before or is what the request teaches. -/
theorem entries_returned {r : Request} {reply : Answer Reply}
    (h : (c.returned now r reply).outcomes.entries[path]? = some (moment, answer)) :
    c.outcomes.entries[path]? = some (moment, answer) ∨ r.Teaches reply path answer := by
  cases r with
  | metadata asked => exact entries_remember h
  | list folder token => exact entries_rememberAll h
  | _ => exact .inl (entries_of_forget h)

end MetadataCache

namespace Traffic.Watched

variable {w : Watched} {c : MetadataCache} {path : Path} {moment : Nanoseconds}
  {answer : Answer Item}

/-- A request that can come back with its answer teaches this of a path. -/
def IsTaught (w : Watched) (path : Path) (answer : Answer Item) : Prop :=
  ∃ (id : Nat) (r : Request) (reply : Answer Reply),
    w.traffic.tasks[id]? = some ⟨.caller, r, .responded (.answer reply)⟩ ∧
      r.Teaches reply path answer

/-- The run of a task keeps nothing in the cache but what its request teaches when it comes
back. -/
private theorem Sound.exists_cache_run (h : w.Sound) (hl : w.traffic.layers = [.metadata c])
    (id : Nat) : ∃ c', (w.step (.run id)).traffic.layers = [.metadata c'] ∧
      ∀ path moment answer, c'.outcomes.entries[path]? = some (moment, answer) →
        c.outcomes.entries[path]? = some (moment, answer) ∨ w.IsTaught path answer := by
  have hturn := h.turn hl id
  have hstep : (w.step (.run id)).traffic = (w.traffic.poll id).1 := rfl
  have hreceive {r : Request} {l : Layer} {admission : Option (Admission Reply)}
      (hr : (Layer.metadata c).receive w.traffic.now id r = (l, admission)) :
      l = .metadata (c.receive w.traffic.now r).1 ∧
        admission = (c.receive w.traffic.now r).2.map .answered := by
    obtain ⟨rfl, rfl⟩ := Prod.mk.inj hr
    exact ⟨rfl, rfl⟩
  rw [hstep]
  generalize w.traffic.poll id = run at hturn ⊢
  cases hturn with
  | idle hwait => exact ⟨c, hl, fun _ _ _ he => .inl he⟩
  | answered htask hr =>
    obtain ⟨rfl, -⟩ := hreceive hr
    exact ⟨_, rfl, fun _ _ _ he => .inl (MetadataCache.entries_receive he)⟩
  | passed htask hr =>
    obtain ⟨rfl, -⟩ := hreceive hr
    exact ⟨_, rfl, fun _ _ _ he => .inl (MetadataCache.entries_receive he)⟩
  | @joined r l' htask hr =>
    have hnot := (hreceive hr).2
    cases ha : (c.receive w.traffic.now r).2 <;> simp [ha] at hnot
  | @opened r l' ticket htask hr =>
    have hnot := (hreceive hr).2
    cases ha : (c.receive w.traffic.now r).2 <;> simp [ha] at hnot
  | called htask => exact ⟨c, hl, fun _ _ _ he => .inl he⟩
  | left htask hcollect => simp [Layer.collect] at hcollect
  | @returned r reply htask =>
    refine ⟨_, rfl, fun path moment answer he => ?_⟩
    rcases MetadataCache.entries_returned he with he | hteaches
    · exact .inl he
    · exact .inr ⟨id, r, reply, htask, hteaches⟩
  | crashed htask => exact ⟨c, hl, fun _ _ _ he => .inl he⟩
  | landed htask => exact ⟨c, rfl, fun _ _ _ he => .inl he⟩

/-- An event keeps nothing in the cache but what a request teaches that comes back in it. -/
theorem Sound.exists_cache_step (h : w.Sound) (hl : w.traffic.layers = [.metadata c])
    (e : Event) :
    ∃ c', (w.step e).traffic.layers = [.metadata c'] ∧
      ∀ path moment answer, c'.outcomes.entries[path]? = some (moment, answer) →
        c.outcomes.entries[path]? = some (moment, answer) ∨ w.IsTaught path answer := by
  have hsame {layers : List Layer} (hlayers : layers = w.traffic.layers) :
      ∃ c', layers = [.metadata c'] ∧
        ∀ path moment answer, c'.outcomes.entries[path]? = some (moment, answer) →
          c.outcomes.entries[path]? = some (moment, answer) ∨ w.IsTaught path answer :=
    ⟨c, hlayers.trans hl, fun _ _ _ he => .inl he⟩
  cases e with
  | issue r => exact hsame rfl
  | effect id outcome => exact hsame rfl
  | tick d => exact hsame rfl
  | run id => exact h.exists_cache_run hl id
  | respond id =>
    simp only [Watched.step]
    split
    · simp only [Traffic.respond]
      split
      · split
        · exact hsame rfl
        · exact hsame rfl
      · exact hsame rfl
    · exact hsame rfl
  | abort id =>
    simp only [Watched.step, Traffic.abort]
    split
    · next task htask =>
      split
      · next layer _ _ =>
        refine hsame ?_
        cases layer with
        | zero => simp [Traffic.modifyLayer, hl, Layer.leave]
        | succ layer => simp [Traffic.modifyLayer, hl]
      · exact hsame rfl
      · exact hsame rfl
    · exact hsame rfl

/-! ### What is kept after a change -/

/-- A task is under way that has called the provider. -/
def IsCalling (w : Watched) (id : Nat) : Prop :=
  (∃ task, w.traffic.tasks[id]? = some task) ∧ ∃ call, w.calls[id]? = some call

/-- What is kept of a path now was brought by calls of the provider that have been made since an
earlier moment or were under way then. -/
def Remembers (earlier w : Watched) (c : MetadataCache) (path : Path) : Prop :=
  ∀ (moment : Nanoseconds) (answer : Answer Item),
    c.outcomes.entries[path]? = some (moment, answer) →
      ∃ (n : Nat) (call : CallRecord) (reply : Answer Reply), w.calls[n]? = some call ∧
        call.Brought (.answer reply) ∧ call.request.Teaches reply path answer ∧
        (earlier.moment ≤ call.made ∨ earlier.IsCalling n)

/-- What a task brings back was made since an earlier moment or was under way then. -/
private theorem Sound.moment_le_or_isCalling {earlier : Watched} (h : earlier.Sound)
    {es : List Event} {id : Nat} {task : Task}
    (htask : (earlier.after es).traffic.tasks[id]? = some task) {call : CallRecord}
    (hcall : (earlier.after es).calls[id]? = some call) :
    earlier.moment ≤ call.made ∨ earlier.IsCalling id := by
  rcases h.calls_after hcall with ⟨first, hfirst, -⟩ | hmade
  · rcases (h.follows_after es).tasks id task htask with ⟨task₀, htask₀, -⟩ | hnext
    · exact .inr ⟨⟨task₀, htask₀⟩, first, hfirst⟩
    · exact absurd (h.calls id first hfirst).1 (Nat.not_lt_of_le hnext)
  · exact .inl hmade

/-- What is kept goes on to be so in every event. -/
theorem Remembers.step {earlier : Watched} (hearlier : earlier.Sound) {es : List Event}
    (h : Remembers earlier (earlier.after es) c path)
    (hl : (earlier.after es).traffic.layers = [.metadata c]) (e : Event) :
    ∃ c', ((earlier.after es).step e).traffic.layers = [.metadata c'] ∧
      Remembers earlier ((earlier.after es).step e) c' path := by
  have hs := hearlier.after es
  obtain ⟨c', hl', hentries⟩ := hs.exists_cache_step hl e
  refine ⟨c', hl', fun moment answer he => ?_⟩
  rcases hentries path moment answer he with he | ⟨id, r, reply, htask, hteaches⟩
  · obtain ⟨n, call, reply, hcall, hb, hteaches, hsince⟩ := h moment answer he
    obtain ⟨later, hlater, -, hrequest, hmade, hb'⟩ := hs.brought_step e hcall hb
    exact ⟨n, later, reply, hlater, hb', hrequest ▸ hteaches, hmade ▸ hsince⟩
  · obtain ⟨call, hcall, -, hrequest, hb⟩ := (hs.tasks id _ htask).2
    obtain ⟨later, hlater, -, hrequest', hmade, hb'⟩ := hs.brought_step e hcall hb
    obtain rfl : call.request = r := hrequest
    refine ⟨id, later, reply, hlater, hb', hrequest' ▸ hteaches, ?_⟩
    rw [hmade]
    exact hearlier.moment_le_or_isCalling htask hcall

/-- What is kept goes on to be so in every run. -/
theorem Remembers.after {w : Watched} (hs : w.Sound) (hl : w.traffic.layers = [.metadata c])
    (h : Remembers w w c path) (es : List Event) :
    ∃ c', (w.after es).traffic.layers = [.metadata c'] ∧ Remembers w (w.after es) c' path := by
  induction es using List.reverseRecOn with
  | nil => exact ⟨c, hl, h⟩
  | append_singleton es e ih =>
    obtain ⟨c', hl', h'⟩ := ih
    rw [after_append]
    exact h'.step hs hl' e

/-- There is a cache in every run of traffic through one. -/
private theorem exists_cache (c : MetadataCache) (now : Nanoseconds) (es : List Event) :
    ∃ c', ((start (.metadata c) now).after es).traffic.layers = [.metadata c'] := by
  induction es using List.reverseRecOn with
  | nil => exact ⟨c, rfl⟩
  | append_singleton es e ih =>
    obtain ⟨c', hl⟩ := ih
    obtain ⟨c'', hl', -⟩ := (sound_after_start _ _ es).exists_cache_step hl e
    rw [after_append]
    exact ⟨c'', hl'⟩

/-- A caller that is told the answer of a request which may change something has its call behind
it, and the cache forgets what the request may change. -/
private theorem Sound.forgets_of_reports (h : w.Sound) (hl : w.traffic.layers = [.metadata c])
    {r : Request} (hr : r.isMutation = true) {id : Nat} {a : Answer Reply}
    (hreports : w.Reports id r (.answer a)) :
    w.traffic.tasks[id]? = some ⟨.caller, r, .responded (.answer a)⟩ ∧
      (w.step (.run id)).traffic.layers = [.metadata (c.forget r)] := by
  have htold := h.told hl hreports
  generalize (w.step (.run id)).traffic = t at htold ⊢
  cases htold with
  | answered htask hreceive =>
    have hnot := (Prod.mk.inj hreceive).2
    cases r <;> simp [Request.isMutation] at hr hnot
  | left htask hcollect => simp [Layer.collect] at hcollect
  | returned htask =>
    refine ⟨htask, ?_⟩
    cases r <;> first | rfl | simp [Request.isMutation] at hr

/-- A lookup that has not been taken to the cache yet is answered there in one go. -/
def AnswersFromMemory (w : Watched) (id : Nat) (path : Path) (answer : Answer Item) : Prop :=
  w.traffic.tasks[id]? = some ⟨.caller, .metadata path, .issued⟩ ∧
    (w.traffic.poll id).2 = .report (.answer (answer.map Reply.item))

instance (w : Watched) (id : Nat) (path : Path) (answer : Answer Item) :
    Decidable (w.AnswersFromMemory id path answer) :=
  inferInstanceAs (Decidable (_ ∧ _))

/-- A caller who asks for metadata now is answered from memory after some more events. -/
def Recalls (w : Watched) (path : Path) (since : List Event) (answer : Answer Item) : Prop :=
  (w.after (.issue (.metadata path) :: since)).AnswersFromMemory w.traffic.next path answer

instance (w : Watched) (path : Path) (since : List Event) (answer : Answer Item) :
    Decidable (w.Recalls path since answer) :=
  inferInstanceAs (Decidable
    ((w.after (.issue (.metadata path) :: since)).AnswersFromMemory w.traffic.next path answer))

/-- What is answered from memory is kept. -/
private theorem Sound.exists_entry_of_answersFromMemory (h : w.Sound)
    (hl : w.traffic.layers = [.metadata c]) {id : Nat}
    (hmemory : w.AnswersFromMemory id path answer) :
    ∃ moment, c.outcomes.entries[path]? = some (moment, answer) := by
  obtain ⟨hissued, hreport⟩ := hmemory
  have htold := (h.turn hl id).told hissued hreport
  generalize ho : Outcome.answer (answer.map Reply.item) = outcome at htold
  generalize (w.traffic.poll id).1 = t at htold
  have hstage {stage : Stage}
      (ht : w.traffic.tasks[id]? = some ⟨.caller, .metadata path, stage⟩) : stage = .issued := by
    obtain ⟨-, -, rfl⟩ := Task.mk.inj (Option.some.inj (ht.symm.trans hissued))
    rfl
  cases htold with
  | @answered l' a htask hreceive =>
    obtain rfl : answer.map Reply.item = a := Outcome.answer.inj ho
    have hfound : ((c.outcomes.find? w.traffic.now path).map fun f => f.map Reply.item) =
        some (answer.map Reply.item) := by
      simpa [Layer.receive, MetadataCache.receive, MetadataCache.get] using
        (Prod.mk.inj hreceive).2
    obtain ⟨found, hf, hsame⟩ := Option.map_eq_some_iff.mp hfound
    obtain rfl : found = answer := by
      cases found <;> cases answer <;> simp_all [Except.map]
    obtain ⟨⟨moment, kept⟩, hentry, rfl⟩ := Option.map_eq_some_iff.mp hf
    exact ⟨moment, (Option.filter_eq_some_iff.mp hentry).1⟩
  | left htask hcollect => simp [Layer.collect] at hcollect
  | returned htask => simpa using hstage htask
  | crashed htask => simpa using hstage htask

/-- **What is recalled after a change is fresh or was under way.** Let the caller of a request that
may change something be told that it has succeeded, at any moment of any run. Whoever asks later
for the metadata of a path that the request may have changed, and is answered from memory, is told
what a lookup or a listing has brought that took effect after the request did, or that was under
way when the request had come back. -/
theorem recalled_is_fresh_or_was_under_way (c : MetadataCache) (now : Nanoseconds)
    (es : List Event) {id : Nat} {r : Request} (hr : r.isMutation = true) {reply : Reply}
    (hreturned : ((start (.metadata c) now).after es).Reports id r (.value reply)) :
    let w := (start (.metadata c) now).after es
    ∃ own effect, w.calls[id]? = some own ∧ own.request = r ∧
      own.effect = some (effect, .value reply) ∧
      ∀ later since path answer, r.mayChange path = true →
        let asked := w.after (.run id :: later)
        asked.Recalls path since answer →
        ∃ (n : Nat) (call : CallRecord) (moment : Nat) (brought : Answer Reply),
          (asked.after (.issue (.metadata path) :: since)).calls[n]? = some call ∧
          call.effect = some (moment, .answer brought) ∧
          call.request.Teaches brought path answer ∧
          (effect < moment ∨ (w.step (.run id)).IsCalling n) := by
  intro w
  have hs : w.Sound := sound_after_start (.metadata c) now es
  obtain ⟨before, hl⟩ := exists_cache c now es
  obtain ⟨htask, hl'⟩ := hs.forgets_of_reports hl hr hreturned
  obtain ⟨own, effect, answered, hown, hrequest, heffect, -, hlt, hlt'⟩ :=
    hs.exists_call_of_responded htask
  refine ⟨own, effect, hown, hrequest, heffect, ?_⟩
  intro later since path answer hchange asked hrecalls
  have hmemory : (asked.after (.issue (.metadata path) :: since)).AnswersFromMemory
    asked.traffic.next path answer := hrecalls
  have htold : asked.after (.issue (.metadata path) :: since) =
      (w.step (.run id)).after (later ++ .issue (.metadata path) :: since) :=
    after_cons_after_cons w _ _ later since
  have hforgotten : Remembers (w.step (.run id)) (w.step (.run id)) (before.forget r) path := by
    intro moment answer he
    simp [MetadataCache.entries_forget, hchange] at he
  obtain ⟨c', hl'', hremembers⟩ := hforgotten.after (hs.step _) hl'
    (later ++ .issue (.metadata path) :: since)
  rw [htold] at hmemory ⊢
  have hsound := (hs.step (.run id)).after (later ++ .issue (.metadata path) :: since)
  obtain ⟨inserted, hentry⟩ := hsound.exists_entry_of_answersFromMemory hl'' hmemory
  obtain ⟨n, call, brought, hcall, hb, hteaches, hsince⟩ := hremembers inserted answer hentry
  obtain ⟨⟨moment, o⟩, hmoment, rfl⟩ := Option.map_eq_some_iff.mp hb.1
  refine ⟨n, call, moment, brought, hcall, hmoment, hteaches, ?_⟩
  rcases hsince with hmade | hcalling
  · rw [moment_step] at hmade
    have horder := (hsound.calls n call hcall).2.effect moment _ hmoment
    have hafter : w.moment < moment := Nat.lt_trans hmade horder.1
    exact .inl (Nat.lt_trans hlt (Nat.lt_trans hlt' hafter))
  · exact .inr hcalling

/-- A file that the cache knows is deleted; its absence, found afterwards, is recalled. -/
theorem recalled_is_fresh_or_was_under_way_after_delete :
    let a : Path := ⟨true, ["a"]⟩
    let es : List Event := [.issue (.metadata a), .run 0,
      .effect 0 (.value (.item (.file a 3 none))), .respond 0, .run 0, .issue (.deleteFile a),
      .run 1, .effect 1 (.value .done), .respond 1]
    let later : List Event := [.issue (.metadata a), .run 2,
      .effect 2 (.failure (.notFound a)), .respond 2, .run 2]
    ∃ c, MetadataCache.new? (ofSeconds 10) = some c ∧
      let w := (start (.metadata c) 0).after es
      let asked := w.after (.run 1 :: later)
      w.Reports 1 (.deleteFile a) (.value .done) ∧
      asked.Recalls a [] (.error (.notFound a)) ∧
      ∃ (own : CallRecord) (effect n : Nat) (call : CallRecord) (moment : Nat)
        (brought : Answer Reply), w.calls[1]? = some own ∧
        own.effect = some (effect, .value .done) ∧
        (asked.after [.issue (.metadata a)]).calls[n]? = some call ∧
        call.effect = some (moment, .answer brought) ∧ effect < moment := by
  intro a es later
  let c : MetadataCache := ⟨⟨ofSeconds 10, ∅⟩, .zero⟩
  refine ⟨c, rfl, ?_⟩
  intro w asked
  have hreturned : w.Reports 1 (.deleteFile a) (.value .done) := by decide +kernel
  have hrecalls : asked.Recalls a [] (.error (.notFound a)) := by decide +kernel
  obtain ⟨own, effect, hown, -, heffect, hfresh⟩ :=
    recalled_is_fresh_or_was_under_way c 0 es rfl hreturned
  obtain ⟨n, call, moment, brought, hcall, hmoment, -, hsince⟩ :=
    hfresh later [] a _ (by decide +kernel) hrecalls
  -- nothing is under way when the file has been deleted
  have htasks : (w.step (.run 1)).traffic.tasks.isEmpty = true := by decide +kernel
  have hlt : effect < moment := by
    rcases hsince with hlt | ⟨⟨task, htask⟩, -⟩
    · exact hlt
    · rw [Std.ExtTreeMap.isEmpty_iff.mp htasks] at htask
      simp at htask
  exact ⟨hreturned, hrecalls, own, effect, n, call, moment, brought, hown, heffect, hcall, hmoment,
    hlt⟩

/-- It is not so that what is recalled of a path after a request has succeeded that may change it
was brought by a lookup or a listing that took effect after the request did. -/
theorem not_recalled_is_fresh :
    ¬ ∀ (lifetime now : Nanoseconds) (c : MetadataCache), MetadataCache.new? lifetime = some c →
      ∀ (es : List Event) (id : Nat) (r : Request) (reply : Reply), r.isMutation = true →
        let w := (start (.metadata c) now).after es
        w.Reports id r (.value reply) →
        ∀ later since path answer, r.mayChange path = true →
          let asked := w.after (.run id :: later)
          asked.Recalls path since answer →
          ∃ (own : CallRecord) (effect n : Nat) (call : CallRecord) (moment : Nat)
            (brought : Answer Reply), w.calls[id]? = some own ∧
            own.effect = some (effect, .value reply) ∧
            (asked.after (.issue (.metadata path) :: since)).calls[n]? = some call ∧
            call.effect = some (moment, .answer brought) ∧
            call.request.Teaches brought path answer ∧ effect < moment := by
  intro h
  let a : Path := ⟨true, ["a"]⟩
  let es : List Event := [.issue (.metadata a), .run 0, .effect 0 (.failure (.notFound a)),
    .issue (.createFolder a), .run 1, .effect 1 (.value (.path a)), .respond 1]
  let later : List Event := [.respond 0, .run 0]
  let c : MetadataCache := ⟨⟨ofSeconds 10, ∅⟩, .zero⟩
  let w := (start (.metadata c) 0).after es
  let asked := w.after (.run 1 :: later)
  let told := asked.after [.issue (.metadata a)]
  have hreturned : w.Reports 1 (.createFolder a) (.value (.path a)) := by decide +kernel
  have hrecalls : asked.Recalls a [] (.error (.notFound a)) := by decide +kernel
  have hown : w.calls[1]?.map CallRecord.effect = some (some (5, .value (.path a))) := by
    decide +kernel
  have hcalls : ∀ p ∈ told.calls.toList, p.2.effect.map Prod.fst = some 2 ∨
      p.2.request = .createFolder a := by decide +kernel
  obtain ⟨own, effect, n, call, moment, brought, hcall₁, heffect, hcall, hmoment, hteaches, hlt⟩ :=
    h (ofSeconds 10) 0 c rfl es 1 (.createFolder a) _ rfl hreturned later [] a _
      (by decide +kernel) hrecalls
  have hmade : w.calls[1]? = some own := hcall₁
  obtain rfl : effect = 5 := by
    rw [hmade, Option.map_some, heffect] at hown
    exact (Prod.mk.inj (Option.some.inj (Option.some.inj hown))).1
  rcases hcalls (n, call) (Std.ExtTreeMap.mem_toList_iff_getElem?_eq_some.mpr hcall) with
    hfirst | hcreate
  · simp [hmoment] at hfirst
    omega
  · have hc : call.request = .createFolder a := hcreate
    rw [hc] at hteaches
    exact hteaches

end Traffic.Watched
end LayeredStore
