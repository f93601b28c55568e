import LayeredStore.Proofs.Layer.Agreement
import LayeredStore.Proofs.Traffic.Record

/-!
# A provider behind a metadata cache

Callers make requests, through one metadata cache, to a provider that carries them out. A task that
has called the provider runs on as soon as its request has been carried out: nobody else comes
between the store and what the cache remembers of it. Main statements: an event leaves the cache as
it is, or a request arrives at the cache, or one comes back that the provider has carried out; and
what is known of a path stays known as long as the store does not change there and nobody makes a
request that may change it.
-/

namespace LayeredStore

/-! ### What a cache knows -/

namespace MetadataCache

variable {c : MetadataCache} {since now : Nanoseconds} {path : Path} {answer : Answer Item}

/-- An answer is known of a path, from a moment or a later one. -/
def Knows (c : MetadataCache) (since : Nanoseconds) (path : Path) (answer : Answer Item) : Prop :=
  ∃ moment, since ≤ moment ∧ c.outcomes.entries[path]? = some (moment, answer)

/-- What is known from a moment on is known from every earlier one on. -/
theorem Knows.mono (h : c.Knows since path answer) {earlier : Nanoseconds} (hle : earlier ≤ since) :
    c.Knows earlier path answer := by
  obtain ⟨moment, hsince, hentry⟩ := h
  exact ⟨moment, hle.trans hsince, hentry⟩

/-- What is known is found for a lifetime. -/
theorem Knows.find? (h : c.Knows since path answer) (hnow : now - since < c.outcomes.lifetime) :
    c.outcomes.find? now path = some answer := by
  obtain ⟨moment, hsince, hentry⟩ := h
  have hlives : c.outcomes.lives now moment = true :=
    decide_eq_true (Nat.lt_of_le_of_lt (Nat.sub_le_sub_left hsince now) hnow)
  simp [TimedMap.find?, hentry, hlives]

/-- What has been inserted is known. -/
theorem knows_insert (c : MetadataCache) (now : Nanoseconds) (path : Path) (answer : Answer Item) :
    ({ c with outcomes := c.outcomes.insert now path answer } : MetadataCache).Knows now path
      answer :=
  ⟨now, Nat.le_refl now, Std.ExtTreeMap.getElem?_insert_self⟩

/-- What is known stays known when the same is inserted, or something elsewhere. -/
theorem Knows.insert (h : c.Knows since path answer) (hnow : since ≤ now) {key : Path}
    {value : Answer Item} (hvalue : key = path → value = answer) :
    ({ c with outcomes := c.outcomes.insert now key value } : MetadataCache).Knows since path
      answer := by
  by_cases hkey : key = path
  · subst hkey
    obtain rfl := hvalue rfl
    exact ⟨now, hnow, Std.ExtTreeMap.getElem?_insert_self⟩
  · obtain ⟨moment, hsince, hentry⟩ := h
    exact ⟨moment, hsince, by simpa [TimedMap.insert, Std.ExtTreeMap.getElem?_insert, hkey]⟩

/-- What is known stays known when what a request may change elsewhere is forgotten. -/
theorem Knows.forget (h : c.Knows since path answer) {r : Request}
    (hr : r.mayChange path = false) : (c.forget r).Knows since path answer := by
  obtain ⟨moment, hsince, hentry⟩ := h
  refine ⟨moment, hsince, ?_⟩
  rw [c.entries_forget, hr]
  exact hentry

/-- What is known stays known when a request arrives that may only change something elsewhere. -/
theorem Knows.receive (h : c.Knows since path answer) {r : Request}
    (hr : r.mayChange path = false) : (c.receive now r).1.Knows since path answer := by
  cases r with
  | metadata asked => exact h
  | _ => exact h.forget hr

/-- What is known stays known when a page comes back that says the same. -/
theorem Knows.insertFound_foldl (h : c.Knows since path answer) (hnow : since ≤ now)
    {items : List Item} (hitems : ∀ item ∈ items, item.path = path → .ok item = answer) :
    (items.foldl (fun c item => c.insertFound now item) c).Knows since path answer := by
  induction items generalizing c with
  | nil => exact h
  | cons item items ih =>
    rw [List.forall_mem_cons] at hitems
    exact ih (h.insert hnow hitems.1) hitems.2

/-- All items of a page are known when it has come back, if they have distinct paths. -/
private theorem knows_of_mem (c : MetadataCache) (now : Nanoseconds) {items : List Item}
    {item : Item} (hmem : item ∈ items)
    (hitems : ∀ other ∈ items, other.path = item.path → other = item) :
    (items.foldl (fun c item => c.insertFound now item) c).Knows now item.path (.ok item) := by
  induction items generalizing c with
  | nil => cases hmem
  | cons first items ih =>
    rw [List.forall_mem_cons] at hitems
    obtain rfl | hmem := List.mem_cons.mp hmem
    · exact (c.knows_insert now item.path (.ok item)).insertFound_foldl (Nat.le_refl now)
        fun other hother hpath => congrArg Except.ok (hitems.2 other hother hpath)
    · exact ih (c.insertFound now first) hmem hitems.2

/-- Nothing changes how long entries live: neither a request that arrives, ... -/
private theorem lifetime_receive (c : MetadataCache) (now : Nanoseconds) (r : Request) :
    (c.receive now r).1.outcomes.lifetime = c.outcomes.lifetime := by
  cases r <;> rfl

/-- ... nor one that comes back. -/
private theorem lifetime_returned (c : MetadataCache) (now : Nanoseconds) (r : Request)
    (a : Answer Reply) : (c.returned now r a).outcomes.lifetime = c.outcomes.lifetime := by
  have hitems : ∀ (items : List Item) (c : MetadataCache),
      (items.foldl (fun c item => c.insertFound now item) c).outcomes.lifetime =
        c.outcomes.lifetime := by
    intro items
    induction items with
    | nil => exact fun _ => rfl
    | cons item items ih => exact fun c => ih (c.insertFound now item)
  cases r with
  | metadata path =>
    rcases a with f | (_ | _ | _ | _ | _ | _)
    · rw [returned, remember]
      split <;> rfl
    all_goals rfl
  | list folder token =>
    rcases a with f | (_ | l | _ | _ | _ | _)
    case ok.listing => exact hitems l.items c
    all_goals rfl
  | _ => rfl

/-- What is known of a path stays known when a lookup comes back, if the store says the same. -/
theorem Knows.remember (h : c.Knows since path answer) (hnow : since ≤ now) {s : Store}
    (hstore : s.metadata path = answer) (asked : Path) :
    (c.remember now asked ((s.metadata asked).map Reply.item)).Knows since path answer := by
  cases he : s.get? asked with
  | none =>
    have hm : s.metadata asked = .error (.notFound asked) := by simp [Store.metadata, he]
    rw [hm]
    refine h.insert hnow fun hpath => ?_
    rw [← hstore, ← hpath, hm]
  | some e =>
    have hm : s.metadata asked = .ok (e.item asked) := by simp [Store.metadata, he]
    rw [hm]
    refine h.insert hnow fun hpath => ?_
    rw [Store.path_item] at hpath
    rw [← hstore, ← hpath, hm]

/-- What is known of a path stays known when a request comes back that a provider has carried out,
if its store says the same and the request may only change something elsewhere. -/
theorem Knows.returned (h : c.Knows since path answer) (hnow : since ≤ now) {p : Provider}
    {r : Request} {a : Answer Reply} (hr : r.mayChange path = false)
    (hstore : p.store.metadata path = answer)
    (hserve : (p.serve ⟨now⟩ r).2 = .answer a) : (c.returned now r a).Knows since path answer := by
  cases r with
  | metadata asked =>
    obtain rfl := Outcome.answer.inj hserve
    exact h.remember hnow hstore asked
  | list folder token =>
    cases hlist : p.store.list p.pageSize folder token with
    | crash => simp [Provider.serve, hlist, Outcome.map] at hserve
    | answer page =>
      obtain rfl : page.map Reply.listing = a := by
        simpa [Provider.serve, hlist, Outcome.map] using hserve
      cases page with
      | error f => exact h
      | ok l =>
        refine h.insertFound_foldl hnow fun item hitem hpath => ?_
        rw [← hstore, ← hpath, Store.metadata_of_mem_list hlist hitem]
  | _ => exact h.forget hr

/-- All items of a page are known when it has come back from a store. -/
theorem knows_of_list (c : MetadataCache) (now : Nanoseconds) {s : Store} {pageSize : UInt64}
    {folder : Path} {token : Option String} {l : Listing}
    (hlist : s.list pageSize folder token = .value l) {item : Item} (hitem : item ∈ l.items) :
    (c.returned now (.list folder token) (.ok (.listing l))).Knows now item.path (.ok item) := by
  refine c.knows_of_mem now hitem fun other hother hpath => ?_
  have hsame := Store.metadata_of_mem_list hlist hother
  rw [hpath, Store.metadata_of_mem_list hlist hitem] at hsame
  exact (Except.ok.inj hsame).symm

end MetadataCache

/-! ### Requests on their way -/

namespace Traffic

variable {t : Traffic} {c : MetadataCache} {id : Nat} {r : Request}

/-- A request that has arrived at the cache is answered there, or calls the provider. -/
theorem poll_issued (hl : t.layers = [.metadata c])
    (htask : t.tasks[id]? = some ⟨.caller, r, .issued⟩) :
    t.poll id = match c.receive t.now r with
      | (c', some a) =>
        ({ t with layers := [.metadata c'], tasks := t.tasks.erase id }, .report (.answer a))
      | (c', none) => ({ t with
          layers := [.metadata c']
          tasks := t.tasks.insert id ⟨.caller, r, .calling⟩ }, .call r) := by
  rcases hreceive : c.receive t.now r with ⟨c', _ | a⟩ <;>
    simp [poll, htask, enter, Task.entry, hl, descend, Layer.receive, hreceive, finish, advance]

/-- A request to which the provider responds is reported, and the cache has seen its answer. -/
theorem poll_respond (hl : t.layers = [.metadata c])
    (htask : t.tasks[id]? = some ⟨.caller, r, .calling⟩) (outcome : Outcome Reply) :
    (t.respond id outcome).poll id = ({ t with
      layers := [.metadata (match outcome with
        | .answer a => c.returned t.now r a
        | .crash => c)]
      tasks := t.tasks.erase id }, .report outcome) := by
  have htasks : (t.tasks.insert id ⟨.caller, r, .responded outcome⟩).erase id =
      t.tasks.erase id := by
    refine Std.ExtTreeMap.ext_getElem? fun {other} => ?_
    by_cases hid : id = other <;>
      simp [Std.ExtTreeMap.getElem?_erase, Std.ExtTreeMap.getElem?_insert, hid]
  cases outcome <;>
    simp [respond, htask, advance, poll, bring, finish, ascend, Task.entry, hl, Layer.returned,
      htasks]

end Traffic

/-- Traffic and the provider behind it. -/
structure Front where
  traffic : Traffic
  provider : Provider

namespace Front

/-- What can happen. -/
inductive Event
  /-- A caller makes a request. -/
  | issue (r : Request)
  /-- A task runs up to the next point where it has to wait. -/
  | run (id : Nat)
  /-- The provider carries out the request of a task that has called it, and the task runs on. -/
  | serve (id : Nat)
  /-- A caller gives up. -/
  | abort (id : Nat)
  /-- Time passes. -/
  | tick (d : Nanoseconds)

/-- Nothing is under way yet through a cache to a provider. -/
def start (c : MetadataCache) (p : Provider) (now : Nanoseconds) : Front :=
  ⟨.start [.metadata c] now, p⟩

/-- One event more, and what it means to those outside. -/
def step (f : Front) : Event → Front × Effect
  | .issue r => ({ f with traffic := (f.traffic.issue r).2 }, .nothing)
  | .run id =>
    let (traffic, effect) := f.traffic.poll id
    ({ f with traffic }, effect)
  | .serve id => match f.traffic.tasks[id]? with
    | some ⟨_, r, .calling⟩ =>
      let (provider, outcome) := f.provider.serve ⟨f.traffic.now⟩ r
      let (traffic, effect) := (f.traffic.respond id outcome).poll id
      (⟨traffic, provider⟩, effect)
    | _ => (f, .nothing)
  | .abort id => ({ f with traffic := f.traffic.abort id }, .nothing)
  | .tick d => ({ f with traffic := f.traffic.tick d }, .nothing)

/-- After a run of events. -/
def after (f : Front) (es : List Event) : Front := es.foldl (fun f e => (f.step e).1) f

@[simp] theorem after_nil (f : Front) : f.after [] = f := rfl

@[simp] theorem after_cons (f : Front) (e : Event) (es : List Event) :
    f.after (e :: es) = (f.step e).1.after es := rfl

@[simp] theorem after_append (f : Front) (es es' : List Event) :
    f.after (es ++ es') = (f.after es).after es' := List.foldl_append

/-! ### Steps -/

variable {f : Front} {c : MetadataCache} {allowed : Request → Prop}

/-- A request that is served is carried out, comes back through the cache, and is reported. -/
theorem step_serve (hl : f.traffic.layers = [.metadata c]) {id : Nat} {r : Request}
    (htask : f.traffic.tasks[id]? = some ⟨.caller, r, .calling⟩) :
    f.step (.serve id) = (⟨{ f.traffic with
      layers := [.metadata (match (f.provider.serve ⟨f.traffic.now⟩ r).2 with
        | .answer a => c.returned f.traffic.now r a
        | .crash => c)]
      tasks := f.traffic.tasks.erase id }, (f.provider.serve ⟨f.traffic.now⟩ r).1⟩,
      .report (f.provider.serve ⟨f.traffic.now⟩ r).2) := by
  simp only [step, htask]
  rw [Traffic.poll_respond hl htask]

/-- There is one layer, a cache, and every task is that of a caller, has still to run or has called
the provider, and has a request that is allowed. -/
structure Holds (f : Front) (c : MetadataCache) (allowed : Request → Prop) : Prop where
  layers : f.traffic.layers = [.metadata c]
  tasks : ∀ (id : Nat) (task : Task), f.traffic.tasks[id]? = some task →
    task.origin = .caller ∧ (task.stage = .issued ∨ task.stage = .calling) ∧ allowed task.request

/-- What an event does to the provider and the cache. -/
inductive Move (f : Front) (c : MetadataCache) : Provider → MetadataCache → Prop
  /-- They stay as they are. -/
  | still : Move f c f.provider c
  /-- A request arrives at the cache. -/
  | arrived {id : Nat} {r : Request} (htask : f.traffic.tasks[id]? = some ⟨.caller, r, .issued⟩) :
    Move f c f.provider (c.receive f.traffic.now r).1
  /-- The provider carries out a request, which comes back through the cache. -/
  | returned {id : Nat} {r : Request} {a : Answer Reply}
    (htask : f.traffic.tasks[id]? = some ⟨.caller, r, .calling⟩)
    (hserve : (f.provider.serve ⟨f.traffic.now⟩ r).2 = .answer a) :
    Move f c (f.provider.serve ⟨f.traffic.now⟩ r).1 (c.returned f.traffic.now r a)
  /-- The provider crashes on a request. -/
  | crashed {id : Nat} {r : Request}
    (htask : f.traffic.tasks[id]? = some ⟨.caller, r, .calling⟩) :
    Move f c (f.provider.serve ⟨f.traffic.now⟩ r).1 c

namespace Holds

/-- Nothing is under way at the start. -/
theorem start (c : MetadataCache) (p : Provider) (now : Nanoseconds) (allowed : Request → Prop) :
    (start c p now).Holds c allowed where
  layers := rfl
  tasks id task h := by simp [Front.start, Traffic.start] at h

/-- One task more with an allowed request. -/
theorem insert (h : f.Holds c allowed) {id : Nat} {r : Request} {stage : Stage}
    (hstage : stage = .issued ∨ stage = .calling) (hr : allowed r) {g : Front}
    {c' : MetadataCache} (hl : g.traffic.layers = [.metadata c'])
    (hg : g.traffic.tasks = f.traffic.tasks.insert id ⟨.caller, r, stage⟩) :
    g.Holds c' allowed := by
  refine ⟨hl, fun other task htask => ?_⟩
  rw [hg, Std.ExtTreeMap.getElem?_insert] at htask
  split at htask
  · obtain rfl := Option.some.inj htask
    exact ⟨rfl, hstage, hr⟩
  · exact h.tasks other task htask

/-- No task more. -/
theorem of_tasks (h : f.Holds c allowed) {g : Front} {c' : MetadataCache}
    (hl : g.traffic.layers = [.metadata c'])
    (hg : ∀ (id : Nat) (task : Task), g.traffic.tasks[id]? = some task →
      f.traffic.tasks[id]? = some task) : g.Holds c' allowed :=
  ⟨hl, fun id task htask => h.tasks id task (hg id task htask)⟩

/-- One task less. -/
theorem erase (h : f.Holds c allowed) {id : Nat} {g : Front} {c' : MetadataCache}
    (hl : g.traffic.layers = [.metadata c'])
    (hg : g.traffic.tasks = f.traffic.tasks.erase id) : g.Holds c' allowed := by
  refine h.of_tasks hl fun other task htask => ?_
  rw [hg] at htask
  exact (Traffic.Watched.of_getElem?_erase htask).2

/-- A task that runs has its request arrive at the cache, or has to wait. -/
private theorem run (h : f.Holds c allowed) (id : Nat) :
    ∃ c', (f.step (.run id)).1.Holds c' allowed ∧ f.Move c (f.step (.run id)).1.provider c' ∧
      f.traffic.now ≤ (f.step (.run id)).1.traffic.now := by
  have hstep : (f.step (.run id)).1 = ⟨(f.traffic.poll id).1, f.provider⟩ := rfl
  rw [hstep]
  cases htask : f.traffic.tasks[id]? with
  | none =>
    have hpoll : f.traffic.poll id = (f.traffic, .nothing) := by simp [Traffic.poll, htask]
    rw [hpoll]
    exact ⟨c, h, .still, Nat.le_refl _⟩
  | some task =>
    obtain ⟨horigin, hstage, hallowed⟩ := h.tasks id task htask
    obtain ⟨origin, r, stage⟩ := task
    obtain rfl : origin = .caller := horigin
    obtain rfl | rfl : stage = .issued ∨ stage = .calling := hstage
    · have hpoll := Traffic.poll_issued h.layers htask
      have hmove := Move.arrived (c := c) htask
      rcases hreceive : c.receive f.traffic.now r with ⟨c', _ | a⟩
      · rw [hreceive] at hpoll hmove
        rw [hpoll]
        exact ⟨c', h.insert (.inr rfl) hallowed rfl rfl, hmove, Nat.le_refl _⟩
      · rw [hreceive] at hpoll hmove
        rw [hpoll]
        exact ⟨c', h.erase rfl rfl, hmove, Nat.le_refl _⟩
    · have hpoll : f.traffic.poll id = (f.traffic, .nothing) := by simp [Traffic.poll, htask]
      rw [hpoll]
      exact ⟨c, h, .still, Nat.le_refl _⟩

/-- A task that is served has its request come back through the cache. -/
theorem serve (h : f.Holds c allowed) (id : Nat) :
    ∃ c', (f.step (.serve id)).1.Holds c' allowed ∧
      f.Move c (f.step (.serve id)).1.provider c' ∧
      f.traffic.now ≤ (f.step (.serve id)).1.traffic.now := by
  cases htask : f.traffic.tasks[id]? with
  | none =>
    have hstep : f.step (.serve id) = (f, .nothing) := by simp [step, htask]
    rw [hstep]
    exact ⟨c, h, .still, Nat.le_refl _⟩
  | some task =>
    obtain ⟨horigin, hstage, hallowed⟩ := h.tasks id task htask
    obtain ⟨origin, r, stage⟩ := task
    obtain rfl : origin = .caller := horigin
    obtain rfl | rfl : stage = .issued ∨ stage = .calling := hstage
    · have hstep : f.step (.serve id) = (f, .nothing) := by simp [step, htask]
      rw [hstep]
      exact ⟨c, h, .still, Nat.le_refl _⟩
    · rw [step_serve h.layers htask]
      cases hserve : (f.provider.serve ⟨f.traffic.now⟩ r).2 with
      | crash =>
        exact ⟨c, h.erase rfl rfl, .crashed htask, Nat.le_refl _⟩
      | answer a =>
        exact ⟨_, h.erase rfl rfl, .returned htask hserve, Nat.le_refl _⟩

/-- **What an event does.** -/
theorem step (h : f.Holds c allowed) {e : Event} (he : ∀ r, e = .issue r → allowed r) :
    ∃ c', (f.step e).1.Holds c' allowed ∧ f.Move c (f.step e).1.provider c' ∧
      f.traffic.now ≤ (f.step e).1.traffic.now := by
  cases e with
  | issue r => exact ⟨c, h.insert (.inl rfl) (he r rfl) h.layers rfl, .still, Nat.le_refl _⟩
  | run id => exact h.run id
  | serve id => exact h.serve id
  | tick d => exact ⟨c, h.of_tasks h.layers fun _ _ htask => htask, .still, Nat.le_add_right _ d⟩
  | abort id =>
    have hstep : (f.step (.abort id)).1 = { f with traffic := f.traffic.abort id } := rfl
    rw [hstep]
    cases htask : f.traffic.tasks[id]? with
    | none =>
      have habort : f.traffic.abort id = f.traffic := by simp [Traffic.abort, htask]
      rw [habort]
      exact ⟨c, h, .still, Nat.le_refl _⟩
    | some task =>
      obtain ⟨horigin, hstage, -⟩ := h.tasks id task htask
      have habort : f.traffic.abort id = { f.traffic with tasks := f.traffic.tasks.erase id } := by
        rcases hstage with hstage | hstage <;> simp [Traffic.abort, htask, horigin, hstage]
      rw [habort]
      exact ⟨c, h.erase h.layers rfl, .still, Nat.le_refl _⟩

end Holds

variable {p : Provider} {c' : MetadataCache} {es : List Event} {since : Nanoseconds} {path : Path}
  {answer : Answer Item}

/-- No event changes how long entries live. -/
theorem Move.lifetime_eq (h : f.Move c p c') : c'.outcomes.lifetime = c.outcomes.lifetime := by
  cases h with
  | still => rfl
  | arrived htask => exact c.lifetime_receive f.traffic.now _
  | returned htask hserve => exact c.lifetime_returned f.traffic.now _ _
  | crashed htask => rfl

/-- What is known of a path stays known in an event, if the store says the same and no request under
way may change it. -/
private theorem Move.knows (h : f.Move c p c')
    (hholds : f.Holds c fun r => r.mayChange path = false)
    (hstore : f.provider.store.metadata path = answer) (hnow : since ≤ f.traffic.now)
    (hknows : c.Knows since path answer) : c'.Knows since path answer := by
  cases h with
  | still => exact hknows
  | arrived htask => exact hknows.receive (hholds.tasks _ _ htask).2.2
  | returned htask hserve =>
    exact hknows.returned hnow (hholds.tasks _ _ htask).2.2 hstore hserve
  | crashed htask => exact hknows

/-! ### Runs -/

/-- Something is true before, between and after the events of a run. -/
def Throughout (P : Front → Prop) : Front → List Event → Prop
  | f, [] => P f
  | f, e :: es => P f ∧ Throughout P (f.step e).1 es

theorem Throughout.head {P : Front → Prop} (h : Throughout P f es) : P f := by
  cases es with
  | nil => exact h
  | cons e es => exact h.1

theorem Throughout.imp {P Q : Front → Prop} (h : Throughout P f es) (himp : ∀ g, P g → Q g) :
    Throughout Q f es := by
  induction es generalizing f with
  | nil => exact himp f h
  | cons e es ih => exact ⟨himp f h.1, ih h.2⟩

theorem Throughout.last {P : Front → Prop} (h : Throughout P f es) : P (f.after es) := by
  induction es generalizing f with
  | nil => exact h
  | cons e es ih => exact ih h.2

/-- What is true throughout a run is true throughout its end. -/
theorem Throughout.of_append {P : Front → Prop} {es' : List Event}
    (h : Throughout P f (es ++ es')) : Throughout P (f.after es) es' := by
  induction es generalizing f with
  | nil => exact h
  | cons e es ih => exact ih h.2

/-- All requests that are issued in a run are allowed. -/
def Issues (allowed : Request → Prop) (es : List Event) : Prop :=
  ∀ r, Event.issue r ∈ es → allowed r

theorem Issues.imp {allowed' : Request → Prop} (h : Issues allowed es)
    (himp : ∀ r, allowed r → allowed' r) : Issues allowed' es :=
  fun r hr => himp r (h r hr)

namespace Holds

/-- Fewer requests may be allowed, if all that are under way are. -/
theorem restrict (h : f.Holds c allowed) {fewer : Request → Prop}
    (htasks : ∀ (id : Nat) (task : Task), f.traffic.tasks[id]? = some task →
      fewer task.request) : f.Holds c fewer where
  layers := h.layers
  tasks id task htask :=
    ⟨(h.tasks id task htask).1, (h.tasks id task htask).2.1, htasks id task htask⟩

theorem imp {allowed' : Request → Prop} (h : f.Holds c allowed)
    (himp : ∀ r, allowed r → allowed' r) : f.Holds c allowed' :=
  h.restrict fun id task htask => himp _ (h.tasks id task htask).2.2

/-- After every run there is one cache, whose entries live as long as ever, and it is later. -/
theorem after (h : f.Holds c allowed) (hes : Issues allowed es) :
    ∃ c', (f.after es).Holds c' allowed ∧ c'.outcomes.lifetime = c.outcomes.lifetime ∧
      f.traffic.now ≤ (f.after es).traffic.now := by
  induction es generalizing f c with
  | nil => exact ⟨c, h, rfl, Nat.le_refl _⟩
  | cons e es ih =>
    obtain ⟨c₁, h₁, hmove, hlater⟩ := h.step fun r he => hes r (he ▸ List.mem_cons_self)
    obtain ⟨c', h', hlife, hlater'⟩ := ih h₁ fun r hr => hes r (List.mem_cons_of_mem e hr)
    exact ⟨c', h', hlife.trans hmove.lifetime_eq, hlater.trans hlater'⟩

/-- The provider stays as it is if all requests are such that leave it so. -/
theorem throughout_provider_eq (h : f.Holds c fun r => ∀ now, (p.serve now r).1 = p)
    (hes : Issues (fun r => ∀ now, (p.serve now r).1 = p) es) (hp : f.provider = p) :
    Throughout (fun g => g.provider = p) f es := by
  induction es generalizing f c with
  | nil => exact hp
  | cons e es ih =>
    obtain ⟨c₁, h₁, hmove, -⟩ := h.step fun r he => hes r (he ▸ List.mem_cons_self)
    have hp₁ : (f.step e).1.provider = p := by
      generalize (f.step e).1.provider = q at hmove
      cases hmove with
      | still => exact hp
      | arrived htask => exact hp
      | returned htask hserve => exact hp ▸ (h.tasks _ _ htask).2.2 _
      | crashed htask => exact hp ▸ (h.tasks _ _ htask).2.2 _
    exact ⟨hp, ih h₁ (fun r hr => hes r (List.mem_cons_of_mem e hr)) hp₁⟩

/-- **What is known stays known.** What the cache knows of a path it knows after every run in which
the store says the same of the path throughout, and nobody makes a request that may change it. -/
theorem knows_after (h : f.Holds c fun r => r.mayChange path = false)
    (hes : Issues (fun r => r.mayChange path = false) es)
    (hstore : Throughout (fun g => g.provider.store.metadata path = answer) f es)
    (hnow : since ≤ f.traffic.now) (hknows : c.Knows since path answer) :
    ∃ c', (f.after es).Holds c' (fun r => r.mayChange path = false) ∧
      c'.outcomes.lifetime = c.outcomes.lifetime ∧ c'.Knows since path answer := by
  induction es generalizing f c with
  | nil => exact ⟨c, h, rfl, hknows⟩
  | cons e es ih =>
    obtain ⟨c₁, h₁, hmove, hlater⟩ := h.step fun r he => hes r (he ▸ List.mem_cons_self)
    have hknows₁ := hmove.knows h hstore.1 hnow hknows
    obtain ⟨c', h', hlife, hknows'⟩ := ih h₁ (fun r hr => hes r (List.mem_cons_of_mem e hr))
      hstore.2 (hnow.trans hlater) hknows₁
    exact ⟨c', h', hlife.trans hmove.lifetime_eq, hknows'⟩

end Holds

end Front
end LayeredStore
