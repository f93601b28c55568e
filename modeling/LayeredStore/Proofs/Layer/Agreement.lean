import LayeredStore.Layer.Basic
import LayeredStore.Proofs.Cache.QuotaHits
import LayeredStore.Proofs.Store.Scope

/-!
# Layers that agree with a store

A metadata cache agrees with a store if every entry, expired or not, is what the store says of
its path. A coalescing layer is idle while nobody waits there and nothing is on its boards. Main
statements: a metadata cache through which a request has passed both ways agrees with the store
that the request has left, and a request at an idle layer passes, is answered from memory, or
has its caller wait for one call, after which the layer is idle again.
-/

namespace LayeredStore

/-! ### Metadata caches -/

namespace MetadataCache

/-- Every entry of the cache is what the store says of its path. -/
def Agrees (c : MetadataCache) (s : Store) : Prop :=
  ∀ (path : Path) (moment : Nanoseconds) (answer : Answer Item),
    c.outcomes.entries[path]? = some (moment, answer) → answer = s.metadata path

/-- A new cache has no entry that could disagree. -/
private theorem agrees_of_new? {lifetime : Nanoseconds} {c : MetadataCache}
    (h : new? lifetime = some c) (s : Store) : c.Agrees s := by
  obtain ⟨outcomes, hnew, rfl⟩ := Option.map_eq_some_iff.mp h
  unfold TimedMap.new? at hnew
  split at hnew
  · obtain rfl := Option.some.inj hnew
    intro path moment answer hentry
    simp at hentry
  · simp at hnew

/-- What is found in the cache is what the store says. -/
theorem Agrees.eq_of_find? {c : MetadataCache} {s : Store} (h : c.Agrees s)
    {now : Nanoseconds} {path : Path} {answer : Answer Item}
    (hf : c.outcomes.find? now path = some answer) : answer = s.metadata path := by
  obtain ⟨⟨moment, kept⟩, hentry, rfl⟩ := Option.map_eq_some_iff.mp hf
  exact h path moment kept (Option.filter_eq_some_iff.mp hentry).1

/-- An entry may be inserted that is what the store says. -/
theorem Agrees.insert {c : MetadataCache} {s : Store} (h : c.Agrees s) (now : Nanoseconds)
    {key : Path} {value : Answer Item} (hvalue : value = s.metadata key) :
    ({ c with outcomes := c.outcomes.insert now key value } : MetadataCache).Agrees s := by
  intro path moment answer hentry
  have hentry : (c.outcomes.entries.insert key (now, value))[path]? = some (moment, answer) :=
    hentry
  by_cases hp : key = path
  · subst hp
    obtain ⟨-, rfl⟩ : now = moment ∧ value = answer := by simpa using hentry
    exact hvalue
  · exact h path moment answer (by simpa [Std.ExtTreeMap.getElem?_insert, hp] using hentry)

/-- Forgetting what a request may change takes exactly its scope out of the cache. -/
theorem entries_forget (c : MetadataCache) (r : Request) (path : Path) :
    (c.forget r).outcomes.entries[path]? =
      if r.mayChange path then none else c.outcomes.entries[path]? := by
  have herase (key : Path) : (c.invalidate key).outcomes.entries[path]? =
      if path = key then none else c.outcomes.entries[path]? := by
    by_cases hp : key = path
    · simp [invalidate, TimedMap.erase, hp]
    · simp [invalidate, TimedMap.erase, Std.ExtTreeMap.getElem?_erase, hp, Ne.symm hp]
  have hsubtree (d : MetadataCache) (key : Path) :
      (d.invalidateSubtree key).outcomes.entries[path]? =
        if path.startsWith key then none else d.outcomes.entries[path]? := by
    by_cases hp : path.startsWith key <;> cases hd : d.outcomes.entries[path]? <;>
      simp [invalidateSubtree, TimedMap.eraseWhere, hp, hd]
  cases r with
  | metadata p => rfl
  | list folder token => rfl
  | quota folder => rfl
  | read file offset count => rfl
  | write file replace data modified =>
    simp only [Request.mayChange, decide_eq_true_eq]
    exact herase file
  | createFolder folder =>
    simp only [Request.mayChange, decide_eq_true_eq]
    exact herase folder
  | deleteFile file =>
    simp only [Request.mayChange, decide_eq_true_eq]
    exact herase file
  | deleteFolder folder => exact hsubtree c folder
  | move source target replace =>
    refine (hsubtree _ target).trans ?_
    rw [hsubtree c source]
    cases hs : path.startsWith source <;> cases ht : path.startsWith target <;>
      simp [Request.mayChange, hs, ht]

/-- Forgetting keeps a cache in agreement. -/
theorem Agrees.forget {c : MetadataCache} {s : Store} (h : c.Agrees s) (r : Request) :
    (c.forget r).Agrees s := by
  intro path moment answer hentry
  rw [entries_forget] at hentry
  split at hentry
  · simp at hentry
  · exact h path moment answer hentry

/-- A cache that has forgotten what a request may change agrees with the store that the request
leaves. -/
private theorem Agrees.forget_serve {c : MetadataCache} {p : Provider} (h : c.Agrees p.store)
    (now : Timestamp) (r : Request) : (c.forget r).Agrees (p.serve now r).1.store := by
  intro path moment answer hentry
  rw [entries_forget] at hentry
  split at hentry
  · simp at hentry
  · next hscope =>
    rw [p.metadata_serve now (Bool.eq_false_iff.mpr hscope)]
    exact h path moment answer hentry

/-- Remembering what the store says keeps a cache in agreement. -/
theorem Agrees.remember {c : MetadataCache} {s : Store} (h : c.Agrees s) (now : Nanoseconds)
    (path : Path) : (c.remember now path ((s.metadata path).map Reply.item)).Agrees s := by
  cases he : s.get? path with
  | none =>
    have hm : s.metadata path = .error (.notFound path) := by simp [Store.metadata, he]
    rw [hm]
    exact h.insert now hm.symm
  | some e =>
    have hm : s.metadata path = .ok (e.item path) := by simp [Store.metadata, he]
    rw [hm]
    refine h.insert now ?_
    rw [Store.path_item, hm]

/-- Remembering items that are in the store keeps a cache in agreement. -/
private theorem Agrees.insertFound_foldl {s : Store} {items : List Item}
    (hitems : ∀ item ∈ items, s.metadata item.path = .ok item) (now : Nanoseconds) :
    ∀ {c : MetadataCache}, c.Agrees s →
      (items.foldl (fun c item => c.insertFound now item) c).Agrees s := by
  induction items with
  | nil => exact fun h => h
  | cons item items ih =>
    intro c h
    have hitem := hitems item List.mem_cons_self
    exact ih (fun i hi => hitems i (List.mem_cons_of_mem _ hi)) (h.insert now hitem.symm)

/-- Remembering a page of the store keeps a cache in agreement. -/
theorem Agrees.rememberAll {c : MetadataCache} {s : Store} (h : c.Agrees s) (now : Nanoseconds)
    {pageSize : UInt64} {folder : Path} {token : Option String} {answer : Answer Reply}
    (ha : .answer answer = (s.list pageSize folder token).map Reply.listing) :
    (c.rememberAll now answer).Agrees s := by
  cases hl : s.list pageSize folder token with
  | crash => simp [hl, Outcome.map] at ha
  | answer page =>
    obtain rfl : answer = page.map Reply.listing := by simpa [hl, Outcome.map] using ha
    cases page with
    | error f => exact h
    | ok l => exact Agrees.insertFound_foldl (fun item => Store.metadata_of_mem_list hl) now h

/-- What the cache answers at once is what the provider would answer. -/
theorem Agrees.of_receive {c : MetadataCache} {p : Provider} (h : c.Agrees p.store)
    {now : Nanoseconds} {r : Request} {answer : Answer Reply}
    (hr : (c.receive now r).2 = some answer) :
    r.operation = .metadata ∧ (c.receive now r).1.Agrees p.store ∧
      .answer answer = (p.serve ⟨now⟩ r).2 := by
  cases r with
  | metadata path =>
    obtain ⟨found, hf, rfl⟩ := Option.map_eq_some_iff.mp hr
    refine ⟨rfl, h, ?_⟩
    rw [h.eq_of_find? hf]
    rfl
  | _ => simp [receive] at hr

/-- A cache that has let a request pass agrees, when the request comes back, with the store that
it has left. -/
theorem Agrees.returned {c : MetadataCache} {p : Provider} (h : c.Agrees p.store)
    (now : Nanoseconds) (r : Request) {answer : Answer Reply}
    (ha : r.operation ≠ .quota → .answer answer = (p.serve ⟨now⟩ r).2) :
    ((c.receive now r).1.returned now r answer).Agrees (p.serve ⟨now⟩ r).1.store := by
  have hforget : ((c.forget r).forget r).Agrees (p.serve ⟨now⟩ r).1.store :=
    (h.forget_serve ⟨now⟩ r).forget r
  cases r with
  | metadata path =>
    have ha : answer = (p.store.metadata path).map Reply.item := by
      simpa [Provider.serve] using ha (by simp [Request.operation])
    subst ha
    have hget : (c.get now path).2.Agrees p.store := h
    exact hget.remember now path
  | list folder token => exact h.rememberAll now (ha (by simp [Request.operation]))
  | quota folder => exact hforget
  | read file offset count => exact hforget
  | write file replace data modified => exact hforget
  | createFolder folder => exact hforget
  | deleteFile file => exact hforget
  | deleteFolder folder => exact hforget
  | move source target replace => exact hforget

end MetadataCache

/-! ### Desks -/

namespace Desk

variable {K V : Type} [Ord K]

/-- Nobody waits at the desk, no call is under way and the board is empty. -/
def Idle (d : Desk K V) : Prop := d.board = ∅ ∧ d.calls = ∅ ∧ d.seats = ∅

/-- A new desk is idle. -/
theorem idle_empty : (empty : Desk K V).Idle := ⟨rfl, rfl, rfl⟩

variable [Std.TransOrd K]

/-- Who comes to an idle desk opens a ticket. -/
theorem Idle.enter {d : Desk K V} (h : d.Idle) (caller : Nat) (key : K) :
    d.enter caller key = (⟨d.next + 1, (∅ : Std.ExtTreeMap K Ticket).insert key ⟨d.next, false⟩,
      (∅ : Std.ExtTreeMap Nat K).insert d.next key,
      (∅ : Std.ExtTreeMap Nat (Seat V)).insert caller ⟨d.next, none⟩⟩, .opened d.next) := by
  obtain ⟨hb, hc, hs⟩ := h
  simp [Desk.enter, hb, hc, hs]

/-- Who has come to an idle desk waits for its call. -/
theorem Idle.answer?_enter {d : Desk K V} (h : d.Idle) (caller : Nat) (key : K) :
    (d.enter caller key).1.answer? caller = none := by
  simp [h.enter, answer?]

/-- The caller has the answer of its call as soon as the call ends. -/
theorem Idle.answer?_land {d : Desk K V} (h : d.Idle) (caller : Nat) (key : K) (a : Answer V) :
    ((d.enter caller key).1.land d.next (.answer a)).answer? caller = some a := by
  simp [h.enter, land, answer?, Outcome.shared]

/-- When the caller has left with its answer the desk is idle again. -/
theorem Idle.leave_land {d : Desk K V} (h : d.Idle) (caller : Nat) (key : K) (a : Answer V) :
    (((d.enter caller key).1.land d.next (.answer a)).leave caller).Idle := by
  rw [h.enter]
  refine ⟨?_, ?_, ?_⟩
  · simp [land, leave, boardAfter, holds, Outcome.crashed, Std.ExtTreeMap.size_insert]
  · simp [land, leave, Std.ExtTreeMap.size_insert]
  · rw [Std.ExtTreeMap.eq_empty_iff_forall_not_mem]
    intro c
    simp [land, leave, Std.ExtTreeMap.mem_erase, Std.ExtTreeMap.mem_insert]

/-- Evicting tickets leaves an idle desk idle. -/
theorem Idle.evict {d : Desk K V} (h : d.Idle) (key : K) : (d.evict key).Idle := by
  obtain ⟨hb, hc, hs⟩ := h
  exact ⟨by simp [Desk.evict, hb], hc, hs⟩

/-- So does evicting the tickets of many keys. -/
theorem Idle.evictWhere {d : Desk K V} (h : d.Idle) (drop : K → Bool) :
    (d.evictWhere drop).Idle := by
  obtain ⟨hb, hc, hs⟩ := h
  refine ⟨?_, hc, hs⟩
  rw [Std.ExtTreeMap.eq_empty_iff_forall_not_mem]
  intro key
  simp [Desk.evictWhere, hb, Std.ExtTreeMap.mem_filter]

end Desk

/-! ### Coalescing layers -/

namespace Coalescer

/-- All desks of the layer are idle. -/
structure Idle (c : Coalescer) : Prop where
  metadata : c.metadata.Idle
  listings : c.listings.Idle
  quota : c.quota.desk.Idle

/-- A new layer is idle. -/
theorem idle_of_new? {lifetime : Nanoseconds} {c : Coalescer} (h : new? lifetime = some c) :
    c.Idle := by
  obtain ⟨quota, hnew, rfl⟩ := Option.map_eq_some_iff.mp h
  obtain rfl := QuotaCache.eq_of_new? hnew
  exact ⟨Desk.idle_empty, Desk.idle_empty, Desk.idle_empty⟩

/-- Lifting a subtree off the boards leaves an idle layer idle. -/
private theorem Idle.forgetSubtree {c : Coalescer} (h : c.Idle) (path : Path) :
    (c.forgetSubtree path).Idle :=
  ⟨h.metadata.evictWhere _, h.listings.evictWhere _, h.quota.evictWhere _⟩

/-- So does lifting a single path off the boards. -/
private theorem Idle.forgetPath {c : Coalescer} (h : c.Idle) (path : Path) :
    (c.forgetPath path).Idle :=
  ⟨h.metadata.evict path, h.listings.evictWhere _, h.quota⟩

/-- An idle layer is idle still when a request has come back. -/
theorem Idle.returned {c : Coalescer} (h : c.Idle) (r : Request) : (c.returned r).Idle := by
  cases r with
  | write file replace data modified => exact h.forgetPath file
  | createFolder folder => exact h.forgetPath folder
  | deleteFile file => exact h.forgetSubtree file
  | deleteFolder folder => exact h.forgetSubtree folder
  | move source target replace => exact (h.forgetSubtree source).forgetSubtree target
  | metadata path => exact h
  | list folder token => exact h
  | quota folder => exact h
  | read file offset count => exact h

/-- A request at an idle layer passes, is answered from memory if it asks for a quota, or has its
caller wait for a call of its own; when that call has been answered the caller leaves with the
answer and the layer is idle again. -/
theorem Idle.receive {c : Coalescer} (h : c.Idle) (now : Nanoseconds) (caller : Nat)
    (r : Request) :
    c.receive now caller r = (c, none) ∨
    (r.operation = .quota ∧
      ∃ c' a, c.receive now caller r = (c', some (.answered a)) ∧ c'.Idle) ∨
    ∃ c' ticket, c.receive now caller r = (c', some (.opened ticket)) ∧
      c'.answer? caller r = none ∧
      ∀ a, ∃ c'', (c'.land ticket (.answer a) r).collect now caller r = some (c'', a) ∧
        c''.Idle := by
  cases r with
  | metadata path =>
    refine .inr (.inr ⟨{ c with metadata := (c.metadata.enter caller path).1 }, c.metadata.next,
      ?_, h.metadata.answer?_enter caller path, ?_⟩)
    · simp [Coalescer.receive, h.metadata.enter]
    · intro a
      refine ⟨{ c with metadata :=
          ((c.metadata.enter caller path).1.land c.metadata.next (.answer a)).leave caller },
        ?_, h.metadata.leave_land caller path a, h.listings, h.quota⟩
      simp [land, collect, h.metadata.answer?_land]
  | list folder token =>
    refine .inr (.inr ⟨{ c with listings := (c.listings.enter caller ⟨folder, token⟩).1 },
      c.listings.next, ?_, h.listings.answer?_enter caller ⟨folder, token⟩, ?_⟩)
    · simp [Coalescer.receive, h.listings.enter]
    · intro a
      refine ⟨{ c with listings :=
          ((c.listings.enter caller ⟨folder, token⟩).1.land c.listings.next
            (.answer a)).leave caller },
        ?_, h.metadata, h.listings.leave_land caller ⟨folder, token⟩ a, h.quota⟩
      simp [land, collect, h.listings.answer?_land]
  | quota folder =>
    cases hf : c.quota.outcomes.find? now folder with
    | some a =>
      refine .inr (.inl ⟨rfl, { c with quota := (c.quota.ask now caller folder).1 }, a, ?_,
        h.metadata, h.listings, ?_⟩)
      · simp [Coalescer.receive, QuotaCache.ask, hf]
      · simpa [QuotaCache.ask, hf] using h.quota
    | none =>
      have hdesk : (c.quota.ask now caller folder).1.desk =
          (c.quota.desk.enter caller folder).1 := by
        simp [QuotaCache.ask, hf]
      refine .inr (.inr ⟨{ c with quota := (c.quota.ask now caller folder).1 },
        c.quota.desk.next, ?_, ?_, ?_⟩)
      · simp [Coalescer.receive, QuotaCache.ask, hf, h.quota.enter]
      · change (c.quota.ask now caller folder).1.desk.answer? caller = none
        rw [hdesk, h.quota.answer?_enter]
      · intro a
        let landed := (c.quota.ask now caller folder).1.land c.quota.desk.next (.answer a)
        have hlanded : landed.desk =
            (c.quota.desk.enter caller folder).1.land c.quota.desk.next (.answer a) := by
          simp [landed, QuotaCache.land, hdesk]
        have hanswer : landed.desk.answer? caller = some a := by
          rw [hlanded, h.quota.answer?_land]
        refine ⟨{ c with quota := (landed.filed now caller a).leave caller }, ?_, h.metadata,
          h.listings, ?_⟩
        · simp [land, collect, QuotaCache.collect_eq, landed, hanswer]
        · have hleft := h.quota.leave_land caller folder a
          simpa [QuotaCache.leave, QuotaCache.filed_frame, hlanded] using hleft
  | read file offset count => exact .inl rfl
  | write file replace data modified => exact .inl rfl
  | createFolder folder => exact .inl rfl
  | deleteFile file => exact .inl rfl
  | deleteFolder folder => exact .inl rfl
  | move source target replace => exact .inl rfl

end Coalescer

/-- A layer agrees with a store: what it remembers is what the store says, and nobody waits. -/
def Layer.Agrees (l : Layer) (s : Store) : Prop :=
  match l with
  | .metadata cache => cache.Agrees s
  | .coalescing c => c.Idle

/-- A new layer agrees with every store. -/
theorem Layer.agrees_of_new? {capable : Bool} {plan : LayerPlan} {l : Layer}
    (h : new? capable plan = some l) (s : Store) : l.Agrees s := by
  have hmetadata {lifetime : Nanoseconds}
      (h : (MetadataCache.new? lifetime).map metadata = some l) : l.Agrees s := by
    obtain ⟨cache, hnew, rfl⟩ := Option.map_eq_some_iff.mp h
    exact MetadataCache.agrees_of_new? hnew s
  have hcoalescing {lifetime : Nanoseconds}
      (h : (Coalescer.new? lifetime).map coalescing = some l) : l.Agrees s := by
    obtain ⟨c, hnew, rfl⟩ := Option.map_eq_some_iff.mp h
    exact Coalescer.idle_of_new? hnew
  cases plan with
  | metadata lifetime => exact hmetadata h
  | coalescing quotaLifetime => exact hcoalescing h
  | chosen settings =>
    unfold new? at h
    dsimp only at h
    split at h
    · exact hmetadata h
    · exact hcoalescing h

end LayeredStore
