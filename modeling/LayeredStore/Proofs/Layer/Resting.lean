import LayeredStore.Proofs.Layer.Counter
import LayeredStore.Proofs.Layer.Passage

/-!
# A coalescing layer between two requests

A listing can crash at the provider, and its ticket is on the board from then on; apart from such
tickets nothing is left at a coalescing layer between two requests that are made one after the
other. Main statement: a request at a layer that rests always has its way, after which the layer
rests again; what is kept of the quotas then was kept before and is not covered by the request, or
has just been asked for.
-/

namespace LayeredStore

/-! ### Desks -/

namespace Desk

variable {K V : Type} [Ord K] [Std.TransOrd K]

/-- Nobody waits at the desk and no call is under way; what is on the board has crashed. -/
structure Resting (d : Desk K V) : Prop where
  board : ∀ (key : K) (ticket : Ticket), d.board[key]? = some ticket → ticket.crashed = true
  calls : d.calls = ∅
  seats : d.seats = ∅

/-- A desk that is idle rests. -/
theorem Idle.resting {d : Desk K V} (h : d.Idle) : d.Resting where
  board := by simp [h.1]
  calls := h.2.1
  seats := h.2.2

/-- Evicting tickets leaves a desk at rest. -/
theorem Resting.evictWhere [Std.LawfulEqOrd K] {d : Desk K V} (h : d.Resting) (drop : K → Bool) :
    (d.evictWhere drop).Resting where
  board := by
    intro key ticket ht
    rw [board_evictWhere] at ht
    split at ht
    · simp at ht
    · exact h.board key ticket ht
  calls := h.calls
  seats := h.seats

/-- When the only caller has left nobody waits any more. -/
private theorem erase_insert_eq_empty {W : Type} (caller : Nat) (value : W) :
    ((∅ : Std.ExtTreeMap Nat W).insert caller value).erase caller = ∅ := by
  rw [Std.ExtTreeMap.eq_empty_iff_forall_not_mem]
  intro other
  simp [Std.ExtTreeMap.mem_erase, Std.ExtTreeMap.mem_insert]

/-- Who comes to a desk at rest joins a call that has crashed and has its answer at once, or opens
a ticket and has the outcome of its call as soon as that ends. When it has left the desk rests. -/
theorem Resting.enter [Std.LawfulEqOrd K] {d : Desk K V} (h : d.Resting) (caller : Nat) (key : K) :
    (∃ d', d.enter caller key = (d', .joined) ∧ d'.answer? caller = some (.error .lostCall) ∧
      (d'.leave caller).Resting) ∨
    ∃ d', d.enter caller key = (d', .opened d.next) ∧ d'.answer? caller = none ∧
      ∀ outcome, (d'.land d.next outcome).answer? caller = some outcome.shared ∧
        ((d'.land d.next outcome).leave caller).Resting := by
  cases hb : d.board[key]? with
  | some ticket =>
    have hcrashed : ticket.crashed = true := h.board key ticket hb
    refine .inl ⟨{ d with seats := d.seats.insert caller ⟨ticket.id, some (.error .lostCall)⟩ },
      by simp [Desk.enter, hb, hcrashed], by simp [answer?], ?_⟩
    refine ⟨h.board, h.calls, ?_⟩
    simp only [leave, h.seats]
    exact erase_insert_eq_empty caller _
  | none =>
    refine .inr ⟨⟨d.next + 1, d.board.insert key ⟨d.next, false⟩, d.calls.insert d.next key,
      d.seats.insert caller ⟨d.next, none⟩⟩, by simp [Desk.enter, hb], by simp [answer?], ?_⟩
    intro outcome
    refine ⟨by simp [land, answer?], ?_, ?_, ?_⟩
    · intro other ticket ht
      by_cases hk : key = other
      · subst hk
        cases outcome with
        | answer a => simp [land, leave, boardAfter, holds, Outcome.crashed] at ht
        | crash =>
          obtain rfl : ⟨d.next, true⟩ = ticket := by
            simpa [land, leave, boardAfter, holds, Outcome.crashed] using ht
          rfl
      · refine h.board other ticket ?_
        cases outcome <;>
          simpa [land, leave, boardAfter, holds, Outcome.crashed, Std.ExtTreeMap.getElem?_insert,
            Std.ExtTreeMap.getElem?_erase, hk] using ht
    · simp only [land, leave, Std.ExtTreeMap.getElem?_insert_self, h.calls]
      exact erase_insert_eq_empty d.next key
    · simp only [land, leave, Std.ExtTreeMap.getElem?_insert_self, h.seats]
      rw [Std.ExtTreeMap.eq_empty_iff_forall_not_mem]
      intro other
      simp [Std.ExtTreeMap.mem_erase, Std.ExtTreeMap.mem_insert]

end Desk

/-! ### The quota cache -/

namespace QuotaCache

variable {V : Type} {c : QuotaCache V} {now moment : Nanoseconds} {folder other : Path}
  {answer kept : Answer V}

/-- What is found lives. -/
private theorem exists_entry_of_find? (h : c.outcomes.find? now folder = some answer) :
    ∃ moment, c.outcomes.entries[folder]? = some (moment, answer) ∧
      now - moment < c.outcomes.lifetime := by
  obtain ⟨⟨moment, kept⟩, hentry, rfl⟩ := Option.map_eq_some_iff.mp h
  obtain ⟨hentry, hlives⟩ := Option.filter_eq_some_iff.mp hentry
  exact ⟨moment, hentry, of_decide_eq_true hlives⟩

/-- Who is alone and is not answered from memory opens a ticket, waits for the call, and leaves
with its answer; what is kept then was kept before or is that answer. -/
private theorem collect_of_miss (hidle : c.desk.Idle) (h : c.outcomes.find? now folder = none)
    (caller : Nat) :
    (c.ask now caller folder).2 = .opened c.desk.next ∧
      (c.ask now caller folder).1.desk.answer? caller = none ∧
      ∀ answer, ∃ c', ((c.ask now caller folder).1.land c.desk.next (.answer answer)).collect now
          caller = some (c', answer) ∧ c'.desk.Idle ∧
        c'.outcomes.lifetime = c.outcomes.lifetime ∧
        ∀ other moment kept, c'.outcomes.entries[other]? = some (moment, kept) →
          c.outcomes.entries[other]? = some (moment, kept) ∨
            other = folder ∧ moment = now ∧ kept = answer := by
  have hdesk : (c.ask now caller folder).1.desk = (c.desk.enter caller folder).1 := by
    simp [ask, h]
  refine ⟨by simp [ask, h, hidle.enter], by rw [hdesk, hidle.answer?_enter], ?_⟩
  intro answer
  let landed := (c.ask now caller folder).1.land c.desk.next (.answer answer)
  have hlanded : landed.desk =
      (c.desk.enter caller folder).1.land c.desk.next (.answer answer) := by
    simp [landed, land, hdesk]
  have hanswer : landed.desk.answer? caller = some answer := by
    rw [hlanded, hidle.answer?_land]
  refine ⟨(landed.filed now caller answer).leave caller, by simp [landed, collect_eq, hanswer],
    ?_, ?_, ?_⟩
  · have hleft := hidle.leave_land caller folder answer
    simpa [leave, filed_frame, hlanded] using hleft
  · simp [leave, filed_frame, landed, land, ask, h]
  · intro other moment kept he
    have he : (landed.filed now caller answer).outcomes.entries[other]? = some (moment, kept) := he
    rcases entries_filed he with hentry | ⟨hlookup, -, rfl, rfl⟩
    · exact .inl (by simpa [landed, land, ask, h] using hentry)
    · obtain rfl : folder = other := by simpa [landed, land, ask, h] using hlookup
      exact .inr ⟨rfl, rfl, rfl⟩

end QuotaCache

/-! ### Coalescing layers -/

namespace Coalescer

/-- Nobody waits at the layer, and nothing but crashed listings is on its boards. -/
structure Resting (c : Coalescer) : Prop where
  metadata : c.metadata.Idle
  listings : c.listings.Resting
  quota : c.quota.desk.Idle

/-- A layer that is idle rests. -/
theorem Idle.resting {c : Coalescer} (h : c.Idle) : c.Resting :=
  ⟨h.metadata, h.listings.resting, h.quota⟩

/-- A layer rests still when a request has come back. -/
theorem Resting.returned {c : Coalescer} (h : c.Resting) (r : Request) :
    (c.returned r).Resting := by
  have hmetadata : (c.returned r).metadata =
      c.metadata.evictWhere fun path => r.covers (.metadata path) := Counter.metadata.returned c r
  have hlistings : (c.returned r).listings =
      c.listings.evictWhere fun key => r.covers (.list key.folder key.token) :=
    Counter.listings.returned c r
  have hquota : (c.returned r).quota.desk =
      c.quota.desk.evictWhere fun folder => r.covers (.quota folder) := Counter.quota.returned c r
  refine ⟨?_, ?_, ?_⟩
  · rw [hmetadata]
    exact h.metadata.evictWhere _
  · rw [hlistings]
    exact h.listings.evictWhere _
  · rw [hquota]
    exact h.quota.evictWhere _

/-- Forgetting quotas does not change how long they are kept. -/
private theorem lifetime_returned (c : Coalescer) (r : Request) :
    (c.returned r).quota.outcomes.lifetime = c.quota.outcomes.lifetime := by
  cases r <;> rfl

/-- A request leaves a layer with no more of the quotas than what was kept before and is not
covered by the request, and what it has been answered itself. -/
structure Leaves (c : Coalescer) (now : Nanoseconds) (r : Request) (outcome : Outcome Reply)
    (c' : Coalescer) : Prop where
  resting : c'.Resting
  lifetime : c'.quota.outcomes.lifetime = c.quota.outcomes.lifetime
  kept : ∀ (folder : Path) (moment : Nanoseconds) (answer : Answer Reply),
    c'.kept? (.quota folder) = some (moment, answer) →
    c.kept? (.quota folder) = some (moment, answer) ∧ r.covers (.quota folder) = false ∨
      r = .quota folder ∧ moment = now ∧ .answer answer = outcome

/-- A request that leaves the quotas alone leaves a layer that rests. -/
private theorem leaves_of_quota (c : Coalescer) {c' : Coalescer} (hresting : c'.Resting)
    (hquota : c'.quota = c.quota) {r : Request} (hcovers : ∀ lookup, r.covers lookup = false)
    (now : Nanoseconds) (outcome : Outcome Reply) : c.Leaves now r outcome c' where
  resting := hresting
  lifetime := by rw [hquota]
  kept := by
    intro folder moment answer hkept
    refine .inl ⟨?_, hcovers _⟩
    simpa [kept?, hquota] using hkept

/-- A request that comes back leaves a layer that rests. -/
private theorem Resting.leaves_returned {c : Coalescer} (h : c.Resting) (now : Nanoseconds)
    (r : Request) (outcome : Outcome Reply) : c.Leaves now r outcome (c.returned r) where
  resting := h.returned r
  lifetime := c.lifetime_returned r
  kept := by
    intro folder moment answer hkept
    rw [kept?_returned] at hkept
    split at hkept
    · simp at hkept
    · next hcovers => exact .inl ⟨hkept, Bool.eq_false_iff.mpr hcovers⟩

end Coalescer

/-! ### The way of a request -/

/-- A request has its way through a layer. A quota is answered as the provider answers it, or with
what is kept and lives. -/
structure Coalescer.Passes (c : Coalescer) (now : Nanoseconds) (caller : Nat) (p : Provider)
    (r : Request) (c' : Coalescer) (outcome : Outcome Reply) : Prop where
  way : Passage now r caller [.coalescing c] p [.coalescing c'] (p.serve ⟨now⟩ r).1 outcome
  leaves : c.Leaves now r (p.serve ⟨now⟩ r).2 c'
  quota : r.operation = .quota → outcome = (p.serve ⟨now⟩ r).2 ∨
    ∃ answer moment, outcome = .answer answer ∧ c.kept? r = some (moment, answer) ∧
      now - moment < c.quota.outcomes.lifetime

namespace Passage

variable {now : Nanoseconds} {caller : Nat} {p : Provider} {r : Request} {l l' l'' : Layer}
  {a : Answer Reply}

/-- A request has its way through a layer that lets it pass. -/
private theorem of_passed (hl : l.receive now caller r = (l, none)) (p : Provider) :
    Passage now r caller [l] p [l.back now r (p.serve ⟨now⟩ r).2] (p.serve ⟨now⟩ r).1
      (p.serve ⟨now⟩ r).2 := by
  have hpass : ∀ m ∈ [l], (m.receive now caller r).2 = none := by simp [hl]
  simpa [Layer.passed, hl] using served (p := p) hpass

/-- A request has its way if it opens a ticket and has its answer when the call has ended. -/
theorem of_opened {ticket : Nat} (hl : l.receive now caller r = (l', some (.opened ticket)))
    (hwait : l'.answer? caller r = none)
    (hleave : (l'.land r ticket (p.serve ⟨now⟩ r).2).collect now caller r = some (l'', a)) :
    Passage now r caller [l] p [l''] (p.serve ⟨now⟩ r).1 (.answer a) :=
  shared (List.forall_mem_nil _) hl hwait (served (List.forall_mem_nil _)) hleave

end Passage

namespace Coalescer

variable {c : Coalescer}

/-- A request that does not ask for something to be shared passes a layer at rest, unless it
crashes at the provider. -/
private theorem Resting.passes_returned (h : c.Resting) {now : Nanoseconds} {caller : Nat}
    {p : Provider} {r : Request} (hl : c.receive now caller r = (c, none))
    (hr : r.operation ≠ .quota) (hserve : (p.serve ⟨now⟩ r).2 ≠ .crash) :
    c.Passes now caller p r (c.returned r) (p.serve ⟨now⟩ r).2 where
  way := by
    have hreceive : (Layer.coalescing c).receive now caller r = (.coalescing c, none) := by
      simp [Layer.receive, hl]
    have hway := Passage.of_passed hreceive p
    cases ho : (p.serve ⟨now⟩ r).2 with
    | crash => exact absurd ho hserve
    | answer a =>
      rw [ho] at hway
      exact hway
  leaves := h.leaves_returned now r _
  quota := fun hquota => absurd hquota hr

/-- A request for metadata has its way through a layer at rest. -/
private theorem Resting.exists_passes_metadata (h : c.Resting) (now : Nanoseconds) (caller : Nat)
    (p : Provider) (path : Path) :
    ∃ c' outcome, c.Passes now caller p (.metadata path) c' outcome := by
  let answer := (p.store.metadata path).map Reply.item
  let entered := (c.metadata.enter caller path).1
  let c' : Coalescer := { c with
    metadata := (entered.land c.metadata.next (.answer answer)).leave caller }
  have hreceive : (Layer.coalescing c).receive now caller (.metadata path) =
      (.coalescing { c with metadata := entered }, some (.opened c.metadata.next)) := by
    simp [Layer.receive, Coalescer.receive, h.metadata.enter, entered]
  have hwait : (Layer.coalescing { c with metadata := entered }).answer? caller
      (.metadata path) = none := h.metadata.answer?_enter caller path
  have hleave : ((Layer.coalescing { c with metadata := entered }).land (.metadata path)
      c.metadata.next (.answer answer)).collect now caller (.metadata path) =
      some (.coalescing c', answer) := by
    simp [Layer.land, Layer.collect, Coalescer.land, Coalescer.collect, entered, c',
      h.metadata.answer?_land]
  have hresting : c'.Resting := ⟨h.metadata.leave_land caller path answer, h.listings, h.quota⟩
  exact ⟨c', .answer answer, .of_opened hreceive hwait hleave,
    c.leaves_of_quota hresting rfl (fun _ => rfl) now _, by simp [Request.operation]⟩

/-- A request for a page has its way through a layer at rest, even if it crashes at the provider
or has crashed there before. -/
private theorem Resting.exists_passes_list (h : c.Resting) (now : Nanoseconds) (caller : Nat)
    (p : Provider) (folder : Path) (token : Option String) :
    ∃ c' outcome, c.Passes now caller p (.list folder token) c' outcome := by
  let outcome := (p.serve ⟨now⟩ (.list folder token)).2
  have hleaves {d : Desk PageKey Reply} (hd : d.Resting) :
      c.Leaves now (.list folder token) outcome { c with listings := d } := by
    have hresting : ({ c with listings := d } : Coalescer).Resting := ⟨h.metadata, hd, h.quota⟩
    exact c.leaves_of_quota hresting rfl (fun _ => rfl) now _
  rcases h.listings.enter caller ⟨folder, token⟩ with
    ⟨d, hjoined, hanswer, hresting⟩ | ⟨d, hopened, hwait, hend⟩
  · have hreceive : (Layer.coalescing c).receive now caller (.list folder token) =
        (.coalescing { c with listings := d }, some .joined) := by
      simp [Layer.receive, Coalescer.receive, hjoined]
    have hleave : (Layer.coalescing { c with listings := d }).collect now caller
        (.list folder token) =
        some (.coalescing { c with listings := d.leave caller }, .error .lostCall) := by
      simp [Layer.collect, Coalescer.collect, hanswer]
    exact ⟨_, _, .joined (List.forall_mem_nil _) hreceive hleave, hleaves hresting,
      by simp [Request.operation]⟩
  · obtain ⟨hanswer, hresting⟩ := hend outcome
    have hreceive : (Layer.coalescing c).receive now caller (.list folder token) =
        (.coalescing { c with listings := d }, some (.opened c.listings.next)) := by
      simp [Layer.receive, Coalescer.receive, hopened]
    have hleave : ((Layer.coalescing { c with listings := d }).land (.list folder token)
        c.listings.next outcome).collect now caller (.list folder token) =
        some (.coalescing { c with listings := (d.land c.listings.next outcome).leave caller },
          outcome.shared) := by
      simp [Layer.land, Layer.collect, Coalescer.land, Coalescer.collect, hanswer]
    exact ⟨_, _, .of_opened hreceive hwait hleave, hleaves hresting, by simp [Request.operation]⟩

/-- A request for a quota has its way through a layer at rest: it is answered from memory, or the
provider is asked. -/
private theorem Resting.exists_passes_quota (h : c.Resting) (now : Nanoseconds) (caller : Nat)
    (p : Provider) (folder : Path) :
    ∃ c' outcome, c.Passes now caller p (.quota folder) c' outcome := by
  cases hf : c.quota.outcomes.find? now folder with
  | some a =>
    obtain ⟨moment, hentry, hlives⟩ := QuotaCache.exists_entry_of_find? hf
    let c' : Coalescer := { c with quota := (c.quota.ask now caller folder).1 }
    have hreceive : (Layer.coalescing c).receive now caller (.quota folder) =
        (.coalescing c', some (.answered a)) := by
      simp [Layer.receive, Coalescer.receive, QuotaCache.ask, hf, c']
    have hleaves : c.Leaves now (.quota folder) (p.serve ⟨now⟩ (.quota folder)).2 c' := by
      refine ⟨⟨h.metadata, h.listings, ?_⟩, ?_, ?_⟩
      · simpa [c', QuotaCache.ask, hf] using h.quota
      · simp [c', QuotaCache.ask, hf]
      · intro other since answer hkept
        exact .inl ⟨by simpa [kept?, c', QuotaCache.ask, hf] using hkept, rfl⟩
    exact ⟨c', _, .answered (List.forall_mem_nil _) hreceive, hleaves,
      fun _ => .inr ⟨a, moment, rfl, hentry, hlives⟩⟩
  | none =>
    obtain ⟨hopened, hwait, hend⟩ := QuotaCache.collect_of_miss h.quota hf caller
    let answer := (p.folderQuota folder).map Reply.quota
    let entered := (c.quota.ask now caller folder).1
    obtain ⟨left, hcollect, hidle, hlifetime, hkept⟩ := hend answer
    let c' : Coalescer := { c with quota := left }
    have hreceive : (Layer.coalescing c).receive now caller (.quota folder) =
        (.coalescing { c with quota := entered }, some (.opened c.quota.desk.next)) := by
      simp [Layer.receive, Coalescer.receive, entered, ← hopened]
    have hleave : ((Layer.coalescing { c with quota := entered }).land (.quota folder)
        c.quota.desk.next (.answer answer)).collect now caller (.quota folder) =
        some (.coalescing c', answer) := by
      simp [Layer.land, Layer.collect, Coalescer.land, Coalescer.collect, entered, c', hcollect]
    have hleaves : c.Leaves now (.quota folder) (.answer answer) c' := by
      refine ⟨⟨h.metadata, h.listings, hidle⟩, hlifetime, ?_⟩
      intro other moment kept he
      rcases hkept other moment kept he with he | ⟨rfl, hmoment, rfl⟩
      · exact .inl ⟨he, rfl⟩
      · exact .inr ⟨rfl, hmoment, rfl⟩
    exact ⟨c', _, .of_opened hreceive hwait hleave, hleaves, fun _ => .inl rfl⟩

/-- A request has its way through a layer at rest, unless it crashes at the provider. Only a
listing may do that. -/
theorem Resting.exists_passes (h : c.Resting) {now : Nanoseconds} {p : Provider} {r : Request}
    (hserve : r.operation ≠ .list → (p.serve ⟨now⟩ r).2 ≠ .crash) (caller : Nat) :
    ∃ c' outcome, c.Passes now caller p r c' outcome := by
  have hpassed (hl : c.receive now caller r = (c, none))
      (hr : r.operation ≠ .list ∧ r.operation ≠ .quota) :
      ∃ c' outcome, c.Passes now caller p r c' outcome :=
    ⟨_, _, h.passes_returned hl hr.2 (hserve hr.1)⟩
  cases r with
  | metadata path => exact h.exists_passes_metadata now caller p path
  | list folder token => exact h.exists_passes_list now caller p folder token
  | quota folder => exact h.exists_passes_quota now caller p folder
  | read file offset count => exact hpassed rfl (by simp [Request.operation])
  | write file replace data modified => exact hpassed rfl (by simp [Request.operation])
  | createFolder folder => exact hpassed rfl (by simp [Request.operation])
  | deleteFile file => exact hpassed rfl (by simp [Request.operation])
  | deleteFolder folder => exact hpassed rfl (by simp [Request.operation])
  | move source target replace => exact hpassed rfl (by simp [Request.operation])

end Coalescer
end LayeredStore
