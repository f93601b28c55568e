import LayeredStore.Proofs.Traffic.Coalescing

/-!
# What callers learn after a change

A request that may change something has come back through a coalescing layer, and its caller has
been told. Main statements: whoever asks afterwards for something that the request covers is
answered by a call of the provider that was made after the provider had answered the request, and
nothing else is forgotten; whoever asks for a page of any folder is answered by a listing that
took effect later than the request, or by one that was on the board at that moment.
-/

namespace LayeredStore.Traffic.Watched

section Counters

variable {K : Type} [Ord K] [Std.TransOrd K] {v : Coalescer.Counter K} {w : Watched}
  {c : Coalescer} {book : Desk.Watched K Reply}

/-- The calls that a request covers are evicted when it comes back. -/
private theorem evicted_of_returned {now : Nanoseconds} {r : Request}
    {call : Desk.CallRecord K Reply}
    (hcall : call ∈ (book.after (v.events c now (.returned r))).calls)
    (hcovers : r.covers (v.request call.key) = true) : call.evicted = true := by
  have hcall : call ∈ book.calls.map (·.after (.evictWhere fun k => r.covers (v.request k))) :=
    hcall
  obtain ⟨earlier, -, rfl⟩ := List.mem_map.mp hcall
  have hkey : r.covers (v.request earlier.key) = true := hcovers
  simp [Desk.CallRecord.after, Desk.Event.evicts, hkey]

/-- A call of the provider for a ticket that is opened later is made later. -/
private theorem Keeps.moment_le_made (h : Keeps v w c book) (hs : w.Sound) {es : List Event}
    {n ticket : Nat} {call : CallRecord} (hcall : (w.after es).calls[n]? = some call)
    (horigin : call.origin = .ticket 0 ticket) {k : K} (hrequest : call.request = v.request k)
    (hticket : book.desk.next ≤ ticket) : w.moment ≤ call.made := by
  rcases hs.calls_after hcall with ⟨earlier, hearlier, ho, hr, -⟩ | hmade
  · obtain ⟨r, hr, rfl, -⟩ :=
      h.calls n ticket k earlier hearlier (ho.trans horigin) (hr.trans hrequest)
    have := h.sound.bounded r hr
    omega
  · exact hmade

variable [Std.LawfulEqOrd K]

/-- Who comes later shares a call of a ticket that is opened later, or the one on the board. -/
private theorem Keeps.share_later (h : Keeps v w c book) {ds : List (Desk.Event K Reply)} {id : Nat}
    (hid : w.traffic.next ≤ id) {ticket : Nat} {k : K}
    (hshare : (book.after ds).shares[id]? = some (k, ticket)) :
    book.desk.next ≤ ticket ∨ ∃ t, (v.desk c).board[k]? = some t ∧ t.id = ticket := by
  rw [← h.desk]
  refine h.sound.share_after ?_ hshare
  cases hs : book.shares[id]? with
  | none => rfl
  | some share =>
    have := h.known id share.2 share.1 hs
    omega

/-- Who comes later is answered from memory, by the call on the board, or by one that is made
later. -/
private theorem Keeps.of_reports_later (h : Keeps v w c book) (hs : w.Sound) {es : List Event}
    {ds : List (Desk.Event K Reply)} {c' : Coalescer} (h' : Keeps v (w.after es) c' (book.after ds))
    (hl' : (w.after es).traffic.layers = [.coalescing c']) {k : K}
    (hwaits : (w.after es).Waits (v.request k)) {id : Nat} (hid : w.traffic.next ≤ id)
    {outcome : Outcome Reply} (hreports : (w.after es).Reports id (v.request k) outcome) :
    (∃ a, (c'.receive (w.after es).traffic.now id (v.request k)).2 = some (.answered a) ∧
      outcome = .answer a) ∨
    ∃ (n : Nat) (call : CallRecord) (brought : Outcome Reply),
      (w.after es).calls[n]? = some call ∧ call.request = v.request k ∧ call.Brought brought ∧
        outcome = .answer brought.shared ∧
        (w.moment ≤ call.made ∨
          ∃ t, (v.desk c).board[k]? = some t ∧ call.origin = .ticket 0 t.id) := by
  rcases h'.of_reports (hs.after es) hl' hwaits hreports with
    hmemory | ⟨ticket, n, call, brought, hshare, hcall, horigin, hrequest, hb, ho⟩
  · exact .inl hmemory
  · refine .inr ⟨n, call, brought, hcall, hrequest, hb, ho, ?_⟩
    rcases h.share_later hid hshare with hticket | ⟨t, ht, rfl⟩
    · exact .inl (h.moment_le_made hs hcall horigin hrequest hticket)
    · exact .inr ⟨t, ht, horigin⟩

end Counters

/-! ### New layers -/

section New

variable {lifetime now : Nanoseconds} {c : Coalescer}

/-- A new layer has empty desks and a new quota cache. -/
theorem eq_of_new? (h : Coalescer.new? lifetime = some c) :
    c.metadata = .empty ∧ c.listings = .empty ∧ c.quota.desk = .empty ∧
      QuotaCache.new? lifetime = some c.quota := by
  obtain ⟨quota, hnew, rfl⟩ := Option.map_eq_some_iff.mp h
  refine ⟨rfl, rfl, ?_, hnew⟩
  rw [QuotaCache.eq_of_new? hnew]

/-- The ledger of every counter is kept from the start of a new layer. -/
theorem exists_keeps {K : Type} [Ord K] [Std.TransOrd K] [Std.LawfulEqOrd K]
    {v : Coalescer.Counter K} (hv : v.desk c = .empty) (now : Nanoseconds) (es : List Event) :
    ∃ c' book, ((start (.coalescing c) now).after es).traffic.layers = [.coalescing c'] ∧
      Keeps v ((start (.coalescing c) now).after es) c' book := by
  obtain ⟨c', ds, hl, h⟩ := (keeps_start hv (.coalescing c) now).after (sound_start _ _) rfl es
  exact ⟨c', _, hl, h⟩

/-- So is the session of its quota cache. -/
private theorem exists_keepsQuota (h : Coalescer.new? lifetime = some c) (now : Nanoseconds)
    (es : List Event) :
    ∃ c' qs, ((start (.coalescing c) now).after es).traffic.layers = [.coalescing c'] ∧
      KeepsQuota ((start (.coalescing c) now).after es) c'
        ((QuotaCache.Watched.start c.quota now).after qs) := by
  obtain ⟨-, -, hdesk, -⟩ := eq_of_new? h
  have hstart : KeepsQuota (start (.coalescing c) now) c (.start c.quota now) :=
    ⟨keeps_start hdesk _ now, rfl, rfl⟩
  obtain ⟨c', qs, -, hl, -, h'⟩ := hstart.after (sound_start _ _) rfl es
  exact ⟨c', qs, hl, h'⟩

/-- Callers at the counters of a new layer wait there. -/
private theorem waits_after_start {K : Type} [Ord K] [Std.TransOrd K] (v : Coalescer.Counter K)
    (k : K) (c : Coalescer) (now : Nanoseconds) (es : List Event) :
    ((start (.coalescing c) now).after es).Waits (v.request k) := by
  refine (sound_start (.coalescing c) now).waits_after rfl ?_ es
  simp [Waits, start, Traffic.start]

/-- A quota that is answered from memory was brought by a call that is not evicted. -/
private theorem KeepsQuota.of_memory {quota : QuotaCache Reply}
    (hnew : QuotaCache.new? lifetime = some quota) {w : Watched}
    {qs : List (QuotaCache.Event Reply)}
    (h : KeepsQuota w c ((QuotaCache.Watched.start quota now).after qs)) {id : Nat} {folder : Path}
    {a : Answer Reply} (hit : (c.receive w.traffic.now id (.quota folder)).2 = some (.answered a)) :
    ∃ r ∈ ((QuotaCache.Watched.start quota now).after qs).book.calls,
      r.key = folder ∧ r.evicted = false ∧
      ∃ (n : Nat) (call : CallRecord) (brought : Outcome Reply), w.calls[n]? = some call ∧
        call.origin = .ticket 0 r.ticket ∧ call.request = .quota folder ∧ call.Brought brought ∧
        a = brought.shared := by
  have hask : (c.quota.ask w.traffic.now id folder).2 = .answered a := Option.some.inj hit
  rw [← h.cache] at hask
  obtain ⟨moment, hentry, -⟩ := QuotaCache.Watched.entry_of_answered hask
  obtain ⟨-, -, r, hr, rfl, he, ho⟩ :=
    (QuotaCache.Watched.sound_after hnew qs).kept folder moment a hentry
  obtain ⟨brought, hended, rfl⟩ := Option.map_eq_some_iff.mp ho
  obtain ⟨n, call, hcall, horigin, hrequest, hb⟩ := h.keeps.ended r hr brought hended
  exact ⟨r, hr, rfl, he, n, call, brought, hcall, horigin, hrequest, hb, rfl⟩

/-- At the counters for metadata and pages nothing is answered from memory. -/
private theorem enter_ne_answered {K : Type} [Ord K] [Std.TransOrd K] (d : Desk K Reply)
    (caller : Nat) (k : K) (a : Answer Reply) : (d.enter caller k).2 ≠ .answered a := by
  cases hb : d.board[k]? <;> simp [Desk.enter, hb]

variable {es : List Event} {id : Nat} {r : Request} {a : Answer Reply}

/-- The counters for metadata and pages answer, when a request has come back, by calls that are made
later or have a ticket on the board. -/
theorem exists_later_or_on_board {K : Type} [Ord K] [Std.TransOrd K] [Std.LawfulEqOrd K]
    {v : Coalescer.Counter K} (hv : v.desk c = .empty)
    (hmemory : ∀ (c' : Coalescer) now caller k a,
      (c'.receive now caller (v.request k)).2 ≠ some (.answered a))
    (hr : r.isMutation = true)
    (hreturned : ((start (.coalescing c) now).after es).Reports id r (.answer a))
    {before : Coalescer}
    (hbefore : ((start (.coalescing c) now).after es).traffic.layers = [.coalescing before])
    {since : List Event} {other : Nat}
    (hother : (((start (.coalescing c) now).after es).step (.run id)).traffic.next ≤ other)
    {k : K} {outcome : Outcome Reply}
    (hreports : ((((start (.coalescing c) now).after es).step (.run id)).after since).Reports other
      (v.request k) outcome) :
    ∃ (n : Nat) (call : CallRecord) (brought : Outcome Reply),
      ((((start (.coalescing c) now).after es).step (.run id)).after since).calls[n]? =
        some call ∧ call.request = v.request k ∧ call.Brought brought ∧
      outcome = .answer brought.shared ∧
      (((start (.coalescing c) now).after es).moment < call.made ∨
        ∃ t, (v.desk (before.returned r)).board[k]? = some t ∧ call.origin = .ticket 0 t.id) := by
  have hs := sound_after_start (.coalescing c) now es
  obtain ⟨c₁, book, hl, h⟩ := exists_keeps hv now es
  obtain rfl : c₁ = before := by simpa [hl] using hbefore
  obtain ⟨-, hm⟩ := hs.of_reports_mutation hl hr hreturned
  have hreturn := h.step hs hm
  obtain ⟨c₂, ds, hl', h'⟩ := hreturn.after (hs.step _) hm.layers since
  have hwaits := waits_after_start v k c now (es ++ .run id :: since)
  rw [after_append, after_cons] at hwaits
  rcases hreturn.of_reports_later (hs.step _) h' hl' hwaits hother hreports with
    ⟨a', ha, -⟩ | ⟨n, call, brought, hcall, hrequest, hb, ho, hmade⟩
  · exact absurd ha (hmemory _ _ _ _ _)
  · rw [moment_step] at hmade
    exact ⟨n, call, brought, hcall, hrequest, hb, ho, hmade⟩

/-- What a request covers is not on the board when the request has come back, so that it is answered
by a call that is made later. -/
theorem exists_later_call {K : Type} [Ord K] [Std.TransOrd K] [Std.LawfulEqOrd K]
    {v : Coalescer.Counter K} (hv : v.desk c = .empty)
    (hmemory : ∀ (c' : Coalescer) now caller k a,
      (c'.receive now caller (v.request k)).2 ≠ some (.answered a))
    (hr : r.isMutation = true)
    (hreturned : ((start (.coalescing c) now).after es).Reports id r (.answer a)) {k : K}
    (hcovers : r.covers (v.request k) = true) {since : List Event} {other : Nat}
    (hother : (((start (.coalescing c) now).after es).step (.run id)).traffic.next ≤ other)
    {outcome : Outcome Reply}
    (hreports : ((((start (.coalescing c) now).after es).step (.run id)).after since).Reports other
      (v.request k) outcome) :
    ∃ (n : Nat) (call : CallRecord) (brought : Outcome Reply),
      ((((start (.coalescing c) now).after es).step (.run id)).after since).calls[n]? =
        some call ∧ call.request = v.request k ∧ call.Brought brought ∧
      outcome = .answer brought.shared ∧ ((start (.coalescing c) now).after es).moment <
        call.made := by
  obtain ⟨before, -, hl, -⟩ := exists_keeps hv now es
  obtain ⟨n, call, brought, hcall, hrequest, hb, ho, hmade | ⟨t, ht, -⟩⟩ :=
    exists_later_or_on_board hv hmemory hr hreturned hl hother hreports
  · exact ⟨n, call, brought, hcall, hrequest, hb, ho, hmade⟩
  · rw [v.board_returned, if_pos hcovers] at ht
    simp at ht

/-- The quota counter, too, answers what a request covers by calls that are made after the request
has come back, whether from memory or not. -/
theorem exists_later_quota_call (hnew : Coalescer.new? lifetime = some c)
    (hr : r.isMutation = true)
    (hreturned : ((start (.coalescing c) now).after es).Reports id r (.answer a)) {folder : Path}
    (hcovers : r.covers (.quota folder) = true) {since : List Event} {other : Nat}
    (hother : (((start (.coalescing c) now).after es).step (.run id)).traffic.next ≤ other)
    {outcome : Outcome Reply}
    (hreports : ((((start (.coalescing c) now).after es).step (.run id)).after since).Reports other
      (.quota folder) outcome) :
    ∃ (n : Nat) (call : CallRecord) (brought : Outcome Reply),
      ((((start (.coalescing c) now).after es).step (.run id)).after since).calls[n]? =
        some call ∧ call.request = .quota folder ∧ call.Brought brought ∧
      outcome = .answer brought.shared ∧ ((start (.coalescing c) now).after es).moment <
        call.made := by
  have hs := sound_after_start (.coalescing c) now es
  obtain ⟨-, -, -, hquota⟩ := eq_of_new? hnew
  obtain ⟨c₁, qs, hl, h⟩ := exists_keepsQuota hnew now es
  obtain ⟨-, hm⟩ := hs.of_reports_mutation hl hr hreturned
  obtain ⟨hbook, hstep⟩ := h.step hs hm
  obtain ⟨c₂, qs', ds, hl', hbook', h'⟩ := hstep.after (hs.step _) hm.layers since
  have hkeeps := h'.keeps
  rw [hbook'] at hkeeps
  have hwaits := waits_after_start .quota folder c now (es ++ .run id :: since)
  rw [after_append, after_cons] at hwaits
  rcases hstep.keeps.of_reports_later (hs.step _) hkeeps hl' hwaits hother hreports with
    ⟨a', hit, rfl⟩ | ⟨n, call, brought, hcall, hrequest, hb, ho, hmade | ⟨t, ht, -⟩⟩
  · rw [← QuotaCache.Watched.after_append, ← QuotaCache.Watched.after_append] at h'
    obtain ⟨call, hcall, rfl, he, n, made, brought, hmade, horigin, hrequest, hb, rfl⟩ :=
      h'.of_memory hquota hit
    rw [QuotaCache.Watched.after_append, QuotaCache.Watched.after_append, hbook'] at hcall
    have hticket := Desk.Watched.le_ticket_of_not_evicted hcall he fun earlier hearlier hkey =>
      evicted_of_returned (hbook ▸ hearlier) (hkey ▸ hcovers)
    have hlater := hstep.keeps.moment_le_made (hs.step _) hmade horigin hrequest hticket
    rw [moment_step] at hlater
    exact ⟨n, made, brought, hmade, hrequest, hb, rfl, hlater⟩
  · rw [moment_step] at hmade
    exact ⟨n, call, brought, hcall, hrequest, hb, ho, hmade⟩
  · have hnone : (Coalescer.Counter.quota.desk (c₁.returned r)).board[folder]? = none :=
      (Coalescer.Counter.quota.board_returned c₁ r folder).trans (if_pos hcovers)
    exact absurd (hnone.symm.trans ht) (by simp)

end New

/-! ### Main results -/

variable {lifetime now : Nanoseconds} {c : Coalescer}

/-- **What a request covers is fresh once it has come back, and nothing else is forgotten.** Let
the caller of a request that may change something be told its answer, good or bad, at any moment of
any run. Whoever asks later for metadata, a page or a quota that the request covers, and is told
anything, is told what a call of the provider for the same has brought, and that call was made
after the provider had answered the request. The tickets and the kept quotas that the request does
not cover are the same before and after it comes back.

What a task does between two points where it waits is one step here, which nothing divides. On
several threads at once an invalidation can come between the check of the generation and the
insertion when a quota is brought to the quota cache; such a run is not among those described. -/
theorem covered_lookups_are_fresh (hnew : Coalescer.new? lifetime = some c) (es : List Event)
    {id : Nat} {r : Request} (hr : r.isMutation = true) {a : Answer Reply}
    (hreturned : ((start (.coalescing c) now).after es).Reports id r (.answer a)) :
    let w := (start (.coalescing c) now).after es
    (∃ own answered, w.calls[id]? = some own ∧ own.request = r ∧ own.answered = some answered ∧
      ∀ later since lookup outcome, r.covers lookup = true →
        let asked := w.after (.run id :: later)
        asked.Learns lookup since outcome →
        ∃ (n : Nat) (call : CallRecord) (brought : Outcome Reply),
          (asked.after (.issue lookup :: since)).calls[n]? = some call ∧
          call.request = lookup ∧ call.Brought brought ∧ outcome = .answer brought.shared ∧
          answered < call.made) ∧
    ∃ before left, w.traffic.layers = [.coalescing before] ∧
      (w.step (.run id)).traffic.layers = [.coalescing left] ∧
      ∀ lookup, r.covers lookup = false →
        left.ticket? lookup = before.ticket? lookup ∧
          left.kept? lookup = before.kept? lookup := by
  intro w
  obtain ⟨hmetadata, hlistings, -, -⟩ := eq_of_new? hnew
  have hs : w.Sound := sound_after_start (.coalescing c) now es
  obtain ⟨before, -, hl, -⟩ := exists_keeps (v := .metadata) hmetadata now es
  obtain ⟨htask, hm⟩ := hs.of_reports_mutation hl hr hreturned
  obtain ⟨own, -, answered, hown, hrequest, -, hanswered, -, hlt⟩ :=
    hs.exists_call_of_responded htask
  refine ⟨⟨own, answered, hown, hrequest, hanswered, ?_⟩, before, before.returned r, hl, hm.layers,
    ?_⟩
  · intro later since lookup outcome hcovers asked hlearns
    have htold : asked.after (.issue lookup :: since) =
        (w.step (.run id)).after (later ++ .issue lookup :: since) :=
      after_cons_after_cons w _ _ later since
    have hreports : (asked.after (.issue lookup :: since)).Reports asked.traffic.next lookup
      outcome := hlearns
    have hother : (w.step (.run id)).traffic.next ≤ asked.traffic.next :=
      ((hs.step (.run id)).follows_after later).next
    rw [htold] at hreports ⊢
    have hcall : ∃ (n : Nat) (call : CallRecord) (brought : Outcome Reply),
        ((w.step (.run id)).after (later ++ .issue lookup :: since)).calls[n]? = some call ∧
        call.request = lookup ∧ call.Brought brought ∧ outcome = .answer brought.shared ∧
        w.moment < call.made := by
      cases lookup with
      | metadata path =>
        exact exists_later_call (v := .metadata) hmetadata
          (fun c' _ caller k a h => enter_ne_answered c'.metadata caller k a (Option.some.inj h))
          hr hreturned hcovers hother hreports
      | list folder token =>
        exact exists_later_call (v := .listings) (k := ⟨folder, token⟩) hlistings
          (fun c' _ caller k a h => enter_ne_answered c'.listings caller k a (Option.some.inj h))
          hr hreturned hcovers hother hreports
      | quota folder => exact exists_later_quota_call hnew hr hreturned hcovers hother hreports
      | _ => cases r <;> simp [Request.covers, Request.isAt, Request.isBelow] at hcovers
    obtain ⟨n, call, brought, hcall, hlookup, hb, ho, hmade⟩ := hcall
    exact ⟨n, call, brought, hcall, hlookup, hb, ho, Nat.lt_trans hlt hmade⟩
  · intro lookup hcovers
    rw [before.ticket?_returned, before.kept?_returned, hcovers]
    exact ⟨rfl, rfl⟩

/-- A quota is asked for again after a move that an earlier lookup of it has straddled: a new call
is made, which finds that the folder is gone. -/
theorem covered_lookups_are_fresh_after_move :
    let a : Path := ⟨true, ["a"]⟩
    let b : Path := ⟨true, ["a", "b"]⟩
    let target : Path := ⟨true, ["c"]⟩
    let es : List Event := [.issue (.quota b), .run 0, .run 1,
      .effect 1 (.value (.quota ⟨5, none, none⟩)), .issue (.move a target false), .run 2,
      .effect 2 (.value (.path target)), .respond 2]
    let later : List Event := [.respond 1, .run 1, .run 0]
    let since : List Event := [.run 3, .run 4, .effect 4 (.failure (.notFound b)), .respond 4,
      .run 4]
    ∃ c, Coalescer.new? (ofSeconds 10) = some c ∧
      let w := (start (.coalescing c) 0).after es
      let asked := w.after (.run 2 :: later)
      w.Reports 2 (.move a target false) (.value (.path target)) ∧
      asked.Learns (.quota b) since (.failure (.notFound b)) ∧
      ∃ (own : CallRecord) (answered n : Nat) (call : CallRecord), w.calls[2]? = some own ∧
        own.answered = some answered ∧
        (asked.after (.issue (.quota b) :: since)).calls[n]? = some call ∧
        call.request = .quota b ∧ answered < call.made := by
  intro a b target es later since
  let c : Coalescer := ⟨.empty, .empty, ⟨⟨ofSeconds 10, ∅⟩, .empty, 0, ∅, .zero⟩⟩
  have hnew : Coalescer.new? (ofSeconds 10) = some c := rfl
  refine ⟨c, hnew, ?_⟩
  intro w asked
  have hreturned : w.Reports 2 (.move a target false) (.value (.path target)) := by
    decide +kernel
  have htold : asked.Learns (.quota b) since (.failure (.notFound b)) := by decide +kernel
  obtain ⟨⟨own, answered, hown, -, hanswered, hfresh⟩, -⟩ :=
    covered_lookups_are_fresh hnew es rfl hreturned
  obtain ⟨n, call, -, hcall, hrequest, -, -, hmade⟩ :=
    hfresh later since _ _ (by decide +kernel) htold
  exact ⟨hreturned, htold, own, answered, n, call, hown, hanswered, hcall, hrequest, hmade⟩

/-- **Listings are fresh once a request has come back, unless they were under way.** Let the caller
of a request that may change something be told that it has succeeded, at any moment of any run.
Whoever asks later for a page of any folder, and is told anything, is told what a listing of the
same page has brought that took effect after the request did, or that had its ticket on the board
when the request had come back. -/
theorem listings_are_fresh_or_were_under_way (hnew : Coalescer.new? lifetime = some c)
    (es : List Event) {id : Nat} {r : Request} (hr : r.isMutation = true) {reply : Reply}
    (hreturned : ((start (.coalescing c) now).after es).Reports id r (.value reply)) :
    let w := (start (.coalescing c) now).after es
    ∃ own effect left, w.calls[id]? = some own ∧ own.request = r ∧
      own.effect = some (effect, .value reply) ∧
      (w.step (.run id)).traffic.layers = [.coalescing left] ∧
      ∀ later since folder token outcome,
        let asked := w.after (.run id :: later)
        asked.Learns (.list folder token) since outcome →
        ∃ (n : Nat) (call : CallRecord) (moment : Nat) (brought : Outcome Reply),
          (asked.after (.issue (.list folder token) :: since)).calls[n]? = some call ∧
          call.request = .list folder token ∧ call.effect = some (moment, brought) ∧
          outcome = .answer brought.shared ∧
          (effect < moment ∨ ∃ ticket, left.ticket? (.list folder token) = some ticket ∧
            call.origin = .ticket 0 ticket.id) := by
  intro w
  obtain ⟨-, hlistings, -, -⟩ := eq_of_new? hnew
  have hs : w.Sound := sound_after_start (.coalescing c) now es
  obtain ⟨before, -, hl, -⟩ := exists_keeps (v := .listings) hlistings now es
  obtain ⟨htask, hm⟩ := hs.of_reports_mutation hl hr hreturned
  obtain ⟨own, effect, answered, hown, hrequest, heffect, -, hlt, hlt'⟩ :=
    hs.exists_call_of_responded htask
  refine ⟨own, effect, before.returned r, hown, hrequest, heffect, hm.layers, ?_⟩
  intro later since folder token outcome asked hlearns
  have htold : asked.after (.issue (.list folder token) :: since) =
      (w.step (.run id)).after (later ++ .issue (.list folder token) :: since) :=
    after_cons_after_cons w _ _ later since
  have hreports : (asked.after (.issue (.list folder token) :: since)).Reports asked.traffic.next
    (.list folder token) outcome := hlearns
  have hother : (w.step (.run id)).traffic.next ≤ asked.traffic.next :=
    ((hs.step (.run id)).follows_after later).next
  rw [htold] at hreports ⊢
  obtain ⟨n, call, brought, hcall, hlookup, hb, ho, hmade⟩ :=
    exists_later_or_on_board (v := .listings) (k := ⟨folder, token⟩) hlistings
      (fun c' _ caller k a h => enter_ne_answered c'.listings caller k a (Option.some.inj h))
      hr hreturned hl hother hreports
  obtain ⟨⟨moment, o⟩, hmoment, rfl⟩ := Option.map_eq_some_iff.mp hb.1
  refine ⟨n, call, moment, o, hcall, hlookup, hmoment, ho, ?_⟩
  rcases hmade with hmade | ⟨ticket, hticket, horigin⟩
  · have horder := (((hs.step _).after _).calls n call hcall).2
    have hafter : w.moment < moment := Nat.lt_trans hmade (horder.effect moment o hmoment).1
    exact .inl (Nat.lt_trans hlt (Nat.lt_trans hlt' hafter))
  · exact .inr ⟨ticket, hticket, horigin⟩

/-- While the second page of a folder is being fetched a folder is made there; the first page, asked
for afterwards, shows it. -/
theorem listings_are_fresh_or_were_under_way_first_page :
    let a : Path := ⟨true, ["a"]⟩
    let page : Reply := .listing ⟨[.folder a], none⟩
    let es : List Event := [.issue (.list .root (some "1")), .run 0, .run 1,
      .effect 1 (.value (.listing .empty)), .issue (.createFolder a), .run 2,
      .effect 2 (.value (.path a)), .respond 2]
    let since : List Event := [.run 3, .respond 1, .run 1, .run 4, .effect 4 (.value page),
      .respond 4, .run 4]
    ∃ c, Coalescer.new? (ofSeconds 10) = some c ∧
      let w := (start (.coalescing c) 0).after es
      let asked := w.after [.run 2]
      w.Reports 2 (.createFolder a) (.value (.path a)) ∧
      asked.Learns (.list .root none) since (.value page) ∧
      ∃ (own : CallRecord) (effect n : Nat) (call : CallRecord) (moment : Nat)
        (brought : Outcome Reply), w.calls[2]? = some own ∧
        own.effect = some (effect, .value (.path a)) ∧
        (asked.after (.issue (.list .root none) :: since)).calls[n]? = some call ∧
        call.effect = some (moment, brought) ∧ effect < moment := by
  intro a page es since
  let c : Coalescer := ⟨.empty, .empty, ⟨⟨ofSeconds 10, ∅⟩, .empty, 0, ∅, .zero⟩⟩
  have hnew : Coalescer.new? (ofSeconds 10) = some c := rfl
  refine ⟨c, hnew, ?_⟩
  intro w asked
  have hreturned : w.Reports 2 (.createFolder a) (.value (.path a)) := by decide +kernel
  have htold : asked.Learns (.list .root none) since (.value page) := by decide +kernel
  obtain ⟨own, effect, left, hown, -, heffect, hleft, hfresh⟩ :=
    listings_are_fresh_or_were_under_way hnew es rfl hreturned
  obtain ⟨n, call, moment, brought, hcall, -, hmoment, -, hlater⟩ :=
    hfresh [] since .root none _ htold
  -- no listing of the first page is on the board when the request has come back
  have hboard : ∀ l ∈ (w.step (.run 2)).traffic.layers,
      (match l with
        | .coalescing left => left.ticket? (.list .root none)
        | .metadata _ => none) = none := by decide +kernel
  have hnone : left.ticket? (.list .root none) = none := by
    have hmem : Layer.coalescing left ∈ (w.step (.run 2)).traffic.layers := by simp [w, hleft]
    exact hboard _ hmem
  have hlt : effect < moment := by simpa [hnone] using hlater
  exact ⟨hreturned, htold, own, effect, n, call, moment, brought, hown, heffect, hcall, hmoment,
    hlt⟩

/-- It is not so that whoever asks for a page of the folder in which a request has succeeded is
told what a listing has brought that took effect after the request did. -/
theorem not_listings_are_fresh :
    ¬ ∀ (lifetime now : Nanoseconds) (c : Coalescer), Coalescer.new? lifetime = some c →
      ∀ (es : List Event) (id : Nat) (r : Request) (reply : Reply), r.isMutation = true →
        let w := (start (.coalescing c) now).after es
        w.Reports id r (.value reply) →
        ∀ later since folder token outcome, r.changesIn folder = true →
          let asked := w.after (.run id :: later)
          asked.Learns (.list folder token) since outcome →
          ∃ (own : CallRecord) (effect n : Nat) (call : CallRecord) (moment : Nat)
            (brought : Outcome Reply), w.calls[id]? = some own ∧
            own.effect = some (effect, .value reply) ∧
            (asked.after (.issue (.list folder token) :: since)).calls[n]? = some call ∧
            call.request = .list folder token ∧ call.effect = some (moment, brought) ∧
            outcome = .answer brought.shared ∧ effect < moment := by
  intro h
  let a : Path := ⟨true, ["a"]⟩
  let es : List Event := [.issue (.list .root none), .run 0, .run 1,
    .effect 1 (.value (.listing .empty)), .issue (.createFolder a), .run 2,
    .effect 2 (.value (.path a)), .respond 2]
  let since : List Event := [.run 3, .respond 1, .run 1]
  let c : Coalescer := ⟨.empty, .empty, ⟨⟨ofSeconds 10, ∅⟩, .empty, 0, ∅, .zero⟩⟩
  let w := (start (.coalescing c) 0).after es
  let told := (w.after [.run 2]).after (.issue (.list .root none) :: since)
  have hreturned : w.Reports 2 (.createFolder a) (.value (.path a)) := by decide +kernel
  have htold : (w.after [.run 2]).Learns (.list .root none) since (.value (.listing .empty)) := by
    decide +kernel
  have hown : w.calls[2]?.map CallRecord.effect = some (some (6, .value (.path a))) := by
    decide +kernel
  have hcalls : ∀ p ∈ told.calls.toList, p.2.request = .list .root none →
      p.2.effect.map Prod.fst = some 3 := by decide +kernel
  obtain ⟨own, effect, n, call, moment, brought, hcall₂, heffect, hcall, hrequest, hmoment, -,
    hlt⟩ :=
    h (ofSeconds 10) 0 c rfl es 2 (.createFolder a) _ rfl hreturned [] since .root none _
      (by decide) htold
  have hmade : w.calls[2]? = some own := hcall₂
  obtain rfl : effect = 6 := by
    rw [hmade, Option.map_some, heffect] at hown
    exact (Prod.mk.inj (Option.some.inj (Option.some.inj hown))).1
  have hmem := Std.ExtTreeMap.mem_toList_iff_getElem?_eq_some.mpr hcall
  have hfirst := hcalls (n, call) hmem hrequest
  simp [hmoment] at hfirst
  omega

end LayeredStore.Traffic.Watched
