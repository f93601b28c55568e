import LayeredStore.Proofs.Layer.Counter
import LayeredStore.Proofs.Traffic.Record

/-!
# Traffic through a coalescing layer

Every event in traffic through a coalescing layer is a change of that layer. The ledgers of its
counters, kept up by these changes, say together with the record of the calls who waits for which
call and what it has brought.
-/

namespace LayeredStore.Traffic.Watched

/-! ### Events as changes of the layer -/

/-- An event in traffic through a coalescing layer that is a given change of the layer: who waits
afterwards has waited before, or comes to wait by that change; the call of a ticket was there
before, or the change has opened the ticket; and if the change is that a call ends, there is its
task. -/
structure Moves (w w' : Watched) (c : Coalescer) (ch : Coalescer.Change) : Prop where
  layers : w'.traffic.layers = [.coalescing (c.apply w.traffic.now ch)]
  now : w'.traffic.now = w.traffic.now + ch.span
  caller : ∀ id, ch.caller? = some id → id < w.traffic.next
  waiting : ∀ (id : Nat) (r : Request), w'.traffic.tasks[id]? = some ⟨.caller, r, .waiting 0⟩ →
    w.traffic.tasks[id]? = some ⟨.caller, r, .waiting 0⟩ ∧ ch.caller? ≠ some id ∨
      ch = .receive id r ∧ ∀ a, (c.receive w.traffic.now id r).2 ≠ some (.answered a)
  tickets : ∀ (id ticket : Nat) (r : Request) (stage : Stage),
    w'.traffic.tasks[id]? = some ⟨.ticket 0 ticket, r, stage⟩ →
      (∃ earlier, w.traffic.tasks[id]? = some ⟨.ticket 0 ticket, r, earlier⟩) ∨
        ∃ caller, ch = .receive caller r ∧
          (c.receive w.traffic.now caller r).2 = some (.opened ticket)
  landing : ∀ (ticket : Nat) (outcome : Outcome Reply) (r : Request),
    ch = .land ticket outcome r →
      ∃ id : Nat, w.traffic.tasks[id]? = some ⟨.ticket 0 ticket, r, .responded outcome⟩

variable {w w' : Watched} {c : Coalescer} {ch : Coalescer.Change}

/-- An event after which no task has come to wait and no ticket has been opened, and a caller that
the change is about is not there any more or does not wait. -/
theorem moves_of_tasks (hlayers : w'.traffic.layers = [.coalescing (c.apply w.traffic.now ch)])
    (hnow : w'.traffic.now = w.traffic.now + ch.span)
    (hcaller : ∀ id, ch.caller? = some id → id < w.traffic.next)
    (htasks : ∀ (id : Nat) (task : Task), w'.traffic.tasks[id]? = some task →
      (w.traffic.tasks[id]? = some task ∧ ch.caller? ≠ some id) ∨
        (∀ layer, task.stage ≠ .waiting layer) ∧
        (task.origin = .caller ∨ ∃ earlier,
          w.traffic.tasks[id]? = some ⟨task.origin, task.request, earlier⟩))
    (hlanding : ∀ (ticket : Nat) (outcome : Outcome Reply) (r : Request),
      ch = .land ticket outcome r →
        ∃ id : Nat, w.traffic.tasks[id]? = some ⟨.ticket 0 ticket, r, .responded outcome⟩) :
    Moves w w' c ch where
  layers := hlayers
  now := hnow
  caller := hcaller
  waiting := by
    intro id r ht
    rcases htasks id _ ht with ht | ⟨hstage, -⟩
    · exact .inl ht
    · exact absurd rfl (hstage 0)
  tickets := by
    intro id ticket r stage ht
    rcases htasks id _ ht with ⟨ht, -⟩ | ⟨-, horigin | ht⟩
    · exact .inl ⟨stage, ht⟩
    · simp at horigin
    · exact .inl ht
  landing := hlanding

/-- An event in which a task ends, which the change is about if it is about any caller. -/
theorem moves_of_erase {id : Nat} (hid : id < w.traffic.next)
    (hlayers : w'.traffic.layers = [.coalescing (c.apply w.traffic.now ch)])
    (hnow : w'.traffic.now = w.traffic.now + ch.span)
    (hcaller : ∀ other, ch.caller? = some other → other = id)
    (htasks : w'.traffic.tasks = w.traffic.tasks.erase id)
    (hlanding : ∀ (ticket : Nat) (outcome : Outcome Reply) (r : Request),
      ch = .land ticket outcome r →
        w.traffic.tasks[id]? = some ⟨.ticket 0 ticket, r, .responded outcome⟩) :
    Moves w w' c ch := by
  refine moves_of_tasks hlayers hnow (fun other ho => hcaller other ho ▸ hid) ?_
    fun ticket outcome r he => ⟨id, hlanding ticket outcome r he⟩
  intro other task ht
  rw [htasks] at ht
  obtain ⟨hne, ht⟩ := of_getElem?_erase ht
  exact .inl ⟨ht, fun hother => hne (hcaller other hother)⟩

/-- An event in which a task comes to a stage where it does not wait at the layer, and which the
change is about if it is about any caller. -/
private theorem moves_of_insert {id : Nat} {origin : Origin} {r : Request} {earlier later : Stage}
    (hid : id < w.traffic.next)
    (htask : w.traffic.tasks[id]? = some ⟨origin, r, earlier⟩)
    (hlater : ∀ layer, later ≠ .waiting layer)
    (hlayers : w'.traffic.layers = [.coalescing (c.apply w.traffic.now ch)])
    (hnow : w'.traffic.now = w.traffic.now + ch.span)
    (hcaller : ∀ other, ch.caller? = some other → other = id)
    (htasks : w'.traffic.tasks = w.traffic.tasks.insert id ⟨origin, r, later⟩)
    (hlanding : ∀ (ticket : Nat) (outcome : Outcome Reply) (r : Request),
      ch ≠ .land ticket outcome r) :
    Moves w w' c ch := by
  refine moves_of_tasks hlayers hnow (fun other ho => hcaller other ho ▸ hid) ?_
    fun ticket outcome r he => absurd he (hlanding ticket outcome r)
  intro other task ht
  rw [htasks] at ht
  rcases of_getElem?_insert ht with ⟨rfl, rfl⟩ | ⟨hne, ht⟩
  · exact .inr ⟨hlater, .inr ⟨earlier, htask⟩⟩
  · exact .inl ⟨ht, fun hother => hne (hcaller other hother)⟩

/-- What a coalescing layer makes of a request. -/
theorem eq_of_receive {now : Nanoseconds} {caller : Nat} {r : Request} {l : Layer}
    {admission : Option (Admission Reply)}
    (h : (Layer.coalescing c).receive now caller r = (l, admission)) :
    l = .coalescing (c.receive now caller r).1 ∧ (c.receive now caller r).2 = admission := by
  obtain ⟨rfl, rfl⟩ := Prod.mk.inj h
  exact ⟨rfl, rfl⟩

/-- An event in which a request comes to wait at the layer, perhaps for a call of its own. -/
private theorem moves_of_waiting {id : Nat} {r : Request} (hid : id < w.traffic.next)
    (hlayers : w'.traffic.layers = [.coalescing (c.receive w.traffic.now id r).1])
    (hnow : w'.traffic.now = w.traffic.now)
    (hwaits : ∀ a, (c.receive w.traffic.now id r).2 ≠ some (.answered a))
    (htasks : ∀ (other : Nat) (task : Task), w'.traffic.tasks[other]? = some task →
      other = id ∧ task = ⟨.caller, r, .waiting 0⟩ ∨
        (other ≠ id ∧ w.traffic.tasks[other]? = some task) ∨
        ∃ ticket, task = ⟨.ticket 0 ticket, r, .issued⟩ ∧
          (c.receive w.traffic.now id r).2 = some (.opened ticket)) :
    Moves w w' c (.receive id r) where
  layers := hlayers
  now := hnow
  caller := by simpa [Coalescer.Change.caller?] using hid
  waiting := by
    intro other r' ht
    rcases htasks other _ ht with ⟨rfl, he⟩ | ⟨hne, ht⟩ | ⟨ticket, he, -⟩
    · obtain ⟨-, rfl, -⟩ := Task.mk.inj he
      exact .inr ⟨rfl, hwaits⟩
    · exact .inl ⟨ht, by simpa [Coalescer.Change.caller?] using Ne.symm hne⟩
    · simp at he
  tickets := by
    intro other ticket r' stage ht
    rcases htasks other _ ht with ⟨-, he⟩ | ⟨-, ht⟩ | ⟨opened, he, hopened⟩
    · simp at he
    · exact .inl ⟨stage, ht⟩
    · obtain ⟨horigin, rfl, -⟩ := Task.mk.inj he
      obtain ⟨-, rfl⟩ := Origin.ticket.inj horigin
      exact .inr ⟨id, rfl, hopened⟩
  landing := by simp

/-- The run of a task is a change of the layer. -/
private theorem Sound.exists_moves_run (h : w.Sound) (hl : w.traffic.layers = [.coalescing c])
    (id : Nat) : ∃ ch, Moves w (w.step (.run id)) c ch := by
  have hturn := h.turn hl id
  have hstep : w.step (.run id) = ⟨(w.traffic.poll id).1, w.moment + 1,
    w.callsAfter id (w.traffic.poll id).2⟩ := rfl
  rw [hstep]
  generalize w.traffic.poll id = run at hturn ⊢
  cases hturn with
  | idle hwait =>
    refine ⟨.pause 0, moves_of_tasks hl rfl (by simp [Coalescer.Change.caller?]) ?_ (by simp)⟩
    exact fun other task ht => .inl ⟨ht, by simp [Coalescer.Change.caller?]⟩
  | @answered r l' a htask hreceive =>
    obtain ⟨rfl, -⟩ := eq_of_receive hreceive
    refine ⟨.receive id r, moves_of_erase (h.bounded id _ htask) rfl rfl ?_ rfl (by simp)⟩
    simp [Coalescer.Change.caller?, eq_comm]
  | @joined r l' htask hreceive =>
    obtain ⟨rfl, hjoined⟩ := eq_of_receive hreceive
    refine ⟨.receive id r, moves_of_waiting (h.bounded id _ htask) rfl rfl (by simp [hjoined]) ?_⟩
    intro other task ht
    rcases of_getElem?_insert ht with hnew | hother
    · exact .inl hnew
    · exact .inr (.inl hother)
  | @opened r l' ticket htask hreceive =>
    obtain ⟨rfl, hopened⟩ := eq_of_receive hreceive
    refine ⟨.receive id r, moves_of_waiting (h.bounded id _ htask) rfl rfl (by simp [hopened]) ?_⟩
    intro other task ht
    rcases of_getElem?_insert ht with ⟨-, rfl⟩ | ⟨-, ht⟩
    · exact .inr (.inr ⟨ticket, rfl, hopened⟩)
    · rcases of_getElem?_insert ht with hnew | hother
      · exact .inl hnew
      · exact .inr (.inl hother)
  | @passed r l' htask hreceive =>
    obtain ⟨rfl, -⟩ := eq_of_receive hreceive
    refine ⟨.receive id r, moves_of_insert (h.bounded id _ htask) htask (by simp) rfl rfl ?_ rfl
      (by simp)⟩
    simp [Coalescer.Change.caller?, eq_comm]
  | called htask =>
    exact ⟨.pause 0, moves_of_insert (h.bounded id _ htask) htask (by simp) hl rfl
      (by simp [Coalescer.Change.caller?]) rfl (by simp)⟩
  | @left r l' a htask hcollect =>
    obtain ⟨⟨c', a'⟩, hc, he⟩ := Option.map_eq_some_iff.mp hcollect
    obtain ⟨rfl, rfl⟩ := Prod.mk.inj he
    refine ⟨.collect id r, moves_of_erase (h.bounded id _ htask) ?_ rfl ?_ rfl (by simp)⟩
    · simp [Coalescer.apply, hc]
    · simp [Coalescer.Change.caller?, eq_comm]
  | @returned r a htask =>
    exact ⟨.returned r, moves_of_erase (h.bounded id _ htask) rfl rfl
      (by simp [Coalescer.Change.caller?]) rfl (by simp)⟩
  | crashed htask =>
    exact ⟨.pause 0, moves_of_erase (h.bounded id _ htask) hl rfl
      (by simp [Coalescer.Change.caller?]) rfl (by simp)⟩
  | @landed r ticket outcome htask =>
    refine ⟨.land ticket outcome r, moves_of_erase (h.bounded id _ htask) rfl rfl
      (by simp [Coalescer.Change.caller?]) rfl ?_⟩
    intro ticket' outcome' r' he
    obtain ⟨rfl, rfl, rfl⟩ := Coalescer.Change.land.inj he
    exact htask

/-- Every event is a change of the layer. -/
theorem Sound.exists_moves (h : w.Sound) (hl : w.traffic.layers = [.coalescing c]) (e : Event) :
    ∃ ch, Moves w (w.step e) c ch := by
  have hpause {w' : Watched} {d : Nanoseconds} (hlayers : w'.traffic.layers = w.traffic.layers)
      (hnow : w'.traffic.now = w.traffic.now + d)
      (htasks : w'.traffic.tasks = w.traffic.tasks) : ∃ ch, Moves w w' c ch := by
    refine ⟨.pause d, moves_of_tasks (hlayers.trans hl) hnow (by simp [Coalescer.Change.caller?]) ?_
      (by simp)⟩
    exact fun other task ht => .inl ⟨htasks ▸ ht, by simp [Coalescer.Change.caller?]⟩
  have hsame {w' : Watched} (htraffic : w'.traffic = w.traffic) : ∃ ch, Moves w w' c ch := by
    apply hpause (d := 0)
    all_goals rw [htraffic]
    rfl
  cases e with
  | issue r =>
    refine ⟨.pause 0, moves_of_tasks hl rfl (by simp [Coalescer.Change.caller?]) ?_ (by simp)⟩
    intro other task ht
    rcases of_getElem?_insert ht with ⟨-, rfl⟩ | ⟨-, ht⟩
    · exact .inr ⟨by simp, .inl rfl⟩
    · exact .inl ⟨ht, by simp [Coalescer.Change.caller?]⟩
  | run id => exact h.exists_moves_run hl id
  | effect id outcome => exact hsame rfl
  | respond id =>
    simp only [Watched.step]
    split
    · simp only [Traffic.respond]
      split
      · next outcome _ task htask =>
        split
        · exact ⟨.pause 0, moves_of_insert (h.bounded id _ htask) htask (by simp) hl rfl
            (by simp [Coalescer.Change.caller?]) rfl (by simp)⟩
        · exact hsame rfl
      · exact hsame rfl
    · exact hsame rfl
  | abort id =>
    simp only [Watched.step, Traffic.abort]
    split
    · next task htask =>
      have hid := h.bounded id _ htask
      have hs := (h.tasks id _ htask).1
      split
      · next layer horigin hstage =>
        have hlayer : layer = 0 := by simpa [Task.IsSingle, horigin, hstage] using hs
        subst hlayer
        refine ⟨.leave id task.request, moves_of_erase hid ?_ rfl ?_ rfl (by simp)⟩
        · simp [Traffic.modifyLayer, hl, Coalescer.apply, Layer.leave]
        · simp [Coalescer.Change.caller?, eq_comm]
      · exact ⟨.pause 0, moves_of_erase hid hl rfl (by simp [Coalescer.Change.caller?]) rfl
          (by simp)⟩
      · exact hsame rfl
    · exact hsame rfl
  | tick d => exact hpause rfl rfl rfl

/-! ### The ledger of a counter -/

section Keeps

variable {K : Type} [Ord K] [Std.TransOrd K]

/-- The ledger of a counter is kept in traffic: it is right, who waits at the counter shares a call
there, and the calls of the ledger that have ended did so with what their calls of the provider
have brought. -/
structure Keeps (v : Coalescer.Counter K) (w : Watched) (c : Coalescer)
    (book : Desk.Watched K Reply) : Prop where
  sound : book.Sound
  desk : book.desk = v.desk c
  known : ∀ (caller ticket : Nat) (k : K), book.shares[caller]? = some (k, ticket) →
    caller < w.traffic.next
  waiting : ∀ (id : Nat) (k : K),
    w.traffic.tasks[id]? = some ⟨.caller, v.request k, .waiting 0⟩ →
      ∃ ticket, book.shares[id]? = some (k, ticket)
  tickets : ∀ (id ticket : Nat) (k : K) (stage : Stage),
    w.traffic.tasks[id]? = some ⟨.ticket 0 ticket, v.request k, stage⟩ →
      ∃ r ∈ book.calls, r.ticket = ticket ∧ r.key = k
  calls : ∀ (id ticket : Nat) (k : K) (call : CallRecord), w.calls[id]? = some call →
    call.origin = .ticket 0 ticket → call.request = v.request k →
      ∃ r ∈ book.calls, r.ticket = ticket ∧ r.key = k
  ended : ∀ r ∈ book.calls, ∀ outcome, r.outcome = some outcome →
    ∃ (id : Nat) (call : CallRecord), w.calls[id]? = some call ∧
      call.origin = .ticket 0 r.ticket ∧ call.request = v.request r.key ∧ call.Brought outcome

/-- At the start nobody has come to any counter. -/
theorem keeps_start {v : Coalescer.Counter K} {c : Coalescer} (h : v.desk c = .empty) (l : Layer)
    (now : Nanoseconds) : Keeps v (start l now) c .start where
  sound := Desk.Watched.sound_start
  desk := h.symm
  known := by simp [Desk.Watched.start]
  waiting := by simp [start, Traffic.start]
  tickets := by simp [start, Traffic.start]
  calls := by simp [start]
  ended := by simp [Desk.Watched.start]

variable [Std.LawfulEqOrd K] {v : Coalescer.Counter K} {book : Desk.Watched K Reply}

/-- Who is received at a counter and not answered at once comes to share a call there. -/
private theorem exists_share_of_receive {now : Nanoseconds} {caller : Nat} {k : K}
    (h : ∀ a, (c.receive now caller (v.request k)).2 ≠ some (.answered a)) :
    ∃ ticket, (book.after (v.events c now (.receive caller (v.request k)))).shares[caller]? =
      some (k, ticket) := by
  rcases v.events_receive c now caller k with ⟨a, ha, -⟩ | ⟨-, hevents⟩
  · exact absurd ha (h a)
  · obtain ⟨t, ht⟩ := Option.isSome_iff_exists.mp (book.isSome_board_enter caller k)
    refine ⟨t.id, ?_⟩
    rw [hevents]
    exact (book.shares_enter caller k).trans (by rw [ht]; rfl)

omit [Std.LawfulEqOrd K] in
/-- A ticket that is opened at a counter belongs to a call in its ledger. -/
private theorem exists_call_of_opened (hdesk : book.desk = v.desk c) {now : Nanoseconds}
    {caller ticket : Nat} {k : K}
    (h : (c.receive now caller (v.request k)).2 = some (.opened ticket)) :
    ∃ r ∈ (book.after (v.events c now (.receive caller (v.request k)))).calls,
      r.ticket = ticket ∧ r.key = k := by
  rcases v.events_receive c now caller k with ⟨a, ha, -⟩ | ⟨hd, hevents⟩
  · simp [h] at ha
  · rw [hevents]
    rw [h, ← hdesk] at hd
    cases hb : book.desk.board[k]? with
    | some t => simp [Desk.enter, hb] at hd
    | none =>
      obtain rfl : ticket = book.desk.next := by simpa [Desk.enter, hb] using hd
      refine ⟨⟨book.desk.next, k, false, none⟩, ?_, rfl, rfl⟩
      change _ ∈ (book.enter caller k).calls
      simp [Desk.Watched.enter_of_none hb]

/-- The ledger is kept in every event. -/
theorem Keeps.step (h : Keeps v w c book) (hs : w.Sound) {e : Event}
    (hm : Moves w (w.step e) c ch) :
    Keeps v (w.step e) (c.apply w.traffic.now ch)
      (book.after (v.events c w.traffic.now ch)) := by
  have hlift {ticket : Nat} {k : K} (hr : ∃ r ∈ book.calls, r.ticket = ticket ∧ r.key = k) :
      ∃ r ∈ (book.after (v.events c w.traffic.now ch)).calls, r.ticket = ticket ∧ r.key = k := by
    obtain ⟨r, hr, rfl, rfl⟩ := hr
    exact Desk.Watched.exists_mem_after hr _
  have hsound : (book.after (v.events c w.traffic.now ch)).Sound := h.sound.after _
  refine ⟨hsound, ?_, ?_, ?_, ?_, ?_, ?_⟩
  · rw [Desk.Watched.desk_after, h.desk, v.desk_apply]
  · intro caller ticket k hshare
    refine Nat.lt_of_lt_of_le ?_ (hs.follows_step e).next
    rcases Desk.Watched.share_or_enter hshare with hshare | henter
    · exact h.known caller ticket k hshare
    · exact hm.caller caller (v.caller?_of_mem_events henter (by simp [Desk.Event.isOf]))
  · intro id k ht
    rcases hm.waiting id _ ht with ⟨ht, hother⟩ | ⟨rfl, hnot⟩
    · obtain ⟨ticket, hshare⟩ := h.waiting id k ht
      refine ⟨ticket, (Desk.Watched.shares_after (fun d hd => ?_) book).trans hshare⟩
      rw [Bool.eq_false_iff]
      exact fun hof => hother (v.caller?_of_mem_events hd hof)
    · exact exists_share_of_receive hnot
  · intro id ticket k stage ht
    rcases hm.tickets id ticket _ stage ht with ⟨earlier, ht⟩ | ⟨caller, rfl, hopened⟩
    · exact hlift (h.tickets id ticket k earlier ht)
    · exact exists_call_of_opened h.desk hopened
  · intro id ticket k call hc horigin hrequest
    rcases hs.calls_step hc with ⟨earlier, hearlier, ho, hr, -⟩ | ⟨-, task, htask, ho, hr⟩
    · exact hlift (h.calls id ticket k earlier hearlier (ho.trans horigin) (hr.trans hrequest))
    · obtain ⟨origin, request, stage⟩ := task
      obtain rfl : origin = .ticket 0 ticket := ho.trans horigin
      obtain rfl : request = v.request k := hr.trans hrequest
      exact hlift (h.tickets id ticket k stage htask)
  · intro r hr outcome ho
    rcases Desk.Watched.ended_after hr ho with ⟨r₀, hr₀, ht, hk, ho₀⟩ | hland
    · obtain ⟨id, call, hc, horigin, hrequest, hb⟩ := h.ended r₀ hr₀ outcome ho₀
      obtain ⟨later, hlater, horigin', hrequest', -, hb'⟩ := hs.brought_step e hc hb
      refine ⟨id, later, hlater, ?_, ?_, hb'⟩
      · rw [horigin', horigin, ht]
      · rw [hrequest', hrequest, hk]
    · -- the call of the provider is the one that the ending task has made
      obtain ⟨k, rfl⟩ := v.of_land_mem_events hland
      obtain ⟨id, htask⟩ := hm.landing r.ticket outcome (v.request k) rfl
      obtain ⟨r₁, hr₁, ht₁, rfl⟩ := hlift (h.tickets id r.ticket k _ htask)
      obtain rfl := hsound.eq_of_ticket_eq hr₁ hr ht₁
      obtain ⟨call, hc, horigin, hrequest, hb⟩ := (hs.tasks id _ htask).2
      obtain ⟨later, hlater, horigin', hrequest', -, hb'⟩ := hs.brought_step e hc hb
      exact ⟨id, later, hlater, horigin'.trans horigin, hrequest'.trans hrequest, hb'⟩

/-- The ledger is kept in every run. -/
theorem Keeps.after (h : Keeps v w c book) (hs : w.Sound)
    (hl : w.traffic.layers = [.coalescing c]) (es : List Event) :
    ∃ c' ds, (w.after es).traffic.layers = [.coalescing c'] ∧
      Keeps v (w.after es) c' (book.after ds) := by
  induction es generalizing w c book with
  | nil => exact ⟨c, [], hl, h⟩
  | cons e es ih =>
    obtain ⟨ch, hm⟩ := hs.exists_moves hl e
    obtain ⟨c', ds, hl', h'⟩ := ih (h.step hs hm) (hs.step e) hm.layers
    refine ⟨c', v.events c w.traffic.now ch ++ ds, hl', ?_⟩
    rwa [Desk.Watched.after_append]

end Keeps

/-- The quota cache is that of a session that is kept with its ledger in traffic. -/
structure KeepsQuota (w : Watched) (c : Coalescer) (s : QuotaCache.Watched Reply) : Prop where
  keeps : Keeps .quota w c s.book
  cache : s.cache = c.quota
  now : s.now = w.traffic.now

/-- The session of the quota cache is kept in every event. -/
theorem KeepsQuota.step {s : QuotaCache.Watched Reply} (h : KeepsQuota w c s) (hs : w.Sound)
    {e : Event} (hm : Moves w (w.step e) c ch) :
    (s.after ch.quotaEvents).book =
        s.book.after (Coalescer.Counter.quota.events c w.traffic.now ch) ∧
      KeepsQuota (w.step e) (c.apply w.traffic.now ch) (s.after ch.quotaEvents) := by
  obtain ⟨cache, now, book⟩ := s
  obtain ⟨hkeeps, hcache, hnow⟩ := h
  obtain rfl : cache = c.quota := hcache
  obtain rfl : now = w.traffic.now := hnow
  rw [c.quota_after w.traffic.now book ch]
  exact ⟨rfl, hkeeps.step hs hm, rfl, hm.now.symm⟩

/-- The session of the quota cache is kept in every run. -/
theorem KeepsQuota.after {s : QuotaCache.Watched Reply} (h : KeepsQuota w c s) (hs : w.Sound)
    (hl : w.traffic.layers = [.coalescing c]) (es : List Event) :
    ∃ c' qs ds, (w.after es).traffic.layers = [.coalescing c'] ∧
      (s.after qs).book = s.book.after ds ∧ KeepsQuota (w.after es) c' (s.after qs) := by
  induction es generalizing w c s with
  | nil => exact ⟨c, [], [], hl, rfl, h⟩
  | cons e es ih =>
    obtain ⟨ch, hm⟩ := hs.exists_moves hl e
    obtain ⟨hbook, hstep⟩ := h.step hs hm
    obtain ⟨c', qs, ds, hl', hbook', h'⟩ := ih hstep (hs.step e) hm.layers
    refine ⟨c', ch.quotaEvents ++ qs,
      Coalescer.Counter.quota.events c w.traffic.now ch ++ ds, hl', ?_, ?_⟩
    · rw [QuotaCache.Watched.after_append, hbook', hbook, ← Desk.Watched.after_append]
    · rwa [QuotaCache.Watched.after_append]

/-! ### What a caller is told -/

/-- Callers with a request wait at the layer, if they have come to it at all. -/
def Waits (w : Watched) (r : Request) : Prop :=
  ∀ (id : Nat) (stage : Stage), w.traffic.tasks[id]? = some ⟨.caller, r, stage⟩ →
    stage = .issued ∨ stage = .waiting 0

/-- Who waits goes on to wait when a task ends. -/
private theorem Waits.of_erase {r : Request} (h : w.Waits r) {id : Nat}
    (htasks : w'.traffic.tasks = w.traffic.tasks.erase id) : w'.Waits r := by
  intro other stage ht
  rw [htasks] at ht
  exact h other stage (of_getElem?_erase ht).2

/-- Who waits goes on to wait when a task comes to a stage, unless it is a caller's with that
request that does not wait. -/
private theorem Waits.of_insert {r : Request} (h : w.Waits r) {id : Nat} {origin : Origin}
    {r' : Request} {later : Stage}
    (hlater : origin = .caller → r' = r → later = .issued ∨ later = .waiting 0)
    (htasks : w'.traffic.tasks = w.traffic.tasks.insert id ⟨origin, r', later⟩) :
    w'.Waits r := by
  intro other stage ht
  rw [htasks] at ht
  rcases of_getElem?_insert ht with ⟨-, he⟩ | ⟨-, ht⟩
  · obtain ⟨rfl, rfl, rfl⟩ := Task.mk.inj he
    exact hlater rfl rfl
  · exact h other stage ht

/-- Callers with a request that the layer does not let pass wait there in the run of a task. -/
private theorem Waits.run {r : Request} (h : w.Waits r) (hs : w.Sound)
    (hl : w.traffic.layers = [.coalescing c])
    (hshared : ∀ now caller, (c.receive now caller r).2 ≠ none) (id : Nat) :
    (w.step (.run id)).Waits r := by
  have hturn := hs.turn hl id
  have hstep : w.step (.run id) = ⟨(w.traffic.poll id).1, w.moment + 1,
    w.callsAfter id (w.traffic.poll id).2⟩ := rfl
  rw [hstep]
  generalize w.traffic.poll id = run at hturn ⊢
  cases hturn with
  | idle hwait => exact h
  | answered htask hreceive => exact h.of_erase rfl
  | joined htask hreceive => exact h.of_insert (fun _ _ => .inr rfl) rfl
  | @opened r' l' ticket htask hreceive =>
    let waiting : Watched := { w with traffic := { w.traffic with
      tasks := w.traffic.tasks.insert id ⟨.caller, r', .waiting 0⟩ } }
    have hwaiting : waiting.Waits r := h.of_insert (fun _ _ => .inr rfl) rfl
    exact hwaiting.of_insert (by simp) rfl
  | passed htask hreceive =>
    refine h.of_insert ?_ rfl
    rintro - rfl
    exact absurd (eq_of_receive hreceive).2 (hshared _ _)
  | called htask => exact h.of_insert (by simp) rfl
  | left htask hcollect => exact h.of_erase rfl
  | returned htask => exact h.of_erase rfl
  | crashed htask => exact h.of_erase rfl
  | landed htask => exact h.of_erase rfl

/-- Callers with a request that the layer does not let pass wait there in every event. -/
theorem Waits.step {r : Request} (h : w.Waits r) (hs : w.Sound)
    (hl : w.traffic.layers = [.coalescing c])
    (hshared : ∀ now caller, (c.receive now caller r).2 ≠ none) (e : Event) :
    (w.step e).Waits r := by
  cases e with
  | issue r' => exact h.of_insert (fun _ _ => .inl rfl) rfl
  | run id => exact h.run hs hl hshared id
  | effect id outcome => exact h
  | tick d => exact h
  | respond id =>
    simp only [Watched.step]
    split
    · simp only [Traffic.respond]
      split
      · next task htask =>
        obtain ⟨origin, request, stage⟩ := task
        split
        · next hcalling =>
          -- a caller with the request waits, so that it is not the one that has called
          obtain rfl : stage = .calling := hcalling
          refine h.of_insert ?_ rfl
          rintro rfl rfl
          rcases h id _ htask with hstage | hstage <;> simp at hstage
        · exact h
      · exact h
    · exact h
  | abort id =>
    simp only [Watched.step, Traffic.abort]
    split
    · split
      · exact h.of_erase rfl
      · exact h.of_erase rfl
      · exact h
    · exact h

/-- Callers at a counter wait there in every run. -/
theorem Sound.waits_after {K : Type} [Ord K] [Std.TransOrd K] {v : Coalescer.Counter K} {k : K}
    (hs : w.Sound) (hl : w.traffic.layers = [.coalescing c]) (h : w.Waits (v.request k))
    (es : List Event) : (w.after es).Waits (v.request k) := by
  induction es generalizing w c with
  | nil => exact h
  | cons e es ih =>
    obtain ⟨ch, hm⟩ := hs.exists_moves hl e
    exact ih (hs.step e) hm.layers
      (h.step hs hl (fun now caller => v.receive_ne_none c now caller k) e)

/-- What a caller at a counter is told was kept in memory, or is what the call that it shares has
brought. -/
theorem Keeps.of_reports {K : Type} [Ord K] [Std.TransOrd K] {v : Coalescer.Counter K}
    {book : Desk.Watched K Reply} (h : Keeps v w c book) (hs : w.Sound)
    (hl : w.traffic.layers = [.coalescing c]) {k : K} (hwaits : w.Waits (v.request k)) {id : Nat}
    {outcome : Outcome Reply} (hreports : w.Reports id (v.request k) outcome) :
    (∃ a, (c.receive w.traffic.now id (v.request k)).2 = some (.answered a) ∧
      outcome = .answer a) ∨
    ∃ (ticket n : Nat) (call : CallRecord) (brought : Outcome Reply),
      book.shares[id]? = some (k, ticket) ∧ w.calls[n]? = some call ∧
        call.origin = .ticket 0 ticket ∧ call.request = v.request k ∧ call.Brought brought ∧
        outcome = .answer brought.shared := by
  have htold := hs.told hl hreports
  generalize (w.step (.run id)).traffic = t at htold
  cases htold with
  | answered htask hreceive => exact .inl ⟨_, (eq_of_receive hreceive).2, rfl⟩
  | @left l' a htask hcollect =>
    obtain ⟨⟨c', a'⟩, hc, he⟩ := Option.map_eq_some_iff.mp hcollect
    obtain ⟨rfl, rfl⟩ := Prod.mk.inj he
    obtain ⟨hanswer, -⟩ := v.collect_own c w.traffic.now id k c' a' hc
    obtain ⟨ticket, hshare⟩ := h.waiting id k htask
    obtain ⟨r, hr, rfl, rfl, hseat⟩ := h.sound.shared id k ticket hshare
    have hended : r.outcome.map Outcome.shared = some a' := by
      rw [← h.desk] at hanswer
      simpa [Desk.answer?, hseat] using hanswer
    obtain ⟨brought, ho, rfl⟩ := Option.map_eq_some_iff.mp hended
    obtain ⟨n, call, hcall, horigin, hrequest, hb⟩ := h.ended r hr brought ho
    exact .inr ⟨r.ticket, n, call, brought, hshare, hcall, horigin, hrequest, hb, rfl⟩
  | returned htask => rcases hwaits id _ htask with hstage | hstage <;> simp at hstage
  | crashed htask => rcases hwaits id _ htask with hstage | hstage <;> simp at hstage

/-- A caller that is told the answer of a request which may change something has its call behind
it, and the layer forgets what the request covers. -/
theorem Sound.of_reports_mutation (h : w.Sound) (hl : w.traffic.layers = [.coalescing c])
    {r : Request} (hr : r.isMutation = true) {id : Nat} {a : Answer Reply}
    (hreports : w.Reports id r (.answer a)) :
    w.traffic.tasks[id]? = some ⟨.caller, r, .responded (.answer a)⟩ ∧
      Moves w (w.step (.run id)) c (.returned r) := by
  have htold := h.told hl hreports
  generalize ht : (w.step (.run id)).traffic = t at htold
  cases htold with
  | answered htask hreceive =>
    have hpass := (eq_of_receive hreceive).2
    cases r <;> simp [Request.isMutation, Coalescer.receive] at hr hpass
  | left htask hcollect =>
    cases r <;> simp [Request.isMutation, Layer.collect, Coalescer.collect] at hr hcollect
  | returned htask =>
    refine ⟨htask, moves_of_erase (h.bounded id _ htask) ?_ ?_ ?_ ?_ ?_⟩
    · rw [ht]
      rfl
    · rw [ht]
      rfl
    · simp [Coalescer.Change.caller?]
    · rw [ht]
    · simp

end LayeredStore.Traffic.Watched
