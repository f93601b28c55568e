import Mathlib
import LayeredStore.Proofs.Traffic.Single

/-!
# Traffic on record

A record beside the traffic writes down every call of the provider: who made it and when, when it
took effect and with which outcome, and when it was answered. The provider may do so in any order
and with any outcome, but a call takes effect between the moment when it is made and the moment
when it is answered. Moments are counted in events. Main statement, for traffic through a single
layer: the record is right in every run. What is on record or under way after a run was so before
the run, or has come up since.
-/

namespace LayeredStore

deriving instance DecidableEq for Request
deriving instance DecidableEq for Reply
deriving instance DecidableEq for Outcome
deriving instance DecidableEq for Stage
deriving instance DecidableEq for Task
deriving instance DecidableEq for Effect

/-- A call of the provider. -/
structure Traffic.CallRecord where
  origin : Origin
  request : Request
  /-- The moment when it was made. -/
  made : Nat
  /-- The moment when it took effect, with its outcome. -/
  effect : Option (Nat × Outcome Reply)
  /-- The moment when it was answered. -/
  answered : Option Nat

namespace Traffic.CallRecord

/-- The call takes effect, unless it already has. -/
def takeEffect (call : CallRecord) (moment : Nat) (outcome : Outcome Reply) : CallRecord :=
  { call with effect := call.effect.or (some (moment, outcome)) }

/-- The outcome that the call can be answered with, if it has not been answered yet. -/
def due? (call : CallRecord) : Option (Outcome Reply) :=
  if call.answered.isSome then none else call.effect.map Prod.snd

/-- The call has been answered with an outcome. -/
def Brought (call : CallRecord) (outcome : Outcome Reply) : Prop :=
  call.effect.map Prod.snd = some outcome ∧ call.answered.isSome = true

/-- The call was made before a moment, and took effect and was answered after that in turn. -/
structure InOrder (call : CallRecord) (now : Nat) : Prop where
  made : call.made < now
  effect : ∀ moment outcome, call.effect = some (moment, outcome) →
    call.made < moment ∧ moment < now
  answered : ∀ moment, call.answered = some moment →
    moment < now ∧ ∃ earlier outcome, call.effect = some (earlier, outcome) ∧ earlier < moment

/-- A call that has brought an outcome keeps it. -/
theorem Brought.takeEffect {call : CallRecord} {outcome : Outcome Reply} (h : call.Brought outcome)
    (moment : Nat) (other : Outcome Reply) : (call.takeEffect moment other).Brought outcome := by
  obtain ⟨heffect, hanswered⟩ := h
  obtain ⟨⟨t, o⟩, he, rfl⟩ := Option.map_eq_some_iff.mp heffect
  exact ⟨by simp [CallRecord.takeEffect, he], hanswered⟩

/-- A call can be answered with its outcome until it has been answered. -/
theorem due?_eq_some_iff {call : CallRecord} {outcome : Outcome Reply} :
    call.due? = some outcome ↔
      call.answered = none ∧ call.effect.map Prod.snd = some outcome := by
  cases h : call.answered <;> simp [due?, h]

/-- Events keep their order as they become more. -/
theorem InOrder.succ {call : CallRecord} {now : Nat} (h : call.InOrder now) :
    call.InOrder (now + 1) where
  made := Nat.lt_succ_of_lt h.made
  effect := by
    intro moment outcome he
    obtain ⟨hmade, hnow⟩ := h.effect moment outcome he
    exact ⟨hmade, Nat.lt_succ_of_lt hnow⟩
  answered := by
    intro moment ha
    obtain ⟨hnow, hearlier⟩ := h.answered moment ha
    exact ⟨Nat.lt_succ_of_lt hnow, hearlier⟩

/-- A call takes effect after it was made. -/
private theorem InOrder.takeEffect {call : CallRecord} {now : Nat} (h : call.InOrder now)
    (outcome : Outcome Reply) : (call.takeEffect now outcome).InOrder (now + 1) where
  made := Nat.lt_succ_of_lt h.made
  effect := by
    intro moment o he
    cases hc : call.effect with
    | some p =>
      have he : call.effect = some (moment, o) := by simpa [CallRecord.takeEffect, hc] using he
      exact h.succ.effect moment o he
    | none =>
      obtain ⟨rfl, -⟩ : now = moment ∧ outcome = o := by
        simpa [CallRecord.takeEffect, hc] using he
      exact ⟨h.made, Nat.lt_succ_self _⟩
  answered := by
    intro moment ha
    obtain ⟨hnow, earlier, o, he, hlt⟩ := h.answered moment ha
    exact ⟨Nat.lt_succ_of_lt hnow, earlier, o, by simp [CallRecord.takeEffect, he], hlt⟩

/-- A call is answered after it took effect. -/
private theorem InOrder.answer {call : CallRecord} {now : Nat} (h : call.InOrder now)
    {outcome : Outcome Reply} (hdue : call.due? = some outcome) :
    ({ call with answered := some now } : CallRecord).InOrder (now + 1) where
  made := Nat.lt_succ_of_lt h.made
  effect := h.succ.effect
  answered := by
    intro moment ha
    obtain rfl : now = moment := by simpa using ha
    obtain ⟨-, heffect⟩ := due?_eq_some_iff.mp hdue
    obtain ⟨⟨earlier, o⟩, he, -⟩ := Option.map_eq_some_iff.mp heffect
    exact ⟨Nat.lt_succ_self _, earlier, o, he, (h.effect earlier o he).2⟩

end Traffic.CallRecord

/-- What the record says of a task: who has not called the provider has no call, and who has
called it has one that is answered as the task knows it to be. -/
def Task.Matches (task : Task) (call? : Option Traffic.CallRecord) : Prop :=
  match task.stage with
  | .issued | .waiting _ => call? = none
  | .calling => ∃ call, call? = some call ∧ call.origin = task.origin ∧
      call.request = task.request ∧ call.answered = none
  | .responded outcome => ∃ call, call? = some call ∧ call.origin = task.origin ∧
      call.request = task.request ∧ call.Brought outcome

namespace Traffic

/-- What can happen to traffic. -/
inductive Event
  /-- A caller makes a request. -/
  | issue (r : Request)
  /-- A task runs up to the next point where it has to wait. -/
  | run (id : Nat)
  /-- The call of a task takes effect at the provider. -/
  | effect (id : Nat) (outcome : Outcome Reply)
  /-- The provider answers the call of a task, if it has taken effect. -/
  | respond (id : Nat)
  /-- A caller gives up. -/
  | abort (id : Nat)
  /-- Time passes. -/
  | tick (d : Nanoseconds)

/-- Traffic with the number of events so far and the calls of the provider, by the numbers of the
tasks that made them. -/
structure Watched where
  traffic : Traffic
  moment : Nat
  calls : Std.ExtTreeMap Nat CallRecord

namespace Watched

/-- Nothing is under way yet before a single layer. -/
def start (l : Layer) (now : Nanoseconds) : Watched := ⟨.start [l] now, 0, ∅⟩

/-- The calls after the run of a task: one more if it has called the provider. -/
def callsAfter (w : Watched) (id : Nat) (effect : Effect) : Std.ExtTreeMap Nat CallRecord :=
  match w.traffic.tasks[id]?, effect with
  | some task, .call r => w.calls.insert id ⟨task.origin, r, w.moment, none, none⟩
  | _, _ => w.calls

/-- The calls with one of them changed. -/
def change (calls : Std.ExtTreeMap Nat CallRecord) (id : Nat) (f : CallRecord → CallRecord) :
    Std.ExtTreeMap Nat CallRecord :=
  calls.map fun other call => if other = id then f call else call

/-- Traffic and its record after an event. -/
def step (w : Watched) : Event → Watched
  | .issue r => ⟨(w.traffic.issue r).2, w.moment + 1, w.calls⟩
  | .run id =>
    let (traffic, effect) := w.traffic.poll id
    ⟨traffic, w.moment + 1, w.callsAfter id effect⟩
  | .effect id outcome =>
    ⟨w.traffic, w.moment + 1, change w.calls id fun call => call.takeEffect w.moment outcome⟩
  | .respond id => match w.calls[id]?.bind CallRecord.due? with
    | some outcome => ⟨w.traffic.respond id outcome, w.moment + 1,
        change w.calls id fun call => { call with answered := some w.moment }⟩
    | none => { w with moment := w.moment + 1 }
  | .abort id => ⟨w.traffic.abort id, w.moment + 1, w.calls⟩
  | .tick d => ⟨w.traffic.tick d, w.moment + 1, w.calls⟩

/-- Traffic and its record after a run of events. -/
def after (w : Watched) (es : List Event) : Watched := es.foldl step w

@[simp] theorem after_nil (w : Watched) : w.after [] = w := rfl

@[simp] theorem after_cons (w : Watched) (e : Event) (es : List Event) :
    w.after (e :: es) = (w.step e).after es := rfl

@[simp] theorem after_append (w : Watched) (es es' : List Event) :
    w.after (es ++ es') = (w.after es).after es' := List.foldl_append

/-- Two runs that follow each other are one run after their first event. -/
theorem after_cons_after_cons (w : Watched) (e e' : Event) (es es' : List Event) :
    (w.after (e :: es)).after (e' :: es') = (w.step e).after (es ++ e' :: es') := by
  simp only [after_cons, after_append]

/-- A caller who has made a request learns its outcome when its task runs on. -/
def Reports (w : Watched) (id : Nat) (r : Request) (outcome : Outcome Reply) : Prop :=
  (∃ stage, w.traffic.tasks[id]? = some ⟨.caller, r, stage⟩) ∧
    (w.traffic.poll id).2 = .report outcome

/-- Whether there is a task for a request of a caller can be computed. -/
private theorem exists_stage_iff (w : Watched) (id : Nat) (r : Request) :
    (w.traffic.tasks[id]?.any fun task => task.origin = .caller ∧ task.request = r) = true ↔
      ∃ stage, w.traffic.tasks[id]? = some ⟨.caller, r, stage⟩ := by
  cases h : w.traffic.tasks[id]? with
  | none => simp
  | some task =>
    obtain ⟨origin, request, stage⟩ := task
    simp

instance (w : Watched) (id : Nat) (r : Request) (outcome : Outcome Reply) :
    Decidable (w.Reports id r outcome) :=
  decidable_of_iff _ (and_congr_left fun _ => w.exists_stage_iff id r)

/-- A caller who makes a request now learns its outcome after some more events. -/
def Learns (w : Watched) (r : Request) (since : List Event) (outcome : Outcome Reply) : Prop :=
  (w.after (.issue r :: since)).Reports w.traffic.next r outcome

instance (w : Watched) (r : Request) (since : List Event) (outcome : Outcome Reply) :
    Decidable (w.Learns r since outcome) :=
  inferInstanceAs (Decidable ((w.after (.issue r :: since)).Reports w.traffic.next r outcome))

end Watched

/-! ### The record -/

namespace Watched

/-- What is at a number after an insertion has been inserted there, or was there before. -/
theorem of_getElem?_insert {V : Type} {m : Std.ExtTreeMap Nat V} {id other : Nat} {v v' : V}
    (h : (m.insert id v)[other]? = some v') :
    other = id ∧ v' = v ∨ other ≠ id ∧ m[other]? = some v' := by
  by_cases he : id = other
  · subst he
    exact .inl ⟨rfl, by simpa [eq_comm] using h⟩
  · exact .inr ⟨Ne.symm he, by simpa [Std.ExtTreeMap.getElem?_insert, he] using h⟩

/-- What is at a number after an erasure was there before, and is not what has been erased. -/
theorem of_getElem?_erase {V : Type} {m : Std.ExtTreeMap Nat V} {id other : Nat} {v : V}
    (h : (m.erase id)[other]? = some v) : other ≠ id ∧ m[other]? = some v := by
  by_cases he : id = other
  · subst he
    simp at h
  · exact ⟨Ne.symm he, by simpa [Std.ExtTreeMap.getElem?_erase, he] using h⟩

/-- The record is right: every task is one of traffic through a single layer and matches its call,
and what happened to a call happened in order. -/
structure Sound (w : Watched) : Prop where
  single : ∃ l, w.traffic.layers = [l]
  bounded : ∀ (id : Nat) (task : Task), w.traffic.tasks[id]? = some task → id < w.traffic.next
  tasks : ∀ (id : Nat) (task : Task), w.traffic.tasks[id]? = some task →
    task.IsSingle ∧ task.Matches w.calls[id]?
  calls : ∀ (id : Nat) (call : CallRecord), w.calls[id]? = some call →
    id < w.traffic.next ∧ call.InOrder w.moment

/-- The run of a task is one of the turns before the layer. -/
theorem Sound.turn {w : Watched} (h : w.Sound) {l : Layer} (hl : w.traffic.layers = [l])
    (id : Nat) : Turn w.traffic l id (w.traffic.poll id) :=
  Traffic.turn hl (fun other task ht => (h.tasks other task ht).1) id

/-- At the beginning there is nothing that the record could have wrong. -/
theorem sound_start (l : Layer) (now : Nanoseconds) : (start l now).Sound where
  single := ⟨l, rfl⟩
  bounded := by simp [start, Traffic.start]
  tasks := by simp [start, Traffic.start]
  calls := by simp [start]

/-- The record stays right as the moments go on. -/
theorem Sound.succ {w : Watched} (h : w.Sound) :
    ({ w with moment := w.moment + 1 } : Watched).Sound where
  single := h.single
  bounded := h.bounded
  tasks := h.tasks
  calls := by
    intro id call hc
    obtain ⟨hid, horder⟩ := h.calls id call hc
    exact ⟨hid, horder.succ⟩

/-- The record stays right if tasks end and the layer changes. -/
private theorem Sound.of_subset {w : Watched} (h : w.Sound) {t : Traffic}
    (hlayers : ∃ l, t.layers = [l]) (htasks : ∀ (id : Nat) (task : Task), t.tasks[id]? = some task →
      w.traffic.tasks[id]? = some task) (hnext : t.next = w.traffic.next) :
    ({ w with traffic := t } : Watched).Sound where
  single := hlayers
  bounded := fun id task ht => hnext ▸ h.bounded id task (htasks id task ht)
  tasks := fun id task ht => h.tasks id task (htasks id task ht)
  calls := by
    intro id call hc
    obtain ⟨hid, horder⟩ := h.calls id call hc
    exact ⟨hnext ▸ hid, horder⟩

/-- The record stays right when a task has ended. -/
private theorem Sound.of_erase {w : Watched} (h : w.Sound) (id : Nat) {layers : List Layer}
    (hlayers : ∃ l, layers = [l]) :
    ({ w with traffic := { w.traffic with layers, tasks := w.traffic.tasks.erase id } } :
      Watched).Sound := by
  refine h.of_subset hlayers ?_ rfl
  intro other task ht
  exact (of_getElem?_erase ht).2

/-- The record stays right if a task comes to a stage that matches what is known of its call. -/
private theorem Sound.of_insert {w : Watched} (h : w.Sound) {id : Nat} (hid : id < w.traffic.next)
    {task : Task} (hsingle : task.IsSingle) (hmatches : task.Matches w.calls[id]?)
    {layers : List Layer} (hlayers : ∃ l, layers = [l]) :
    ({ w with traffic := { w.traffic with layers, tasks := w.traffic.tasks.insert id task } } :
      Watched).Sound where
  single := hlayers
  bounded := by
    intro other t ht
    rcases of_getElem?_insert ht with ⟨rfl, -⟩ | ⟨-, ht⟩
    · exact hid
    · exact h.bounded other t ht
  tasks := by
    intro other t ht
    rcases of_getElem?_insert ht with ⟨rfl, rfl⟩ | ⟨-, ht⟩
    · exact ⟨hsingle, hmatches⟩
    · exact h.tasks other t ht
  calls := h.calls

/-- No call is known of a task that is still to come. -/
private theorem Sound.calls_next {w : Watched} (h : w.Sound) : w.calls[w.traffic.next]? = none := by
  cases hc : w.calls[w.traffic.next]? with
  | none => rfl
  | some call => exact absurd (h.calls _ call hc).1 (Nat.lt_irrefl _)

/-- The record stays right when a task is issued. -/
private theorem Sound.of_issue {w : Watched} (h : w.Sound) {task : Task}
    (hissued : task.stage = .issued) (hsingle : task.IsSingle) :
    ({ w with traffic := { w.traffic with
        tasks := w.traffic.tasks.insert w.traffic.next task
        next := w.traffic.next + 1 } } : Watched).Sound where
  single := h.single
  bounded := by
    intro other t ht
    rcases of_getElem?_insert ht with ⟨rfl, -⟩ | ⟨-, ht⟩
    · exact Nat.lt_succ_self _
    · exact Nat.lt_succ_of_lt (h.bounded other t ht)
  tasks := by
    intro other t ht
    rcases of_getElem?_insert ht with ⟨rfl, rfl⟩ | ⟨-, ht⟩
    · exact ⟨hsingle, by simp [Task.Matches, hissued, h.calls_next]⟩
    · exact h.tasks other t ht
  calls := by
    intro other call hc
    obtain ⟨ho, horder⟩ := h.calls other call hc
    exact ⟨Nat.lt_succ_of_lt ho, horder⟩

/-- The record stays right when a task calls the provider. -/
private theorem Sound.of_call {w : Watched} (h : w.Sound) {id : Nat} {origin : Origin} {r : Request}
    (htask : w.traffic.tasks[id]? = some ⟨origin, r, .issued⟩) {layers : List Layer}
    (hlayers : ∃ l, layers = [l]) :
    (⟨{ w.traffic with layers, tasks := w.traffic.tasks.insert id ⟨origin, r, .calling⟩ },
      w.moment + 1, w.calls.insert id ⟨origin, r, w.moment, none, none⟩⟩ : Watched).Sound where
  single := hlayers
  bounded := by
    intro other t ht
    rcases of_getElem?_insert ht with ⟨rfl, -⟩ | ⟨-, ht⟩
    · exact h.bounded _ _ htask
    · exact h.bounded other t ht
  tasks := by
    intro other t ht
    rcases of_getElem?_insert ht with ⟨rfl, rfl⟩ | ⟨hne, ht⟩
    · have hs := (h.tasks _ _ htask).1
      refine ⟨?_, ⟨origin, r, w.moment, none, none⟩, by simp, rfl, rfl, rfl⟩
      cases origin <;> exact hs
    · simpa [Std.ExtTreeMap.getElem?_insert, Ne.symm hne] using h.tasks other t ht
  calls := by
    intro other call hc
    rcases of_getElem?_insert hc with ⟨rfl, rfl⟩ | ⟨-, hc⟩
    · exact ⟨h.bounded _ _ htask, Nat.lt_succ_self _, by simp, by simp⟩
    · obtain ⟨ho, horder⟩ := h.calls other call hc
      exact ⟨ho, horder.succ⟩

/-- What is recorded of the run of a task that does not call the provider: nothing. -/
private theorem callsAfter_of_ne_call {w : Watched} {effect : Effect} (h : ∀ r, effect ≠ .call r)
    (id : Nat) : w.callsAfter id effect = w.calls := by
  unfold callsAfter
  split
  · next r _ => exact absurd rfl (h r)
  · rfl

/-- What is recorded of the run of a task that calls the provider. -/
private theorem callsAfter_call {w : Watched} {id : Nat} {task : Task}
    (htask : w.traffic.tasks[id]? = some task) (r : Request) :
    w.callsAfter id (.call r) = w.calls.insert id ⟨task.origin, r, w.moment, none, none⟩ := by
  simp [callsAfter, htask]

/-- The record stays right when a task runs. -/
private theorem Sound.run {w : Watched} (h : w.Sound) {l : Layer} {id : Nat}
    {run : Traffic × Effect} (hturn : Turn w.traffic l id run) (hl : w.traffic.layers = [l]) :
    (⟨run.1, w.moment + 1, w.callsAfter id run.2⟩ : Watched).Sound := by
  cases hturn with
  | idle hwait =>
    rw [callsAfter_of_ne_call (by simp)]
    exact h.succ
  | answered htask hreceive =>
    rw [callsAfter_of_ne_call (by simp)]
    exact (h.of_erase id ⟨_, rfl⟩).succ
  | @joined r l' htask hreceive =>
    rw [callsAfter_of_ne_call (by simp)]
    have hwaiting : (⟨.caller, r, .waiting 0⟩ : Task).IsSingle := rfl
    exact (h.of_insert (h.bounded id _ htask) hwaiting (h.tasks id _ htask).2 ⟨l', rfl⟩).succ
  | @opened r l' ticket htask hreceive =>
    rw [callsAfter_of_ne_call (by simp)]
    have hwaiting : (⟨.caller, r, .waiting 0⟩ : Task).IsSingle := rfl
    have hissued : (⟨.ticket 0 ticket, r, .issued⟩ : Task).IsSingle := rfl
    have hwaits := h.of_insert (h.bounded id _ htask) hwaiting (h.tasks id _ htask).2 ⟨l', rfl⟩
    exact (hwaits.of_issue rfl hissued).succ
  | passed htask hreceive =>
    rw [callsAfter_call htask]
    exact h.of_call htask ⟨_, rfl⟩
  | called htask =>
    rw [callsAfter_call htask]
    exact h.of_call htask ⟨l, hl⟩
  | left htask hcollect =>
    rw [callsAfter_of_ne_call (by simp)]
    exact (h.of_erase id ⟨_, rfl⟩).succ
  | returned htask =>
    rw [callsAfter_of_ne_call (by simp)]
    exact (h.of_erase id ⟨_, rfl⟩).succ
  | crashed htask =>
    rw [callsAfter_of_ne_call (by simp)]
    exact (h.of_erase id ⟨l, hl⟩).succ
  | landed htask =>
    rw [callsAfter_of_ne_call (by simp)]
    exact (h.of_erase id ⟨_, rfl⟩).succ

/-- What a change of one call does to the others: nothing. -/
theorem getElem?_change (calls : Std.ExtTreeMap Nat CallRecord) (id other : Nat)
    (f : CallRecord → CallRecord) :
    (change calls id f)[other]? = calls[other]?.map fun call =>
      if other = id then f call else call := by
  simp [change, Std.ExtTreeMap.getElem?_map]

/-- A task that matches its call still does when the call takes effect. -/
private theorem matches_takeEffect {task : Task} {call? : Option CallRecord}
    (h : task.Matches call?) (moment : Nat) (outcome : Outcome Reply) :
    task.Matches (call?.map fun call => call.takeEffect moment outcome) := by
  obtain ⟨origin, r, stage⟩ := task
  cases stage with
  | issued =>
    obtain rfl : call? = none := h
    rfl
  | waiting layer =>
    obtain rfl : call? = none := h
    rfl
  | calling =>
    obtain ⟨call, rfl, horigin, hrequest, hanswered⟩ := h
    exact ⟨_, rfl, horigin, hrequest, hanswered⟩
  | responded o =>
    obtain ⟨call, rfl, horigin, hrequest, hbrought⟩ := h
    exact ⟨_, rfl, horigin, hrequest, hbrought.takeEffect moment outcome⟩

/-- The record stays right when a call takes effect. -/
private theorem Sound.effect {w : Watched} (h : w.Sound) (id : Nat) (outcome : Outcome Reply) :
    (w.step (.effect id outcome)).Sound where
  single := h.single
  bounded := h.bounded
  tasks := by
    intro other task ht
    obtain ⟨hsingle, hmatches⟩ := h.tasks other task ht
    refine ⟨hsingle, ?_⟩
    simp only [step, getElem?_change]
    by_cases he : other = id
    · simpa only [he, ↓reduceIte] using matches_takeEffect (he ▸ hmatches) w.moment outcome
    · simpa only [he, ↓reduceIte, Option.map_id_fun', id_eq] using hmatches
  calls := by
    intro other call hc
    simp only [step, getElem?_change] at hc
    obtain ⟨call, hcall, rfl⟩ := Option.map_eq_some_iff.mp hc
    obtain ⟨hnext, horder⟩ := h.calls other call hcall
    refine ⟨hnext, ?_⟩
    split
    · exact horder.takeEffect outcome
    · exact horder.succ

/-- The calls after one of them has been answered. -/
def answered (w : Watched) (id : Nat) : Std.ExtTreeMap Nat CallRecord :=
  change w.calls id fun call => { call with answered := some w.moment }

/-- When a call has been answered with its outcome, all calls are in order still. -/
private theorem Sound.inOrder_answered {w : Watched} (h : w.Sound) {id : Nat}
    {outcome : Outcome Reply} (hdue : w.calls[id]?.bind CallRecord.due? = some outcome)
    {other : Nat} {call : CallRecord} (hc : (w.answered id)[other]? = some call) :
    other < w.traffic.next ∧ call.InOrder (w.moment + 1) := by
  rw [answered, getElem?_change] at hc
  obtain ⟨earlier, hearlier, rfl⟩ := Option.map_eq_some_iff.mp hc
  obtain ⟨hnext, horder⟩ := h.calls other earlier hearlier
  refine ⟨hnext, ?_⟩
  split
  · next he =>
    obtain ⟨due, hdue, houtcome⟩ := Option.bind_eq_some_iff.mp hdue
    obtain rfl := Option.some.inj (hdue.symm.trans (he ▸ hearlier))
    exact horder.answer houtcome
  · exact horder.succ

/-- A task that is calling, and no other, matches a call that has just been answered when it has
responded. -/
private theorem matches_answered {w : Watched} {id : Nat} {task : Task} {outcome : Outcome Reply}
    (hdue : w.calls[id]?.bind CallRecord.due? = some outcome)
    (hmatches : task.Matches w.calls[id]?) :
    task.stage = .calling ∧
      ({ task with stage := .responded outcome } : Task).Matches (w.answered id)[id]? := by
  obtain ⟨call, hcall, houtcome⟩ := Option.bind_eq_some_iff.mp hdue
  obtain ⟨hrunning, heffect⟩ := CallRecord.due?_eq_some_iff.mp houtcome
  obtain ⟨origin, r, stage⟩ := task
  cases stage with
  | issued => simp [Task.Matches, hcall] at hmatches
  | waiting layer => simp [Task.Matches, hcall] at hmatches
  | responded o =>
    obtain ⟨other, hother, -, -, -, hanswered⟩ := hmatches
    obtain rfl := Option.some.inj (hcall.symm.trans hother)
    simp [hrunning] at hanswered
  | calling =>
    obtain ⟨other, hother, horigin, hrequest, -⟩ := hmatches
    obtain rfl := Option.some.inj (hcall.symm.trans hother)
    refine ⟨rfl, { call with answered := some w.moment }, ?_, horigin, hrequest, heffect, rfl⟩
    simp [answered, getElem?_change, hcall]

/-- The record stays right when the provider answers a call. -/
private theorem Sound.respond {w : Watched} (h : w.Sound) (id : Nat) :
    (w.step (.respond id)).Sound := by
  cases hdue : w.calls[id]?.bind CallRecord.due? with
  | none =>
    simp only [step, hdue]
    exact h.succ
  | some outcome =>
    have hstep : w.step (.respond id) =
        ⟨w.traffic.respond id outcome, w.moment + 1, w.answered id⟩ := by
      simp only [step, hdue, answered]
    have hothers {other : Nat} {task : Task} (ht : w.traffic.tasks[other]? = some task)
        (hne : other ≠ id) : task.IsSingle ∧ task.Matches (w.answered id)[other]? := by
      simpa [answered, getElem?_change, hne] using h.tasks other task ht
    have hcalls (other : Nat) (call : CallRecord) (hc : (w.answered id)[other]? = some call) :=
      h.inOrder_answered hdue hc
    rw [hstep]
    cases htask : w.traffic.tasks[id]? with
    | none =>
      have hrespond : w.traffic.respond id outcome = w.traffic := by
        simp [Traffic.respond, htask]
      rw [hrespond]
      refine ⟨h.single, h.bounded, fun other task ht => hothers ht ?_, hcalls⟩
      rintro rfl
      simp [htask] at ht
    | some task =>
      obtain ⟨hsingle, hmatches⟩ := h.tasks id task htask
      obtain ⟨hcalling, hresponded⟩ := matches_answered hdue hmatches
      have hrespond : w.traffic.respond id outcome = { w.traffic with
          tasks := w.traffic.tasks.insert id { task with stage := .responded outcome } } := by
        simp [Traffic.respond, htask, hcalling, Traffic.advance]
      rw [hrespond]
      refine ⟨h.single, ?_, ?_, hcalls⟩
      · intro other t ht
        rcases of_getElem?_insert ht with ⟨rfl, -⟩ | ⟨-, ht⟩
        · exact h.bounded _ _ htask
        · exact h.bounded other t ht
      · intro other t ht
        rcases of_getElem?_insert ht with ⟨rfl, rfl⟩ | ⟨hne, ht⟩
        · refine ⟨?_, hresponded⟩
          obtain ⟨origin, r, stage⟩ := task
          obtain rfl : stage = .calling := hcalling
          cases origin <;> exact hsingle
        · exact hothers ht hne

/-- The record stays right when a caller gives up. -/
private theorem Sound.abort {w : Watched} (h : w.Sound) (id : Nat) :
    (w.step (.abort id)).Sound := by
  obtain ⟨l, hl⟩ := h.single
  have hmodify (layer : Nat) (f : Layer → Layer) : ∃ l', [l].modify layer f = [l'] := by
    cases layer with
    | zero => exact ⟨f l, rfl⟩
    | succ layer => exact ⟨l, by simp⟩
  have herased {layers : List Layer} (hlayers : ∃ l, layers = [l]) :
      (⟨{ w.traffic with layers, tasks := w.traffic.tasks.erase id }, w.moment + 1, w.calls⟩ :
        Watched).Sound := (h.of_erase id hlayers).succ
  simp only [step, Traffic.abort]
  split
  · next task htask =>
    split
    · next layer _ _ =>
      simp only [modifyLayer, hl]
      exact herased (hmodify layer _)
    · exact herased h.single
    · exact h.succ
  · exact h.succ

/-- The record stays right under every event. -/
theorem Sound.step {w : Watched} (h : w.Sound) (e : Event) : (w.step e).Sound := by
  cases e with
  | issue r =>
    have hissued : (⟨.caller, r, .issued⟩ : Task).IsSingle := trivial
    exact (h.of_issue rfl hissued).succ
  | run id =>
    obtain ⟨l, hl⟩ := h.single
    exact h.run (h.turn hl id) hl
  | effect id outcome => exact h.effect id outcome
  | respond id => exact h.respond id
  | abort id => exact h.abort id
  | tick d => exact (h.of_subset (t := w.traffic.tick d) h.single (fun _ _ ht => ht) rfl).succ

/-- The record stays right in every run. -/
theorem Sound.after {w : Watched} (h : w.Sound) (es : List Event) : (w.after es).Sound := by
  induction es generalizing w with
  | nil => exact h
  | cons e es ih => exact ih (h.step e)

/-- The record of a new layer is right in every run. -/
theorem sound_after_start (l : Layer) (now : Nanoseconds) (es : List Event) :
    ((start l now).after es).Sound :=
  (sound_start l now).after es

/-- A caller that is told the outcome of its request is so in the run of its task. -/
theorem Sound.told {w : Watched} (h : w.Sound) {l : Layer} (hl : w.traffic.layers = [l]) {id : Nat}
    {r : Request} {outcome : Outcome Reply} (hreports : w.Reports id r outcome) :
    Told w.traffic l id r (w.step (.run id)).traffic outcome := by
  obtain ⟨⟨stage, htask⟩, hreport⟩ := hreports
  exact (h.turn hl id).told htask hreport

/-- Who has been answered by the provider has made a call, which took effect and was answered. -/
theorem Sound.exists_call_of_responded {w : Watched} (h : w.Sound) {id : Nat} {origin : Origin}
    {r : Request} {outcome : Outcome Reply}
    (htask : w.traffic.tasks[id]? = some ⟨origin, r, .responded outcome⟩) :
    ∃ call effect answered, w.calls[id]? = some call ∧ call.request = r ∧
      call.effect = some (effect, outcome) ∧ call.answered = some answered ∧
      effect < answered ∧ answered < w.moment := by
  obtain ⟨call, hcall, -, hrequest, heffect, hanswered⟩ := (h.tasks id _ htask).2
  obtain ⟨answered, ha⟩ := Option.isSome_iff_exists.mp hanswered
  obtain ⟨-, horder⟩ := h.calls id call hcall
  obtain ⟨hnow, effect, o, he, hlt⟩ := horder.answered answered ha
  obtain rfl : o = outcome := by simpa [he] using heffect
  exact ⟨call, effect, answered, hcall, hrequest, he, ha, hlt, hnow⟩

/-! ### What was there before -/

/-- Moments go on one by one. -/
@[simp] theorem moment_step (w : Watched) (e : Event) : (w.step e).moment = w.moment + 1 := by
  cases e with
  | respond id =>
    simp only [step]
    split <;> rfl
  | _ => rfl

/-- What a change of one call does not touch stays the same. -/
private theorem exists_of_change {calls : Std.ExtTreeMap Nat CallRecord} {id other : Nat}
    {f : CallRecord → CallRecord}
    (hf : ∀ c, (f c).origin = c.origin ∧ (f c).request = c.request ∧ (f c).made = c.made)
    {call : CallRecord} (h : (change calls other f)[id]? = some call) :
    ∃ earlier : CallRecord, calls[id]? = some earlier ∧ earlier.origin = call.origin ∧
      earlier.request = call.request ∧ earlier.made = call.made := by
  rw [getElem?_change] at h
  obtain ⟨earlier, hearlier, rfl⟩ := Option.map_eq_some_iff.mp h
  refine ⟨earlier, hearlier, ?_⟩
  split
  · obtain ⟨ho, hr, hm⟩ := hf earlier
    exact ⟨ho.symm, hr.symm, hm.symm⟩
  · exact ⟨rfl, rfl, rfl⟩

/-- What is recorded of a run is a call of the task that runs, if anything. -/
theorem Sound.callsAfter_run {w : Watched} (h : w.Sound) (id : Nat) :
    w.callsAfter id (w.traffic.poll id).2 = w.calls ∨
      ∃ task, w.traffic.tasks[id]? = some task ∧ task.stage = .issued ∧
        w.callsAfter id (w.traffic.poll id).2 =
          w.calls.insert id ⟨task.origin, task.request, w.moment, none, none⟩ := by
  obtain ⟨l, hl⟩ := h.single
  have hturn := h.turn hl id
  generalize w.traffic.poll id = run at hturn ⊢
  cases hturn with
  | passed htask hreceive => exact .inr ⟨_, htask, rfl, callsAfter_call htask _⟩
  | called htask => exact .inr ⟨_, htask, rfl, callsAfter_call htask _⟩
  | _ => exact .inl (callsAfter_of_ne_call (by simp) id)

/-- A call on record after an event was there before, or its task makes it just now. -/
theorem Sound.calls_step {w : Watched} (h : w.Sound) {e : Event} {id : Nat} {call : CallRecord}
    (hc : (w.step e).calls[id]? = some call) :
    (∃ earlier, w.calls[id]? = some earlier ∧ earlier.origin = call.origin ∧
      earlier.request = call.request ∧ earlier.made = call.made) ∨
    call.made = w.moment ∧ ∃ task, w.traffic.tasks[id]? = some task ∧
      task.origin = call.origin ∧ task.request = call.request := by
  have hsame (hc : w.calls[id]? = some call) : ∃ earlier, w.calls[id]? = some earlier ∧
      earlier.origin = call.origin ∧ earlier.request = call.request ∧
        earlier.made = call.made := ⟨call, hc, rfl, rfl, rfl⟩
  cases e with
  | issue r => exact .inl (hsame hc)
  | abort other => exact .inl (hsame hc)
  | tick d => exact .inl (hsame hc)
  | effect other outcome =>
    exact .inl (exists_of_change (f := (·.takeEffect w.moment outcome))
      (fun _ => ⟨rfl, rfl, rfl⟩) hc)
  | respond other =>
    simp only [Watched.step] at hc
    split at hc
    · exact .inl (exists_of_change (f := ({ · with answered := some w.moment }))
        (fun _ => ⟨rfl, rfl, rfl⟩) hc)
    · exact .inl (hsame hc)
  | run other =>
    replace hc : (w.callsAfter other (w.traffic.poll other).2)[id]? = some call := hc
    rcases h.callsAfter_run other with hcalls | ⟨task, htask, -, hcalls⟩
    · exact .inl (hsame (hcalls ▸ hc))
    · rw [hcalls] at hc
      rcases of_getElem?_insert hc with ⟨rfl, rfl⟩ | ⟨-, hc⟩
      · exact .inr ⟨rfl, task, htask, rfl, rfl⟩
      · exact .inl (hsame hc)

/-- A call that has brought an outcome stays on record. -/
theorem Sound.brought_step {w : Watched} (h : w.Sound) (e : Event) {id : Nat} {call : CallRecord}
    {outcome : Outcome Reply} (hc : w.calls[id]? = some call) (hb : call.Brought outcome) :
    ∃ later, (w.step e).calls[id]? = some later ∧ later.origin = call.origin ∧
      later.request = call.request ∧ later.made = call.made ∧ later.Brought outcome := by
  have hsame : ∃ later, w.calls[id]? = some later ∧ later.origin = call.origin ∧
      later.request = call.request ∧ later.made = call.made ∧ later.Brought outcome :=
    ⟨call, hc, rfl, rfl, rfl, hb⟩
  have hchange {other : Nat} (f : CallRecord → CallRecord) (ho : (f call).origin = call.origin)
      (hr : (f call).request = call.request) (hm : (f call).made = call.made)
      (hf : (f call).Brought outcome) :
      let later := if id = other then f call else call
      later.origin = call.origin ∧ later.request = call.request ∧ later.made = call.made ∧
        later.Brought outcome := by
    dsimp only
    split
    · exact ⟨ho, hr, hm, hf⟩
    · exact ⟨rfl, rfl, rfl, hb⟩
  cases e with
  | issue r => exact hsame
  | abort other => exact hsame
  | tick d => exact hsame
  | effect other o =>
    exact ⟨_, (getElem?_change ..).trans (by rw [hc]; rfl),
      hchange (fun c => c.takeEffect w.moment o) rfl rfl rfl (hb.takeEffect w.moment o)⟩
  | respond other =>
    simp only [Watched.step]
    split
    · exact ⟨_, (getElem?_change ..).trans (by rw [hc]; rfl),
        hchange (fun c => { c with answered := some w.moment }) rfl rfl rfl ⟨hb.1, rfl⟩⟩
    · exact hsame
  | run other =>
    change ∃ later, (w.callsAfter other (w.traffic.poll other).2)[id]? = some later ∧ _
    rcases h.callsAfter_run other with hcalls | ⟨task, htask, hissued, hcalls⟩
    · rw [hcalls]
      exact hsame
    · have hne : other ≠ id := by
        rintro rfl
        have hmatches := (h.tasks other task htask).2
        simp [Task.Matches, hissued, hc] at hmatches
      refine ⟨call, ?_, rfl, rfl, rfl, hb⟩
      simpa [hcalls, Std.ExtTreeMap.getElem?_insert, hne] using hc

/-- A call on record after a run was there before, or is made since. -/
theorem Sound.calls_after {w : Watched} (h : w.Sound) {es : List Event} {id : Nat}
    {call : CallRecord} (hc : (w.after es).calls[id]? = some call) :
    (∃ earlier, w.calls[id]? = some earlier ∧ earlier.origin = call.origin ∧
      earlier.request = call.request ∧ earlier.made = call.made) ∨ w.moment ≤ call.made := by
  induction es generalizing w with
  | nil => exact .inl ⟨call, hc, rfl, rfl, rfl⟩
  | cons e es ih =>
    rcases ih (h.step e) hc with ⟨earlier, hearlier, ho, hr, hm⟩ | hmade
    · rcases h.calls_step hearlier with ⟨first, hfirst, ho', hr', hm'⟩ | ⟨hmade, -⟩
      · exact .inl ⟨first, hfirst, ho'.trans ho, hr'.trans hr, hm'.trans hm⟩
      · exact .inr (Nat.le_of_eq (hmade.symm.trans hm))
    · exact .inr (Nat.le_trans (by simp) hmade)

/-- Whether the tasks in traffic that has gone on were there before, or are new. -/
structure Follows (t t' : Traffic) : Prop where
  next : t.next ≤ t'.next
  tasks : ∀ (id : Nat) (task : Task), t'.tasks[id]? = some task →
    (∃ earlier, t.tasks[id]? = some earlier ∧ earlier.origin = task.origin ∧
      earlier.request = task.request) ∨ t.next ≤ id

/-- Traffic whose tasks are the same follows. -/
theorem follows_of_tasks_eq {t t' : Traffic} (hnext : t'.next = t.next)
    (htasks : t'.tasks = t.tasks) : Follows t t' where
  next := Nat.le_of_eq hnext.symm
  tasks := fun _ task ht => .inl ⟨task, htasks ▸ ht, rfl, rfl⟩

/-- Traffic follows in which a task has ended. -/
private theorem follows_erase (t : Traffic) (id : Nat) (layers : List Layer) :
    Follows t { t with layers, tasks := t.tasks.erase id } where
  next := Nat.le_refl _
  tasks := by
    intro other task ht
    exact .inl ⟨task, (of_getElem?_erase ht).2, rfl, rfl⟩

/-- Traffic follows in which a task has come to another stage. -/
private theorem follows_insert {t : Traffic} {id : Nat} {origin : Origin} {r : Request}
    {stage : Stage} (htask : t.tasks[id]? = some ⟨origin, r, stage⟩) (later : Stage)
    (layers : List Layer) :
    Follows t { t with layers, tasks := t.tasks.insert id ⟨origin, r, later⟩ } where
  next := Nat.le_refl _
  tasks := by
    intro other task ht
    rcases of_getElem?_insert ht with ⟨rfl, rfl⟩ | ⟨-, ht⟩
    · exact .inl ⟨_, htask, rfl, rfl⟩
    · exact .inl ⟨task, ht, rfl, rfl⟩

/-- Traffic follows in which a task is issued. -/
theorem Follows.issue {t t' : Traffic} (h : Follows t t') (task : Task) :
    Follows t { t' with tasks := t'.tasks.insert t'.next task, next := t'.next + 1 } where
  next := Nat.le_succ_of_le h.next
  tasks := by
    intro other task ht
    rcases of_getElem?_insert ht with ⟨rfl, -⟩ | ⟨-, ht⟩
    · exact .inr h.next
    · exact h.tasks other task ht

/-- Traffic follows traffic before. -/
theorem Follows.trans {t t' t'' : Traffic} (h : Follows t t') (h' : Follows t' t'') :
    Follows t t'' where
  next := Nat.le_trans h.next h'.next
  tasks := by
    intro id task ht
    rcases h'.tasks id task ht with ⟨earlier, hearlier, ho, hr⟩ | hnext
    · rcases h.tasks id earlier hearlier with ⟨first, hfirst, ho', hr'⟩ | hnext
      · exact .inl ⟨first, hfirst, ho'.trans ho, hr'.trans hr⟩
      · exact .inr hnext
    · exact .inr (Nat.le_trans h.next hnext)

/-- Traffic follows in which a task has run. -/
private theorem follows_run {t : Traffic} {l : Layer} {id : Nat} {run : Traffic × Effect}
    (h : Turn t l id run) : Follows t run.1 := by
  cases h with
  | idle hwait => exact follows_of_tasks_eq rfl rfl
  | answered htask hreceive => exact follows_erase t id _
  | joined htask hreceive => exact follows_insert htask _ _
  | opened htask hreceive => exact (follows_insert htask _ _).issue _
  | passed htask hreceive => exact follows_insert htask _ _
  | called htask => exact follows_insert htask _ _
  | left htask hcollect => exact follows_erase t id _
  | returned htask => exact follows_erase t id _
  | crashed htask => exact follows_erase t id _
  | landed htask => exact follows_erase t id _

/-- Traffic follows what it was before an event. -/
theorem Sound.follows_step {w : Watched} (h : w.Sound) (e : Event) :
    Follows w.traffic (w.step e).traffic := by
  have hsame : Follows w.traffic w.traffic := follows_of_tasks_eq rfl rfl
  cases e with
  | issue r => exact hsame.issue _
  | run id =>
    obtain ⟨l, hl⟩ := h.single
    exact follows_run (h.turn hl id)
  | effect id outcome => exact hsame
  | respond id =>
    simp only [Watched.step]
    split
    · simp only [Traffic.respond]
      split
      · next task htask =>
        split
        · exact follows_insert htask _ _
        · exact hsame
      · exact hsame
    · exact hsame
  | abort id =>
    simp only [Watched.step, Traffic.abort]
    split
    · split
      · exact follows_erase w.traffic id _
      · exact follows_erase w.traffic id _
      · exact hsame
    · exact hsame
  | tick d => exact follows_of_tasks_eq rfl rfl

/-- Traffic follows what it was before a run. -/
theorem Sound.follows_after {w : Watched} (h : w.Sound) (es : List Event) :
    Follows w.traffic (w.after es).traffic := by
  induction es generalizing w with
  | nil => exact follows_of_tasks_eq rfl rfl
  | cons e es ih => exact (h.follows_step e).trans (ih (h.step e))

end Watched
end Traffic
end LayeredStore
