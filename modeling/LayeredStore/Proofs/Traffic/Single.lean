import LayeredStore.Traffic

/-!
# Traffic through a single layer

Behind a single layer there is the provider, so a task waits at that layer or not at all, and a
call that is shared there is a task that goes straight to the provider. Main statement: the run of
a task is one of ten turns, each of which changes the layer and the tasks in its own way.
-/

namespace LayeredStore

/-- A task of traffic through a single layer: a caller's, or a call that is shared at this layer and
so waits nowhere. -/
def Task.IsSingle (task : Task) : Prop :=
  match task.origin, task.stage with
  | .caller, .waiting layer => layer = 0
  | .caller, _ => True
  | .ticket _ _, .waiting _ => False
  | .ticket layer _, _ => layer = 0

namespace Traffic

/-- What the run of a task can do to traffic through a single layer, and what it means to those
outside. -/
inductive Turn (t : Traffic) (l : Layer) (id : Nat) : Traffic × Effect → Prop
  /-- There is no such task, or it has to wait for the provider or for an answer at the layer. -/
  | idle
      (hwait : ∀ task : Task, t.tasks[id]? = some task → task.stage = .calling ∨
        task.origin = .caller ∧ task.stage = .waiting 0 ∧
          l.collect t.now id task.request = none) :
      Turn t l id (t, .nothing)
  /-- The layer answers a request at once. -/
  | answered {r : Request} {l' : Layer} {a : Answer Reply}
      (htask : t.tasks[id]? = some ⟨.caller, r, .issued⟩)
      (hl : l.receive t.now id r = (l', some (.answered a))) :
      Turn t l id ({ t with layers := [l'], tasks := t.tasks.erase id }, .report (.answer a))
  /-- A request joins a call that is on the board of the layer. -/
  | joined {r : Request} {l' : Layer}
      (htask : t.tasks[id]? = some ⟨.caller, r, .issued⟩)
      (hl : l.receive t.now id r = (l', some .joined)) :
      Turn t l id ({ t with
        layers := [l']
        tasks := t.tasks.insert id ⟨.caller, r, .waiting 0⟩ }, .nothing)
  /-- A request starts a call at the layer. -/
  | opened {r : Request} {l' : Layer} {ticket : Nat}
      (htask : t.tasks[id]? = some ⟨.caller, r, .issued⟩)
      (hl : l.receive t.now id r = (l', some (.opened ticket))) :
      Turn t l id ({ t with
        layers := [l']
        tasks := (t.tasks.insert id ⟨.caller, r, .waiting 0⟩).insert t.next
          ⟨.ticket 0 ticket, r, .issued⟩
        next := t.next + 1 }, .nothing)
  /-- The layer lets a request pass, and it reaches the provider. -/
  | passed {r : Request} {l' : Layer}
      (htask : t.tasks[id]? = some ⟨.caller, r, .issued⟩)
      (hl : l.receive t.now id r = (l', none)) :
      Turn t l id ({ t with
        layers := [l']
        tasks := t.tasks.insert id ⟨.caller, r, .calling⟩ }, .call r)
  /-- A shared call reaches the provider. -/
  | called {r : Request} {ticket : Nat}
      (htask : t.tasks[id]? = some ⟨.ticket 0 ticket, r, .issued⟩) :
      Turn t l id ({ t with
        tasks := t.tasks.insert id ⟨.ticket 0 ticket, r, .calling⟩ }, .call r)
  /-- Who waits at the layer leaves it with an answer. -/
  | left {r : Request} {l' : Layer} {a : Answer Reply}
      (htask : t.tasks[id]? = some ⟨.caller, r, .waiting 0⟩)
      (hl : l.collect t.now id r = some (l', a)) :
      Turn t l id ({ t with layers := [l'], tasks := t.tasks.erase id }, .report (.answer a))
  /-- A request comes back through the layer with the provider's answer. -/
  | returned {r : Request} {a : Answer Reply}
      (htask : t.tasks[id]? = some ⟨.caller, r, .responded (.answer a)⟩) :
      Turn t l id ({ t with
        layers := [l.returned t.now r a]
        tasks := t.tasks.erase id }, .report (.answer a))
  /-- A request that was not shared crashes at the provider. -/
  | crashed {r : Request}
      (htask : t.tasks[id]? = some ⟨.caller, r, .responded .crash⟩) :
      Turn t l id ({ t with tasks := t.tasks.erase id }, .report .crash)
  /-- A shared call ends. -/
  | landed {r : Request} {ticket : Nat} {outcome : Outcome Reply}
      (htask : t.tasks[id]? = some ⟨.ticket 0 ticket, r, .responded outcome⟩) :
      Turn t l id ({ t with
        layers := [l.land r ticket outcome]
        tasks := t.tasks.erase id }, .nothing)

/-- The run of a task through a single layer is one of the turns. -/
theorem turn {t : Traffic} {l : Layer} (hl : t.layers = [l])
    (hsingle : ∀ (id : Nat) (task : Task), t.tasks[id]? = some task → task.IsSingle)
    (id : Nat) : Turn t l id (t.poll id) := by
  cases htask : t.tasks[id]? with
  | none =>
    simp only [poll, htask]
    exact .idle (by simp [htask])
  | some task =>
    have hs := hsingle id task htask
    obtain ⟨origin, r, stage⟩ := task
    cases stage with
    | calling =>
      simp only [poll, htask]
      exact .idle (by simp [htask])
    | issued =>
      cases origin with
      | ticket layer ticket =>
        obtain rfl : layer = 0 := hs
        have h := Turn.called (l := l) htask
        simpa [poll, htask, enter, hl, Task.entry, descend, advance] using h
      | caller =>
        cases hr : l.receive t.now id r with
        | mk l' admission =>
          rcases admission with _ | a | _ | ticket
          · have h := Turn.passed htask hr
            simpa [poll, htask, enter, hl, Task.entry, descend, hr, advance] using h
          · have h := Turn.answered htask hr
            simpa [poll, htask, enter, hl, Task.entry, descend, hr, finish] using h
          · have h := Turn.joined htask hr
            simpa [poll, htask, enter, hl, Task.entry, descend, hr, advance] using h
          · have h := Turn.opened htask hr
            simpa [poll, htask, enter, hl, Task.entry, descend, hr, advance] using h
    | waiting layer =>
      cases origin with
      | ticket layer ticket => exact hs.elim
      | caller =>
        obtain rfl : layer = 0 := hs
        cases hc : l.collect t.now id r with
        | none =>
          simp only [poll, htask, hl, List.getElem?_cons_zero, Option.bind_some, hc]
          exact .idle (by simp [htask, hc])
        | some left =>
          obtain ⟨l', a⟩ := left
          have h := Turn.left htask hc
          simpa [poll, htask, hl, hc, bring, finish, modifyLayer, ascend, Task.entry] using h
    | responded outcome =>
      cases origin with
      | caller =>
        cases outcome with
        | crash =>
          have h := Turn.crashed (l := l) htask
          simpa [poll, htask, finish] using h
        | answer a =>
          have h := Turn.returned (l := l) htask
          simpa [poll, htask, hl, bring, finish, ascend, Task.entry] using h
      | ticket layer ticket =>
        obtain rfl : layer = 0 := hs
        have h := Turn.landed (l := l) htask
        cases outcome with
        | crash => simpa [poll, htask, hl, finish, modifyLayer] using h
        | answer a =>
          simpa [poll, htask, hl, bring, finish, modifyLayer, ascend, Task.entry] using h

/-- How the caller of a request is told its outcome: at once, when it leaves the layer where it has
waited, or when the request has come back. -/
inductive Told (t : Traffic) (l : Layer) (id : Nat) (r : Request) :
    Traffic → Outcome Reply → Prop
  | answered {l' : Layer} {a : Answer Reply}
      (htask : t.tasks[id]? = some ⟨.caller, r, .issued⟩)
      (hl : l.receive t.now id r = (l', some (.answered a))) :
      Told t l id r { t with layers := [l'], tasks := t.tasks.erase id } (.answer a)
  | left {l' : Layer} {a : Answer Reply}
      (htask : t.tasks[id]? = some ⟨.caller, r, .waiting 0⟩)
      (hl : l.collect t.now id r = some (l', a)) :
      Told t l id r { t with layers := [l'], tasks := t.tasks.erase id } (.answer a)
  | returned {a : Answer Reply}
      (htask : t.tasks[id]? = some ⟨.caller, r, .responded (.answer a)⟩) :
      Told t l id r
        { t with layers := [l.returned t.now r a], tasks := t.tasks.erase id } (.answer a)
  | crashed (htask : t.tasks[id]? = some ⟨.caller, r, .responded .crash⟩) :
      Told t l id r { t with tasks := t.tasks.erase id } .crash

/-- A turn in which the outcome of a caller's request is reported tells it to that caller. -/
theorem Turn.told {t : Traffic} {l : Layer} {id : Nat} {run : Traffic × Effect}
    (h : Turn t l id run) {r : Request} {stage : Stage}
    (htask : t.tasks[id]? = some ⟨.caller, r, stage⟩) {outcome : Outcome Reply}
    (hreport : run.2 = .report outcome) : Told t l id r run.1 outcome := by
  have hsame {r' : Request} {stage' : Stage}
      (ht : t.tasks[id]? = some ⟨.caller, r', stage'⟩) : r' = r := by
    obtain ⟨-, rfl, -⟩ := Task.mk.inj (Option.some.inj (ht.symm.trans htask))
    rfl
  cases h with
  | answered ht hl =>
    obtain rfl := hsame ht
    obtain rfl := Effect.report.inj hreport
    exact .answered ht hl
  | left ht hl =>
    obtain rfl := hsame ht
    obtain rfl := Effect.report.inj hreport
    exact .left ht hl
  | returned ht =>
    obtain rfl := hsame ht
    obtain rfl := Effect.report.inj hreport
    exact .returned ht
  | crashed ht =>
    obtain rfl := hsame ht
    obtain rfl := Effect.report.inj hreport
    exact .crashed ht
  | _ => simp at hreport

end Traffic
end LayeredStore
