import LayeredStore.Service.Basic
import LayeredStore.Proofs.Traffic.Descent

/-!
# A service with a single caller

A quiet service has nothing under way, nothing laid ready and a provider that answers at once.
Main statement: a request of a quiet service ends as the way of a request that is alone does,
and leaves the service quiet.
-/

namespace LayeredStore.Service

/-! ### Steps -/

/-- What the run of a task means to the service. -/
def follow (s : Service) (id : Nat) (run : Traffic × Effect) : Service :=
  match run.2 with
  | .nothing => { s with traffic := run.1 }
  | .call r => { s with traffic := run.1 }.dispatch id r
  | .report outcome => { s with traffic := run.1 }.conclude id outcome

/-- A step of a service is the run of its next task. -/
private theorem progress?_eq (s : Service) :
    s.progress? = s.traffic.ready?.map fun id => s.follow id (s.traffic.poll id) := rfl

/-- Without tasks a service takes no step. -/
private theorem progress?_eq_none {s : Service} (h : s.traffic.tasks = ∅) : s.progress? = none := by
  rw [progress?_eq, Traffic.ready?_eq_none h]
  rfl

/-- A number of steps lead from one service to another. -/
inductive Steps : Service → Nat → Service → Prop
  | zero (s : Service) : Steps s 0 s
  | succ {s s₁ s₂ : Service} {n : Nat} (h : s.progress? = some s₁) (rest : Steps s₁ n s₂) :
      Steps s (n + 1) s₂

/-- Steps follow each other. -/
theorem Steps.trans {s s₁ s₂ : Service} {m n : Nat} (h : Steps s m s₁) (h' : Steps s₁ n s₂) :
    Steps s (m + n) s₂ := by
  induction h with
  | zero => rwa [Nat.zero_add]
  | succ hstep _ ih =>
    rw [Nat.succ_add]
    exact .succ hstep (ih h')

/-- A service settles where its steps end. -/
private theorem Steps.settleWithin_eq {s s' : Service} {n fuel : Nat} (h : Steps s n s')
    (hend : s'.progress? = none) (hn : n ≤ fuel) : settleWithin fuel s = s' := by
  induction h generalizing fuel with
  | zero s =>
    cases fuel with
    | zero => rfl
    | succ fuel => simp [settleWithin, hend]
  | succ hstep _ ih =>
    cases fuel with
    | zero => omega
    | succ fuel =>
      rw [settleWithin, hstep]
      exact ih hend (by omega)

/-! ### Runs of one task -/

section Task

variable {s : Service} {outer inner : List Layer} {id : Nat} {task : Task}

/-- If all others wait, the run of a task that can run on is the next step. -/
private theorem progress?_of_othersWait (hothers : s.traffic.OthersWait outer id)
    (hlayers : s.traffic.layers = outer ++ inner) (htask : s.traffic.tasks[id]? = some task)
    (hready : s.traffic.isReady id task = true) :
    s.progress? = some (s.follow id (s.traffic.poll id)) := by
  rw [progress?_eq, hothers.ready? hlayers htask hready]
  rfl

/-- A call that is not laid ready and has no latency is served on the spot. -/
private theorem dispatch_eq (hlatency : s.latency = 0) (hinjections : s.injections = [])
    (r : Request) : s.dispatch id r =
      { s with
        made := r.operation :: s.made
        provider := (s.provider.serve ⟨s.now⟩ r).1
        traffic := s.traffic.respond id (s.provider.serve ⟨s.now⟩ r).2 } := by
  simp [dispatch, hinjections, schedule, hlatency, complete, respond, now]

/-- A task has been issued at the layers `inner`, all others wait at layers before these, and
calls of the provider are served on the spot. -/
structure Entering (s : Service) (outer inner : List Layer) (id : Nat) (task : Task) : Prop where
  layers : s.traffic.layers = outer ++ inner
  others : s.traffic.OthersWait outer id
  present : s.traffic.tasks[id]? = some task
  issued : task.stage = .issued
  entry : task.entry = outer.length
  next : s.traffic.next = id + 1
  latency : s.latency = 0
  injections : s.injections = []

/-- A service in which a task has ended, with what it has changed on its way. -/
def ended (s : Service) (id : Nat) (task : Task) (layers : List Layer) (next : Nat)
    (made : List Operation) (p : Provider) (outcome : Outcome Reply) : Service :=
  { s with provider := p, made }.follow id
    (Traffic.finish { s.traffic with layers, next } id task outcome)

/-- The first step of a task that has been issued takes it inwards. -/
theorem Entering.progress? (h : s.Entering outer inner id task) :
    s.progress? = some (s.follow id (s.traffic.enter id task)) := by
  have hready : s.traffic.isReady id task = true := by simp [Traffic.isReady, h.issued]
  rw [progress?_of_othersWait h.others h.layers h.present hready]
  simp only [Traffic.poll, h.present, h.issued]

/-- How far a task that has been issued gets depends on the layers that are before it. -/
theorem Entering.descend (h : s.Entering outer inner id task) :
    Traffic.descend s.traffic.now id task.request (s.traffic.layers.drop task.entry) task.entry =
      Traffic.descend s.now id task.request inner outer.length := by
  rw [h.layers, h.entry, List.drop_left]
  rfl

/-- The layers before which a task has been issued stay as they are. -/
theorem Entering.take (h : s.Entering outer inner id task) :
    s.traffic.layers.take task.entry = outer := by
  rw [h.layers, h.entry, List.take_left]

/-- The run of a task that has come further ends it as if it had just been issued, if the other
tasks are the same as then. -/
private theorem Entering.progress?_of_finish (h : s.Entering outer inner id task) {t : Traffic}
    {rest layers : List Layer} {task' : Task} {outcome : Outcome Reply}
    (hlayers : t.layers = outer ++ rest) (hnow : t.now = s.now)
    (htasks : ∀ other, other ≠ id → t.tasks[other]? = s.traffic.tasks[other]?)
    (htask : t.tasks[id]? = some task') (hready : t.isReady id task' = true)
    (hpoll : t.poll id = Traffic.finish { t with layers } id task outcome)
    (made : List Operation) (p : Provider) :
    ({ s with traffic := t, made, provider := p } : Service).progress? =
      some (s.ended id task layers t.next made p outcome) := by
  have hfinish : Traffic.finish { t with layers } id task outcome =
      Traffic.finish { s.traffic with layers, next := t.next } id task outcome := by
    apply Traffic.finish_congr
    · rfl
    · rfl
    · exact hnow
    · exact htasks
  rw [progress?_of_othersWait (h.others.of_tasks htasks) hlayers htask hready, hpoll, hfinish]
  rfl

/-- A task that waits leaves with its answer as soon as there is one, and takes it back through
the layers that it has passed. -/
private theorem Entering.progress?_of_collect (h : s.Entering outer inner id task) {t : Traffic}
    {front rest : List Layer} {l l' : Layer} {a : Answer Reply}
    (hlayers : t.layers = outer ++ (front ++ l :: rest)) (hnow : t.now = s.now)
    (htasks : ∀ other, other ≠ id → t.tasks[other]? = s.traffic.tasks[other]?)
    (htask : t.tasks[id]? = some { task with stage := .waiting (outer.length + front.length) })
    (hleave : l.collect s.now id task.request = some (l', a)) (made : List Operation)
    (p : Provider) :
    ({ s with traffic := t, made, provider := p } : Service).progress? =
      some (s.ended id task
        (outer ++ (front.map (fun l => l.returned s.now task.request a) ++ l' :: rest)) t.next
        made p (.answer a)) := by
  have hlayer : t.layers[outer.length + front.length]? = some l := by
    rw [hlayers, ← List.append_assoc, ← List.length_append, List.getElem?_append_right
      (Nat.le_refl _), Nat.sub_self]
    rfl
  have hready : t.isReady id { task with stage := .waiting (outer.length + front.length) } =
      true := by
    simp [Traffic.isReady, hlayer, Traffic.answer?_of_collect hleave]
  have hentry : ({ task with stage := .waiting (outer.length + front.length) } : Task).entry =
      outer.length := h.entry
  let layers := outer ++ (front.map (fun l => l.returned s.now task.request a) ++ l' :: rest)
  have hpoll : t.poll id = Traffic.finish { t with layers } id task (.answer a) := by
    simp only [Traffic.poll, htask, hlayer, Option.bind_some, hnow, hleave]
    rw [Traffic.modifyLayer_append hlayers, Traffic.bring, hentry, Traffic.ascend_append]
    simp only [layers, ← hnow]
    rfl
  exact h.progress?_of_finish hlayers hnow htasks htask hready hpoll made p

/-- A task whose call has ended takes the outcome back through the layers that it has passed. -/
private theorem Entering.progress?_of_responded (h : s.Entering outer inner id task) {t : Traffic}
    {front : List Layer} {outcome : Outcome Reply} (hlayers : t.layers = outer ++ front)
    (hnow : t.now = s.now)
    (htasks : ∀ other, other ≠ id → t.tasks[other]? = s.traffic.tasks[other]?)
    (htask : t.tasks[id]? = some { task with stage := .responded outcome })
    (made : List Operation) (p : Provider) :
    ({ s with traffic := t, made, provider := p } : Service).progress? =
      some (s.ended id task (outer ++ front.map fun l => l.back s.now task.request outcome)
        t.next made p outcome) := by
  have hready : t.isReady id { task with stage := .responded outcome } = true := rfl
  have hentry : ({ task with stage := .responded outcome } : Task).entry = outer.length := h.entry
  let layers := outer ++ front.map fun l => l.back s.now task.request outcome
  have hpoll : t.poll id = Traffic.finish { t with layers } id task outcome := by
    simp only [Traffic.poll, htask]
    cases outcome with
    | crash =>
      have hback : front.map (fun l => l.back s.now task.request .crash) = front :=
        List.map_id front
      simp only [layers, hback, ← hlayers]
      rfl
    | answer a =>
      have hascend : Traffic.ascend t.now task.request a outer.length
          (outer.length + front.length) (outer ++ front) =
          outer ++ front.map fun l => l.returned t.now task.request a := by
        simpa using Traffic.ascend_append outer front [] a
      simp only [Traffic.bring, hentry, hlayers, List.length_append, hascend, layers, ← hnow]
      rfl
  exact h.progress?_of_finish hlayers hnow htasks htask hready hpoll made p

/-! ### The ways of a task -/

/-- A request that all layers let pass is served and goes back through them. -/
private theorem Entering.steps_of_served (h : s.Entering outer inner id task)
    (hpass : ∀ l ∈ inner, (l.receive s.now id task.request).2 = none) :
    Steps s 2 (s.ended id task
      (outer ++ inner.map fun l =>
        l.passed s.now id task.request (s.provider.serve ⟨s.now⟩ task.request).2)
      s.traffic.next (task.request.operation :: s.made)
      (s.provider.serve ⟨s.now⟩ task.request).1 (s.provider.serve ⟨s.now⟩ task.request).2) := by
  let outcome := (s.provider.serve ⟨s.now⟩ task.request).2
  let calling : Traffic := { s.traffic with
    layers := outer ++ inner.map fun l => (l.receive s.now id task.request).1
    tasks := s.traffic.tasks.insert id { task with stage := .calling } }
  let responded : Traffic := { calling with
    tasks := calling.tasks.insert id { task with stage := .responded outcome } }
  have hdescend := h.descend
  rw [Traffic.descend_of_pass hpass] at hdescend
  have henter : s.traffic.enter id task = (calling, .call task.request) := by
    simp only [Traffic.enter, hdescend, h.take]
    rfl
  have hcalling : calling.tasks[id]? = some { task with stage := .calling } := by
    simp [calling]
  have hrespond : calling.respond id outcome = responded := by
    simp only [Traffic.respond, hcalling]
    rfl
  have hfirst : s.progress? = some { s with
      traffic := calling.respond id outcome
      made := task.request.operation :: s.made
      provider := (s.provider.serve ⟨s.now⟩ task.request).1 } := by
    rw [h.progress?, henter]
    exact congrArg some (dispatch_eq (s := { s with traffic := calling }) h.latency h.injections
      task.request)
  have htasks : ∀ other, other ≠ id → responded.tasks[other]? = s.traffic.tasks[other]? := by
    intro other hne
    simp [responded, calling, Std.ExtTreeMap.getElem?_insert, Ne.symm hne]
  have hresponded : responded.tasks[id]? = some { task with stage := .responded outcome } := by
    simp [responded]
  rw [hrespond] at hfirst
  have hsecond := h.progress?_of_responded (t := responded) rfl rfl htasks hresponded
    (task.request.operation :: s.made) (s.provider.serve ⟨s.now⟩ task.request).1
  rw [List.map_map] at hsecond
  exact .succ hfirst (.succ hsecond (.zero _))

variable {front rest : List Layer} {l l' l'' : Layer} {a : Answer Reply}

/-- A request that a layer answers goes back through those before it at once. -/
private theorem Entering.steps_of_answered (h : s.Entering outer (front ++ l :: rest) id task)
    (hpass : ∀ l ∈ front, (l.receive s.now id task.request).2 = none)
    (hl : l.receive s.now id task.request = (l', some (.answered a))) :
    Steps s 1 (s.ended id task
      (outer ++ (front.map (fun l => l.passed s.now id task.request (.answer a)) ++ l' :: rest))
      s.traffic.next s.made s.provider (.answer a)) := by
  have hdescend := h.descend
  rw [Traffic.descend_of_answered hpass hl] at hdescend
  have hstep := h.progress?
  simp only [Traffic.enter, hdescend, h.take] at hstep
  exact .succ hstep (.zero _)

/-- A request that joins a call which has crashed leaves with the answer in its next step. -/
private theorem Entering.steps_of_joined (h : s.Entering outer (front ++ l :: rest) id task)
    (hpass : ∀ l ∈ front, (l.receive s.now id task.request).2 = none)
    (hl : l.receive s.now id task.request = (l', some .joined))
    (hleave : l'.collect s.now id task.request = some (l'', a)) :
    Steps s 2 (s.ended id task
      (outer ++ (front.map (fun l => l.passed s.now id task.request (.answer a)) ++ l'' :: rest))
      s.traffic.next s.made s.provider (.answer a)) := by
  let front' := front.map fun l => (l.receive s.now id task.request).1
  let waiting : Traffic := { s.traffic with
    layers := outer ++ (front' ++ l' :: rest)
    tasks := s.traffic.tasks.insert id
      { task with stage := .waiting (outer.length + front.length) } }
  have hdescend := h.descend
  rw [Traffic.descend_of_joined hpass hl] at hdescend
  have hfirst : s.progress? = some { s with traffic := waiting } := by
    rw [h.progress?]
    simp only [Traffic.enter, hdescend, h.take]
    rfl
  have htasks : ∀ other, other ≠ id → waiting.tasks[other]? = s.traffic.tasks[other]? := by
    intro other hne
    simp [waiting, Std.ExtTreeMap.getElem?_insert, Ne.symm hne]
  have htask : waiting.tasks[id]? =
      some { task with stage := .waiting (outer.length + front'.length) } := by
    simp [waiting, front']
  have hsecond := h.progress?_of_collect (t := waiting) rfl rfl htasks htask hleave s.made
    s.provider
  rw [List.map_map] at hsecond
  exact .succ hfirst (.succ hsecond (.zero _))

/-- The call that a request starts at a layer. -/
def sharedCall (task : Task) (number ticket : Nat) : Task :=
  ⟨.ticket number ticket, task.request, .issued⟩

/-- A request that starts a call waits for it; the call is issued behind the layer. -/
def opening (s : Service) (outer front : List Layer) (id : Nat) (task : Task) (l : Layer)
    (rest : List Layer) (ticket : Nat) : Service :=
  let number := outer.length + front.length
  { s with traffic := { s.traffic with
      layers := outer ++
        (front.map (fun l => (l.receive s.now id task.request).1) ++ l :: rest)
      tasks := (s.traffic.tasks.insert id { task with stage := .waiting number }).insert (id + 1)
        (sharedCall task number ticket)
      next := id + 2 } }

/-- A request that starts a call does so in its first step. -/
private theorem Entering.progress?_of_opened (h : s.Entering outer (front ++ l :: rest) id task)
    (hpass : ∀ l ∈ front, (l.receive s.now id task.request).2 = none) {ticket : Nat}
    (hl : l.receive s.now id task.request = (l', some (.opened ticket))) :
    s.progress? = some (s.opening outer front id task l' rest ticket) := by
  have hdescend := h.descend
  rw [Traffic.descend_of_opened hpass hl] at hdescend
  rw [h.progress?]
  simp only [Traffic.enter, hdescend, h.take, Traffic.advance, h.next]
  rfl

/-- No task has come after the one that has been issued last. -/
private theorem Entering.absent (h : s.Entering outer inner id task) :
    s.traffic.tasks[id + 1]? = none := by
  cases hn : s.traffic.tasks[id + 1]? with
  | none => rfl
  | some t =>
    obtain ⟨hlt, -⟩ := h.others (id + 1) t hn (by omega)
    omega

/-- The call that a request has started is the next task, and the request waits with the
others. -/
private theorem Entering.opening (h : s.Entering outer (front ++ l :: rest) id task) {ticket : Nat}
    (hwait : l'.answer? id task.request = none) :
    (s.opening outer front id task l' rest ticket).Entering
      (outer ++ (front.map (fun l => (l.receive s.now id task.request).1) ++ [l'])) rest (id + 1)
      (sharedCall task (outer.length + front.length) ticket) where
  layers := by simp [Service.opening]
  others := by
    intro other t ht hne
    simp only [Service.opening, Std.ExtTreeMap.getElem?_insert, Nat.compare_eq_eq,
      Ne.symm hne, ↓reduceIte] at ht
    by_cases hid : id = other
    · subst hid
      obtain rfl : { task with stage := .waiting (outer.length + front.length) } = t := by
        simpa using ht
      refine ⟨by omega, _, l', rfl, ?_, hwait⟩
      rw [← List.append_assoc]
      simp
    · simp only [hid, ↓reduceIte] at ht
      obtain ⟨hlt, number, m, hstage, hm, hnone⟩ := h.others other t ht (Ne.symm hid)
      have hnumber : number < outer.length := (List.getElem?_eq_some_iff.mp hm).1
      refine ⟨by omega, number, m, hstage, ?_, hnone⟩
      rw [List.getElem?_append_left hnumber, hm]
  present := by simp [Service.opening]
  issued := rfl
  entry := by simp [Task.entry, sharedCall, Nat.add_assoc]
  next := rfl
  latency := h.latency
  injections := h.injections

/-- A request whose call has ended leaves with the answer of the call. -/
private theorem Entering.steps_of_shared (h : s.Entering outer (front ++ l :: rest) id task)
    (hpass : ∀ l ∈ front, (l.receive s.now id task.request).2 = none) {ticket : Nat}
    (hl : l.receive s.now id task.request = (l', some (.opened ticket)))
    {outcome : Outcome Reply} {rest' : List Layer} {n next : Nat} {made : List Operation}
    {p : Provider}
    (hcall : Steps (s.opening outer front id task l' rest ticket) n
      ((s.opening outer front id task l' rest ticket).ended (id + 1)
        (sharedCall task (outer.length + front.length) ticket)
        (outer ++ (front.map (fun l => (l.receive s.now id task.request).1) ++ [l']) ++ rest')
        next made p outcome))
    (hleave : (l'.land task.request ticket outcome).collect s.now id task.request =
      some (l'', a)) :
    Steps s (n + 2) (s.ended id task
      (outer ++ (front.map (fun l => l.passed s.now id task.request (.answer a)) ++ l'' :: rest'))
      next made p (.answer a)) := by
  let number := outer.length + front.length
  let front' := front.map fun l => (l.receive s.now id task.request).1
  let landed : Traffic := { s.traffic with
    layers := outer ++ (front' ++ l'.land task.request ticket outcome :: rest')
    tasks := ((s.traffic.tasks.insert id { task with stage := .waiting number }).insert (id + 1)
      (sharedCall task number ticket)).erase (id + 1)
    next }
  have hlayers : outer ++ (front' ++ [l']) ++ rest' = outer ++ (front' ++ l' :: rest') := by simp
  have hnumber : number = outer.length + front'.length := by simp [number, front']
  have hended : (s.opening outer front id task l' rest ticket).ended (id + 1)
      (sharedCall task number ticket) (outer ++ (front' ++ [l']) ++ rest') next made p outcome =
      { s with traffic := landed, made, provider := p } := by
    simp only [ended, Traffic.finish, sharedCall, hlayers, hnumber]
    rw [Traffic.modifyLayer_append rfl]
    rfl
  have htasks : ∀ other, other ≠ id → landed.tasks[other]? = s.traffic.tasks[other]? := by
    intro other hne
    by_cases ho : id + 1 = other
    · subst ho
      simp [landed, h.absent]
    · simp [landed, Std.ExtTreeMap.getElem?_erase, Std.ExtTreeMap.getElem?_insert, ho,
        Ne.symm hne]
  have htask : landed.tasks[id]? =
      some { task with stage := .waiting (outer.length + front'.length) } := by
    have hne : id + 1 ≠ id := by omega
    rw [← hnumber]
    simp only [landed, Std.ExtTreeMap.getElem?_erase, Std.ExtTreeMap.getElem?_insert,
      Nat.compare_eq_eq, hne, ↓reduceIte]
  have hlast := h.progress?_of_collect (t := landed) rfl rfl htasks htask hleave made p
  rw [List.map_map] at hlast
  rw [hended] at hcall
  exact .succ (h.progress?_of_opened hpass hl) (hcall.trans (.succ hlast (.zero _)))

end Task

/-- A task that has been issued, while all others wait, ends as the way of its request does. -/
theorem steps_of_passage {now : Nanoseconds} {r : Request} {id : Nat} {inner inner' : List Layer}
    {p p' : Provider} {outcome : Outcome Reply}
    (h : Passage now r id inner p inner' p' outcome) :
    ∀ {s : Service} {outer : List Layer} {task : Task}, s.Entering outer inner id task →
      task.request = r → s.now = now → s.provider = p →
      ∃ n next made, n ≤ 2 * (inner.length + 1) ∧
        Steps s n (s.ended id task (outer ++ inner') next made p' outcome) := by
  -- by induction on the way; the call that a request starts is a task with a way of its own
  induction h with
  | served hpass =>
    rintro s outer task hs rfl rfl rfl
    exact ⟨2, _, _, by omega, hs.steps_of_served hpass⟩
  | answered hpass hl =>
    rintro s outer task hs rfl rfl rfl
    exact ⟨1, _, _, by omega, hs.steps_of_answered hpass hl⟩
  | joined hpass hl hleave =>
    rintro s outer task hs rfl rfl rfl
    exact ⟨2, _, _, by omega, hs.steps_of_joined hpass hl hleave⟩
  | shared hpass hl hwait _ hleave ih =>
    rintro s outer task hs rfl rfl rfl
    obtain ⟨n, next, made, hn, hcall⟩ := ih (hs.opening hwait) rfl rfl rfl
    refine ⟨n + 2, next, made, ?_, hs.steps_of_shared hpass hl hcall hleave⟩
    rw [List.length_append, List.length_cons]
    omega

/-! ### Calls -/

/-- Nothing is under way, nothing is laid ready and the provider answers at once. -/
structure Quiet (s : Service) : Prop where
  tasks : s.traffic.tasks = ∅
  pending : s.pending = ∅
  clients : s.clients = ∅
  reports : s.reports = []
  injections : s.injections = []
  latency : s.latency = 0

/-- A quiet service stays quiet as long as it has no tasks. -/
theorem Quiet.of_tasks {s : Service} (h : s.Quiet) {t : Traffic} (ht : t.tasks = ∅)
    (made : List Operation) (p : Provider) :
    ({ s with traffic := t, made, provider := p } : Service).Quiet :=
  ⟨ht, h.pending, h.clients, h.reports, h.injections, h.latency⟩

/-- A new service is quiet if its provider answers at once. -/
theorem quiet_of_new? {pageSize : UInt64} {capable : Bool} {plans : List LayerPlan} {s : Service}
    (h : new? 0 pageSize capable plans = some s) : s.Quiet := by
  obtain ⟨layers, -, rfl⟩ := Option.map_eq_some_iff.mp h
  exact ⟨rfl, rfl, rfl, rfl, rfl, rfl⟩

/-- A request is the only task of a quiet service in which it has just been made. -/
private theorem Quiet.entering {s : Service} (h : s.Quiet) (client : Client) (r : Request) :
    (s.issue client r).Entering [] s.traffic.layers s.traffic.next ⟨.caller, r, .issued⟩ where
  layers := rfl
  others := by
    intro other task htask hne
    simp [issue, Traffic.issue, h.tasks, Ne.symm hne] at htask
  present := by simp [issue, Traffic.issue]
  issued := rfl
  entry := rfl
  next := rfl
  latency := h.latency
  injections := h.injections

/-- When the only request of a service has ended its outcome is reported. -/
private theorem Quiet.ended {s : Service} (h : s.Quiet) (number : Option Nat) (r : Request)
    (layers : List Layer) (next : Nat) (made : List Operation) (p : Provider)
    (outcome : Outcome Reply) :
    (s.issue ⟨number, none⟩ r).ended s.traffic.next ⟨.caller, r, .issued⟩ layers next made p
      outcome = { s with
        traffic := { s.traffic with layers, next }
        made
        provider := p
        reports := [(number, outcome)] } := by
  simp [Service.ended, issue, Traffic.issue, Traffic.finish, follow, conclude, h.tasks,
    h.clients, h.reports, Std.ExtTreeMap.size_insert]

/-- A call ends at once if its outcome is there as soon as the service has settled. -/
private theorem call_eq {s settled : Service} {c : Call} {outcome : Outcome Reply}
    (h : (s.begin none c).settle = settled) (houtcome : settled.foreground? = some outcome) :
    s.call c =
      ({ settled with reports := settled.reports.filter fun r => r.1.isSome }, some outcome) := by
  have hawait : awaitWithin settled.patience settled = settled := by
    cases settled.patience with
    | zero => rfl
    | succ leaps => simp [awaitWithin, houtcome]
  simp only [Service.call, h, hawait, houtcome]

/-- A call of a quiet service has the outcome of the way of its request, changes the layers and
the provider as that way does, and leaves the service quiet. -/
theorem Quiet.call {s : Service} (h : s.Quiet) {r : Request} {layers : List Layer} {p : Provider}
    {outcome : Outcome Reply}
    (hway : Passage s.now r s.traffic.next s.traffic.layers s.provider layers p outcome) :
    ∃ next made, s.call (.request r) =
      ({ s with traffic := { s.traffic with layers, next }, made, provider := p },
        some outcome) := by
  obtain ⟨n, next, made, hn, hsteps⟩ := steps_of_passage hway (h.entering ⟨none, none⟩ r) rfl
    rfl rfl
  rw [List.nil_append, h.ended] at hsteps
  refine ⟨next, made, ?_⟩
  have hfuel : n ≤ (s.issue ⟨none, none⟩ r).patience := by
    refine Nat.le_trans hn (Nat.le_trans ?_ (Nat.le_mul_of_pos_right _ (Nat.succ_pos _)))
    refine Nat.mul_le_mul ?_ ?_
    · simp [issue, Traffic.issue, h.tasks, Std.ExtTreeMap.size_insert]
    · simp only [issue, Traffic.issue]
      omega
  have hsettle : (s.begin none (.request r)).settle = _ :=
    hsteps.settleWithin_eq (progress?_eq_none h.tasks) hfuel
  rw [call_eq hsettle rfl]
  simp [h.reports]

/-- Time that passes at a quiet service only puts the clock forward. -/
theorem Quiet.sleep {s : Service} (h : s.Quiet) (d : Nanoseconds) :
    s.sleep d = { s with traffic := s.traffic.tick d } := by
  have hdue : s.nextDue? = none := by
    rw [nextDue?, h.pending]
    rfl
  have hadvance : s.advanceTo (s.now + d) = { s with traffic := s.traffic.tick d } := by
    rw [advanceTo, Nat.add_sub_cancel_left]
  unfold Service.sleep
  cases s.patience with
  | zero => exact hadvance
  | succ leaps => simp only [sleepWithin, hdue, hadvance]

end LayeredStore.Service
