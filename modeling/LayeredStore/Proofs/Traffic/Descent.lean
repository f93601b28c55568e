import LayeredStore.Traffic
import LayeredStore.Proofs.Layer.Passage

/-!
# Tasks on their way through layers

How far a task gets that some layers let pass, what becomes of these layers on its way back, and
which task runs next if only one of them can.
-/

namespace LayeredStore.Traffic

variable {now : Nanoseconds} {id : Nat} {r : Request} {front : List Layer}

/-! ### Inwards -/

/-- Layers that let a request pass hand it on to those behind them, and if it is answered there
they have seen it both ways. -/
theorem descend_append (hpass : ∀ l ∈ front, (l.receive now id r).2 = none)
    (rest : List Layer) (number : Nat) :
    descend now id r (front ++ rest) number =
      match descend now id r rest (number + front.length) with
      | (rest, .answered a) =>
        (front.map (fun l => l.passed now id r (.answer a)) ++ rest, .answered a)
      | (rest, .waiting layer opened) =>
        (front.map (fun l => (l.receive now id r).1) ++ rest, .waiting layer opened)
      | (rest, .reached) => (front.map (fun l => (l.receive now id r).1) ++ rest, .reached) := by
  induction front generalizing number with
  | nil =>
    simp only [List.nil_append, List.length_nil, Nat.add_zero, List.map_nil]
    rcases descend now id r rest number with ⟨rest, a | _ | _⟩ <;> rfl
  | cons l front ih =>
    obtain ⟨hl, hfront⟩ := List.forall_mem_cons.mp hpass
    have hstep : number + 1 + front.length = number + (l :: front).length := by
      rw [List.length_cons]
      omega
    have hih := ih hfront (number + 1)
    rw [hstep] at hih
    cases hreceive : l.receive now id r with
    | mk l' admission =>
      obtain rfl : admission = none := by simpa [hreceive] using hl
      simp only [List.cons_append, descend, hreceive, hih]
      rcases descend now id r rest (number + (l :: front).length) with ⟨rest, a | _ | _⟩
      · simp [Layer.passed, Layer.back, hreceive]
      · simp [hreceive]
      · simp [hreceive]

/-- A request that all layers let pass reaches the provider. -/
theorem descend_of_pass (hpass : ∀ l ∈ front, (l.receive now id r).2 = none) (number : Nat) :
    descend now id r front number =
      (front.map (fun l => (l.receive now id r).1), .reached) := by
  have h := descend_append hpass [] number
  simpa [descend] using h

variable {l l' : Layer} {inner : List Layer}

/-- A request gets as far as the first layer that answers it. -/
theorem descend_of_answered (hpass : ∀ l ∈ front, (l.receive now id r).2 = none)
    {a : Answer Reply} (hl : l.receive now id r = (l', some (.answered a))) (number : Nat) :
    descend now id r (front ++ l :: inner) number =
      (front.map (fun l => l.passed now id r (.answer a)) ++ l' :: inner, .answered a) := by
  rw [descend_append hpass]
  simp only [descend, hl]

/-- A request gets as far as the first layer where it joins a call. -/
theorem descend_of_joined (hpass : ∀ l ∈ front, (l.receive now id r).2 = none)
    (hl : l.receive now id r = (l', some .joined)) (number : Nat) :
    descend now id r (front ++ l :: inner) number =
      (front.map (fun l => (l.receive now id r).1) ++ l' :: inner,
        .waiting (number + front.length) none) := by
  rw [descend_append hpass]
  simp only [descend, hl]

/-- A request gets as far as the first layer where it starts a call. -/
theorem descend_of_opened (hpass : ∀ l ∈ front, (l.receive now id r).2 = none) {ticket : Nat}
    (hl : l.receive now id r = (l', some (.opened ticket))) (number : Nat) :
    descend now id r (front ++ l :: inner) number =
      (front.map (fun l => (l.receive now id r).1) ++ l' :: inner,
        .waiting (number + front.length) (some ticket)) := by
  rw [descend_append hpass]
  simp only [descend, hl]

/-! ### Outwards -/

/-- An answer goes back through the layers between two numbers. -/
theorem ascend_append (outer front rest : List Layer) (a : Answer Reply) :
    ascend now r a outer.length (outer.length + front.length) (outer ++ (front ++ rest)) =
      outer ++ (front.map (fun l => l.returned now r a) ++ rest) := by
  apply List.ext_getElem?
  intro i
  simp only [ascend, List.getElem?_mapIdx, List.getElem?_append, List.length_map,
    List.getElem?_map]
  by_cases ho : i < outer.length
  · have hout : ¬(outer.length ≤ i ∧ i < outer.length + front.length) := by omega
    simp [ho, hout]
  · by_cases hf : i - outer.length < front.length
    · have hin : outer.length ≤ i ∧ i < outer.length + front.length := by omega
      simp [ho, hf, hin]
    · have hout : ¬(outer.length ≤ i ∧ i < outer.length + front.length) := by omega
      simp [ho, hf, hout]

/-- The layer at a number is the one after as many others. -/
theorem modifyLayer_append {t : Traffic} {outer front : List Layer}
    (h : t.layers = outer ++ (front ++ l :: inner)) (f : Layer → Layer) :
    t.modifyLayer (outer.length + front.length) f =
      { t with layers := outer ++ (front ++ f l :: inner) } := by
  have hmodify : (outer ++ (front ++ l :: inner)).modify (outer.length + front.length) f =
      outer ++ (front ++ f l :: inner) := by
    rw [List.modify_eq_take_drop, ← List.append_assoc, ← List.length_append, List.take_left,
      List.drop_left, List.modifyHead_cons, List.append_assoc]
  rw [modifyLayer, h, hmodify]

/-- Who can leave a layer with an answer has it there. -/
theorem answer?_of_collect {a : Answer Reply} (h : l.collect now id r = some (l', a)) :
    l.answer? id r = some a := by
  cases l with
  | metadata cache => simp [Layer.collect] at h
  | coalescing c =>
    obtain ⟨⟨c', a'⟩, hc, he⟩ := Option.map_eq_some_iff.mp h
    obtain ⟨-, rfl⟩ := Prod.mk.inj he
    cases r with
    | metadata path =>
      obtain ⟨a, ha, he⟩ := Option.map_eq_some_iff.mp hc
      obtain ⟨-, rfl⟩ := Prod.mk.inj he
      exact ha
    | list folder token =>
      obtain ⟨a, ha, he⟩ := Option.map_eq_some_iff.mp hc
      obtain ⟨-, rfl⟩ := Prod.mk.inj he
      exact ha
    | quota folder =>
      obtain ⟨⟨quota, a⟩, hq, he⟩ := Option.map_eq_some_iff.mp hc
      obtain ⟨-, rfl⟩ := Prod.mk.inj he
      obtain ⟨a, ha, he⟩ := Option.map_eq_some_iff.mp hq
      obtain ⟨-, rfl⟩ := Prod.mk.inj he
      exact ha
    | _ => simp [Coalescer.collect] at hc

/-! ### The next task -/

/-- All tasks but one have come before it and wait at outer layers, without an answer. -/
def OthersWait (t : Traffic) (outer : List Layer) (id : Nat) : Prop :=
  ∀ (other : Nat) (task : Task), t.tasks[other]? = some task → other ≠ id →
    other < id ∧ ∃ number l, task.stage = .waiting number ∧ outer[number]? = some l ∧
      l.answer? other task.request = none

/-- If all others wait, a task that can run on is the next one. -/
theorem OthersWait.ready? {t : Traffic} {outer : List Layer} (h : t.OthersWait outer id)
    (hlayers : t.layers = outer ++ inner) {task : Task} (htask : t.tasks[id]? = some task)
    (hready : t.isReady id task = true) : t.ready? = some id := by
  have hmem : (id, task) ∈ t.tasks.toList :=
    Std.ExtTreeMap.mem_toList_iff_getElem?_eq_some.mpr htask
  have hnext : t.ready? = (t.tasks.toList.find? fun p => t.isReady p.1 p.2).map Prod.fst := rfl
  cases hf : t.tasks.toList.find? fun p => t.isReady p.1 p.2 with
  | none =>
    have := List.find?_eq_none.mp hf (id, task) hmem
    simp [hready] at this
  | some found =>
    obtain ⟨other, task'⟩ := found
    have hfound : t.tasks[other]? = some task' :=
      Std.ExtTreeMap.mem_toList_iff_getElem?_eq_some.mp (List.mem_of_find?_eq_some hf)
    have hother : t.isReady other task' = true := by
      simpa using List.find?_some hf
    have hid : other = id := by
      by_cases he : other = id
      · exact he
      · obtain ⟨-, number, l, hstage, hl, hnone⟩ := h other task' hfound he
        have hnumber : number < outer.length := (List.getElem?_eq_some_iff.mp hl).1
        have hlayer : t.layers[number]? = some l := by
          rw [hlayers, List.getElem?_append_left hnumber, hl]
        simp [isReady, hstage, hlayer, hnone] at hother
    rw [hnext, hf, ← hid]
    rfl

/-- Whether all others wait is a matter of the others. -/
theorem OthersWait.of_tasks {t t' : Traffic} {outer : List Layer} (h : t.OthersWait outer id)
    (htasks : ∀ other, other ≠ id → t'.tasks[other]? = t.tasks[other]?) :
    t'.OthersWait outer id := by
  intro other task htask hne
  rw [htasks other hne] at htask
  exact h other task htask hne

/-- How a task ends does not depend on how far it has come. -/
theorem finish_congr {t t' : Traffic} (hlayers : t.layers = t'.layers) (hnext : t.next = t'.next)
    (hnow : t.now = t'.now) (htasks : ∀ other, other ≠ id → t.tasks[other]? = t'.tasks[other]?)
    (task : Task) (outcome : Outcome Reply) :
    t.finish id task outcome = t'.finish id task outcome := by
  have herase : t.tasks.erase id = t'.tasks.erase id := by
    apply Std.ExtTreeMap.ext_getElem?
    intro other
    by_cases ho : id = other
    · simp [ho]
    · simpa [Std.ExtTreeMap.getElem?_erase, ho] using htasks other (Ne.symm ho)
  simp only [finish, herase, hlayers, hnext, hnow]

/-- Without tasks none can run on. -/
theorem ready?_eq_none {t : Traffic} (h : t.tasks = ∅) : t.ready? = none := by
  simp [Traffic.ready?, h]

end LayeredStore.Traffic
