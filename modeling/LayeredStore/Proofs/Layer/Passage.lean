import LayeredStore.Proofs.Layer.Agreement

/-!
# The way of a request that is alone

A request goes inwards through the layers that let it pass, until one of them answers it or has
it wait, or the provider is reached; a call for which it waits is a request of its own, behind
the layer that has opened its ticket. Main statement: through layers that agree with the store a
request that is alone always has its way, which does to the provider and answers what the
provider itself does and answers, quotas apart, and the layers agree with the store again.
-/

namespace LayeredStore

/-- A layer when the outcome of a request comes back to it; a crash does not. -/
def Layer.back (l : Layer) (now : Nanoseconds) (r : Request) : Outcome Reply → Layer
  | .answer a => l.returned now r a
  | .crash => l

/-- A layer through which a request has passed both ways. -/
def Layer.passed (l : Layer) (now : Nanoseconds) (caller : Nat) (r : Request)
    (outcome : Outcome Reply) : Layer :=
  (l.receive now caller r).1.back now r outcome

/-- The way of a request that is alone in the layers from one on, with the layers and the provider
that it leaves and its outcome. Callers have numbers, and who makes a shared call the next one. -/
inductive Passage (now : Nanoseconds) (r : Request) :
    Nat → List Layer → Provider → List Layer → Provider → Outcome Reply → Prop
  /-- All layers let the request pass and the provider serves it. -/
  | served {caller : Nat} {front : List Layer} {p : Provider}
      (hpass : ∀ l ∈ front, (l.receive now caller r).2 = none) :
      Passage now r caller front p
        (front.map fun l => l.passed now caller r (p.serve ⟨now⟩ r).2) (p.serve ⟨now⟩ r).1
        (p.serve ⟨now⟩ r).2
  /-- A layer answers from memory. -/
  | answered {caller : Nat} {front : List Layer} {l l' : Layer} {inner : List Layer}
      {p : Provider} {a : Answer Reply}
      (hpass : ∀ l ∈ front, (l.receive now caller r).2 = none)
      (hl : l.receive now caller r = (l', some (.answered a))) :
      Passage now r caller (front ++ l :: inner) p
        (front.map (fun l => l.passed now caller r (.answer a)) ++ l' :: inner) p (.answer a)
  /-- The request joins a call that has crashed before. -/
  | joined {caller : Nat} {front : List Layer} {l l' l'' : Layer} {inner : List Layer}
      {p : Provider} {a : Answer Reply}
      (hpass : ∀ l ∈ front, (l.receive now caller r).2 = none)
      (hl : l.receive now caller r = (l', some .joined))
      (hleave : l'.collect now caller r = some (l'', a)) :
      Passage now r caller (front ++ l :: inner) p
        (front.map (fun l => l.passed now caller r (.answer a)) ++ l'' :: inner) p (.answer a)
  /-- The request waits for a call that it has started. -/
  | shared {caller : Nat} {front : List Layer} {l l' l'' : Layer} {inner inner' : List Layer}
      {p p' : Provider} {ticket : Nat} {outcome : Outcome Reply} {a : Answer Reply}
      (hpass : ∀ l ∈ front, (l.receive now caller r).2 = none)
      (hl : l.receive now caller r = (l', some (.opened ticket)))
      (hwait : l'.answer? caller r = none)
      (hcall : Passage now r (caller + 1) inner p inner' p' outcome)
      (hleave : (l'.land r ticket outcome).collect now caller r = some (l'', a)) :
      Passage now r caller (front ++ l :: inner) p
        (front.map (fun l => l.passed now caller r (.answer a)) ++ l'' :: inner') p' (.answer a)

namespace Passage

variable {now : Nanoseconds} {r : Request} {caller : Nat} {inner inner' : List Layer}
  {p p' : Provider} {outcome : Outcome Reply}

/-- A layer that lets the request pass may stand before all others. -/
theorem cons (h : Passage now r caller inner p inner' p' outcome) {l : Layer}
    (hl : (l.receive now caller r).2 = none) :
    Passage now r caller (l :: inner) p (l.passed now caller r outcome :: inner') p' outcome := by
  cases h with
  | served hpass => exact served (List.forall_mem_cons.mpr ⟨hl, hpass⟩)
  | answered hpass hreceive =>
    exact answered (List.forall_mem_cons.mpr ⟨hl, hpass⟩) hreceive
  | joined hpass hreceive hleave =>
    exact joined (List.forall_mem_cons.mpr ⟨hl, hpass⟩) hreceive hleave
  | shared hpass hreceive hwait hcall hleave =>
    exact shared (List.forall_mem_cons.mpr ⟨hl, hpass⟩) hreceive hwait hcall hleave

/-- Through layers that agree with the store a request has its way, unless it crashes at the
provider. It leaves what the provider alone would leave, the layers agree with that, and if it
does not ask for a quota it is answered as the provider alone would answer it. -/
theorem exists_of_agrees {layers : List Layer} (hlayers : ∀ l ∈ layers, l.Agrees p.store)
    (hserve : (p.serve ⟨now⟩ r).2 ≠ .crash) (caller : Nat) :
    ∃ layers' a, Passage now r caller layers p layers' (p.serve ⟨now⟩ r).1 (.answer a) ∧
      (∀ l ∈ layers', l.Agrees (p.serve ⟨now⟩ r).1.store) ∧
      (r.operation ≠ .quota → .answer a = (p.serve ⟨now⟩ r).2) := by
  induction layers generalizing caller with
  | nil =>
    cases ho : (p.serve ⟨now⟩ r).2 with
    | crash => exact absurd ho hserve
    | answer a =>
      have hway : Passage now r caller [] p [] (p.serve ⟨now⟩ r).1 (p.serve ⟨now⟩ r).2 :=
        served (List.forall_mem_nil _)
      rw [ho] at hway
      exact ⟨[], a, hway, List.forall_mem_nil _, fun _ => rfl⟩
  | cons l inner ih =>
    obtain ⟨hl, hinner⟩ := List.forall_mem_cons.mp hlayers
    cases l with
    | metadata cache =>
      have hpass (hnone : (cache.receive now r).2 = none) : ∃ layers' a,
          Passage now r caller (.metadata cache :: inner) p layers' (p.serve ⟨now⟩ r).1
            (.answer a) ∧
          (∀ l ∈ layers', l.Agrees (p.serve ⟨now⟩ r).1.store) ∧
          (r.operation ≠ .quota → .answer a = (p.serve ⟨now⟩ r).2) := by
        obtain ⟨inner', a, hway, hagree, ha⟩ := ih hinner caller
        have hreceive : ((Layer.metadata cache).receive now caller r).2 = none := by
          simp [Layer.receive, hnone]
        refine ⟨_, a, hway.cons hreceive, List.forall_mem_cons.mpr ⟨?_, hagree⟩, ha⟩
        exact MetadataCache.Agrees.returned hl now r ha
      cases hf : (cache.receive now r).2 with
      | none => exact hpass hf
      | some a =>
        obtain ⟨hop, hagree, ha⟩ := MetadataCache.Agrees.of_receive hl hf
        have hreceive : (Layer.metadata cache).receive now caller r =
            (.metadata (cache.receive now r).1, some (.answered a)) := by
          simp [Layer.receive, hf]
        rw [p.serve_eq_self ⟨now⟩ (.inl hop)]
        refine ⟨_, a, answered (List.forall_mem_nil _) hreceive, ?_, fun _ => ha⟩
        exact List.forall_mem_cons.mpr ⟨hagree, hinner⟩
    | coalescing c =>
      rcases Coalescer.Idle.receive hl now caller r with hnone | hquota | hopened
      · obtain ⟨inner', a, hway, hagree, ha⟩ := ih hinner caller
        have hreceive : ((Layer.coalescing c).receive now caller r).2 = none := by
          simp [Layer.receive, hnone]
        refine ⟨_, a, hway.cons hreceive, List.forall_mem_cons.mpr ⟨?_, hagree⟩, ha⟩
        have hidle : (c.returned r).Idle := Coalescer.Idle.returned hl r
        have hpassed : (Layer.coalescing c).passed now caller r (.answer a) =
            .coalescing (c.returned r) := by
          simp only [Layer.passed, Layer.back, Layer.receive, hnone, Layer.returned]
        rw [hpassed]
        exact hidle
      · obtain ⟨hop, c', a, hanswered, hidle⟩ := hquota
        have hreceive : (Layer.coalescing c).receive now caller r =
            (.coalescing c', some (.answered a)) := by
          simp [Layer.receive, hanswered]
        rw [p.serve_eq_self ⟨now⟩ (.inr (.inr (.inl hop)))]
        refine ⟨_, a, answered (List.forall_mem_nil _) hreceive, ?_, fun hne => absurd hop hne⟩
        exact List.forall_mem_cons.mpr ⟨hidle, hinner⟩
      · obtain ⟨c', ticket, hopened, hwait, hleave⟩ := hopened
        obtain ⟨inner', a, hway, hagree, ha⟩ := ih hinner (caller + 1)
        obtain ⟨c'', hcollect, hidle⟩ := hleave a
        have hreceive : (Layer.coalescing c).receive now caller r =
            (.coalescing c', some (.opened ticket)) := by
          simp [Layer.receive, hopened]
        have hleave : ((Layer.coalescing c').land r ticket (.answer a)).collect now caller r =
            some (.coalescing c'', a) := by
          simp [Layer.land, Layer.collect, hcollect]
        refine ⟨_, a, shared (List.forall_mem_nil _) hreceive hwait hway hleave, ?_, ha⟩
        exact List.forall_mem_cons.mpr ⟨hidle, hagree⟩

end Passage
end LayeredStore
