import LayeredStore.Proofs.Service.Alone
import LayeredStore.Proofs.Store.Reads

/-!
# Layers are transparent

One caller makes one request after the other and lets time pass in between. Main statement:
behind any layers it is answered as the provider alone would answer it, quotas apart, and the
provider holds in the end what it would hold without the layers.
-/

namespace LayeredStore

/-- What a single caller does. -/
inductive Turn
  | request (r : Request)
  | pause (d : Nanoseconds)

/-! ### The provider alone -/

/-- A provider without layers, and a clock. -/
structure Bare where
  provider : Provider
  now : Nanoseconds

namespace Bare

/-- The answer to a request. -/
def answer (b : Bare) (r : Request) : Outcome Reply := (b.provider.serve ⟨b.now⟩ r).2

/-- The provider and the clock after a turn. -/
def turn (b : Bare) : Turn → Bare
  | .request r => { b with provider := (b.provider.serve ⟨b.now⟩ r).1 }
  | .pause d => { b with now := b.now + d }

/-- The provider and the clock after some turns. -/
def after (b : Bare) (turns : List Turn) : Bare := turns.foldl turn b

end Bare

namespace Provider

/-- Whether the end of the page that a request asks for is a 64-bit number. -/
def PageFits (p : Provider) (r : Request) : Prop :=
  match r with
  | .list folder token => ∀ start,
    Store.pageStart (p.store.children folder).length token = .ok start →
      start + p.pageSize.toNat < UInt64.size
  | .metadata .. | .quota .. | .read .. | .write .. | .createFolder .. | .deleteFile ..
  | .deleteFolder .. | .move .. => True

/-- The first page of a folder always fits. -/
private theorem pageFits_first (p : Provider) (folder : Path) : p.PageFits (.list folder none) := by
  intro start hstart
  obtain rfl : 0 = start := by simpa [Store.pageStart] using hstart
  rw [Nat.zero_add]
  exact p.pageSize.toNat_lt

/-- A change does not crash. -/
private theorem commit_ne_crash {α : Type} (p : Provider) (change : Answer (α × Store))
    (reply : α → Reply) : (p.commit change reply).2 ≠ .crash := by
  cases change <;> simp [commit, Outcome.value, Outcome.failure]

/-- A request does not crash at the provider if its page fits. -/
theorem serve_ne_crash {p : Provider} {r : Request} (h : p.PageFits r) (now : Timestamp) :
    (p.serve now r).2 ≠ .crash := by
  cases r with
  | metadata path => simp [serve]
  | list folder token =>
    simp only [serve, Store.list]
    split
    · simp [Outcome.failure, Outcome.map]
    · split
      · simp [Outcome.failure, Outcome.map]
      · next start hstart =>
        rw [if_pos (h start hstart)]
        simp [Outcome.value, Outcome.map]
  | quota folder => simp [serve]
  | read file offset count =>
    cases hread : p.store.read file offset count with
    | answer a => simp [serve, hread, Outcome.map]
    | crash => exact absurd hread (p.store.read_ne_crash file offset count)
  | write file replace data modified => exact p.commit_ne_crash _ _
  | createFolder folder => exact p.commit_ne_crash _ _
  | deleteFile file => exact p.commit_ne_crash _ _
  | deleteFolder folder => exact p.commit_ne_crash _ _
  | move source target replace => simp [serve]

end Provider

/-! ### The provider behind layers -/

namespace Service

/-- The service after a turn. -/
def turn (s : Service) : Turn → Service
  | .request r => (s.call (.request r)).1
  | .pause d => s.sleep d

/-- The service after some turns. -/
def after (s : Service) (turns : List Turn) : Service := turns.foldl turn s

/-- A quiet service holds what a provider alone holds at the same time, and its layers agree with
that. -/
structure Mirrors (s : Service) (b : Bare) : Prop where
  quiet : s.Quiet
  provider : s.provider = b.provider
  now : s.now = b.now
  layers : ∀ l ∈ s.traffic.layers, l.Agrees b.provider.store

/-- New layers agree with every store. -/
private theorem agrees_of_mapM {capable : Bool} {plans : List LayerPlan} {layers : List Layer}
    (h : plans.mapM (Layer.new? capable) = some layers) (s : Store) :
    ∀ l ∈ layers, l.Agrees s := by
  induction plans generalizing layers with
  | nil =>
    obtain rfl : layers = [] := by simpa [eq_comm] using h
    exact List.forall_mem_nil _
  | cons plan plans ih =>
    simp only [List.mapM_cons, Option.bind_eq_bind, Option.bind_eq_some_iff, Option.pure_def,
      Option.some.injEq] at h
    obtain ⟨l, hl, rest, hrest, rfl⟩ := h
    exact List.forall_mem_cons.mpr ⟨Layer.agrees_of_new? hl s, ih hrest⟩

/-- A new service holds what its provider alone holds. -/
private theorem mirrors_of_new? {pageSize : UInt64} {capable : Bool} {plans : List LayerPlan}
    {s : Service} (h : new? 0 pageSize capable plans = some s) (p : Provider) :
    ({ s with provider := p } : Service).Mirrors ⟨p, epoch⟩ := by
  obtain ⟨layers, hlayers, hs⟩ := Option.map_eq_some_iff.mp h
  have htraffic : s.traffic = .start layers.reverse epoch := by rw [← hs]
  refine ⟨(quiet_of_new? h).of_tasks (quiet_of_new? h).tasks s.made p, rfl, ?_, ?_⟩
  · rw [now, htraffic, Traffic.start]
  · intro l hl
    rw [htraffic] at hl
    exact agrees_of_mapM hlayers p.store l (List.mem_reverse.mp hl)

/-- A call has the outcome that the provider alone gives, quotas apart, and afterwards the service
holds again what the provider alone holds. -/
theorem Mirrors.call {s : Service} {b : Bare} (h : s.Mirrors b) {r : Request}
    (hfits : b.provider.PageFits r) :
    (s.call (.request r)).1.Mirrors (b.turn (.request r)) ∧
      (r.operation ≠ .quota → (s.call (.request r)).2 = some (b.answer r)) := by
  obtain ⟨layers, a, hway, hagree, ha⟩ := Passage.exists_of_agrees h.layers
    (b.provider.serve_ne_crash hfits ⟨b.now⟩) s.traffic.next
  rw [← h.now, ← h.provider] at hway
  obtain ⟨next, made, hcall⟩ := h.quiet.call hway
  rw [hcall]
  refine ⟨⟨h.quiet.of_tasks ?_ made _, ?_, h.now, hagree⟩, ?_⟩
  · exact h.quiet.tasks
  · rw [h.provider, h.now]
    rfl
  · intro hr
    rw [ha hr]
    rfl

/-- When time passes, a service goes on to hold what the provider alone holds. -/
private theorem Mirrors.sleep {s : Service} {b : Bare} (h : s.Mirrors b) (d : Nanoseconds) :
    (s.sleep d).Mirrors (b.turn (.pause d)) := by
  rw [h.quiet.sleep]
  refine ⟨h.quiet.of_tasks ?_ s.made s.provider, h.provider, ?_, h.layers⟩
  · exact h.quiet.tasks
  · exact congrArg (· + d) h.now

/-- After every turn a service holds what the provider alone holds. -/
theorem Mirrors.turn {s : Service} {b : Bare} (h : s.Mirrors b) {t : Turn}
    (hfits : ∀ r, t = .request r → b.provider.PageFits r) : (s.turn t).Mirrors (b.turn t) := by
  cases t with
  | request r => exact (h.call (hfits r rfl)).1
  | pause d => exact h.sleep d

/-- After all turns a service holds what the provider alone holds. -/
theorem Mirrors.after {s : Service} {b : Bare} (h : s.Mirrors b) {turns : List Turn}
    (hfits : ∀ before r later, turns = before ++ .request r :: later →
      (b.after before).provider.PageFits r) : (s.after turns).Mirrors (b.after turns) := by
  induction turns generalizing s b with
  | nil => exact h
  | cons t turns ih =>
    refine ih (h.turn fun r ht => hfits [] r turns (by rw [ht]; rfl)) ?_
    intro before r later hsplit
    exact hfits (t :: before) r later (by rw [hsplit]; rfl)

/-- **Layers are transparent.** Let any layers stand before a provider that holds anything, and let
a single caller make one request after the other, with pauses, such that the end of no page is
beyond the 64-bit numbers. Then every request that does not ask for a quota is answered as the
provider alone would answer it at that point, and in the end the provider holds what it would
hold without the layers. -/
theorem layers_are_transparent {capable : Bool} {plans : List LayerPlan} {p : Provider}
    {s : Service} (h : new? 0 p.pageSize capable plans = some s) (turns : List Turn)
    (hfits : ∀ before r later, turns = before ++ .request r :: later →
      ((⟨p, epoch⟩ : Bare).after before).provider.PageFits r) :
    let layered : Service := { s with provider := p }
    let bare : Bare := ⟨p, epoch⟩
    (∀ before r later, turns = before ++ .request r :: later → r.operation ≠ .quota →
      ((layered.after before).call (.request r)).2 = some ((bare.after before).answer r)) ∧
    (layered.after turns).provider.store = (bare.after turns).provider.store ∧
    (layered.after turns).now = (bare.after turns).now := by
  intro layered bare
  have hstart : layered.Mirrors bare := mirrors_of_new? h p
  refine ⟨?_, ?_, (hstart.after hfits).now⟩
  · intro before r later hsplit hr
    have hbefore : (layered.after before).Mirrors (bare.after before) := by
      refine hstart.after fun first r' rest hfirst => ?_
      exact hfits first r' (rest ++ .request r :: later) (by simp [hsplit, hfirst])
    exact (hbefore.call (hfits before r later hsplit)).2 hr
  · rw [(hstart.after hfits).provider]

/-- A folder is moved to a place where the caches know that there is nothing, and it is seen there
at once. -/
theorem layers_are_transparent_after_move :
    let p : Provider := .new 100
    let source : Path := ⟨true, ["a"]⟩
    let target : Path := ⟨true, ["b"]⟩
    let turns : List Turn := [.request (.metadata target), .request (.createFolder source),
      .request (.list .root none), .pause (ofSeconds 3), .request (.move source target false)]
    ∃ s, new? 0 p.pageSize true [.metadata (ofSeconds 10), .coalescing (ofSeconds 10)] = some s ∧
      ((({ s with provider := p } : Service).after turns).call (.request (.metadata target))).2 =
        some (.value (.item (.folder target))) := by
  intro p source target turns
  obtain ⟨s, hs⟩ : ∃ s, new? 0 p.pageSize true
      [.metadata (ofSeconds 10), .coalescing (ofSeconds 10)] = some s :=
    Option.isSome_iff_exists.mp rfl
  have hfits : ∀ before r later, turns ++ [.request (.metadata target)] =
      before ++ .request r :: later →
      ((⟨p, epoch⟩ : Bare).after before).provider.PageFits r := by
    intro before r later hsplit
    have hmem : Turn.request r ∈ turns ++ [.request (.metadata target)] := by simp [hsplit]
    simp only [turns, List.cons_append, List.nil_append, List.mem_cons, Turn.request.injEq,
      reduceCtorEq, List.not_mem_nil, or_false, false_or] at hmem
    rcases hmem with rfl | rfl | rfl | rfl | rfl
    · trivial
    · trivial
    · exact Provider.pageFits_first _ _
    · trivial
    · trivial
  obtain ⟨hanswers, -, -⟩ := layers_are_transparent hs _ hfits
  refine ⟨s, hs, ?_⟩
  rw [hanswers turns (.metadata target) [] rfl (by simp [Request.operation])]
  rfl

end Service
end LayeredStore
