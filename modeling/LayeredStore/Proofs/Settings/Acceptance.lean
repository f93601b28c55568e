import LayeredStore.Service.Basic
import LayeredStore.Settings.Document

/-!
# Accepted settings

A document of settings is refused if a lifetime that it sets is zero. A layer can be made unless
the lifetime of its cache is too long, and no document is refused for that. Main statement: the
layer that accepted settings ask for can be made exactly if the lifetime set for it is a thousand
years at most; its cache then has this lifetime, which is not zero.
-/

namespace LayeredStore

namespace Settings

variable {text : String} {s : Settings}

/-! ### Lifetimes that are set -/

/-- The lifetime that is set for a kind of layer. -/
def lifetimeOf (s : Settings) : Stack → Nanoseconds
  | .metadata => s.metadataLifetime
  | .coalescing => s.quotaLifetime

/-- The milliseconds of a lifetime that is set in seconds, unless it is set in milliseconds. -/
def inMillis (seconds : UInt64) : Option UInt64 → Nat
  | some n => n.toNat
  | none => 1000 * seconds.toNat

/-- The milliseconds that are set for a kind of layer. -/
def millisOf (s : Settings) : Stack → Nat
  | .metadata => inMillis s.metadataSeconds s.metadataMillis
  | .coalescing => inMillis s.quotaSeconds s.quotaMillis

private theorem ofSeconds_eq_ofMillis (n : Nat) : ofSeconds n = ofMillis (1000 * n) := by
  change n * 1000000000 = 1000 * n * 1000000
  omega

/-- Every lifetime that can be set is a whole number of milliseconds. -/
theorem lifetimeOf_eq (s : Settings) (stack : Stack) :
    s.lifetimeOf stack = ofMillis (s.millisOf stack) := by
  obtain ⟨metadataSeconds, quotaSeconds, -, metadataMillis, quotaMillis⟩ := s
  cases stack with
  | metadata =>
    cases metadataMillis with
    | none => exact ofSeconds_eq_ofMillis metadataSeconds.toNat
    | some n => rfl
  | coalescing =>
    cases quotaMillis with
    | none => exact ofSeconds_eq_ofMillis quotaSeconds.toNat
    | some n => rfl

/-- The longest lifetime that a cache can have, in milliseconds. -/
def longestMillis : Nat := 31536000000000

private theorem ofMillis_le_longestLifetime_iff {n : Nat} :
    ofMillis n ≤ TimedMap.longestLifetime ↔ n ≤ longestMillis := by
  change n * 1000000 ≤ 31536000000 * 1000000000 ↔ n ≤ 31536000000000
  omega

/-! ### Acceptance -/

/-- Settings are valid if no lifetime is zero. -/
theorem validate_eq_ok_iff : s.validate = .ok () ↔ ∀ stack, 0 < s.lifetimeOf stack := by
  have hboth : (∀ stack, 0 < s.lifetimeOf stack) ↔
      s.metadataLifetime ≠ 0 ∧ s.quotaLifetime ≠ 0 := by
    constructor
    · intro h
      exact ⟨Nat.ne_of_gt (h .metadata), Nat.ne_of_gt (h .coalescing)⟩
    · rintro ⟨hmetadata, hquota⟩ (_ | _)
      · exact Nat.pos_of_ne_zero hquota
      · exact Nat.pos_of_ne_zero hmetadata
  rw [hboth, validate]
  split
  · simp [*]
  · split <;> simp [*]

/-- Accepted are the documents that write settings without a lifetime of zero. -/
theorem ofText_eq_ok_iff : ofText text = .ok s ↔
    (Json.parse? text).bind ofJson? = some s ∧ ∀ stack, 0 < s.lifetimeOf stack := by
  rw [← validate_eq_ok_iff, ofText]
  cases (Json.parse? text).bind ofJson? with
  | none => simp [throw, throwThe, MonadExceptOf.throw]
  | some settings =>
    have hdone : (do settings.validate; return settings : Except Fault Settings) = .ok s ↔
        settings = s ∧ settings.validate = .ok () := by
      cases settings.validate <;> simp [bind, Except.bind, pure, Except.pure]
    rw [Option.some.injEq]
    refine hdone.trans (and_congr_right ?_)
    rintro rfl
    exact Iff.rfl

end Settings

/-! ### New layers -/

/-- A new layer of a kind whose cache has a given lifetime, however long. -/
def Stack.layer (lifetime : Nanoseconds) : Stack → Layer
  | .metadata => .metadata ⟨⟨lifetime, ∅⟩, .zero⟩
  | .coalescing => .coalescing ⟨.empty, .empty, ⟨⟨lifetime, ∅⟩, .empty, 0, ∅, .zero⟩⟩

namespace LayerPlan

/-- The kind of layer that is wanted in front of a provider. -/
def stack (capable : Bool) : LayerPlan → Stack
  | .metadata _ => .metadata
  | .coalescing _ => .coalescing
  | .chosen settings => settings.stack.select capable

/-- The lifetime that is wanted for the cache of a layer in front of a provider. -/
def lifetime (capable : Bool) : LayerPlan → Nanoseconds
  | .metadata lifetime => lifetime
  | .coalescing quotaLifetime => quotaLifetime
  | .chosen settings => settings.lifetimeOf (settings.stack.select capable)

end LayerPlan

namespace Layer

/-- The lifetime of what the cache of a layer keeps. -/
def lifetime : Layer → Nanoseconds
  | metadata cache => cache.outcomes.lifetime
  | coalescing c => c.quota.outcomes.lifetime

@[simp] theorem lifetime_layer (stack : Stack) (d : Nanoseconds) :
    (stack.layer d).lifetime = d := by
  cases stack <;> rfl

private theorem map_metadata_new? (d : Nanoseconds) : (MetadataCache.new? d).map metadata =
    if d ≤ TimedMap.longestLifetime then some (Stack.metadata.layer d) else none := by
  unfold MetadataCache.new? TimedMap.new?
  split <;> rfl

private theorem map_coalescing_new? (d : Nanoseconds) : (Coalescer.new? d).map coalescing =
    if d ≤ TimedMap.longestLifetime then some (Stack.coalescing.layer d) else none := by
  unfold Coalescer.new? QuotaCache.new? TimedMap.new?
  split <;> rfl

/-- The layer that is wanted is made, unless the lifetime is too long. -/
private theorem new?_eq (capable : Bool) (plan : LayerPlan) : new? capable plan =
    if plan.lifetime capable ≤ TimedMap.longestLifetime
    then some ((plan.stack capable).layer (plan.lifetime capable)) else none := by
  cases plan with
  | metadata d => exact map_metadata_new? d
  | coalescing d => exact map_coalescing_new? d
  | chosen settings =>
    rw [new?, LayerPlan.lifetime, LayerPlan.stack]
    cases settings.stack.select capable with
    | metadata => exact map_metadata_new? settings.metadataLifetime
    | coalescing => exact map_coalescing_new? settings.quotaLifetime

/-- Settings lead to the layer of the kind chosen, with the lifetime set for it, unless that is
longer than a thousand years. -/
theorem new?_chosen_eq_some_iff {capable : Bool} {s : Settings} {l : Layer} :
    new? capable (.chosen s) = some l ↔
      s.millisOf (s.stack.select capable) ≤ Settings.longestMillis ∧
        (s.stack.select capable).layer (s.lifetimeOf (s.stack.select capable)) = l := by
  rw [← Settings.ofMillis_le_longestLifetime_iff, ← s.lifetimeOf_eq, new?_eq, LayerPlan.lifetime,
    LayerPlan.stack]
  split <;> simp [*]

end Layer

/-- One more layer can be put in front of a service exactly if it can be made. -/
theorem Service.new?_concat {latency : Nanoseconds} {pageSize : UInt64} {capable : Bool}
    {plans : List LayerPlan} {s : Service} (h : new? latency pageSize capable plans = some s)
    (plan : LayerPlan) : new? latency pageSize capable (plans ++ [plan]) =
      (Layer.new? capable plan).map fun l =>
        { s with traffic := .start (l :: s.traffic.layers) epoch } := by
  obtain ⟨layers, hlayers, rfl⟩ := Option.map_eq_some_iff.mp h
  rw [new?, List.mapM_append, hlayers]
  cases hl : Layer.new? capable plan with
  | none => simp [hl]
  | some l => simp [hl, Traffic.start]

namespace Settings

/-- The layer that accepted settings ask for can be made, in front of whatever provider, exactly if
the lifetime set for it is a thousand years at most. Then it is of the kind chosen, and its cache
has the lifetime set for it, which is not zero. In front of a service, settings lead under the same
condition to a service with this layer outside all others. -/
theorem accepted_usable_iff {text : String} {s : Settings} (h : ofText text = .ok s)
    (capable : Bool) :
    let stack := s.stack.select capable
    0 < s.lifetimeOf stack ∧
    ((∃ l, Layer.new? capable (.chosen s) = some l) ↔ s.millisOf stack ≤ longestMillis) ∧
    (∀ l, Layer.new? capable (.chosen s) = some l → l = stack.layer (s.lifetimeOf stack) ∧
      l.lifetime = ofMillis (s.millisOf stack) ∧ 0 < l.lifetime) ∧
    ∀ latency pageSize plans service, Service.new? latency pageSize capable plans = some service →
      ((∃ service', Service.new? latency pageSize capable (plans ++ [.chosen s]) = some service') ↔
        s.millisOf stack ≤ longestMillis) ∧
      ∀ service', Service.new? latency pageSize capable (plans ++ [.chosen s]) = some service' →
        service'.traffic.layers =
          stack.layer (s.lifetimeOf stack) :: service.traffic.layers := by
  intro stack
  have hpos : 0 < s.lifetimeOf stack := (ofText_eq_ok_iff.mp h).2 stack
  have hmade : (∃ l, Layer.new? capable (.chosen s) = some l) ↔
      s.millisOf stack ≤ longestMillis := by
    simp only [Layer.new?_chosen_eq_some_iff]
    constructor
    · rintro ⟨_, hle, -⟩
      exact hle
    · intro hle
      exact ⟨_, hle, rfl⟩
  have hlayer (l : Layer) (hl : Layer.new? capable (.chosen s) = some l) :
      l = stack.layer (s.lifetimeOf stack) ∧ l.lifetime = ofMillis (s.millisOf stack) ∧
        0 < l.lifetime := by
    obtain ⟨-, rfl⟩ := Layer.new?_chosen_eq_some_iff.mp hl
    rw [Layer.lifetime_layer]
    exact ⟨rfl, s.lifetimeOf_eq stack, hpos⟩
  refine ⟨hpos, hmade, hlayer, ?_⟩
  intro latency pageSize plans service hservice
  simp only [Service.new?_concat hservice, Option.map_eq_some_iff]
  constructor
  · rw [← hmade]
    constructor
    · rintro ⟨_, l, hl, -⟩
      exact ⟨l, hl⟩
    · rintro ⟨l, hl⟩
      exact ⟨_, l, hl, rfl⟩
  · rintro service' ⟨l, hl, rfl⟩
    rw [(hlayer l hl).1]
    rfl

/-- Settings with the longest lifetime for metadata. -/
def longestDocument : String := "\x7b\"metadata_ttl_secs\":31536000000\x7d"

/-- The settings are accepted, and lead to a metadata layer in front of a provider that does not
coalesce, and so to a service. -/
theorem accepted_usable_iff_longest :
    ∃ s, ofText longestDocument = .ok s ∧ s.stack.select false = .metadata ∧
      (∃ l, Layer.new? false (.chosen s) = some l ∧ l.lifetime = ofSeconds 31536000000) ∧
      ∃ service, Service.new? 0 100 false [.chosen s] = some service := by
  have haccepted : ofText longestDocument = .ok ⟨31536000000, 10, .auto, none, none⟩ :=
    ofText_eq_ok_iff.mpr ⟨by decide +kernel, by rintro (_ | _) <;> decide⟩
  obtain ⟨-, hmade, hlayer, hservice⟩ := accepted_usable_iff haccepted false
  have hshort : millisOf ⟨31536000000, 10, .auto, none, none⟩ .metadata ≤ longestMillis := by
    decide
  obtain ⟨l, hl⟩ := hmade.mpr hshort
  exact ⟨_, haccepted, rfl, ⟨l, hl, (hlayer l hl).2.1⟩,
    (hservice 0 100 [] _ rfl).1.mpr hshort⟩

/-- Settings with a lifetime of one second more. -/
def tooLongDocument : String := "\x7b\"metadata_ttl_secs\":31536000001\x7d"

/-- Not all accepted settings can be used: no layer is made of these. -/
theorem not_accepted_usable : ¬ ∀ text s, ofText text = .ok s → ∀ capable,
    ∃ l, Layer.new? capable (.chosen s) = some l ∧ 0 < l.lifetime := by
  intro h
  have haccepted : ofText tooLongDocument = .ok ⟨31536000001, 10, .auto, none, none⟩ :=
    ofText_eq_ok_iff.mpr ⟨by decide +kernel, by rintro (_ | _) <;> decide⟩
  obtain ⟨l, hl, -⟩ := h _ _ haccepted false
  exact absurd (Layer.new?_chosen_eq_some_iff.mp hl).1 (by decide)

end Settings
end LayeredStore
