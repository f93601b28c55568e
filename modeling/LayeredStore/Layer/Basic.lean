import LayeredStore.Layer.Coalescer
import LayeredStore.Layer.Metadata
import LayeredStore.Settings.Basic

/-!
# Layers

A layer stands between those who ask and a provider. It receives requests from outside, and what
it does not answer goes further in, as it is, and comes back through it. A request that callers
share at a layer goes further in as a call of its own, which lands at the layer when it ends.
Clients choose a layer with `decorate`.
-/

namespace LayeredStore

/-- A cache in front of a provider. -/
inductive Layer
  | metadata (cache : MetadataCache)
  | coalescing (c : Coalescer)

/-- A layer that is wanted. -/
inductive LayerPlan
  | metadata (lifetime : Nanoseconds)
  | coalescing (quotaLifetime : Nanoseconds)
  | chosen (settings : Settings)

namespace Layer

/-- A new layer, unless a lifetime is too long. Settings choose the layer by what the provider
is capable of, and only the lifetime of the chosen layer matters. -/
def new? (capable : Bool) : LayerPlan → Option Layer
  | .metadata lifetime => (MetadataCache.new? lifetime).map metadata
  | .coalescing quotaLifetime => (Coalescer.new? quotaLifetime).map coalescing
  | .chosen settings => match settings.stack.select capable with
    | .metadata => (MetadataCache.new? settings.metadataLifetime).map metadata
    | .coalescing => (Coalescer.new? settings.quotaLifetime).map coalescing

/-- A request arrives from outside; none if it goes further in. -/
def receive (l : Layer) (now : Nanoseconds) (caller : Nat) (r : Request) :
    Layer × Option (Admission Reply) :=
  match l with
  | metadata cache =>
    let (cache, answer) := cache.receive now r
    (metadata cache, answer.map .answered)
  | coalescing c =>
    let (c, admission) := c.receive now caller r
    (coalescing c, admission)

/-- A request that went further in comes back with its answer. -/
def returned (l : Layer) (now : Nanoseconds) (r : Request) (a : Answer Reply) : Layer :=
  match l with
  | metadata cache => metadata (cache.returned now r a)
  | coalescing c => coalescing (c.returned r)

/-- The shared call of a ticket ends. -/
def land (l : Layer) (r : Request) (ticket : Nat) (outcome : Outcome Reply) : Layer :=
  match l with
  | metadata cache => metadata cache
  | coalescing c => coalescing (c.land ticket outcome r)

/-- The answer that a waiting caller can leave with, if there is one. -/
def answer? (l : Layer) (caller : Nat) (r : Request) : Option (Answer Reply) :=
  match l with
  | metadata _ => none
  | coalescing c => c.answer? caller r

/-- A waiting caller leaves with its answer, if there is one. -/
def collect (l : Layer) (now : Nanoseconds) (caller : Nat) (r : Request) :
    Option (Layer × Answer Reply) :=
  match l with
  | metadata _ => none
  | coalescing c => (c.collect now caller r).map fun (c, a) => (coalescing c, a)

/-- A waiting caller leaves without an answer. -/
def leave (l : Layer) (caller : Nat) (r : Request) : Layer :=
  match l with
  | metadata cache => metadata cache
  | coalescing c => coalescing (c.leave caller r)

end Layer
end LayeredStore
