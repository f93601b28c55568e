import LayeredStore.Cache.Quota
import LayeredStore.Request

/-!
# The coalescing layer

Lets callers share metadata requests for one path, requests for one page of a folder, and quota
requests for one folder, the latter with a cache behind the desk. What a request may have
changed is forgotten when it comes back. Clients know it as the `CoalescingProvider`.
-/

namespace LayeredStore

/-- One page of a folder. -/
structure PageKey where
  folder : Path
  token : Option String
deriving DecidableEq

namespace PageKey

instance : Ord PageKey := ⟨compareLex (compareOn folder) (compareOn token)⟩

instance : Std.TransOrd PageKey :=
  inferInstanceAs (Std.TransCmp (compareLex (compareOn PageKey.folder) (compareOn PageKey.token)))

instance : Std.LawfulEqOrd PageKey where
  eq_of_compare {a b} h := by
    have h : (compare a.folder b.folder).then (compare a.token b.token) = .eq := h
    obtain ⟨hf, ht⟩ := Ordering.then_eq_eq.mp h
    cases a
    cases b
    have hf := Std.LawfulEqOrd.eq_of_compare hf
    have ht := Std.LawfulEqOrd.eq_of_compare ht
    simp_all

end PageKey

/-- The desks of a coalescing layer, one of them with a cache. -/
structure Coalescer where
  metadata : Desk Path Reply
  listings : Desk PageKey Reply
  quota : QuotaCache Reply

namespace Coalescer

/-- A layer where nobody waits, unless the lifetime of quotas is too long. -/
def new? (quotaLifetime : Nanoseconds) : Option Coalescer :=
  (QuotaCache.new? quotaLifetime).map fun quota => ⟨.empty, .empty, quota⟩

/-- Number of metadata and listing tickets. -/
def inFlight (c : Coalescer) : Nat := c.metadata.inFlight + c.listings.inFlight

/-- Lets nobody join a metadata or listing request for exactly this path any more. -/
def forgetPath (c : Coalescer) (path : Path) : Coalescer :=
  { c with
    metadata := c.metadata.evict path
    listings := c.listings.evictWhere fun key => key.folder = path }

/-- Lets nobody join a request for a path or anything below it any more, and forgets the quotas
there. -/
def forgetSubtree (c : Coalescer) (path : Path) : Coalescer :=
  { metadata := c.metadata.evictWhere (·.startsWith path)
    listings := c.listings.evictWhere fun key => key.folder.startsWith path
    quota := c.quota.invalidateSubtree path }

/-- A request arrives from outside: the caller waits, or is answered at once, or the request
goes further in without being shared. -/
def receive (c : Coalescer) (now : Nanoseconds) (caller : Nat) :
    Request → Coalescer × Option (Admission Reply)
  | .metadata path =>
    let (metadata, admission) := c.metadata.enter caller path
    ({ c with metadata }, some admission)
  | .list folder token =>
    let (listings, admission) := c.listings.enter caller ⟨folder, token⟩
    ({ c with listings }, some admission)
  | .quota folder =>
    let (quota, admission) := c.quota.ask now caller folder
    ({ c with quota }, some admission)
  | .read .. | .write .. | .createFolder .. | .deleteFile .. | .deleteFolder .. | .move .. =>
    (c, none)

/-- A request that went further in without being shared comes back: what it may have changed is
forgotten, whether it succeeded or not. -/
def returned (c : Coalescer) : Request → Coalescer
  | .write file .. => c.forgetPath file
  | .createFolder folder => c.forgetPath folder
  | .deleteFile file => c.forgetSubtree file
  | .deleteFolder folder => c.forgetSubtree folder
  | .move source target _ => (c.forgetSubtree source).forgetSubtree target
  | .metadata .. | .list .. | .quota .. | .read .. => c

/-- The shared call of a ticket ends. -/
def land (c : Coalescer) (ticket : Nat) (outcome : Outcome Reply) : Request → Coalescer
  | .metadata .. => { c with metadata := c.metadata.land ticket outcome }
  | .list .. => { c with listings := c.listings.land ticket outcome }
  | .quota .. => { c with quota := c.quota.land ticket outcome }
  | _ => c

/-- The answer that a waiting caller can leave with, if there is one. -/
def answer? (c : Coalescer) (caller : Nat) : Request → Option (Answer Reply)
  | .metadata .. => c.metadata.answer? caller
  | .list .. => c.listings.answer? caller
  | .quota .. => c.quota.desk.answer? caller
  | _ => none

/-- A waiting caller leaves with its answer, if there is one. -/
def collect (c : Coalescer) (now : Nanoseconds) (caller : Nat) :
    Request → Option (Coalescer × Answer Reply)
  | .metadata .. => (c.metadata.answer? caller).map fun a =>
    ({ c with metadata := c.metadata.leave caller }, a)
  | .list .. => (c.listings.answer? caller).map fun a =>
    ({ c with listings := c.listings.leave caller }, a)
  | .quota .. => (c.quota.collect now caller).map fun (quota, a) => ({ c with quota }, a)
  | _ => none

/-- A waiting caller leaves without an answer. -/
def leave (c : Coalescer) (caller : Nat) : Request → Coalescer
  | .metadata .. => { c with metadata := c.metadata.leave caller }
  | .list .. => { c with listings := c.listings.leave caller }
  | .quota .. => { c with quota := c.quota.leave caller }
  | _ => c

end Coalescer
end LayeredStore
