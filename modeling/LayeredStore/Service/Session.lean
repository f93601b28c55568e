import LayeredStore.Service.Basic

/-!
# Sessions with a service

What a service can be told from outside, and what it answers. After every command all requests
have run on as far as they can.
-/

namespace LayeredStore.Service

/-- What a service can be told. -/
inductive Command
  /-- Calls something in the foreground. -/
  | call (c : Call)
  /-- Calls something in the background. -/
  | start (number : Nat) (c : Call)
  | abort (number : Nat)
  /-- Stores a folder and all that is missing above it, behind the layers. -/
  | seedFolder (path : Path)
  /-- Stores a file and all that is missing above it, behind the layers. -/
  | seedFile (path : Path) (data : ByteArray)
  | setQuota (quota : Option (Answer Quota))
  | inject (i : Injection)
  | exist (paths : List Path)
  | capability
  | sleep (d : Nanoseconds)
  /-- Tells the metadata cache of a layer something. -/
  | cache (layer : Nat) (c : MetadataCache.Command)
  /-- Asks whether a metadata request is under way at a coalescing layer. -/
  | isPending (layer : Nat) (path : Path)
  /-- Asks whether a coalescing layer keeps the quota of a folder. -/
  | keepsQuota (layer : Nat) (folder : Path)

/-- What a service answers. -/
inductive Response
  | done
  | outcome (o : Outcome Reply)
  | flag (b : Bool)
  | flags (bs : List Bool)
  | cache (r : MetadataCache.Response)

/-- Tells the metadata cache of a layer something; other layers do not listen. -/
private def tellCache (s : Service) (fromInside : Nat) (c : MetadataCache.Command) :
    Service × Response :=
  match s.layer? fromInside with
  | some (.metadata cache) =>
    let (cache, response) := cache.run s.now c
    ({ s with traffic := s.traffic.modifyLayer (s.place fromInside) fun _ => .metadata cache },
      .cache response)
  | _ => (s, .done)

/-- Asks a coalescing layer something; other layers do not know. -/
private def askCoalescer (s : Service) (fromInside : Nat) (question : Coalescer → Bool) :
    Response :=
  match s.layer? fromInside with
  | some (.coalescing c) => .flag (question c)
  | _ => .done

/-- Stores an entry behind the layers. -/
private def seed (s : Service) (path : Path) (e : Entry) : Service :=
  { s with provider := { s.provider with store := s.provider.store.seed path e } }

/-- Carries out a command. -/
def perform (s : Service) : Command → Service × Response
  | .call c => match s.call c with
    | (after, some o) => (after, .outcome o)
    | (after, none) => (after, .done)
  | .start number c => (s.start number c, .done)
  | .abort number =>
    let (after, b) := s.abort number
    (after, .flag b)
  | .seedFolder path => (s.seed path .folder, .done)
  | .seedFile path data => (s.seed path (.file data ⟨s.now⟩), .done)
  | .setQuota quota => ({ s with provider := { s.provider with quota } }, .done)
  | .inject i => ({ s with injections := s.injections ++ [i] }, .done)
  | .exist paths => (s, .flags (paths.map s.provider.store.contains))
  | .capability => (s, .flag s.capable)
  | .sleep d => (s.sleep d, .done)
  | .cache layer c => s.tellCache layer c
  | .isPending layer path => (s, s.askCoalescer layer fun c => c.metadata.isInFlight path)
  | .keepsQuota layer folder => (s, s.askCoalescer layer fun c => c.quota.contains s.now folder)

/-- Carries out a command and takes the outcomes for callers in the background. -/
def run (s : Service) (c : Command) : Service × Response × List (Nat × Outcome Reply) :=
  let (performed, response) := s.perform c
  let (after, reports) := performed.takeReports
  (after, response, reports)

end LayeredStore.Service
