import LayeredStore.Time

/-!
# Settings

How long cached outcomes live, and which cache goes in front of a provider. A lifetime is set in
seconds; a count of milliseconds, if there is one, takes its place. Clients know settings as the
`CacheConfig`, the choice as the `StackSelection`, and what is chosen as the `CacheStack`.
-/

namespace LayeredStore

/-- The cache that the settings ask for. -/
inductive StackChoice
  | auto
  | coalescing
  | metadata
deriving DecidableEq, Inhabited

/-- The cache that goes in front of a provider. -/
inductive Stack
  | coalescing
  | metadata
deriving DecidableEq, Inhabited

/-- The cache that a choice leads to; `auto` leaves it to what the provider is capable of. -/
def StackChoice.select (choice : StackChoice) (capable : Bool) : Stack :=
  match choice with
  | .coalescing => .coalescing
  | .metadata => .metadata
  | .auto => if capable then .coalescing else .metadata

/-- The settings of the caches. -/
structure Settings where
  metadataSeconds : UInt64
  quotaSeconds : UInt64
  stack : StackChoice
  metadataMillis : Option UInt64
  quotaMillis : Option UInt64
deriving DecidableEq, Inhabited

namespace Settings

/-- Ten seconds for everything, and the provider chooses. -/
def default : Settings := ⟨10, 10, .auto, none, none⟩

/-- The span of `millis`, or of `seconds` if there are none. -/
private def lifetime (seconds : UInt64) (millis : Option UInt64) : Nanoseconds :=
  match millis with
  | some n => ofMillis n.toNat
  | none => ofSeconds seconds.toNat

/-- How long metadata lives. -/
def metadataLifetime (s : Settings) : Nanoseconds := lifetime s.metadataSeconds s.metadataMillis

/-- How long quotas live. -/
def quotaLifetime (s : Settings) : Nanoseconds := lifetime s.quotaSeconds s.quotaMillis

/-- Metadata lives for `d`. The millisecond count keeps the low 64 bits of `d` in milliseconds. -/
def withMetadataLifetime (s : Settings) (d : Nanoseconds) : Settings :=
  { s with
    metadataSeconds := UInt64.ofNat (wholeSeconds d)
    metadataMillis := some (UInt64.ofNat (wholeMillis d)) }

/-- Quotas live for `d`. The millisecond count keeps the low 64 bits of `d` in milliseconds. -/
def withQuotaLifetime (s : Settings) (d : Nanoseconds) : Settings :=
  { s with
    quotaSeconds := UInt64.ofNat (wholeSeconds d)
    quotaMillis := some (UInt64.ofNat (wholeMillis d)) }

/-- The cache is chosen by `choice`. -/
def withStack (s : Settings) (choice : StackChoice) : Settings := { s with stack := choice }

/-- Why settings cannot be used. -/
inductive Fault
  | malformed
  | zeroMetadataLifetime
  | zeroQuotaLifetime
deriving DecidableEq

/-- The wording of a fault. -/
def Fault.message : Fault → String
  | .malformed => "Failed to parse cache configuration"
  | .zeroMetadataLifetime => "metadata TTL must be greater than zero"
  | .zeroQuotaLifetime => "quota TTL must be greater than zero"

/-- Refuses a lifetime of zero, under which nothing would ever be found; that of metadata is
looked at first. -/
def validate (s : Settings) : Except Fault Unit :=
  if s.metadataLifetime = 0 then .error .zeroMetadataLifetime
  else if s.quotaLifetime = 0 then .error .zeroQuotaLifetime
  else .ok ()

/-- One change of settings. -/
inductive Change
  | metadataLifetime (d : Nanoseconds)
  | quotaLifetime (d : Nanoseconds)
  | stack (choice : StackChoice)

/-- The settings after a change. -/
def apply (s : Settings) : Change → Settings
  | .metadataLifetime d => s.withMetadataLifetime d
  | .quotaLifetime d => s.withQuotaLifetime d
  | .stack choice => s.withStack choice

/-- The settings before the first change and after each one. -/
def history (s : Settings) : List Change → List Settings
  | [] => [s]
  | c :: rest => s :: (s.apply c).history rest

end Settings
end LayeredStore
