import LayeredStore.Path.Basic

/-!
# Failures and outcomes

Why a request fails, and how a call can end. A crash is no failure: whoever waits for the call
itself crashes with it, while those who only share the call learn that it was lost. Clients know
failures as `CloudError`.
-/

namespace LayeredStore

/-- Why a provider cannot do what it was asked. -/
inductive Failure
  | notFound (path : Path)
  | alreadyExists (path : Path)
  | typeMismatch (path : Path)
  | quotaNotAvailable (path : Path)
  | invalidPageToken (token : String)
  | provider (reason : String)
deriving DecidableEq

namespace Failure

/-- The wording of a failure. -/
def message : Failure → String
  | .notFound path => "Not found: " ++ path.text
  | .alreadyExists path => "Already exists: " ++ path.text
  | .typeMismatch path => "Type mismatch: " ++ path.text
  | .quotaNotAvailable path => "Quota not available for " ++ path.text
  | .invalidPageToken token => "Invalid page token: " ++ token
  | .provider reason => "Provider error: " ++ reason

/-- What those learn who share a call that has crashed. Only the beginning of its message is here:
what the runtime reports of the crash would follow, after a colon, and is left out. -/
def lostCall : Failure := .provider "upstream task failed"

/-- Whether the failure confirms that the item is absent. -/
def isNotFound : Failure → Bool
  | .notFound _ => true
  | _ => false

/-- Whether a quota request that fails so would fail so again, so that it is worth keeping. -/
def isLasting : Failure → Bool
  | .notFound _ | .quotaNotAvailable _ => true
  | _ => false

end Failure

/-- What a caller gets. -/
abbrev Answer (α : Type) := Except Failure α

/-- How a call ends. -/
inductive Outcome (α : Type)
  | answer (a : Answer α)
  | crash

namespace Outcome

/-- A call that ends well. -/
def value {α : Type} (a : α) : Outcome α := .answer (.ok a)

/-- A call that ends in a failure. -/
def failure {α : Type} (f : Failure) : Outcome α := .answer (.error f)

/-- What those get who share the call. -/
def shared {α : Type} : Outcome α → Answer α
  | .answer a => a
  | .crash => .error .lostCall

/-- Whether the call has crashed. -/
def crashed {α : Type} : Outcome α → Bool
  | .answer _ => false
  | .crash => true

/-- The outcome with its value changed. -/
def map {α β : Type} (f : α → β) : Outcome α → Outcome β
  | .answer a => .answer (a.map f)
  | .crash => .crash

end Outcome
end LayeredStore
