import Std.Data.ExtTreeMap
import LayeredStore.Outcome

/-!
# Shared calls

A desk lets all who want the same thing at the same time share one call for it. The first to
come opens a ticket for the key and starts the call; who comes while the ticket is on the board
joins it. A call takes its own ticket off the board when it ends, but leaves one alone that has
come in its place, and a call that crashes leaves its ticket on the board: whoever joins it then
learns at once that the call was lost. Taking a ticket off the board early changes nothing for
those who have joined it.

Coming, the end of a call and the leaving of each caller with its answer are separate steps, so
that they can follow each other in every order. Clients know a desk as a `SingleFlight`, and these
three steps as one `get`.
-/

namespace LayeredStore

/-- What stands on the board for a key: the number of a call, and whether it has crashed. -/
structure Ticket where
  id : Nat
  crashed : Bool
deriving DecidableEq

/-- A caller that waits for the call of a ticket, with the answer once there is one. -/
structure Seat (V : Type) where
  ticket : Nat
  answer : Option (Answer V)

/-- A desk at which calls are shared: the tickets on the board, the calls under way by the
numbers of their tickets, and the callers. -/
structure Desk (K V : Type) [Ord K] where
  next : Nat
  board : Std.ExtTreeMap K Ticket
  calls : Std.ExtTreeMap Nat K
  seats : Std.ExtTreeMap Nat (Seat V)

/-- How a request is received: it is answered at once, or the caller waits, perhaps for a call
that it has to start under a new ticket. -/
inductive Admission (V : Type)
  | answered (a : Answer V)
  | joined
  | opened (ticket : Nat)

namespace Desk

variable {K V : Type} [Ord K] [Std.TransOrd K]

/-- Nobody has come yet; the first ticket will be number one. -/
def empty : Desk K V := ⟨1, ∅, ∅, ∅⟩

/-- A caller wants a key: it joins the ticket on the board, or opens a new one. -/
def enter (d : Desk K V) (caller : Nat) (key : K) : Desk K V × Admission V :=
  match d.board[key]? with
  | some ticket =>
    let answer := if ticket.crashed then some (.error .lostCall) else none
    ({ d with seats := d.seats.insert caller ⟨ticket.id, answer⟩ }, .joined)
  | none =>
    (⟨d.next + 1, d.board.insert key ⟨d.next, false⟩, d.calls.insert d.next key,
      d.seats.insert caller ⟨d.next, none⟩⟩, .opened d.next)

/-- The ticket on the board for a key, if it is the one of the given number. -/
def holds (d : Desk K V) (key : K) (ticket : Nat) : Bool :=
  d.board[key]?.any fun t => t.id == ticket

/-- What the end of a call leaves on the board. -/
def boardAfter (d : Desk K V) (key : K) (ticket : Nat) (crashed : Bool) :
    Std.ExtTreeMap K Ticket :=
  if d.holds key ticket then
    if crashed then d.board.insert key ⟨ticket, true⟩ else d.board.erase key
  else d.board

/-- The call of a ticket ends; all who wait for it have their answer from now on. -/
def land (d : Desk K V) (ticket : Nat) (outcome : Outcome V) : Desk K V :=
  match d.calls[ticket]? with
  | some key =>
    { d with
      board := d.boardAfter key ticket outcome.crashed
      calls := d.calls.erase ticket
      seats := d.seats.map fun _ seat =>
        if seat.ticket = ticket then { seat with answer := some outcome.shared } else seat }
  | none => d

/-- The answer that a caller can leave with, if there is one. -/
def answer? (d : Desk K V) (caller : Nat) : Option (Answer V) :=
  d.seats[caller]?.bind Seat.answer

/-- A caller leaves, with its answer or without. The call that it waits for goes on. -/
def leave (d : Desk K V) (caller : Nat) : Desk K V :=
  { d with seats := d.seats.erase caller }

/-- Takes the ticket of a key off the board. -/
def evict (d : Desk K V) (key : K) : Desk K V := { d with board := d.board.erase key }

/-- Takes the tickets of all keys that `drop` holds of off the board. -/
def evictWhere (d : Desk K V) (drop : K → Bool) : Desk K V :=
  { d with board := d.board.filter fun key _ => !drop key }

/-- Number of tickets on the board. -/
def inFlight (d : Desk K V) : Nat := d.board.size

/-- Whether a key has a ticket on the board. -/
def isInFlight (d : Desk K V) (key : K) : Bool := d.board.contains key

/-- What is on the board for a key after the ticket of a key was taken off. -/
theorem board_evict (d : Desk K V) (key other : K) :
    (d.evict key).board[other]? = if compare key other = .eq then none else d.board[other]? :=
  Std.ExtTreeMap.getElem?_erase

/-- What is on the board for a key after the tickets of some keys were taken off. -/
theorem board_evictWhere [Std.LawfulEqOrd K] (d : Desk K V) (drop : K → Bool) (key : K) :
    (d.evictWhere drop).board[key]? = if drop key then none else d.board[key]? := by
  by_cases h : drop key <;> cases he : d.board[key]? <;> simp [evictWhere, h, he]

omit [Std.TransOrd K] in
/-- A caller that leaves has no answer any more, and the others keep theirs. -/
theorem answer?_leave (d : Desk K V) (caller other : Nat) :
    (d.leave caller).answer? other = if caller = other then none else d.answer? other := by
  by_cases h : caller = other <;>
    simp [leave, answer?, Std.ExtTreeMap.getElem?_erase, h]

end Desk

/-! ### Loads that wait for a gate

A load is a call whose outcome is known beforehand, but which may have to wait until its gate is
opened. -/

/-- A load that a caller has started. -/
structure Load (V : Type) where
  caller : Nat
  outcome : Outcome V
  isOpen : Bool

/-- The loads under way, by the numbers of their tickets. -/
abbrev Loads (V : Type) := Std.ExtTreeMap Nat (Load V)

namespace Loads

variable {V : Type}

/-- Opens the gate of the load that a caller has started, for good. -/
def release (l : Loads V) (caller : Nat) : Loads V :=
  l.map fun _ load => if load.caller = caller then { load with isOpen := true } else load

/-- The loads whose gates are open, with their outcomes. -/
def ready (l : Loads V) : List (Nat × Outcome V) :=
  (l.toList.filter fun (_, load) => load.isOpen).map fun (ticket, load) => (ticket, load.outcome)

/-- The loads whose gates are closed. -/
def waiting (l : Loads V) : Loads V := l.filter fun _ load => !load.isOpen

end Loads
end LayeredStore
