import LiveTree.Closed

/-! A queue of awaiters that can be cancelled. Awaiters are numbered in the order of registration
and wait in that order. A flush takes everything that waits out of the queue at once and then
hands it over one by one; since the receiver runs between two hand-overs, a flush in progress is
part of the queue's state, and what is registered meanwhile waits for the next flush. Closing the
queue hands over in the same way, with a reason, and no registration is accepted afterwards.

An awaiter leaves its waiting state once, by being handed over, withdrawn, or lost with the rest
of a batch whose receiver did not return. -/
namespace LiveTree.Awaiting

/-- What has become of an awaiter. -/
inductive Fate where
  | waiting | handedOver | withdrawn | lost
deriving DecidableEq, Repr

/-- The number of an awaiter: how many were registered with the queue before it. -/
abbrev Ticket := Nat

/-- A registered value and what has become of it. -/
structure Awaiter (α : Type) where
  value : α
  fate : Fate := .waiting

/-- Awaiters taken out of the queue together: what they are taken out for, those whose turn has
not come yet, and how many have been handed over. -/
structure Batch (ρ : Type) where
  purpose : ρ
  rest : List Ticket
  served : Nat := 0
deriving DecidableEq, Repr

/-- The plainest purposes: awaiters are resumed, or refused with a reason. -/
inductive Delivery where
  | resume
  | refuse (closed : Closed)
deriving DecidableEq, Repr

/-- A queue of values of type `α`: all awaiters ever accepted, those that wait, the batches being
handed over (the innermost call first), each for a purpose of type `ρ`, and the reason for which
the queue is closed. -/
structure Queue (α ρ : Type) where
  awaiters : Array (Awaiter α) := #[]
  pending : List Ticket := []
  running : List (Batch ρ) := []
  closed : Option Closed := none

/-- An accepted registration: the number given to the awaiter, whether nothing was waiting before
it, and the queue with the awaiter waiting in it. -/
structure Registration (α ρ : Type) where
  ticket : Ticket
  first : Bool
  queue : Queue α ρ

/-- How the innermost batch goes on: with the value whose turn it is, or not at all, and then with
the number of values that were handed over. There may be no batch. -/
inductive Turn (α ρ : Type) where
  | handOver (purpose : ρ) (value : α) (queue : Queue α ρ)
  | finished (purpose : ρ) (served : Nat) (queue : Queue α ρ)
  | idle

namespace Queue

variable {α ρ : Type}

def size (queue : Queue α ρ) : Nat := queue.pending.length

def isEmpty (queue : Queue α ρ) : Bool := queue.pending.isEmpty

def hasAwaiters (queue : Queue α ρ) : Bool := !queue.isEmpty

def isClosed (queue : Queue α ρ) : Bool := queue.closed.isSome

/-- What has become of an awaiter, if it was ever accepted. -/
def fate? (queue : Queue α ρ) (ticket : Ticket) : Option Fate :=
  (queue.awaiters[ticket]?).map Awaiter.fate

/-- The queue with the fate of an awaiter settled. -/
def settle (queue : Queue α ρ) (ticket : Ticket) (fate : Fate) : Queue α ρ :=
  { queue with awaiters := queue.awaiters.modify ticket fun awaiter => { awaiter with fate } }

/-- Accepts a value behind all that wait, unless the queue is closed. -/
def register (queue : Queue α ρ) (value : α) : Except Closed (Registration α ρ) :=
  match queue.closed with
  | some closed => .error closed
  | none =>
    .ok
      { ticket := queue.awaiters.size
        first := queue.pending.isEmpty
        queue := { queue with
          awaiters := queue.awaiters.push { value }
          pending := queue.pending ++ [queue.awaiters.size] } }

/-- Withdraws an awaiter whose turn has not come; any other is left as it is. -/
def withdraw (queue : Queue α ρ) (ticket : Ticket) : Queue α ρ :=
  match queue.fate? ticket with
  | some .waiting =>
    { queue.settle ticket .withdrawn with
      pending := queue.pending.filter fun other => other != ticket }
  | _ => queue

/-- Takes out everything that waits as a batch to be handed over. -/
def flush (queue : Queue α ρ) (purpose : ρ) : Queue α ρ :=
  { queue with pending := [], running := { purpose, rest := queue.pending } :: queue.running }

/-- Closes the queue and takes out everything that waits, for a purpose that depends on the reason.
The reason of an earlier closing stands. -/
def close (queue : Queue α ρ) (closed : Closed) (purpose : Closed → ρ) : Queue α ρ :=
  let reason := queue.closed.getD closed
  { queue with closed := some reason }.flush (purpose reason)

/-- The first of some awaiters that still waits, with those behind it. -/
def nextWaiting (awaiters : Array (Awaiter α)) : List Ticket → Option (Ticket × α × List Ticket)
  | [] => none
  | ticket :: rest =>
    match awaiters[ticket]? with
    | some ⟨value, .waiting⟩ => some (ticket, value, rest)
    | _ => nextWaiting awaiters rest

/-- Gives the next awaiter of the innermost batch its turn. A batch without any is finished. -/
def turn (queue : Queue α ρ) : Turn α ρ :=
  match queue.running with
  | [] => .idle
  | batch :: outer =>
    match nextWaiting queue.awaiters batch.rest with
    | some (ticket, value, rest) =>
      .handOver batch.purpose value
        { queue.settle ticket .handedOver with
          running := { batch with rest, served := batch.served + 1 } :: outer }
    | none => .finished batch.purpose batch.served { queue with running := outer }

/-- Gives an awaiter up if it still waits. -/
def lose (awaiters : Array (Awaiter α)) (ticket : Ticket) : Array (Awaiter α) :=
  awaiters.modify ticket fun awaiter =>
    if awaiter.fate = .waiting then { awaiter with fate := .lost } else awaiter

/-- The queue with the purpose of the innermost batch revised. -/
def revise (queue : Queue α ρ) (change : Batch ρ → ρ) : Queue α ρ :=
  match queue.running with
  | [] => queue
  | batch :: outer => { queue with running := { batch with purpose := change batch } :: outer }

/-- Gives the innermost batch up, because the receiver of its last value did not return. -/
def abandon (queue : Queue α ρ) : Queue α ρ :=
  match queue.running with
  | [] => queue
  | batch :: outer =>
    { queue with awaiters := batch.rest.foldl lose queue.awaiters, running := outer }

/-- The full text of a queue. -/
def describe (queue : Queue α ρ) : String :=
  Text.record "AwaiterQueue"
    [("pending", toString queue.size), ("closed", Text.optional (queue.closed.map Closed.describe))]

@[simp]
theorem fate?_settle_self (queue : Queue α ρ) (ticket : Ticket) (fate : Fate) :
    (queue.settle ticket fate).fate? ticket = (queue.fate? ticket).map fun _ => fate := by
  simp [settle, fate?, Array.getElem?_modify, Option.map_map, Function.comp_def]

theorem fate?_settle_of_ne (queue : Queue α ρ) {ticket other : Ticket} (fate : Fate)
    (different : other ≠ ticket) : (queue.settle ticket fate).fate? other = queue.fate? other := by
  simp [settle, fate?, Array.getElem?_modify, Ne.symm different]

/-- A registration is refused exactly when the queue is closed, with the reason of the closing. -/
theorem register_eq_error_iff {queue : Queue α ρ} {value : α} {closed : Closed} :
    queue.register value = .error closed ↔ queue.closed = some closed := by
  unfold register
  split <;> simp_all

/-- An awaiter that is not waiting cannot be withdrawn. -/
theorem withdraw_of_ne_waiting {queue : Queue α ρ} {ticket : Ticket}
    (settled : queue.fate? ticket ≠ some .waiting) : queue.withdraw ticket = queue := by
  unfold withdraw
  split
  · next waiting => exact absurd waiting settled
  · rfl

@[simp]
theorem pending_flush (queue : Queue α ρ) (purpose : ρ) : (queue.flush purpose).pending = [] := rfl

@[simp]
theorem closed_close (queue : Queue α ρ) (closed : Closed) (purpose : Closed → ρ) :
    (queue.close closed purpose).closed = some (queue.closed.getD closed) := rfl

end Queue

end LiveTree.Awaiting
