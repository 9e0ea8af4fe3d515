import LiveTree.Awaiting.Queue

/-! A clock that broadcasts frames. Callbacks wait in a queue; a frame hands its time to all that
wait, and closing the clock hands them the reason instead. The host is asked for a frame only when
a callback comes to wait where none was waiting. A callback that panics takes the rest of its
batch with it. -/
namespace LiveTree.Frame

open Awaiting

/-- What a callback is told: the time of a frame, or the reason for which none will come. -/
inductive Tick where
  | frame (time : Nat)
  | closed (closed : Closed)
deriving DecidableEq, Repr

/-- A clock for callbacks of type `α`. -/
structure Clock (α : Type) where
  awaiters : Queue α Tick := {}

/-- How the innermost call goes on: with the callback whose turn it is, or with what was broadcast
and to how many. -/
inductive ClockTurn (α : Type) where
  | handOver (tick : Tick) (callback : α) (clock : Clock α)
  | finished (tick : Tick) (served : Nat) (clock : Clock α)
  | idle

namespace Clock

variable {α : Type}

/-- Sends a frame to everything that waits. -/
def send (clock : Clock α) (time : Nat) : Clock α := ⟨clock.awaiters.flush (.frame time)⟩

/-- Closes the clock and refuses everything that waits. -/
def close (clock : Clock α) (closed : Closed) : Clock α :=
  ⟨clock.awaiters.close closed .closed⟩

/-- Gives the next callback of the innermost call its turn. -/
def turn (clock : Clock α) : ClockTurn α :=
  match clock.awaiters.turn with
  | .handOver tick callback awaiters => .handOver tick callback ⟨awaiters⟩
  | .finished tick served awaiters => .finished tick served ⟨awaiters⟩
  | .idle => .idle

/-- Gives the innermost call up, because the callback that had the last turn did not return. -/
def abandon (clock : Clock α) : Clock α := ⟨clock.awaiters.abandon⟩

/-- The full text of a clock. -/
def describe (clock : Clock α) : String :=
  Text.openRecord "FrameClock" [("awaiters", clock.awaiters.describe)]

end Clock

end LiveTree.Frame
