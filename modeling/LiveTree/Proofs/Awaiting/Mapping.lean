import LiveTree.Awaiting.Queue

/-! Queues over different values and purposes. No operation of a queue looks at the values that
wait in it or at what they are taken out for, so every operation commutes with a change of both.
What is proved of queues of one kind is thereby proved of the queues of all components. -/
namespace LiveTree.Awaiting

variable {α β ρ σ : Type}

/-- An awaiter with another value. -/
def Awaiter.map (value : α → β) (awaiter : Awaiter α) : Awaiter β :=
  ⟨value awaiter.value, awaiter.fate⟩

/-- A batch with another purpose. -/
def Batch.map (purpose : ρ → σ) (batch : Batch ρ) : Batch σ :=
  { batch with purpose := purpose batch.purpose }

/-- A queue with other values and purposes. -/
def Queue.map (value : α → β) (purpose : ρ → σ) (queue : Queue α ρ) : Queue β σ where
  awaiters := queue.awaiters.map (·.map value)
  pending := queue.pending
  running := queue.running.map (·.map purpose)
  closed := queue.closed

/-- A registration with its queue changed. -/
def Registration.map (value : α → β) (purpose : ρ → σ) (registration : Registration α ρ) :
    Registration β σ :=
  ⟨registration.ticket, registration.first, registration.queue.map value purpose⟩

/-- A turn with its queue changed. -/
def Turn.map (value : α → β) (purpose : ρ → σ) : Turn α ρ → Turn β σ
  | handOver told item queue => .handOver (purpose told) (value item) (queue.map value purpose)
  | finished told served queue => .finished (purpose told) served (queue.map value purpose)
  | idle => .idle

namespace Queue

variable {value : α → β} {purpose : ρ → σ}

@[simp]
theorem closed_map (queue : Queue α ρ) : (queue.map value purpose).closed = queue.closed := rfl

@[simp]
theorem isClosed_map (queue : Queue α ρ) :
    (queue.map value purpose).isClosed = queue.isClosed := rfl

@[simp]
theorem map_empty : ({} : Queue α ρ).map value purpose = {} := by
  simp [map]

theorem fate?_map (queue : Queue α ρ) (ticket : Ticket) :
    (queue.map value purpose).fate? ticket = queue.fate? ticket := by
  simp [fate?, map, Awaiter.map, Function.comp_def]

theorem map_settle (queue : Queue α ρ) (ticket : Ticket) (fate : Fate) :
    (queue.settle ticket fate).map value purpose =
      (queue.map value purpose).settle ticket fate := by
  simp only [settle, map, Queue.mk.injEq, and_self, and_true]
  ext1
  · simp
  · simp [Array.getElem_modify]
    split <;> rfl

/-- What is registered can be changed before or after. -/
theorem register_map {queue : Queue α ρ} {item : α} {registration : Registration α ρ}
    (accepted : queue.register item = .ok registration) :
    (queue.map value purpose).register (value item) = .ok (registration.map value purpose) := by
  unfold register at accepted ⊢
  rw [closed_map]
  split at accepted
  · cases accepted
  · cases accepted
    simp [Registration.map, map, Awaiter.map]

/-- A queue that takes the changed value in is the queue that takes the value in, changed. -/
theorem map_register (queue : Queue α ρ) (item : α) :
    (queue.map value purpose).register (value item) =
      (queue.register item).map (Registration.map value purpose) := by
  cases accepted : queue.register item with
  | error closed =>
    have refused : queue.closed = some closed := register_eq_error_iff.mp accepted
    exact register_eq_error_iff.mpr refused
  | ok registration => exact register_map accepted

theorem map_withdraw (queue : Queue α ρ) (ticket : Ticket) :
    (queue.withdraw ticket).map value purpose = (queue.map value purpose).withdraw ticket := by
  unfold withdraw
  rw [fate?_map]
  split
  · rw [← map_settle]
    rfl
  · rfl

/-- A revision that leaves the purposes the same for the new queue is not seen in it. -/
theorem map_revise (queue : Queue α ρ) {change : Batch ρ → ρ}
    (same : ∀ batch, purpose (change batch) = purpose batch.purpose) :
    (queue.revise change).map value purpose = queue.map value purpose := by
  unfold revise
  split
  · rfl
  · next running => simp [map, running, Batch.map, same]

/-- Nothing is different in the batches if the purposes stay. -/
@[simp]
theorem running_map_id (queue : Queue α ρ) : (queue.map value id).running = queue.running := by
  simp [map, Batch.map]

theorem revise_map_id (queue : Queue α ρ) (change : Batch ρ → ρ) :
    (queue.map value id).revise change = (queue.revise change).map value id := by
  unfold revise
  rw [running_map_id]
  cases running : queue.running with
  | nil => rfl
  | cons batch outer => simp [map, Batch.map]

private theorem map_lose (awaiters : Array (Awaiter α)) (ticket : Ticket) :
    (lose awaiters ticket).map (·.map value) = lose (awaiters.map (·.map value)) ticket := by
  unfold lose
  ext1
  · simp
  · simp only [Array.getElem_map, Array.getElem_modify]
    split
    · simp only [Awaiter.map]
      split <;> simp_all
    · rfl

theorem nextWaiting_map (awaiters : Array (Awaiter α)) (tickets : List Ticket) :
    nextWaiting (awaiters.map (·.map value)) tickets =
      (nextWaiting awaiters tickets).map fun found => (found.1, value found.2.1, found.2.2) := by
  induction tickets with
  | nil => rfl
  | cons ticket tickets ih =>
    simp only [nextWaiting, Array.getElem?_map]
    rcases awaiters[ticket]? with _ | ⟨item, fate⟩
    · exact ih
    · cases fate with
      | waiting => rfl
      | handedOver | withdrawn | lost => exact ih

theorem running_map_of_cons {queue : Queue α ρ} {batch : Batch ρ} {outer : List (Batch ρ)}
    (running : queue.running = batch :: outer) :
    (queue.map value purpose).running = batch.map purpose :: outer.map (·.map purpose) := by
  rw [map, running, List.map_cons]

/-- The turn goes to the same awaiter. -/
theorem turn_map (queue : Queue α ρ) :
    (queue.map value purpose).turn = queue.turn.map value purpose := by
  unfold turn
  cases running : queue.running with
  | nil =>
    have none : (queue.map value purpose).running = [] := by rw [map, running, List.map_nil]
    rw [none]
    rfl
  | cons batch outer =>
    rw [running_map_of_cons running]
    dsimp only [Batch.map]
    have next : nextWaiting (queue.map value purpose).awaiters batch.rest = _ :=
      nextWaiting_map queue.awaiters batch.rest
    rw [next]
    rcases nextWaiting queue.awaiters batch.rest with _ | ⟨ticket, item, rest⟩
    · rfl
    · dsimp only [Option.map_some, Turn.map]
      rw [← map_settle]
      rfl

theorem map_abandon (queue : Queue α ρ) :
    queue.abandon.map value purpose = (queue.map value purpose).abandon := by
  have lost (tickets : List Ticket) (awaiters : Array (Awaiter α)) :
      (tickets.foldl lose awaiters).map (·.map value) =
        tickets.foldl lose (awaiters.map (·.map value)) := by
    induction tickets generalizing awaiters with
    | nil => rfl
    | cons ticket tickets ih => rw [List.foldl_cons, List.foldl_cons, ih, map_lose]
  unfold abandon
  cases running : queue.running with
  | nil => simp [map, running]
  | cons batch outer => simp [map, running, Batch.map, lost]

end Queue

end LiveTree.Awaiting
