import Mathlib.Data.List.Nodup
import LiveTree.Awaiting.Queue

/-! Where awaiters stand. An awaiter that waits is listed once, among those that are pending or in
one batch that is being handed over; whoever has been handed over or lost is listed nowhere. Every
operation is described by what it does to the fates and to the lists, and each of them keeps the
queue sound in this sense. -/
namespace LiveTree.Awaiting.Queue

open scoped List

variable {α ρ : Type} {queue : Queue α ρ} {ticket other : Ticket}

/-- The awaiters of all batches in progress whose turn has not come. -/
def batched (queue : Queue α ρ) : List Ticket := queue.running.flatMap Batch.rest

/-- What it means that the lists of a queue agree with the fates of its awaiters. -/
structure Sound (queue : Queue α ρ) : Prop where
  /-- Nobody is listed twice. -/
  once : (queue.pending ++ queue.batched).Nodup
  /-- Those that are pending wait. -/
  waits : ∀ ticket ∈ queue.pending, queue.fate? ticket = some .waiting
  /-- Those in a batch wait, or they were withdrawn after it was taken out. -/
  turnless : ∀ ticket ∈ queue.batched,
    queue.fate? ticket = some .waiting ∨ queue.fate? ticket = some .withdrawn
  /-- Those that wait are listed. -/
  listed : ∀ ticket, queue.fate? ticket = some .waiting →
    ticket ∈ queue.pending ∨ ticket ∈ queue.batched
  /-- Nobody is pending in a closed queue. -/
  shut : queue.closed ≠ none → queue.pending = []

theorem Sound.empty : ({} : Queue α ρ).Sound :=
  ⟨List.nodup_nil, nofun, nofun, by simp [fate?], fun _ => rfl⟩

theorem lt_size_of_fate? {fate : Fate} (known : queue.fate? ticket = some fate) :
    ticket < queue.awaiters.size := by
  obtain ⟨awaiter, found, -⟩ := Option.map_eq_some_iff.mp known
  exact (Array.getElem?_eq_some_iff.mp found).1

theorem fate?_of_getElem? {value : α} {fate : Fate}
    (found : queue.awaiters[ticket]? = some ⟨value, fate⟩) : queue.fate? ticket = some fate := by
  simp [fate?, found]

/-! ### Registration -/

theorem register_eq_ok_iff {value : α} {registration : Registration α ρ} :
    queue.register value = .ok registration ↔
      queue.closed = none ∧
        registration = ⟨queue.awaiters.size, queue.pending.isEmpty, { queue with
          awaiters := queue.awaiters.push { value }
          pending := queue.pending ++ [queue.awaiters.size] }⟩ := by
  unfold register
  cases queue.closed with
  | none => simp [eq_comm]
  | some closed => simp

/-- A registration adds one awaiter, which waits. -/
theorem fate?_register {value : α} {registration : Registration α ρ}
    (accepted : queue.register value = .ok registration) :
    registration.queue.fate? ticket =
      if ticket = registration.ticket then some .waiting else queue.fate? ticket := by
  obtain ⟨-, rfl⟩ := register_eq_ok_iff.mp accepted
  simp only [fate?, Array.getElem?_push]
  split <;> rfl

theorem Sound.register (sound : queue.Sound) {value : α} {registration : Registration α ρ}
    (accepted : queue.register value = .ok registration) : registration.queue.Sound := by
  have fates (ticket : Ticket) : registration.queue.fate? ticket =
      if ticket = registration.ticket then some .waiting else queue.fate? ticket :=
    fate?_register accepted
  obtain ⟨unclosed, same⟩ := register_eq_ok_iff.mp accepted
  have pending : registration.queue.pending = queue.pending ++ [registration.ticket] := by
    rw [same]
  have batched : registration.queue.batched = queue.batched := by
    rw [same]
    rfl
  have unknown : queue.fate? registration.ticket = none := by
    rw [same]
    simp [fate?]
  have older {ticket : Ticket} {fate : Fate} (known : queue.fate? ticket = some fate) :
      ticket ≠ registration.ticket := by
    rintro rfl
    rw [unknown] at known
    cases known
  have oldPending {ticket : Ticket} (member : ticket ∈ queue.pending) :
      ticket ≠ registration.ticket := older (sound.waits ticket member)
  have oldBatched {ticket : Ticket} (member : ticket ∈ queue.batched) :
      ticket ≠ registration.ticket := by
    rcases sound.turnless ticket member with waiting | withdrawn
    · exact older waiting
    · exact older withdrawn
  constructor
  case once =>
    rw [pending, batched, List.append_assoc, List.singleton_append]
    refine List.nodup_middle.mpr (List.nodup_cons.mpr ⟨?_, sound.once⟩)
    intro member
    rcases List.mem_append.mp member with member | member
    · exact oldPending member rfl
    · exact oldBatched member rfl
  case waits =>
    intro ticket member
    rw [fates]
    rw [pending] at member
    rcases List.mem_append.mp member with member | member
    · rw [if_neg (oldPending member)]
      exact sound.waits ticket member
    · rw [if_pos (List.mem_singleton.mp member)]
  case turnless =>
    intro ticket member
    rw [batched] at member
    rw [fates, if_neg (oldBatched member)]
    exact sound.turnless ticket member
  case listed =>
    intro ticket waiting
    rw [pending, batched]
    rw [fates] at waiting
    split at waiting
    · next new => exact .inl (List.mem_append_right _ (List.mem_singleton.mpr new))
    · exact (sound.listed ticket waiting).imp_left (List.mem_append_left _)
  case shut =>
    rw [same]
    exact fun closed => absurd unclosed closed

/-! ### Withdrawal -/

/-- A withdrawal settles the fate of its own awaiter, if that still waits. -/
theorem fate?_withdraw (queue : Queue α ρ) (ticket other : Ticket) :
    (queue.withdraw ticket).fate? other =
      if other = ticket ∧ queue.fate? other = some .waiting then some .withdrawn
      else queue.fate? other := by
  unfold withdraw
  split
  · next waiting =>
    change (queue.settle ticket .withdrawn).fate? other = _
    by_cases same : other = ticket
    · subst same
      simp [waiting]
    · rw [fate?_settle_of_ne _ _ same, if_neg (fun both => same both.1)]
  · next settled =>
    rw [if_neg]
    rintro ⟨rfl, waiting⟩
    exact settled waiting

/-- A withdrawal takes nobody off the list but its own awaiter. -/
theorem pending_withdraw (sound : queue.Sound) (ticket : Ticket) :
    (queue.withdraw ticket).pending = queue.pending.filter fun other => other != ticket := by
  unfold withdraw
  split
  · rfl
  · next settled =>
    refine (List.filter_eq_self.mpr fun other member => bne_iff_ne.mpr ?_).symm
    rintro rfl
    exact settled (sound.waits other member)

@[simp]
theorem running_withdraw (queue : Queue α ρ) (ticket : Ticket) :
    (queue.withdraw ticket).running = queue.running := by
  unfold withdraw
  split <;> rfl

@[simp]
theorem closed_withdraw (queue : Queue α ρ) (ticket : Ticket) :
    (queue.withdraw ticket).closed = queue.closed := by
  unfold withdraw
  split <;> rfl

@[simp]
theorem size_withdraw (queue : Queue α ρ) (ticket : Ticket) :
    (queue.withdraw ticket).awaiters.size = queue.awaiters.size := by
  unfold withdraw
  split
  · exact Array.size_modify ..
  · rfl

theorem Sound.withdraw (sound : queue.Sound) (ticket : Ticket) : (queue.withdraw ticket).Sound := by
  have pending := pending_withdraw sound ticket
  have batched : (queue.withdraw ticket).batched = queue.batched := by
    rw [Queue.batched, running_withdraw]
    rfl
  constructor
  case once =>
    rw [pending, batched]
    exact sound.once.sublist (List.filter_sublist.append_right _)
  case waits =>
    intro other member
    rw [pending, List.mem_filter] at member
    obtain ⟨member, different⟩ := member
    rw [fate?_withdraw, if_neg (fun both => bne_iff_ne.mp different both.1)]
    exact sound.waits other member
  case turnless =>
    intro other member
    rw [batched] at member
    rw [fate?_withdraw]
    split
    · exact .inr rfl
    · exact sound.turnless other member
  case listed =>
    intro other waiting
    rw [pending, batched]
    rw [fate?_withdraw] at waiting
    split at waiting
    · cases waiting
    · next unchanged =>
      refine (sound.listed other waiting).imp_left fun member => List.mem_filter.mpr ⟨member, ?_⟩
      exact bne_iff_ne.mpr fun same => unchanged ⟨same, waiting⟩
  case shut =>
    rw [closed_withdraw, pending]
    exact fun closed => by rw [sound.shut closed, List.filter_nil]

/-! ### Flushing and closing -/

theorem Sound.flush (sound : queue.Sound) (purpose : ρ) : (queue.flush purpose).Sound := by
  have batched : (queue.flush purpose).batched = queue.pending ++ queue.batched := rfl
  constructor
  case once =>
    rw [batched]
    exact sound.once
  case waits => exact nofun
  case turnless =>
    intro ticket member
    rw [batched] at member
    rcases List.mem_append.mp member with member | member
    · exact .inl (sound.waits ticket member)
    · exact sound.turnless ticket member
  case listed =>
    intro ticket waiting
    rw [batched]
    exact .inr (List.mem_append.mpr (sound.listed ticket waiting))
  case shut => exact fun _ => rfl

theorem Sound.close (sound : queue.Sound) (closed : Closed) (purpose : Closed → ρ) :
    (queue.close closed purpose).Sound := by
  obtain ⟨once, waits, turnless, listed, -⟩ := sound.flush (purpose (queue.closed.getD closed))
  exact ⟨once, waits, turnless, listed, fun _ => rfl⟩

/-! ### Turns -/

/-- The next awaiter is the first that waits; those before it do not. -/
private theorem nextWaiting_eq_some_iff {awaiters : Array (Awaiter α)} {tickets rest : List Ticket}
    {value : α} :
    nextWaiting awaiters tickets = some (ticket, value, rest) ↔
      ∃ skipped, tickets = skipped ++ ticket :: rest ∧
        awaiters[ticket]? = some ⟨value, .waiting⟩ ∧
        ∀ other ∈ skipped, (awaiters[other]?).map Awaiter.fate ≠ some .waiting := by
  induction tickets with
  | nil => simp [nextWaiting]
  | cons first tickets ih =>
    by_cases waits : ∃ item, awaiters[first]? = some ⟨item, .waiting⟩
    · obtain ⟨item, found⟩ := waits
      simp only [nextWaiting, found, Option.some.injEq, Prod.mk.injEq]
      constructor
      · rintro ⟨rfl, rfl, rfl⟩
        exact ⟨[], rfl, found, nofun⟩
      · rintro ⟨skipped, split, waiting, passed⟩
        cases skipped with
        | nil =>
          obtain ⟨rfl, rfl⟩ := List.cons.inj split
          cases found.symm.trans waiting
          exact ⟨rfl, rfl, rfl⟩
        | cons head skipped =>
          obtain ⟨rfl, -⟩ := List.cons.inj split
          exact absurd (by rw [found]; rfl) (passed first List.mem_cons_self)
    · have settled : (awaiters[first]?).map Awaiter.fate ≠ some .waiting := by
        intro waiting
        obtain ⟨⟨item, fate⟩, found, rfl⟩ := Option.map_eq_some_iff.mp waiting
        exact waits ⟨item, found⟩
      have next : nextWaiting awaiters (first :: tickets) = nextWaiting awaiters tickets := by
        rw [nextWaiting]
        split
        · next item found => exact absurd ⟨item, found⟩ waits
        · rfl
      rw [next, ih]
      constructor
      · rintro ⟨skipped, rfl, waiting, passed⟩
        exact ⟨first :: skipped, rfl, waiting, List.forall_mem_cons.mpr ⟨settled, passed⟩⟩
      · rintro ⟨skipped, split, waiting, passed⟩
        cases skipped with
        | nil =>
          obtain ⟨rfl, -⟩ := List.cons.inj split
          exact absurd ⟨value, waiting⟩ waits
        | cons head skipped =>
          obtain ⟨-, rfl⟩ := List.cons.inj split
          exact ⟨skipped, rfl, waiting, (List.forall_mem_cons.mp passed).2⟩

private theorem nextWaiting_eq_none_iff {awaiters : Array (Awaiter α)} {tickets : List Ticket} :
    nextWaiting awaiters tickets = none ↔
      ∀ ticket ∈ tickets, (awaiters[ticket]?).map Awaiter.fate ≠ some .waiting := by
  constructor
  · intro nobody ticket member waiting
    obtain ⟨⟨value, fate⟩, found, rfl⟩ := Option.map_eq_some_iff.mp waiting
    induction tickets with
    | nil => cases member
    | cons first tickets ih =>
      rw [nextWaiting] at nobody
      split at nobody
      · cases nobody
      · next settled =>
        rcases List.mem_cons.mp member with rfl | member
        · exact settled value found
        · exact ih nobody member
  · intro settled
    induction tickets with
    | nil => rfl
    | cons first tickets ih =>
      obtain ⟨here, later⟩ := List.forall_mem_cons.mp settled
      rw [nextWaiting]
      split
      · next value found => exact absurd (by rw [found]; rfl) here
      · exact ih later

/-- The queue in which one awaiter of the innermost batch has had its turn. -/
def handOver (queue : Queue α ρ) (ticket : Ticket) (batch : Batch ρ) (rest : List Ticket)
    (outer : List (Batch ρ)) : Queue α ρ :=
  { queue.settle ticket .handedOver with
    running := { batch with rest, served := batch.served + 1 } :: outer }

/-- The innermost batch goes on with its first awaiter that waits, or it is finished. -/
theorem turn_cases {batch : Batch ρ} {outer : List (Batch ρ)}
    (running : queue.running = batch :: outer) :
    (∃ skipped ticket value rest,
      batch.rest = skipped ++ ticket :: rest ∧
      (∀ other ∈ skipped, queue.fate? other ≠ some .waiting) ∧
      queue.awaiters[ticket]? = some ⟨value, .waiting⟩ ∧
      nextWaiting queue.awaiters batch.rest = some (ticket, value, rest) ∧
      queue.turn = .handOver batch.purpose value (queue.handOver ticket batch rest outer)) ∨
    ((∀ ticket ∈ batch.rest, queue.fate? ticket ≠ some .waiting) ∧
      nextWaiting queue.awaiters batch.rest = none ∧
      queue.turn = .finished batch.purpose batch.served { queue with running := outer }) := by
  cases next : nextWaiting queue.awaiters batch.rest with
  | some found =>
    obtain ⟨ticket, value, rest⟩ := found
    obtain ⟨skipped, split, waiting, passed⟩ := nextWaiting_eq_some_iff.mp next
    have turn : queue.turn = .handOver batch.purpose value
        (queue.handOver ticket batch rest outer) := by
      simp only [Queue.turn, running, next]
      rfl
    exact .inl ⟨skipped, ticket, value, rest, split, passed, waiting, rfl, turn⟩
  | none =>
    refine .inr ⟨nextWaiting_eq_none_iff.mp next, rfl, ?_⟩
    simp only [Queue.turn, running, next]

section Turn

variable {batch : Batch ρ} {outer : List (Batch ρ)} {skipped rest : List Ticket}

theorem fate?_handOver (waiting : queue.fate? ticket = some .waiting) :
    (queue.handOver ticket batch rest outer).fate? other =
      if other = ticket then some .handedOver else queue.fate? other := by
  change (queue.settle ticket .handedOver).fate? other = _
  split
  · next same =>
    subst same
    simp [waiting]
  · next different => exact fate?_settle_of_ne _ _ different

/-- A turn takes its awaiter and those that were withdrawn before it off the batch. -/
theorem Sound.handOver (sound : queue.Sound) (running : queue.running = batch :: outer)
    (split : batch.rest = skipped ++ ticket :: rest)
    (passed : ∀ other ∈ skipped, queue.fate? other ≠ some .waiting)
    (waiting : queue.fate? ticket = some .waiting) :
    (queue.handOver ticket batch rest outer).Sound := by
  have before : queue.batched = skipped ++ ticket :: (rest ++ outer.flatMap Batch.rest) := by
    simp [batched, running, split]
  have after : (queue.handOver ticket batch rest outer).batched =
      rest ++ outer.flatMap Batch.rest := rfl
  have pending : (queue.handOver ticket batch rest outer).pending = queue.pending := rfl
  have once := sound.once
  rw [before, ← List.append_assoc] at once
  obtain ⟨gone, kept⟩ := List.nodup_cons.mp (List.nodup_middle.mp once)
  rw [List.append_assoc] at gone kept
  have stays : queue.pending ++ (rest ++ outer.flatMap Batch.rest) <+
      queue.pending ++ (skipped ++ (rest ++ outer.flatMap Batch.rest)) :=
    (List.sublist_append_right _ _).append_left _
  have different {other : Ticket}
      (member : other ∈ queue.pending ++ (rest ++ outer.flatMap Batch.rest)) : other ≠ ticket := by
    rintro rfl
    exact gone (stays.subset member)
  constructor
  case once =>
    rw [pending, after]
    exact kept.sublist stays
  case waits =>
    intro other member
    rw [fate?_handOver waiting, if_neg (different (List.mem_append_left _ member))]
    exact sound.waits other member
  case turnless =>
    intro other member
    rw [after] at member
    rw [fate?_handOver waiting, if_neg (different (List.mem_append_right _ member))]
    refine sound.turnless other ?_
    rw [before]
    exact List.mem_append_right _ (List.mem_cons_of_mem _ member)
  case listed =>
    intro other waits
    rw [pending, after]
    rw [fate?_handOver waiting] at waits
    split at waits
    · cases waits
    · next distinct =>
      refine (sound.listed other waits).imp_right fun member => ?_
      rw [before] at member
      rcases List.mem_append.mp member with skip | member
      · exact absurd waits (passed other skip)
      · exact (List.mem_cons.mp member).resolve_left distinct
  case shut => exact sound.shut

/-- A batch in which nobody waits any more can be put away. -/
theorem Sound.finish (sound : queue.Sound) (running : queue.running = batch :: outer)
    (passed : ∀ other ∈ batch.rest, queue.fate? other ≠ some .waiting) :
    ({ queue with running := outer } : Queue α ρ).Sound := by
  have before : queue.batched = batch.rest ++ outer.flatMap Batch.rest := by
    simp [batched, running]
  have stays : outer.flatMap Batch.rest <+ queue.batched := by
    rw [before]
    exact List.sublist_append_right _ _
  constructor
  case once => exact sound.once.sublist (stays.append_left _)
  case waits => exact sound.waits
  case turnless => exact fun other member => sound.turnless other (stays.subset member)
  case listed =>
    intro other waits
    refine (sound.listed other waits).imp_right fun member => ?_
    rw [before] at member
    exact (List.mem_append.mp member).resolve_left fun early => passed other early waits
  case shut => exact sound.shut

end Turn

/-! ### Abandonment -/

private theorem fate_lose (awaiters : Array (Awaiter α)) (ticket other : Ticket) :
    ((lose awaiters ticket)[other]?).map Awaiter.fate =
      if other = ticket ∧ (awaiters[other]?).map Awaiter.fate = some .waiting then some .lost
      else (awaiters[other]?).map Awaiter.fate := by
  simp only [lose, Array.getElem?_modify]
  by_cases same : ticket = other
  · subst same
    rcases awaiters[ticket]? with _ | ⟨value, fate⟩
    · simp
    · cases fate <;> simp
  · simp [same, Ne.symm same]

/-- An abandoned batch is lost, as far as it still waits. -/
theorem fate?_abandon {batch : Batch ρ} {outer : List (Batch ρ)}
    (running : queue.running = batch :: outer) :
    queue.abandon.fate? other =
      if other ∈ batch.rest ∧ queue.fate? other = some .waiting then some .lost
      else queue.fate? other := by
  have lost (tickets : List Ticket) (awaiters : Array (Awaiter α)) :
      ((tickets.foldl lose awaiters)[other]?).map Awaiter.fate =
        if other ∈ tickets ∧ (awaiters[other]?).map Awaiter.fate = some .waiting then some .lost
        else (awaiters[other]?).map Awaiter.fate := by
    induction tickets generalizing awaiters with
    | nil => simp
    | cons ticket tickets ih =>
      rw [List.foldl_cons, ih, fate_lose]
      by_cases same : other = ticket
      · by_cases waits : (awaiters[other]?).map Awaiter.fate = some .waiting
        · subst same
          rw [if_pos (show other = other ∧ _ from ⟨rfl, waits⟩),
            if_pos (show other ∈ other :: tickets ∧ _ from ⟨List.mem_cons_self, waits⟩)]
          exact if_neg fun both => Fate.noConfusion (Option.some.inj both.2)
        · simp only [waits, and_false, if_false]
      · simp only [same, false_and, if_false, List.mem_cons, false_or]
  simp only [abandon, running]
  exact lost batch.rest queue.awaiters

theorem size_abandon (queue : Queue α ρ) : queue.abandon.awaiters.size = queue.awaiters.size := by
  have lost (tickets : List Ticket) (awaiters : Array (Awaiter α)) :
      (tickets.foldl lose awaiters).size = awaiters.size := by
    induction tickets generalizing awaiters with
    | nil => rfl
    | cons ticket tickets ih => rw [List.foldl_cons, ih, lose, Array.size_modify]
  unfold abandon
  split
  · rfl
  · exact lost _ _

theorem Sound.abandon (sound : queue.Sound) {batch : Batch ρ} {outer : List (Batch ρ)}
    (running : queue.running = batch :: outer) : queue.abandon.Sound := by
  have before : queue.batched = batch.rest ++ outer.flatMap Batch.rest := by
    simp [batched, running]
  have after : queue.abandon.batched = outer.flatMap Batch.rest := by
    simp [batched, Queue.abandon, running]
  have pending : queue.abandon.pending = queue.pending := by simp [Queue.abandon, running]
  have closed : queue.abandon.closed = queue.closed := by simp [Queue.abandon, running]
  have once := sound.once
  rw [before] at once
  have stays : queue.pending ++ outer.flatMap Batch.rest <+
      queue.pending ++ (batch.rest ++ outer.flatMap Batch.rest) :=
    (List.sublist_append_right _ _).append_left _
  have apart {other : Ticket} (member : other ∈ queue.pending ++ outer.flatMap Batch.rest) :
      other ∉ batch.rest := by
    intro lost
    have swapped : (batch.rest ++ (queue.pending ++ outer.flatMap Batch.rest)).Nodup := by
      refine (List.Perm.nodup_iff ?_).mp once
      rw [← List.append_assoc, ← List.append_assoc]
      exact List.perm_append_comm.append_right _
    exact (List.nodup_append.mp swapped).2.2 other lost other member rfl
  constructor
  case once =>
    rw [pending, after]
    exact once.sublist stays
  case waits =>
    intro other member
    rw [pending] at member
    rw [fate?_abandon running, if_neg fun both => apart (List.mem_append_left _ member) both.1]
    exact sound.waits other member
  case turnless =>
    intro other member
    rw [after] at member
    rw [fate?_abandon running, if_neg fun both => apart (List.mem_append_right _ member) both.1]
    refine sound.turnless other ?_
    rw [before]
    exact List.mem_append_right _ member
  case listed =>
    intro other waits
    rw [pending, after]
    rw [fate?_abandon running] at waits
    split at waits
    · cases waits
    · next kept =>
      refine (sound.listed other waits).imp_right fun member => ?_
      rw [before] at member
      exact (List.mem_append.mp member).resolve_left fun early => kept ⟨early, waits⟩
  case shut =>
    rw [closed, pending]
    exact sound.shut

/-! ### What awaiters hold -/

/-- The value that was registered under a ticket. -/
def value? (queue : Queue α ρ) (ticket : Ticket) : Option α :=
  (queue.awaiters[ticket]?).map Awaiter.value

theorem getElem?_awaiters_eq_some_iff {value : α} {fate : Fate} :
    queue.awaiters[ticket]? = some ⟨value, fate⟩ ↔
      queue.value? ticket = some value ∧ queue.fate? ticket = some fate := by
  unfold value? fate?
  rcases queue.awaiters[ticket]? with _ | ⟨held, known⟩ <;> simp

private theorem value?_settle (queue : Queue α ρ) (ticket other : Ticket) (fate : Fate) :
    (queue.settle ticket fate).value? other = queue.value? other := by
  simp only [value?, settle, Array.getElem?_modify]
  split
  · rw [Option.map_map]
    rfl
  · rfl

theorem value?_withdraw (queue : Queue α ρ) (ticket other : Ticket) :
    (queue.withdraw ticket).value? other = queue.value? other := by
  unfold withdraw
  split
  · exact queue.value?_settle ticket other .withdrawn
  · rfl

theorem value?_handOver (queue : Queue α ρ) (ticket other : Ticket) (batch : Batch ρ)
    (rest : List Ticket) (outer : List (Batch ρ)) :
    (queue.handOver ticket batch rest outer).value? other = queue.value? other :=
  queue.value?_settle ticket other .handedOver

theorem value?_abandon (queue : Queue α ρ) (ticket : Ticket) :
    queue.abandon.value? ticket = queue.value? ticket := by
  have lost (tickets : List Ticket) (awaiters : Array (Awaiter α)) :
      ((tickets.foldl lose awaiters)[ticket]?).map Awaiter.value =
        (awaiters[ticket]?).map Awaiter.value := by
    induction tickets generalizing awaiters with
    | nil => rfl
    | cons other tickets ih =>
      rw [List.foldl_cons, ih, lose, Array.getElem?_modify]
      split
      · rw [Option.map_map]
        congr 1
        funext awaiter
        simp only [Function.comp]
        split <;> rfl
      · rfl
  unfold abandon
  split
  · rfl
  · exact lost _ _

theorem value?_register {value : α} {registration : Registration α ρ}
    (accepted : queue.register value = .ok registration) :
    registration.queue.value? ticket =
      if ticket = registration.ticket then some value else queue.value? ticket := by
  obtain ⟨-, rfl⟩ := register_eq_ok_iff.mp accepted
  simp only [value?, Array.getElem?_push]
  split <;> rfl

end LiveTree.Awaiting.Queue
