import LiveTree.Proofs.Relocation.Index
import LiveTree.Relocation.Pass

/-! What the operations of a pool do, each said once and in full. An operation changes the fields
that its equation names and no others, so later proofs never open an operation again. -/
namespace LiveTree.Relocation

open Lifecycle (ObjectId Dispatcher)

variable {η π : Type}

/-- Content at a new place: it is active there, and its handle and objects are the ones it had. -/
def Entry.placedAt (entry : Entry η π) (parameter : π) (position : Position.Hash) : Entry η π :=
  { entry with parameter, position, active := true }

/-- A descriptor that is noted, unless it was noted before, is noted beside the others. -/
theorem contains_noted {noted : List DescriptorId} {id other : DescriptorId} :
    (if noted.contains id then noted else id :: noted).contains other = true ↔
      noted.contains other = true ∨ id = other := by
  cases before : noted.contains id with
  | false =>
    simp only [Bool.false_eq_true, if_false, List.contains_iff_mem, List.mem_cons,
      eq_comm (a := other)]
    exact or_comm
  | true =>
    have known : id = other → noted.contains other = true := fun same => same ▸ before
    rw [if_pos rfl]
    exact (or_iff_left_of_imp known).symm

namespace Pool

variable {pool after : Pool η π} {id : DescriptorId} {entry : Entry η π}

/-- What content records when it moves to a new place. -/
def welcome (dispatcher : Dispatcher) (entry : Entry η π) : Dispatcher :=
  if entry.active then dispatcher else dispatcher.record .entered entry.objects

/-- What content records when it found no place. -/
def farewell (dispatcher : Dispatcher) (entry : Entry η π) : Dispatcher :=
  (if entry.active then dispatcher.record .exited entry.objects else dispatcher).record .retired
    entry.objects

theorem instantiate_snd (pool : Pool η π) (descriptor : DescriptorId) (handle : η) (parameter : π)
    (position : Position.Hash) (objects : List ObjectId) :
    (pool.instantiate descriptor handle parameter position objects).2 =
      { pool with
        dispatcher := (pool.dispatcher.record .retained objects).record .entered objects } := rfl

theorem deactivate_fst (pool : Pool η π) (entry : Entry η π) :
    (pool.deactivate entry).1 = { entry with active := false } := by
  obtain ⟨_, _, _, _, _, active⟩ := entry
  cases active <;> rfl

theorem deactivate_snd (pool : Pool η π) (entry : Entry η π) :
    (pool.deactivate entry).2 =
      { pool with
        dispatcher :=
          if entry.active then pool.dispatcher.record .exited entry.objects
          else pool.dispatcher } := by
  cases active : entry.active <;> simp [deactivate, active, record]

private theorem adopt_eq (pool : Pool η π) (entry : Entry η π) (parameter : π)
    (position : Position.Hash) :
    pool.adopt entry parameter position =
      (entry.placedAt parameter position,
        { pool with dispatcher := welcome pool.dispatcher entry }) := by
  cases active : entry.active <;> simp [adopt, active, welcome, record, Entry.placedAt]

theorem reportDeparture_eq_ok_iff {descriptor : DescriptorId} :
    pool.reportDeparture descriptor entry = .ok after ↔
      entry.descriptor = descriptor ∧
        after = { pool with
          departures := pool.departures.add ⟨pool.nextDeparture, entry⟩
          everDeparted :=
            if pool.hasDeparted entry.descriptor then pool.everDeparted
            else entry.descriptor :: pool.everDeparted
          nextDeparture := pool.nextDeparture + 1
          stats := { pool.stats with departures := pool.stats.departures + 1 } } := by
  unfold reportDeparture
  split
  · next same => exact ⟨fun ok => ⟨same, (Except.ok.inj ok).symm⟩, fun ok => congrArg _ ok.2.symm⟩
  · next different => simp [different]

theorem claim_eq_some_iff :
    pool.claim id = some (entry, after) ↔
      ∃ departure departures, pool.departures.claim id = some (departure, departures) ∧
        entry = departure.entry ∧ after = { pool with departures } := by
  unfold claim
  split
  · next nothing => simp [nothing]
  · next departure departures taken =>
    simp only [taken, Option.some.injEq, Prod.mk.injEq]
    constructor
    · rintro ⟨rfl, rfl⟩
      exact ⟨_, _, ⟨rfl, rfl⟩, rfl, rfl⟩
    · rintro ⟨_, _, ⟨rfl, rfl⟩, rfl, rfl⟩
      exact ⟨rfl, rfl⟩

theorem claim_eq_none_iff : pool.claim id = none ↔ pool.departures.waiting id = [] := by
  rw [← Departures.claim_eq_none_iff]
  unfold claim
  split <;> simp_all

private theorem claimFor_eq_some_iff :
    pool.claimFor id = some (entry, after) ↔
      pool.isAwaited id = false ∧ pool.claim id = some (entry, after) := by
  unfold claimFor
  split <;> simp_all

/-- The request that a pool makes of a call. -/
def nextRequest (pool : Pool η π) (descriptor : DescriptorId) (parameter : π)
    (position : Position.Hash) : Request π := ⟨pool.nextTicket, descriptor, parameter, position⟩

/-- A request is answered in one of three ways: by a departure that waits, if no earlier request
of the descriptor does; at once, if usage is tracked and the descriptor never departed; and
otherwise at the end of the pass. -/
theorem requestPlacement_cases (pool : Pool η π) (descriptor : DescriptorId) (parameter : π)
    (position : Position.Hash) :
    (∃ departure departures, pool.isAwaited descriptor = false ∧
      pool.departures.claim descriptor = some (departure, departures) ∧
      pool.requestPlacement descriptor parameter position =
        (.moved (departure.entry.placedAt parameter position),
          { pool with
            departures
            dispatcher := welcome pool.dispatcher departure.entry
            stats := { pool.stats with moves := pool.stats.moves + 1 } })) ∨
    (pool.claimFor descriptor = none ∧
      pool.config.trackUsage = true ∧ pool.hasDeparted descriptor = false ∧
      pool.requestPlacement descriptor parameter position =
        (.insertNow (pool.nextRequest descriptor parameter position),
          { pool with
            nextTicket := pool.nextTicket + 1
            stats := { pool.stats with
              immediateInserts := pool.stats.immediateInserts + 1 } })) ∨
    (pool.claimFor descriptor = none ∧
      (pool.config.trackUsage = true → pool.hasDeparted descriptor = true) ∧
      pool.requestPlacement descriptor parameter position =
        (.deferred pool.nextTicket,
          { pool with
            nextTicket := pool.nextTicket + 1
            deferred := pool.deferred ++ [pool.nextRequest descriptor parameter position]
            deferredDescriptors :=
              if pool.isAwaited descriptor then pool.deferredDescriptors
              else descriptor :: pool.deferredDescriptors })) := by
  cases served : pool.claimFor descriptor with
  | some claimed =>
    obtain ⟨entry, claimedPool⟩ := claimed
    obtain ⟨free, taken⟩ := claimFor_eq_some_iff.mp served
    obtain ⟨departure, departures, found, rfl, rfl⟩ := claim_eq_some_iff.mp taken
    exact .inl ⟨departure, departures, free, found, by
      simp [requestPlacement, served, adopt_eq, countMove]⟩
  | none =>
    refine .inr ?_
    have queued : pool.requestPlacement descriptor parameter position =
        pool.enqueue descriptor parameter position := by
      simp [requestPlacement, served]
    by_cases never : pool.config.trackUsage = true ∧ pool.hasDeparted descriptor = false
    · refine .inl ⟨rfl, never.1, never.2, queued.trans (if_pos ?_)⟩
      exact Bool.and_eq_true_iff.mpr ⟨never.1, congrArg not never.2⟩
    · refine .inr ⟨rfl, fun tracked => by simpa [tracked] using never, queued.trans (if_neg ?_)⟩
      intro both
      obtain ⟨tracked, absent⟩ := Bool.and_eq_true_iff.mp both
      have absent : (!pool.hasDeparted descriptor) = true := absent
      exact never ⟨tracked, by simpa using absent⟩

private theorem dispose_eq (pool : Pool η π) (entry : Entry η π) :
    pool.dispose entry =
      { pool with
        dispatcher := farewell pool.dispatcher entry
        stats := { pool.stats with disposed := pool.stats.disposed + 1 } } := by
  cases active : entry.active <;> simp [dispose, active, farewell, record]

private theorem foldl_dispose (pool : Pool η π) (entries : List (Entry η π)) :
    entries.foldl dispose pool =
      { pool with
        dispatcher := entries.foldl farewell pool.dispatcher
        stats := { pool.stats with disposed := pool.stats.disposed + entries.length } } := by
  induction entries generalizing pool with
  | nil => rfl
  | cons entry entries ih =>
    simp [ih, dispose_eq, Nat.add_assoc, Nat.add_comm 1]

/-- Nothing waits after a disposal; all that waited is counted and its objects are recorded. -/
theorem disposeDepartures_eq (pool : Pool η π) :
    pool.disposeDepartures =
      { pool with
        departures := {}
        dispatcher := pool.leftovers.foldl farewell pool.dispatcher
        stats := { pool.stats with
          disposed := pool.stats.disposed + pool.departures.size } } := by
  have counted : pool.leftovers.length = pool.departures.size := by
    simp [leftovers, pool.departures.inReportOrder_perm.length_eq,
      Departures.size_eq_length_all]
  simp [disposeDepartures, foldl_dispose, counted]

end Pool

namespace Pass

/-- A pass goes on in one of three ways: it is settled; its next request takes the first
departure of its descriptor; or nothing waits for that request. -/
theorem step_cases (pass : Pass η π) :
    (pass.requests = [] ∧ pass.step = .settled) ∨
    (∃ request requests departure departures, pass.requests = request :: requests ∧
      pass.pool.departures.claim request.descriptor = some (departure, departures) ∧
      pass.step = .matched request departure.entry
        { pass with
          pool := { pass.pool with
            departures
            dispatcher := Pool.welcome pass.pool.dispatcher departure.entry
            stats := { pass.pool.stats with moves := pass.pool.stats.moves + 1 } }
          requests
          moved := pass.moved ++
            [(request.ticket, departure.entry.placedAt request.parameter request.position)] }) ∨
    (∃ request requests, pass.requests = request :: requests ∧
      pass.pool.departures.waiting request.descriptor = [] ∧
      pass.step = .unmatched request
        { pass with
          pool := { pass.pool with stats := { pass.pool.stats with
            unmatchedPlacements := pass.pool.stats.unmatchedPlacements + 1 } }
          requests }) := by
  cases requests : pass.requests with
  | nil => exact .inl ⟨rfl, by simp [step, requests]⟩
  | cons request others =>
    refine .inr ?_
    cases taken : pass.pool.claim request.descriptor with
    | none =>
      refine .inr ⟨request, others, rfl, Pool.claim_eq_none_iff.mp taken, ?_⟩
      simp [step, requests, taken, countUnmatched]
    | some claimed =>
      obtain ⟨entry, claimedPool⟩ := claimed
      obtain ⟨departure, departures, found, rfl, rfl⟩ := Pool.claim_eq_some_iff.mp taken
      refine .inl ⟨request, others, departure, departures, rfl, found, ?_⟩
      simp [step, requests, taken, Pool.adopt_eq, Pool.countMove]

variable {pass next : Pass η π} {request : Request π} {claimed : Entry η π}

/-- A matched request is the next one, and takes the first departure of its descriptor. -/
theorem of_step_eq_matched (step : pass.step = .matched request claimed next) :
    ∃ requests departure departures, pass.requests = request :: requests ∧
      pass.pool.departures.claim request.descriptor = some (departure, departures) ∧
      claimed = departure.entry ∧
      next = { pass with
        pool := { pass.pool with
          departures
          dispatcher := Pool.welcome pass.pool.dispatcher departure.entry
          stats := { pass.pool.stats with moves := pass.pool.stats.moves + 1 } }
        requests
        moved := pass.moved ++
          [(request.ticket, departure.entry.placedAt request.parameter request.position)] } := by
  rcases pass.step_cases with ⟨-, other⟩ |
    ⟨_, requests, departure, departures, split, taken, same⟩ | ⟨_, _, -, -, other⟩
  · rw [other] at step
    cases step
  · rw [same] at step
    cases step
    exact ⟨requests, departure, departures, split, taken, rfl, rfl⟩
  · rw [other] at step
    cases step

/-- An unmatched request is the next one, and nothing of its descriptor waits. -/
theorem of_step_eq_unmatched (step : pass.step = .unmatched request next) :
    ∃ requests, pass.requests = request :: requests ∧
      pass.pool.departures.waiting request.descriptor = [] ∧
      next = { pass with
        pool := { pass.pool with stats := { pass.pool.stats with
          unmatchedPlacements := pass.pool.stats.unmatchedPlacements + 1 } }
        requests } := by
  rcases pass.step_cases with ⟨-, other⟩ | ⟨_, _, _, _, -, -, other⟩ |
    ⟨_, requests, split, empty, same⟩
  · rw [other] at step
    cases step
  · rw [other] at step
    cases step
  · rw [same] at step
    cases step
    exact ⟨requests, split, empty, rfl⟩

/-- A settled pass has no request left. -/
theorem of_step_eq_settled (step : pass.step = .settled) : pass.requests = [] := by
  rcases pass.step_cases with ⟨none, -⟩ | ⟨_, _, _, _, -, -, other⟩ | ⟨_, _, -, -, other⟩
  · exact none
  · rw [other] at step
    cases step
  · rw [other] at step
    cases step

end Pass

end LiveTree.Relocation
