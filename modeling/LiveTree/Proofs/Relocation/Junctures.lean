import LiveTree.Proofs.Relocation.Disposal
import LiveTree.Proofs.Relocation.Exchange

/-! The life of a pool step by step. A call on a pool can take several steps, namely when it ends a
pass: requests are matched one after another, what is left over is disposed, and what was recorded
is delivered. A history lists these steps from the creation of the pool on, each with what it was
about, so that it can be asked what was recorded between two of them.

A step does one of few things to what waits and to what is recorded, and that is said once for all
steps. A step that records something does not deliver, so what it records is what stands behind
the former records afterwards. -/
namespace LiveTree.Relocation

open Lifecycle (ObjectId Dispatcher Drain Event State)

variable {η π : Type}

/-- Where a pool stands: it rests between two calls, requests are being matched at the end of a
pass, or all of them are answered, what was left over is disposed, and the notifications are being
delivered. -/
inductive Juncture (η π : Type) where
  | resting (pool : Pool η π)
  | matching (filling : Filling) (pass : Pass η π)
  | settled (pass : Pass η π) (disposed : List η)

namespace Juncture

def pool : Juncture η π → Pool η π
  | resting pool => pool
  | matching _ pass => pass.pool
  | settled pass _ => pass.pool

/-- The places that a pass in progress has filled with departures. -/
def moved : Juncture η π → List (PlacementTicket × Entry η π)
  | resting _ => []
  | matching _ pass => pass.moved
  | settled pass _ => pass.moved

/-- The places that a pass in progress has filled with new content. -/
def inserted : Juncture η π → List (PlacementTicket × Entry η π)
  | resting _ => []
  | matching _ pass => pass.inserted
  | settled pass _ => pass.inserted

/-- The end of a pass has begun and has not returned. -/
def InPass : Juncture η π → Prop
  | resting _ => False
  | matching _ _ => True
  | settled _ _ => True

/-- What a step is about. -/
inductive Deed (η π : Type) where
  | brings (entry : Entry η π)
  | reports (departure : Departure η π)
  | claims (departure : Departure η π)
  | moves (request : Request π) (departure : Departure η π) (placed : Entry η π)
  | matches (request : Request π) (departure : Departure η π)
  | settles
  | returns (outcome : PassOutcome η π)
  | rests

/-- A departure takes the place of a request, at once or at the end of the pass. -/
inductive Deed.Matches : Deed η π → Request π → Departure η π → Prop
  | atOnce (request : Request π) (departure : Departure η π) (placed : Entry η π) :
      Matches (.moves request departure placed) request departure
  | inPass (request : Request π) (departure : Departure η π) :
      Matches (.matches request departure) request departure

/-- The host shows the pool an entry. -/
inductive Deed.Shows : Deed η π → Entry η π → Prop
  | brings (entry : Entry η π) : Shows (.brings entry) entry
  | reports (departure : Departure η π) : Shows (.reports departure) departure.entry

/-- One step of a pool. -/
inductive Step : Juncture η π → Deed η π → Juncture η π → Prop
  | instantiate (pool : Pool η π) (descriptor : DescriptorId) (handle : η) (parameter : π)
      (position : Position.Hash) (objects : List ObjectId) :
      Step (.resting pool)
        (.brings (pool.instantiate descriptor handle parameter position objects).1)
        (.resting (pool.instantiate descriptor handle parameter position objects).2)
  | deactivate (pool : Pool η π) (entry : Entry η π) :
      Step (.resting pool) (.brings entry) (.resting (pool.deactivate entry).2)
  | report {pool after : Pool η π} {descriptor : DescriptorId} {entry : Entry η π}
      (accepted : pool.reportDeparture descriptor entry = .ok after) :
      Step (.resting pool) (.reports ⟨pool.nextDeparture, entry⟩) (.resting after)
  | claim {pool after : Pool η π} {id : DescriptorId} {entry : Entry η π}
      {departure : Departure η π} (answer : pool.claim id = some (entry, after))
      (first : pool.first? id = some departure) :
      Step (.resting pool) (.claims departure) (.resting after)
  | place {pool after : Pool η π} {descriptor : DescriptorId} {parameter : π}
      {position : Position.Hash} {placed : Entry η π} {departure : Departure η π}
      (answer : pool.requestPlacement descriptor parameter position = (.moved placed, after))
      (first : pool.first? descriptor = some departure) :
      Step (.resting pool)
        (.moves (pool.nextRequest descriptor parameter position) departure placed)
        (.resting after)
  | placeLater {pool : Pool η π} {descriptor : DescriptorId} {parameter : π}
      {position : Position.Hash}
      (answer : ∀ entry, (pool.requestPlacement descriptor parameter position).1 ≠ .moved entry) :
      Step (.resting pool) .rests
        (.resting (pool.requestPlacement descriptor parameter position).2)
  | beginPass (filling : Filling) (pool : Pool η π) :
      Step (.resting pool) .rests (.matching filling pool.endPass)
  | matched {filling : Filling} {pass next : Pass η π} {request : Request π}
      {claimed : Entry η π} {departure : Departure η π}
      (step : pass.step = .matched request claimed next)
      (first : pass.pool.first? request.descriptor = some departure) :
      Step (.matching filling pass) (.matches request departure) (.matching filling next)
  | handedBack {pass next : Pass η π} {request : Request π}
      (step : pass.step = .unmatched request next) :
      Step (.matching .handsBack pass) .rests (.matching .handsBack (next.handBack request))
  | inserted {pass next : Pass η π} {request : Request π} (handle : η) (objects : List ObjectId)
      (step : pass.step = .unmatched request next) :
      Step (.matching .inserts pass)
        (.brings (next.pool.instantiate request.descriptor handle request.parameter
          request.position objects).1)
        (.matching .inserts (next.insert request handle objects))
  | insertPanics {pass next : Pass η π} {request : Request π}
      (step : pass.step = .unmatched request next) :
      Step (.matching .inserts pass) .rests (.resting next.pool)
  | settle {filling : Filling} {pass : Pass η π} (step : pass.step = .settled) :
      Step (.matching filling pass) .settles
        (.settled pass.disposeDepartures (pass.pool.leftovers.map (·.handle)))
  | endPass {pass : Pass η π} {disposed : List η} {drain : Drain}
      (delivery : pass.pool.dispatcher.drain.Proceeds drain) (finished : drain.step = .finished) :
      Step (.settled pass disposed) (.returns (pass.outcome disposed drain.report))
        (.resting { pass.closedPool with dispatcher := drain.dispatcher })
  | observerPanicsInPass {pass : Pass η π} {disposed : List η} {drain next : Drain}
      {object : ObjectId} {target : State}
      (delivery : pass.pool.dispatcher.drain.Proceeds drain)
      (attempt : drain.step = .attempt object target next) :
      Step (.settled pass disposed) .rests
        (.resting { pass.pool with dispatcher := next.dispatcher })
  | dispatch {pool : Pool η π} {drain : Drain} (delivery : pool.dispatcher.drain.Proceeds drain)
      (finished : drain.step = .finished) :
      Step (.resting pool) .rests (.resting { pool with dispatcher := drain.dispatcher })
  | observerPanics {pool : Pool η π} {drain next : Drain} {object : ObjectId} {target : State}
      (delivery : pool.dispatcher.drain.Proceeds drain)
      (attempt : drain.step = .attempt object target next) :
      Step (.resting pool) .rests (.resting { pool with dispatcher := next.dispatcher })
  | takeRetirements (pool : Pool η π) :
      Step (.resting pool) .rests
        (.resting { pool with dispatcher := pool.dispatcher.takeRetirements.2 })

/-- A pool hands over what it recorded, or some of it, and is otherwise as it was. -/
structure Delivers (before after : Pool η π) : Prop where
  departures : after.departures = before.departures
  nextDeparture : after.nextDeparture = before.nextDeparture
  recorded : ∀ event, after.dispatcher.recorded event = before.dispatcher.recorded event ∨
    after.dispatcher.recorded event = []

/-- What a step does to what waits and to what is recorded, and to the whole pool if a departure
goes out. -/
inductive Effect (before after : Pool η π) : Deed η π → Prop
  | brings {entry : Entry η π} (departures : after.departures = before.departures)
      (nextDeparture : after.nextDeparture = before.nextDeparture)
      (recorded : ∀ event, after.dispatcher.recorded event = before.dispatcher.recorded event ∨
        after.dispatcher.recorded event = before.dispatcher.recorded event ++ entry.objects) :
      Effect before after (.brings entry)
  | reports {entry : Entry η π}
      (departures : after.departures = before.departures.add ⟨before.nextDeparture, entry⟩)
      (nextDeparture : after.nextDeparture = before.nextDeparture + 1)
      (dispatcher : after.dispatcher = before.dispatcher) :
      Effect before after (.reports ⟨before.nextDeparture, entry⟩)
  | claims {id : DescriptorId} {departure : Departure η π}
      (taken : before.departures.claim id = some (departure, after.departures))
      (same : after = { before with departures := after.departures }) :
      Effect before after (.claims departure)
  | fills {deed : Deed η π} {request : Request π} {departure : Departure η π}
      (fits : deed.Matches request departure)
      (taken : before.departures.claim request.descriptor = some (departure, after.departures))
      (same : after = { before with
        departures := after.departures
        dispatcher := Pool.welcome before.dispatcher departure.entry
        stats := { before.stats with moves := before.stats.moves + 1 } }) :
      Effect before after deed
  | settles (same : after = before.disposeDepartures) : Effect before after .settles
  | returns {outcome : PassOutcome η π} (delivers : Delivers before after) :
      Effect before after (.returns outcome)
  | rests (delivers : Delivers before after) : Effect before after .rests

variable {juncture next : Juncture η π} {deed : Deed η π}

/-- A pool that keeps its notifications delivers none of them. -/
private theorem Delivers.of_eq {before after : Pool η π}
    (departures : after.departures = before.departures)
    (nextDeparture : after.nextDeparture = before.nextDeparture)
    (dispatcher : after.dispatcher = before.dispatcher) : Delivers before after :=
  ⟨departures, nextDeparture, fun event => .inl (by rw [dispatcher])⟩

/-- A delivery of notifications is one, whether it is finished or an observer cuts it short. -/
private theorem Delivers.of_proceeds {before after : Pool η π} {drain : Drain}
    (proceeds : before.dispatcher.drain.Proceeds drain)
    (departures : after.departures = before.departures)
    (nextDeparture : after.nextDeparture = before.nextDeparture)
    (dispatcher : after.dispatcher = drain.dispatcher) : Delivers before after where
  departures := departures
  nextDeparture := nextDeparture
  recorded event := by
    rw [dispatcher]
    rcases proceeds.recorded_cases event with same | empty
    · rw [same]
      cases event <;> simp [Dispatcher.drain, Dispatcher.take, Dispatcher.recorded]
    · exact .inr empty

private theorem recorded_instantiate (pool : Pool η π) (descriptor : DescriptorId) (handle : η)
    (parameter : π) (position : Position.Hash) (objects : List ObjectId) (event : Event) :
    (pool.instantiate descriptor handle parameter position objects).2.dispatcher.recorded event =
        pool.dispatcher.recorded event ∨
      (pool.instantiate descriptor handle parameter position objects).2.dispatcher.recorded event =
        pool.dispatcher.recorded event ++ objects := by
  rw [Pool.instantiate_snd]
  cases event <;> simp [Dispatcher.record, Dispatcher.recorded]

/-- Every step has one of these effects. -/
theorem Step.effect (step : juncture.Step deed next) : Effect juncture.pool next.pool deed := by
  cases step with
  | instantiate pool descriptor handle parameter position objects =>
    exact .brings rfl rfl (recorded_instantiate pool descriptor handle parameter position objects)
  | deactivate pool entry =>
    refine .brings ?_ ?_ fun event => ?_
    all_goals simp only [Juncture.pool, Pool.deactivate_snd]
    cases entry.active <;> cases event <;> simp [Dispatcher.record, Dispatcher.recorded]
  | report accepted =>
    obtain ⟨-, rfl⟩ := Pool.reportDeparture_eq_ok_iff.mp accepted
    exact .reports rfl rfl rfl
  | claim answer first =>
    obtain ⟨found, departures, taken, -, rfl⟩ := Pool.claim_eq_some_iff.mp answer
    cases Pool.eq_of_first? first taken
    exact .claims taken rfl
  | @place pool after descriptor parameter position placed departure answer first =>
    rcases pool.requestPlacement_cases descriptor parameter position with
      ⟨found, departures, -, taken, same⟩ | ⟨-, -, -, same⟩ | ⟨-, -, same⟩
    · cases Pool.eq_of_first? first taken
      cases same.symm.trans answer
      exact .fills (.atOnce _ _ _) taken rfl
    all_goals cases same.symm.trans answer
  | @placeLater pool descriptor parameter position answer =>
    refine .rests ?_
    rcases pool.requestPlacement_cases descriptor parameter position with
      ⟨_, _, -, -, same⟩ | ⟨-, -, -, same⟩ | ⟨-, -, same⟩
    · exact absurd (congrArg Prod.fst same) (answer _)
    all_goals
      rw [same]
      exact .of_eq rfl rfl rfl
  | beginPass => exact .rests (.of_eq rfl rfl rfl)
  | matched step first =>
    obtain ⟨_, found, departures, -, taken, -, rfl⟩ := Pass.of_step_eq_matched step
    cases Pool.eq_of_first? first taken
    exact .fills (.inPass _ _) taken rfl
  | handedBack step =>
    obtain ⟨_, -, -, rfl⟩ := Pass.of_step_eq_unmatched step
    exact .rests (.of_eq rfl rfl rfl)
  | @inserted pass next request handle objects step =>
    obtain ⟨_, -, -, rfl⟩ := Pass.of_step_eq_unmatched step
    exact .brings rfl rfl (recorded_instantiate _ request.descriptor handle request.parameter
      request.position objects)
  | insertPanics step =>
    obtain ⟨_, -, -, rfl⟩ := Pass.of_step_eq_unmatched step
    exact .rests (.of_eq rfl rfl rfl)
  | settle => exact .settles rfl
  | endPass delivery => exact .returns (.of_proceeds delivery rfl rfl rfl)
  | observerPanicsInPass delivery attempt =>
    obtain ⟨_, -, -, rfl⟩ := Drain.step_eq_attempt_iff.mp attempt
    exact .rests (.of_proceeds delivery rfl rfl rfl)
  | dispatch delivery => exact .rests (.of_proceeds delivery rfl rfl rfl)
  | observerPanics delivery attempt =>
    obtain ⟨_, -, -, rfl⟩ := Drain.step_eq_attempt_iff.mp attempt
    exact .rests (.of_proceeds delivery rfl rfl rfl)
  | takeRetirements =>
    refine .rests ⟨rfl, rfl, fun event => ?_⟩
    cases event <;> simp [Juncture.pool, Dispatcher.takeRetirements, Dispatcher.recorded]

/-- A step asks for a place that has to wait. -/
inductive Defers : Juncture η π → Request π → Juncture η π → Prop
  | asks {pool after : Pool η π} {request : Request π}
      (answer : pool.requestPlacement request.descriptor request.parameter request.position =
        (.deferred request.ticket, after)) : Defers (.resting pool) request (.resting after)

/-- The same places wait in a pool as before, and its next ticket is no earlier one. -/
structure SamePlaces (before after : Pool η π) : Prop where
  deferred : after.deferred = before.deferred
  descriptors : after.deferredDescriptors = before.deferredDescriptors
  nextTicket : before.nextTicket ≤ after.nextTicket

/-- A pool knows the same descriptors as before, under the same settings. -/
structure SameKnowledge (before after : Pool η π) : Prop where
  config : after.config = before.config
  everDeparted : after.everDeparted = before.everDeparted

/-- What a step does to the places that wait and to the descriptors that are known. -/
inductive Queueing (juncture next : Juncture η π) : Deed η π → Prop
  | keeps {deed : Deed η π} (places : SamePlaces juncture.pool next.pool)
      (knowledge : SameKnowledge juncture.pool next.pool) : Queueing juncture next deed
  | reports {departure : Departure η π} (places : SamePlaces juncture.pool next.pool)
      (config : next.pool.config = juncture.pool.config)
      (known : ∀ id, next.pool.hasDeparted id = true ↔
        juncture.pool.hasDeparted id = true ∨ departure.entry.descriptor = id) :
      Queueing juncture next (.reports departure)
  | defers {deed : Deed η π} {request : Request π} (asks : juncture.Defers request next) :
      Queueing juncture next deed
  | clears {deed : Deed η π} (deferred : next.pool.deferred = [])
      (descriptors : next.pool.deferredDescriptors = [])
      (knowledge : SameKnowledge juncture.pool next.pool) : Queueing juncture next deed

/-- A place has to wait if nothing of its descriptor can serve it, or an earlier place waits; if
usage is tracked, the descriptor is known. The pool changes in the places that wait alone. -/
theorem Defers.facts {request : Request π} (asks : juncture.Defers request next) :
    juncture.pool.claimFor request.descriptor = none ∧
      (juncture.pool.config.trackUsage = true →
        juncture.pool.hasDeparted request.descriptor = true) ∧
      next.pool = { juncture.pool with
        nextTicket := juncture.pool.nextTicket + 1
        deferred := juncture.pool.deferred ++ [request]
        deferredDescriptors :=
          if juncture.pool.isAwaited request.descriptor then juncture.pool.deferredDescriptors
          else request.descriptor :: juncture.pool.deferredDescriptors } := by
  obtain ⟨answer⟩ := asks
  next pool after =>
    obtain ⟨ticket, descriptor, parameter, position⟩ := request
    rcases pool.requestPlacement_cases descriptor parameter position with
      ⟨_, _, -, -, same⟩ | ⟨-, -, -, same⟩ | ⟨unserved, known, same⟩
    · cases same.symm.trans answer
    · cases same.symm.trans answer
    · cases same.symm.trans answer
      exact ⟨unserved, known, rfl⟩

/-- Where no place is asked for and nothing is reported, all of this stays. -/
private theorem Queueing.still (deferred : next.pool.deferred = juncture.pool.deferred)
    (descriptors : next.pool.deferredDescriptors = juncture.pool.deferredDescriptors)
    (nextTicket : next.pool.nextTicket = juncture.pool.nextTicket)
    (config : next.pool.config = juncture.pool.config)
    (everDeparted : next.pool.everDeparted = juncture.pool.everDeparted) :
    Queueing juncture next deed :=
  .keeps ⟨deferred, descriptors, Nat.le_of_eq nextTicket.symm⟩ ⟨config, everDeparted⟩

/-- Every step does one of these to the places that wait. -/
theorem Step.queueing (step : juncture.Step deed next) : Queueing juncture next deed := by
  cases step with
  | deactivate pool entry =>
    apply Queueing.still
    all_goals simp only [Juncture.pool, Pool.deactivate_snd]
  | report accepted =>
    refine .reports ?_ ?_ fun _ => Pool.hasDeparted_report accepted
    all_goals obtain ⟨-, rfl⟩ := Pool.reportDeparture_eq_ok_iff.mp accepted
    · exact ⟨rfl, rfl, Nat.le_refl _⟩
    · rfl
  | claim answer first =>
    obtain ⟨_, _, -, -, rfl⟩ := Pool.claim_eq_some_iff.mp answer
    exact .still rfl rfl rfl rfl rfl
  | @place pool after descriptor parameter position placed departure answer first =>
    rcases pool.requestPlacement_cases descriptor parameter position with
      ⟨_, _, -, -, same⟩ | ⟨-, -, -, same⟩ | ⟨-, -, same⟩
    · cases same.symm.trans answer
      exact .still rfl rfl rfl rfl rfl
    all_goals cases same.symm.trans answer
  | @placeLater pool descriptor parameter position answer =>
    rcases pool.requestPlacement_cases descriptor parameter position with
      ⟨_, _, -, -, same⟩ | ⟨-, -, -, same⟩ | ⟨-, -, same⟩
    · exact absurd (congrArg Prod.fst same) (answer _)
    · rw [same]
      exact .keeps ⟨rfl, rfl, Nat.le_succ _⟩ ⟨rfl, rfl⟩
    · have asks : Defers (.resting pool) (pool.nextRequest descriptor parameter position)
          (.resting (pool.requestPlacement descriptor parameter position).2) := by
        rw [same]
        exact .asks same
      exact .defers asks
  | beginPass => exact .clears rfl rfl ⟨rfl, rfl⟩
  | matched step first =>
    obtain ⟨_, _, _, -, -, -, rfl⟩ := Pass.of_step_eq_matched step
    exact .still rfl rfl rfl rfl rfl
  | handedBack step | insertPanics step | inserted _ _ step =>
    obtain ⟨_, -, -, rfl⟩ := Pass.of_step_eq_unmatched step
    exact .still rfl rfl rfl rfl rfl
  | settle =>
    apply Queueing.still
    all_goals simp only [Juncture.pool, Pass.disposeDepartures, Pool.disposeDepartures_eq]
  | _ => exact .still rfl rfl rfl rfl rfl

/-- The index of a pool is well kept. -/
def WellKept (juncture : Juncture η π) : Prop :=
  juncture.pool.departures.WellKept juncture.pool.nextDeparture

/-- What waits. -/
def waits (juncture : Juncture η π) : List (Departure η π) := juncture.pool.departures.all

theorem Step.kept (step : juncture.Step deed next) (kept : juncture.WellKept) : next.WellKept := by
  unfold WellKept at kept ⊢
  cases step.effect with
  | brings departures nextDeparture =>
    rw [departures, nextDeparture]
    exact kept
  | reports departures nextDeparture =>
    rw [departures, nextDeparture]
    exact kept.add _
  | claims taken same | fills _ taken same =>
    have nextDeparture : next.pool.nextDeparture = juncture.pool.nextDeparture := by rw [same]
    rw [nextDeparture]
    exact kept.claim taken
  | settles same =>
    rw [same, Pool.disposeDepartures_eq]
    exact .empty _
  | returns delivers | rests delivers =>
    rw [delivers.departures, delivers.nextDeparture]
    exact kept

/-- What waits after a step waited before, unless the step reported it. -/
theorem Step.mem_waits (step : juncture.Step deed next) (kept : juncture.WellKept)
    {departure : Departure η π} (waits : departure ∈ next.waits) :
    departure ∈ juncture.waits ∨ deed = .reports departure := by
  unfold Juncture.waits at waits ⊢
  cases step.effect with
  | brings departures => exact .inl (departures ▸ waits)
  | reports departures =>
    rw [departures] at waits
    rcases List.mem_cons.mp ((Departures.all_add_perm kept.distinct _).mem_iff.mp waits) with
      rfl | before
    · exact .inr rfl
    · exact .inl before
  | claims taken | fills _ taken =>
    have split := Departures.all_claim_perm kept.distinct taken
    exact .inl (split.mem_iff.mpr (List.mem_cons_of_mem _ waits))
  | settles same =>
    rw [same, Pool.disposeDepartures_eq] at waits
    cases waits
  | returns delivers | rests delivers => exact .inl (delivers.departures ▸ waits)

private theorem Step.sequence_eq {departure : Departure η π}
    (step : juncture.Step (.reports departure) next) :
    departure.sequence = juncture.pool.nextDeparture := by
  cases step with
  | report => rfl

/-- What is reported waits. -/
theorem Step.waits_of_reports {departure : Departure η π}
    (step : juncture.Step (.reports departure) next) (kept : juncture.WellKept) :
    departure ∈ next.waits := by
  cases step with
  | report accepted =>
    obtain ⟨-, rfl⟩ := Pool.reportDeparture_eq_ok_iff.mp accepted
    exact (Departures.all_add_perm kept.distinct _).mem_iff.mpr List.mem_cons_self

/-- The numbers of the departures only ever grow. -/
theorem Step.nextDeparture_le (step : juncture.Step deed next) :
    juncture.pool.nextDeparture ≤ next.pool.nextDeparture := by
  cases step.effect with
  | brings _ nextDeparture => exact Nat.le_of_eq nextDeparture.symm
  | reports _ nextDeparture => exact nextDeparture ▸ Nat.le_succ _
  | claims _ same | fills _ _ same =>
    exact Nat.le_of_eq (congrArg Pool.nextDeparture same).symm
  | settles same =>
    have disposed := same.trans juncture.pool.disposeDepartures_eq
    exact Nat.le_of_eq (congrArg Pool.nextDeparture disposed).symm
  | returns delivers | rests delivers => exact Nat.le_of_eq delivers.nextDeparture.symm

/-- A place that a pass in progress has filled was filled before, or is filled in this step. -/
private theorem Step.mem_moved (step : juncture.Step deed next) {pair : PlacementTicket × Entry η π}
    (filled : pair ∈ next.moved) :
    next.InPass ∧ (pair ∈ juncture.moved ∨
      next.moved = juncture.moved ++ [pair] ∧ ∃ request departure,
        deed = .matches request departure ∧ pair.1 = request.ticket) := by
  cases step with
  | beginPass => cases filled
  | matched step first =>
    obtain ⟨_, found, departures, -, taken, -, rfl⟩ := Pass.of_step_eq_matched step
    rcases List.mem_append.mp filled with before | now
    · exact ⟨trivial, .inl before⟩
    · cases List.mem_singleton.mp now
      exact ⟨trivial, .inr ⟨rfl, _, _, rfl, rfl⟩⟩
  | handedBack step =>
    obtain ⟨_, -, -, rfl⟩ := Pass.of_step_eq_unmatched step
    exact ⟨trivial, .inl filled⟩
  | inserted handle objects step =>
    obtain ⟨_, -, -, rfl⟩ := Pass.of_step_eq_unmatched step
    exact ⟨trivial, .inl filled⟩
  | settle => exact ⟨trivial, .inl filled⟩
  | _ => cases filled

end Juncture

open Juncture (Deed)

/-- A step of a pool that was made. -/
structure Happening (η π : Type) where
  before : Juncture η π
  deed : Deed η π
  after : Juncture η π
  step : before.Step deed after

/-- What a step records for an event. -/
def Happening.recorded (happening : Happening η π) (event : Event) : List ObjectId :=
  (happening.after.pool.dispatcher.recorded event).drop
    (happening.before.pool.dispatcher.recorded event).length

/-- Steps that follow on each other, in their order. -/
inductive Juncture.Leads : Juncture η π → List (Happening η π) → Juncture η π → Prop
  | done (juncture : Juncture η π) : Leads juncture [] juncture
  | next {happening : Happening η π} {rest : List (Happening η π)} {last : Juncture η π}
      (leads : happening.after.Leads rest last) : Leads happening.before (happening :: rest) last

/-- What content records when it moves: if it was not in the tree, its objects are to enter. -/
def Entry.moveNotices (entry : Entry η π) : Event → List ObjectId
  | .entered => if entry.active then [] else entry.objects
  | .retained | .exited | .retired => []

theorem Entry.moveNotices_subset (entry : Entry η π) (event : Event) :
    entry.moveNotices event ⊆ entry.objects := by
  cases active : entry.active <;> cases event <;> simp [moveNotices, active]

theorem Pool.recorded_welcome (dispatcher : Dispatcher) (entry : Entry η π) (event : Event) :
    (welcome dispatcher entry).recorded event =
      dispatcher.recorded event ++ entry.moveNotices event := by
  cases active : entry.active <;> cases event <;>
    simp [welcome, active, Entry.moveNotices, Dispatcher.record, Dispatcher.recorded]

/-- What a disposal records are objects of the content that is disposed. -/
private theorem Pool.recorded_foldl_farewell (entries : List (Entry η π)) (dispatcher : Dispatcher)
    (event : Event) : ∃ objects, (entries.foldl farewell dispatcher).recorded event =
      dispatcher.recorded event ++ objects ∧
        ∀ object ∈ objects, ∃ entry ∈ entries, object ∈ entry.objects := by
  rw [foldl_farewell]
  cases event with
  | retained | entered => exact ⟨[], (List.append_nil _).symm, List.forall_mem_nil _⟩
  | exited =>
    refine ⟨_, rfl, fun object among => ?_⟩
    obtain ⟨entry, kept, holds⟩ := List.mem_flatMap.mp among
    exact ⟨entry, (List.mem_filter.mp kept).1, holds⟩
  | retired => exact ⟨_, rfl, fun object among => List.mem_flatMap.mp among⟩

namespace Happening

variable {happening : Happening η π} {event : Event}

/-- What stands behind the former records is what a step recorded. -/
theorem recorded_of_append {objects : List ObjectId}
    (records : happening.after.pool.dispatcher.recorded event =
      happening.before.pool.dispatcher.recorded event ++ objects) :
    happening.recorded event = objects := by
  rw [recorded, records, List.drop_left]

private theorem recorded_of_eq (same : happening.after.pool.dispatcher.recorded event =
    happening.before.pool.dispatcher.recorded event) : happening.recorded event = [] :=
  recorded_of_append (same.trans (List.append_nil _).symm)

private theorem recorded_of_delivers
    (delivers : Juncture.Delivers happening.before.pool happening.after.pool) :
    happening.recorded event = [] := by
  rcases delivers.recorded event with same | empty
  · exact recorded_of_eq same
  · rw [recorded, empty, List.drop_nil]

/-- Content of which a step may record something: content that it brings, or a departure that
waits no longer. -/
def Concerns (happening : Happening η π) (entry : Entry η π) : Prop :=
  happening.deed = .brings entry ∨
    ∃ departure ∈ happening.before.waits, departure ∉ happening.after.waits ∧
      departure.entry = entry

private theorem concerns_of_claim (kept : happening.before.WellKept) {id : DescriptorId}
    {departure : Departure η π} (taken : happening.before.pool.departures.claim id =
      some (departure, happening.after.pool.departures)) : happening.Concerns departure.entry := by
  obtain ⟨waited, gone⟩ := kept.mem_of_claim taken
  exact .inr ⟨departure, waited, gone, rfl⟩

/-- A step records objects of the content that it concerns, and of no other content. -/
theorem exists_concerned (happening : Happening η π) (kept : happening.before.WellKept)
    {object : ObjectId} (recorded : object ∈ happening.recorded event) :
    ∃ entry, happening.Concerns entry ∧ object ∈ entry.objects := by
  obtain ⟨before, deed, after, step⟩ := happening
  cases step.effect with
  | @brings entry _ _ records =>
    refine ⟨entry, .inl rfl, ?_⟩
    rcases records event with same | more
    · rw [recorded_of_eq same] at recorded
      cases recorded
    · rwa [recorded_of_append more] at recorded
  | reports _ _ dispatcher =>
    rw [recorded_of_eq (by rw [dispatcher])] at recorded
    cases recorded
  | claims _ same =>
    rw [recorded_of_eq (by rw [same])] at recorded
    cases recorded
  | @fills _ _ departure _ taken same =>
    refine ⟨departure.entry, concerns_of_claim kept taken, ?_⟩
    have more : after.pool.dispatcher.recorded event =
        before.pool.dispatcher.recorded event ++ departure.entry.moveNotices event := by
      rw [same, Pool.recorded_welcome]
    rw [recorded_of_append more] at recorded
    exact departure.entry.moveNotices_subset event recorded
  | settles same =>
    obtain ⟨objects, more, ours⟩ :=
      Pool.recorded_foldl_farewell before.pool.leftovers before.pool.dispatcher event
    rw [recorded_of_append (by rw [same, Pool.disposeDepartures_eq, more])] at recorded
    obtain ⟨entry, left, holds⟩ := ours object recorded
    obtain ⟨departure, waited, rfl⟩ := List.mem_map.mp left
    have waited := before.pool.departures.inReportOrder_perm.mem_iff.mp waited
    refine ⟨departure.entry, .inr ⟨departure, waited, ?_, rfl⟩, holds⟩
    simp [Juncture.waits, same, Pool.disposeDepartures_eq]
  | returns delivers | rests delivers =>
    rw [recorded_of_delivers delivers] at recorded
    cases recorded

/-- A departure that was reported before a step does not come in again. -/
private theorem waited (happening : Happening η π) (kept : happening.before.WellKept)
    {departure : Departure η π}
    (numbered : departure.sequence < happening.before.pool.nextDeparture)
    (waits : departure ∈ happening.after.waits) : departure ∈ happening.before.waits := by
  obtain ⟨before, deed, after, step⟩ := happening
  rcases step.mem_waits kept waits with waited | rfl
  · exact waited
  · exact absurd step.sequence_eq (Nat.ne_of_lt numbered)

end Happening

namespace Juncture.Leads

variable {first middle last : Juncture η π} {history more stretch : List (Happening η π)}
  {departure : Departure η π}

theorem cons_iff {happening : Happening η π} :
    first.Leads (happening :: stretch) last ↔
      first = happening.before ∧ happening.after.Leads stretch last := by
  constructor
  · rintro ⟨⟩
    exact ⟨rfl, ‹_›⟩
  · rintro ⟨rfl, leads⟩
    exact .next leads

theorem append_iff : first.Leads (history ++ more) last ↔
    ∃ middle, first.Leads history middle ∧ middle.Leads more last := by
  induction history generalizing first with
  | nil =>
    constructor
    · exact fun leads => ⟨first, .done first, leads⟩
    · rintro ⟨_, ⟨⟩, leads⟩
      exact leads
  | cons happening history ih =>
    rw [List.cons_append, cons_iff, ih]
    constructor
    · rintro ⟨rfl, middle, early, late⟩
      exact ⟨middle, .next early, late⟩
    · rintro ⟨middle, ⟨⟩, late⟩
      exact ⟨rfl, middle, ‹_›, late⟩

theorem trans (early : first.Leads history middle) (late : middle.Leads more last) :
    first.Leads (history ++ more) last :=
  append_iff.mpr ⟨middle, early, late⟩

theorem single (happening : Happening η π) :
    happening.before.Leads [happening] happening.after :=
  .next (.done _)

theorem kept (leads : first.Leads history last) (kept : first.WellKept) : last.WellKept := by
  induction leads with
  | done => exact kept
  | @next happening _ _ _ ih => exact ih (happening.step.kept kept)

theorem nextDeparture_le (leads : first.Leads history last) :
    first.pool.nextDeparture ≤ last.pool.nextDeparture := by
  induction leads with
  | done => exact Nat.le_refl _
  | @next happening _ _ _ ih => exact Nat.le_trans happening.step.nextDeparture_le ih

/-- What waits in the end waited from the beginning, or was reported on the way. -/
theorem exists_report (leads : first.Leads history last) (kept : first.WellKept)
    (waits : departure ∈ last.waits) : departure ∈ first.waits ∨
      ∃ earlier report later, history = earlier ++ report :: later ∧
        report.deed = .reports departure := by
  induction leads with
  | done => exact .inl waits
  | @next happening rest last _ ih =>
    rcases ih (happening.step.kept kept) waits with waited | ⟨earlier, report, later, rfl, reported⟩
    · rcases happening.step.mem_waits kept waited with before | reported
      · exact .inl before
      · exact .inr ⟨[], happening, rest, rfl, reported⟩
    · exact .inr ⟨happening :: earlier, report, later, rfl, reported⟩

/-- A departure that was reported before and waits in the end waits throughout. -/
theorem waits_throughout (leads : first.Leads stretch last) (kept : first.WellKept)
    (numbered : departure.sequence < first.pool.nextDeparture) (waits : departure ∈ last.waits) :
    departure ∈ first.waits ∧ ∀ happening ∈ stretch, departure ∈ happening.after.waits := by
  induction leads with
  | done => exact ⟨waits, List.forall_mem_nil _⟩
  | @next happening rest last _ ih =>
    have later := Nat.lt_of_lt_of_le numbered happening.step.nextDeparture_le
    obtain ⟨waited, throughout⟩ := ih (happening.step.kept kept) later waits
    exact ⟨happening.waited kept numbered waited, List.forall_mem_cons.mpr ⟨waited, throughout⟩⟩

/-- A departure that is gone does not come back. -/
theorem stays_away (leads : first.Leads stretch last) (kept : first.WellKept)
    (numbered : departure.sequence < first.pool.nextDeparture) (gone : departure ∉ first.waits) :
    ∀ happening ∈ stretch, departure ∉ happening.before.waits := by
  induction leads with
  | done => exact List.forall_mem_nil _
  | @next happening rest last _ ih =>
    have later := Nat.lt_of_lt_of_le numbered happening.step.nextDeparture_le
    have away : departure ∉ happening.after.waits :=
      fun waits => gone (happening.waited kept numbered waits)
    exact List.forall_mem_cons.mpr ⟨gone, ih (happening.step.kept kept) later away⟩

/-- A place that a pass in progress has filled with a departure was filled in a step of this
pass. -/
theorem exists_matching (leads : first.Leads history last) {ticket : PlacementTicket}
    {placed : Entry η π} (filled : (ticket, placed) ∈ last.moved) :
    ((ticket, placed) ∈ first.moved ∧ ∀ happening ∈ history, happening.after.InPass) ∨
      ∃ earlier matching since request departure, history = earlier ++ matching :: since ∧
        matching.deed = .matches request departure ∧ request.ticket = ticket ∧
          matching.after.moved = matching.before.moved ++ [(request.ticket, placed)] ∧
            ∀ happening ∈ since, happening.after.InPass := by
  induction leads with
  | done => exact .inl ⟨filled, List.forall_mem_nil _⟩
  | @next happening rest last _ ih =>
    rcases ih filled with ⟨filled, within⟩ |
      ⟨earlier, matching, since, request, departure, rfl, fills⟩
    · obtain ⟨inPass, before | ⟨noted, request, departure, deed, rfl⟩⟩ :=
        happening.step.mem_moved filled
      · exact .inl ⟨before, List.forall_mem_cons.mpr ⟨inPass, within⟩⟩
      · exact .inr ⟨[], happening, rest, request, departure, rfl, deed, rfl, noted, within⟩
    · exact .inr ⟨happening :: earlier, matching, since, request, departure, rfl, fills⟩

end Juncture.Leads

/-! ### The steps of a call -/

namespace Juncture

/-- Steps lead from one juncture to another. -/
def Reaches (first last : Juncture η π) : Prop := ∃ history, first.Leads history last

variable {first middle last : Juncture η π} {deed : Deed η π}

private theorem Reaches.refl (juncture : Juncture η π) : juncture.Reaches juncture := ⟨[], .done _⟩

private theorem Reaches.trans (early : first.Reaches middle) (late : middle.Reaches last) :
    first.Reaches last := by
  obtain ⟨history, early⟩ := early
  obtain ⟨more, late⟩ := late
  exact ⟨history ++ more, early.trans late⟩

private theorem Step.reaches (step : first.Step deed last) : first.Reaches last :=
  ⟨_, .single ⟨first, deed, last, step⟩⟩

end Juncture

open Juncture (Step Reaches)

/-- The matching of a pass consists of steps. -/
private theorem Pass.Advances.reaches {filling : Filling} {pass last : Pass η π}
    {handedOut : List (Departure η π)} (advances : pass.Advances filling handedOut last) :
    Reaches (.matching filling pass) (.matching filling last) := by
  induction advances with
  | refl pass => exact .refl _
  | matched step first _ ih => exact (Step.matched step first).reaches.trans ih
  | handedBack allowed step _ ih =>
    subst allowed
    exact (Step.handedBack step).reaches.trans ih
  | inserted handle objects allowed step _ ih =>
    subst allowed
    exact (Step.inserted handle objects step).reaches.trans ih

namespace Pool

variable {pool after : Pool η π} {transfers : List (Transfer η π)}

/-- The end of a pass begins, and some requests are matched. -/
private theorem reaches_matching {filling : Filling} {pass : Pass η π}
    {handedOut : List (Departure η π)} (matching : pool.endPass.Advances filling handedOut pass) :
    Reaches (.resting pool) (.matching filling pass) :=
  (Step.beginPass filling pool).reaches.trans matching.reaches

/-- Every call on a pool consists of steps. -/
theorem Exchange.reaches (exchange : pool.Exchange transfers after) :
    Reaches (.resting pool) (.resting after) := by
  cases exchange with
  | instantiate => exact (Step.instantiate ..).reaches
  | deactivate => exact (Step.deactivate ..).reaches
  | report accepted => exact (Step.report accepted).reaches
  | misreport | claimNothing => exact .refl _
  | claim answer first => exact (Step.claim answer first).reaches
  | place answer first => exact (Step.place (Prod.ext answer rfl) first).reaches
  | placeLater answer => exact (Step.placeLater answer).reaches
  | endPass ending =>
    have settles := (reaches_matching ending.matching).trans (Step.settle ending.complete).reaches
    exact settles.trans (Step.endPass ending.delivery ending.finished).reaches
  | insertPanics matching step =>
    exact (reaches_matching matching).trans (Step.insertPanics step).reaches
  | observerPanicsInPass matching complete delivery attempt =>
    have settles := (reaches_matching matching).trans (Step.settle complete).reaches
    exact settles.trans (Step.observerPanicsInPass delivery attempt).reaches
  | dispatch delivery finished => exact (Step.dispatch delivery finished).reaches
  | observerPanics delivery attempt => exact (Step.observerPanics delivery attempt).reaches
  | takeRetirements => exact (Step.takeRetirements _).reaches

/-- All that happens to a pool after its creation happens in steps. -/
theorem Run.reaches {config : Settings.RelocationConfig} (run : Run config transfers pool) :
    Reaches (.resting { config }) (.resting pool) := by
  induction run with
  | created => exact .refl _
  | next _ exchange ih => exact ih.trans exchange.reaches

end Pool

end LiveTree.Relocation
