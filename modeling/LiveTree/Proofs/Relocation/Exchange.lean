import LiveTree.Proofs.Relocation.Matching

/-! The life of a pool. Every call is described with the departures that it takes in and gives
out, also when the host panics in the middle of a pass and the pool is left as it is then. What a
call does to the departures is said once, for all calls alike. -/
namespace LiveTree.Relocation

open Lifecycle (ObjectId Drain State)
open scoped List

variable {η π : Type}

/-- How a departure leaves a pool: through a direct claim, as the answer to a request, at the end
of the pass of a request that had to wait, or without a place. -/
inductive Way where
  | claimed | moved | resolved | disposed
deriving DecidableEq, Repr

/-- A departure comes in or goes out. -/
inductive Transfer (η π : Type) where
  | reported (departure : Departure η π)
  | left (way : Way) (departure : Departure η π)

/-- The departures that came in, in the order of the reports. -/
def reported (transfers : List (Transfer η π)) : List (Departure η π) :=
  transfers.filterMap fun
    | .reported departure => some departure
    | .left _ _ => none

/-- The departures that went out in one way. -/
def leftBy (way : Way) (transfers : List (Transfer η π)) : List (Departure η π) :=
  transfers.filterMap fun
    | .reported _ => none
    | .left taken departure => if taken = way then some departure else none

/-- All departures that went out. -/
def gone (transfers : List (Transfer η π)) : List (Departure η π) :=
  transfers.filterMap fun
    | .reported _ => none
    | .left _ departure => some departure

/-- One call on a pool, with what comes in and goes out. -/
inductive Pool.Exchange : Pool η π → List (Transfer η π) → Pool η π → Prop
  | instantiate (pool : Pool η π) (descriptor : DescriptorId) (handle : η) (parameter : π)
      (position : Position.Hash) (objects : List ObjectId) :
      Exchange pool [] (pool.instantiate descriptor handle parameter position objects).2
  | deactivate (pool : Pool η π) (entry : Entry η π) : Exchange pool [] (pool.deactivate entry).2
  | report {pool after : Pool η π} {descriptor : DescriptorId} {entry : Entry η π}
      (accepted : pool.reportDeparture descriptor entry = .ok after) :
      Exchange pool [.reported ⟨pool.nextDeparture, entry⟩] after
  | misreport {pool : Pool η π} {descriptor : DescriptorId} {entry : Entry η π}
      {misreport : Misreport} (refused : pool.reportDeparture descriptor entry = .error misreport) :
      Exchange pool [] pool
  | claim {pool after : Pool η π} {id : DescriptorId} {departure : Departure η π}
      (answer : pool.claim id = some (departure.entry, after))
      (first : pool.first? id = some departure) :
      Exchange pool [.left .claimed departure] after
  | claimNothing {pool : Pool η π} {id : DescriptorId} (answer : pool.claim id = none) :
      Exchange pool [] pool
  | place {pool : Pool η π} {descriptor : DescriptorId} {parameter : π} {position : Position.Hash}
      {departure : Departure η π}
      (answer : (pool.requestPlacement descriptor parameter position).1 =
        .moved (departure.entry.placedAt parameter position))
      (first : pool.first? descriptor = some departure) :
      Exchange pool [.left .moved departure]
        (pool.requestPlacement descriptor parameter position).2
  | placeLater {pool : Pool η π} {descriptor : DescriptorId} {parameter : π}
      {position : Position.Hash}
      (answer : ∀ entry, (pool.requestPlacement descriptor parameter position).1 ≠ .moved entry) :
      Exchange pool [] (pool.requestPlacement descriptor parameter position).2
  | endPass {filling : Filling} {pool : Pool η π} (ending : Ending filling pool) :
      Exchange pool
        (ending.handedOut.map (.left .resolved) ++ ending.disposed.map (.left .disposed))
        ending.after
  | insertPanics {pool : Pool η π} {pass next : Pass η π} {handedOut : List (Departure η π)}
      {request : Request π} (matching : pool.endPass.Advances .inserts handedOut pass)
      (step : pass.step = .unmatched request next) :
      Exchange pool (handedOut.map (.left .resolved)) next.pool
  | observerPanicsInPass {filling : Filling} {pool : Pool η π} {settled : Pass η π}
      {handedOut : List (Departure η π)} {drain next : Drain} {object : ObjectId} {target : State}
      (matching : pool.endPass.Advances filling handedOut settled)
      (complete : settled.step = .settled)
      (delivery : settled.disposeDepartures.pool.dispatcher.drain.Proceeds drain)
      (attempt : drain.step = .attempt object target next) :
      Exchange pool
        (handedOut.map (.left .resolved) ++
          settled.pool.departures.inReportOrder.map (.left .disposed))
        { settled.disposeDepartures.pool with dispatcher := next.dispatcher }
  | dispatch {pool : Pool η π} {drain : Drain} (delivery : pool.dispatcher.drain.Proceeds drain)
      (finished : drain.step = .finished) :
      Exchange pool [] { pool with dispatcher := drain.dispatcher }
  | observerPanics {pool : Pool η π} {drain next : Drain} {object : ObjectId} {target : State}
      (delivery : pool.dispatcher.drain.Proceeds drain)
      (attempt : drain.step = .attempt object target next) :
      Exchange pool [] { pool with dispatcher := next.dispatcher }
  | takeRetirements (pool : Pool η π) :
      Exchange pool [] { pool with dispatcher := pool.dispatcher.takeRetirements.2 }

/-- The calls on a new pool, with all that came in and went out. -/
inductive Pool.Run (config : Settings.RelocationConfig) :
    List (Transfer η π) → Pool η π → Prop
  | created : Run config [] { config }
  | next {transfers more : List (Transfer η π)} {pool after : Pool η π}
      (run : Run config transfers pool) (exchange : pool.Exchange more after) :
      Run config (transfers ++ more) after

section Transfers

variable (first second : List (Transfer η π)) (departures : List (Departure η π))

@[simp]
theorem reported_append : reported (first ++ second) = reported first ++ reported second :=
  List.filterMap_append ..

@[simp]
theorem leftBy_append (way : Way) :
    leftBy way (first ++ second) = leftBy way first ++ leftBy way second :=
  List.filterMap_append ..

@[simp]
theorem gone_append : gone (first ++ second) = gone first ++ gone second :=
  List.filterMap_append ..

@[simp]
theorem reported_map_left (way : Way) : reported (departures.map (.left way)) = [] := by
  simp [reported, List.filterMap_map]

@[simp]
theorem leftBy_map_left (way taken : Way) :
    leftBy way (departures.map (.left taken)) = if taken = way then departures else [] := by
  by_cases same : taken = way <;> simp [leftBy, List.filterMap_map, same]

@[simp]
theorem gone_map_left (way : Way) : gone (departures.map (.left way)) = departures := by
  simp [gone, List.filterMap_map]

end Transfers

/-- What a call amounts to for the departures of a pool. -/
structure Pool.Turnover (pool : Pool η π) (transfers : List (Transfer η π)) (after : Pool η π) :
    Prop where
  config : after.config = pool.config
  kept : after.departures.WellKept after.nextDeparture
  content : (pool.departures.all ++ reported transfers).Perm
    (after.departures.all ++ gone transfers)
  numbers : (reported transfers).map Departure.sequence =
    List.range' pool.nextDeparture (reported transfers).length
  nextDeparture : after.nextDeparture = pool.nextDeparture + (reported transfers).length
  known : ∀ id, after.hasDeparted id = true ↔
    pool.hasDeparted id = true ∨ ∃ departure ∈ reported transfers, departure.entry.descriptor = id
  departures : after.stats.departures = pool.stats.departures + (reported transfers).length
  moves : after.stats.moves =
    pool.stats.moves + (leftBy .moved transfers).length + (leftBy .resolved transfers).length
  disposed : after.stats.disposed = pool.stats.disposed + (leftBy .disposed transfers).length

namespace Pool

variable {pool middle after : Pool η π} {transfers more : List (Transfer η π)}

/-- A report makes its descriptor known, and no other. -/
theorem hasDeparted_report {descriptor id : DescriptorId} {entry : Entry η π}
    (accepted : pool.reportDeparture descriptor entry = .ok after) :
    after.hasDeparted id = true ↔ pool.hasDeparted id = true ∨ entry.descriptor = id := by
  obtain ⟨-, rfl⟩ := reportDeparture_eq_ok_iff.mp accepted
  exact contains_noted

namespace Turnover

/-- Where nothing comes in or goes out, the index and the counts stay. -/
private theorem still (kept : pool.departures.WellKept pool.nextDeparture)
    (config : after.config = pool.config) (departures : after.departures = pool.departures)
    (nextDeparture : after.nextDeparture = pool.nextDeparture)
    (everDeparted : after.everDeparted = pool.everDeparted)
    (reports : after.stats.departures = pool.stats.departures)
    (moves : after.stats.moves = pool.stats.moves)
    (disposed : after.stats.disposed = pool.stats.disposed) : Turnover pool [] after where
  config := config
  kept := by rw [departures, nextDeparture]; exact kept
  content := by simp [departures, reported, gone]
  numbers := rfl
  nextDeparture := nextDeparture
  known id := by simp [hasDeparted, everDeparted, reported]
  departures := reports
  moves := moves
  disposed := disposed

private theorem trans (first : Turnover pool transfers middle)
    (second : Turnover middle more after) : Turnover pool (transfers ++ more) after where
  config := second.config.trans first.config
  kept := second.kept
  content := by
    rw [reported_append, gone_append, ← List.append_assoc]
    have early := first.content.append_right (reported more)
    have late := second.content.append_right (gone transfers)
    calc pool.departures.all ++ reported transfers ++ reported more
      _ ~ middle.departures.all ++ gone transfers ++ reported more := early
      _ ~ middle.departures.all ++ reported more ++ gone transfers := by
        rw [List.append_assoc, List.append_assoc]
        exact List.perm_append_comm.append_left _
      _ ~ after.departures.all ++ gone more ++ gone transfers := late
      _ ~ after.departures.all ++ (gone transfers ++ gone more) := by
        rw [List.append_assoc]
        exact List.perm_append_comm.append_left _
  numbers := by
    rw [reported_append, List.map_append, first.numbers, second.numbers, first.nextDeparture,
      List.range'_append_1, List.length_append]
  nextDeparture := by
    rw [second.nextDeparture, first.nextDeparture, reported_append, List.length_append,
      Nat.add_assoc]
  known id := by
    rw [second.known, first.known, reported_append]
    simp only [List.mem_append, or_assoc]
    refine or_congr_right ⟨?_, ?_⟩
    · rintro (⟨departure, member, same⟩ | ⟨departure, member, same⟩)
      · exact ⟨departure, .inl member, same⟩
      · exact ⟨departure, .inr member, same⟩
    · rintro ⟨departure, member | member, same⟩
      · exact .inl ⟨departure, member, same⟩
      · exact .inr ⟨departure, member, same⟩
  departures := by
    rw [second.departures, first.departures, reported_append, List.length_append, Nat.add_assoc]
  moves := by
    rw [second.moves, first.moves]
    simp only [leftBy_append, List.length_append]
    omega
  disposed := by
    rw [second.disposed, first.disposed]
    simp only [leftBy_append, List.length_append]
    omega

/-- An accepted report comes in. -/
private theorem report (kept : pool.departures.WellKept pool.nextDeparture)
    {descriptor : DescriptorId} {entry : Entry η π}
    (accepted : pool.reportDeparture descriptor entry = .ok after) :
    Turnover pool [.reported ⟨pool.nextDeparture, entry⟩] after := by
  obtain ⟨-, same⟩ := reportDeparture_eq_ok_iff.mp accepted
  subst same
  refine ⟨rfl, kept.add entry, ?_, rfl, rfl, ?_, rfl, rfl, rfl⟩
  · have joined := Departures.all_add_perm kept.distinct ⟨pool.nextDeparture, entry⟩
    simpa [reported, gone] using (List.perm_append_singleton _ _).trans joined.symm
  · intro id
    rw [hasDeparted_report accepted]
    simp [reported]

/-- What leaves one by one is taken from the index. -/
private theorem takeFirst (kept : pool.departures.WellKept pool.nextDeparture) {id : DescriptorId}
    {departure : Departure η π} {departures : Departures η π} {way : Way}
    (taken : pool.departures.claim id = some (departure, departures))
    (config : after.config = pool.config) (left : after.departures = departures)
    (nextDeparture : after.nextDeparture = pool.nextDeparture)
    (everDeparted : after.everDeparted = pool.everDeparted)
    (reports : after.stats.departures = pool.stats.departures)
    (moves : after.stats.moves =
      pool.stats.moves + (leftBy .moved [Transfer.left way departure]).length +
        (leftBy .resolved [Transfer.left way departure]).length)
    (disposed : after.stats.disposed =
      pool.stats.disposed + (leftBy .disposed [Transfer.left way departure]).length) :
    Turnover pool [.left way departure] after where
  config := config
  kept := by rw [left, nextDeparture]; exact kept.claim taken
  content := by
    have perm := Departures.all_claim_perm kept.distinct taken
    simpa [left, reported, gone] using perm.trans (List.perm_append_singleton _ _).symm
  numbers := rfl
  nextDeparture := nextDeparture
  known other := by simp [hasDeparted, everDeparted, reported]
  departures := reports
  moves := moves
  disposed := disposed

/-- What the end of a pass hands out is taken from the index. -/
private theorem matching (kept : pool.departures.WellKept pool.nextDeparture) {filling : Filling}
    {last : Pass η π} {handedOut : List (Departure η π)}
    (advances : pool.endPass.Advances filling handedOut last) :
    Turnover pool (handedOut.map (.left .resolved)) last.pool := by
  obtain ⟨answered, served⟩ := advances.served
  obtain ⟨keptLast, perm⟩ := advances.takes kept
  have same := served.pool
  have stats : last.pool.stats = { pool.stats with
      moves := pool.stats.moves + handedOut.length
      unmatchedPlacements := pool.stats.unmatchedPlacements +
        (unserved (allot pool.departures.waiting answered)).length } := by
    rw [same]
    rfl
  have nextDeparture : last.pool.nextDeparture = pool.nextDeparture := by
    rw [same]
    rfl
  have everDeparted : last.pool.everDeparted = pool.everDeparted := by
    rw [same]
    rfl
  have config : last.pool.config = pool.config := by
    rw [same]
    rfl
  have content : pool.departures.all ~ last.pool.departures.all ++ handedOut :=
    perm.trans List.perm_append_comm
  exact {
    config
    kept := by rw [nextDeparture]; exact keptLast
    content := by simpa using content
    numbers := by simp
    nextDeparture := by simpa using nextDeparture
    known := fun id => by simp [hasDeparted, everDeparted]
    departures := by simp [stats]
    moves := by simp [stats]
    disposed := by simp [stats] }

/-- What is left over goes out when it is disposed. -/
private theorem disposal (pool : Pool η π) (passes : Nat)
    (dispatcher : Lifecycle.Dispatcher) :
    Turnover pool (pool.departures.inReportOrder.map (.left .disposed))
      { pool.disposeDepartures with
        dispatcher
        stats := { pool.disposeDepartures.stats with passes } } := by
  have ordered := pool.departures.inReportOrder_perm
  have counted : pool.departures.inReportOrder.length = pool.departures.size :=
    ordered.length_eq
  simp only [disposeDepartures_eq]
  exact {
    config := rfl
    kept := .empty _
    content := by simpa using ordered.symm
    numbers := by simp
    nextDeparture := by simp
    known := fun id => by simp [hasDeparted]
    departures := by simp
    moves := by simp
    disposed := by simp [counted] }

end Turnover

/-- Every call is accounted for. -/
theorem Exchange.turnover (exchange : pool.Exchange transfers after)
    (kept : pool.departures.WellKept pool.nextDeparture) : Turnover pool transfers after := by
  cases exchange with
  | instantiate => exact .still kept rfl rfl rfl rfl rfl rfl rfl
  | deactivate pool entry =>
    rw [deactivate_snd]
    exact .still kept rfl rfl rfl rfl rfl rfl rfl
  | report accepted => exact .report kept accepted
  | misreport => exact .still kept rfl rfl rfl rfl rfl rfl rfl
  | claim answer first =>
    obtain ⟨found, departures, taken, -, rfl⟩ := claim_eq_some_iff.mp answer
    cases eq_of_first? first taken
    exact .takeFirst kept taken rfl rfl rfl rfl rfl rfl rfl
  | claimNothing => exact .still kept rfl rfl rfl rfl rfl rfl rfl
  | place answer first =>
    rename_i descriptor parameter position departure
    rcases pool.requestPlacement_cases descriptor parameter position with
      ⟨found, departures, -, taken, same⟩ | ⟨-, -, -, same⟩ | ⟨-, -, same⟩
    · cases eq_of_first? first taken
      rw [same]
      exact .takeFirst kept taken rfl rfl rfl rfl rfl rfl rfl
    · rw [same] at answer
      cases answer
    · rw [same] at answer
      cases answer
  | placeLater answer =>
    rename_i descriptor parameter position
    rcases pool.requestPlacement_cases descriptor parameter position with
      ⟨_, _, -, -, same⟩ | ⟨-, -, -, same⟩ | ⟨-, -, same⟩
    · exact absurd (congrArg Prod.fst same) (answer _)
    · rw [same]
      exact .still kept rfl rfl rfl rfl rfl rfl rfl
    · rw [same]
      exact .still kept rfl rfl rfl rfl rfl rfl rfl
  | endPass ending =>
    have matched := Turnover.matching kept ending.matching
    exact matched.trans (.disposal _ _ _)
  | @insertPanics _ pass next _ _ matching step =>
    have matched := Turnover.matching kept matching
    have refused : Turnover pass.pool [] next.pool := by
      obtain ⟨_, -, -, rfl⟩ := Pass.of_step_eq_unmatched step
      exact .still matched.kept rfl rfl rfl rfl rfl rfl rfl
    simpa using matched.trans refused
  | observerPanicsInPass matching complete delivery attempt =>
    have matched := Turnover.matching kept matching
    exact matched.trans (.disposal _ _ _)
  | dispatch => exact .still kept rfl rfl rfl rfl rfl rfl rfl
  | observerPanics => exact .still kept rfl rfl rfl rfl rfl rfl rfl
  | takeRetirements => exact .still kept rfl rfl rfl rfl rfl rfl rfl

/-- The life of a pool is accounted for as a whole. -/
theorem Run.turnover {config : Settings.RelocationConfig} (run : Run config transfers pool) :
    Turnover { config } transfers pool := by
  induction run with
  | created => exact .still (.empty 0) rfl rfl rfl rfl rfl rfl rfl
  | next _ exchange ih => exact ih.trans (exchange.turnover ih.kept)

/-- A pool knows the descriptors that were ever reported, and no others. -/
theorem Run.hasDeparted_iff {config : Settings.RelocationConfig} (run : Run config transfers pool)
    {id : DescriptorId} :
    pool.hasDeparted id = true ↔
      ∃ departure ∈ reported transfers, departure.entry.descriptor = id := by
  rw [run.turnover.known]
  exact or_iff_right Bool.false_ne_true

/-- What waits was reported. -/
theorem Run.hasDeparted_of_mem {config : Settings.RelocationConfig}
    (run : Run config transfers pool) {id : DescriptorId} {departure : Departure η π}
    (waits : departure ∈ pool.departures.waiting id) : pool.hasDeparted id = true := by
  have kept := run.turnover.kept
  have present := (Departures.mem_all_iff kept.distinct).mpr ⟨id, waits⟩
  have came := run.turnover.content.mem_iff.mpr (List.mem_append_left _ present)
  exact run.hasDeparted_iff.mpr ⟨departure, came, kept.own id departure waits⟩

end Pool

end LiveTree.Relocation
