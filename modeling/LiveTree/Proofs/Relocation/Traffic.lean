import LiveTree.Proofs.Relocation.Junctures

/-! The traffic of a pass. Before a pass ends, a pool is told of departures and asked for places,
in any order. Such a stretch of calls is part of the life of the pool, and the places that have to
wait keep the order in which they were asked for. -/
namespace LiveTree.Relocation

variable {η π : Type}

/-- A call between two ends of passes. -/
inductive Traffic (η π : Type) where
  | depart (descriptor : DescriptorId) (entry : Entry η π)
  | place (descriptor : DescriptorId) (parameter : π) (position : Position.Hash)

/-- A place that was asked for, with the answer. -/
structure Asked (η π : Type) where
  descriptor : DescriptorId
  parameter : π
  position : Position.Hash
  answer : Placement η π

/-- Whether new content is to be inserted at once. -/
def Placement.insertsNow : Placement η π → Bool
  | .insertNow _ => true
  | _ => false

/-- The request that was made for a place, under its ticket. -/
def Asked.request (asked : Asked η π) (ticket : PlacementTicket) : Request π :=
  ⟨ticket, asked.descriptor, asked.parameter, asked.position⟩

/-- The departures of some traffic that are accepted, numbered from `next`. -/
def arrivals (next : Nat) : List (Traffic η π) → List (Departure η π)
  | [] => []
  | .depart descriptor entry :: calls =>
    if entry.descriptor = descriptor then ⟨next, entry⟩ :: arrivals (next + 1) calls
    else arrivals next calls
  | .place .. :: calls => arrivals next calls

namespace Pool

variable {pool after : Pool η π}

/-- Takes one call of the traffic, with the place that was asked for, if any. A refused departure
leaves no trace. -/
def serve (pool : Pool η π) : Traffic η π → List (Asked η π) × Pool η π
  | .depart descriptor entry =>
    match pool.reportDeparture descriptor entry with
    | .ok after => ([], after)
    | .error _ => ([], pool)
  | .place descriptor parameter position =>
    ([⟨descriptor, parameter, position,
      (pool.requestPlacement descriptor parameter position).1⟩],
      (pool.requestPlacement descriptor parameter position).2)

/-- Takes the traffic call by call. -/
def serveAll (pool : Pool η π) : List (Traffic η π) → List (Asked η π) × Pool η π
  | [] => ([], pool)
  | call :: calls =>
    ((pool.serve call).1 ++ ((pool.serve call).2.serveAll calls).1,
      ((pool.serve call).2.serveAll calls).2)

private theorem serveAll_append (pool : Pool η π) (first second : List (Traffic η π)) :
    pool.serveAll (first ++ second) =
      ((pool.serveAll first).1 ++ ((pool.serveAll first).2.serveAll second).1,
        ((pool.serveAll first).2.serveAll second).2) := by
  induction first generalizing pool with
  | nil => rfl
  | cons call first ih => simp [serveAll, ih]

/-- A place in the middle of the traffic is answered by the pool as it is then. -/
theorem serveAll_place (pool : Pool η π) (before after : List (Traffic η π))
    (descriptor : DescriptorId) (parameter : π) (position : Position.Hash) :
    ∃ later, (pool.serveAll (before ++ .place descriptor parameter position :: after)).1 =
      (pool.serveAll before).1 ++ ⟨descriptor, parameter, position,
        ((pool.serveAll before).2.requestPlacement descriptor parameter position).1⟩ :: later :=
  ⟨_, by rw [serveAll_append]; rfl⟩

/-- A departure is accepted under its own descriptor and refused under any other. -/
theorem serve_depart (pool : Pool η π) (descriptor : DescriptorId) (entry : Entry η π) :
    (entry.descriptor = descriptor ∧ ∃ after, pool.reportDeparture descriptor entry = .ok after ∧
      pool.serve (.depart descriptor entry) = ([], after)) ∨
    (entry.descriptor ≠ descriptor ∧
      (∃ misreport, pool.reportDeparture descriptor entry = .error misreport) ∧
      pool.serve (.depart descriptor entry) = ([], pool)) := by
  cases result : pool.reportDeparture descriptor entry with
  | ok after =>
    obtain ⟨own, -⟩ := reportDeparture_eq_ok_iff.mp result
    exact .inl ⟨own, after, rfl, by simp only [serve, result]⟩
  | error misreport =>
    have foreign : entry.descriptor ≠ descriptor := fun own => by
      simp [reportDeparture, own] at result
    exact .inr ⟨foreign, ⟨misreport, rfl⟩, by simp only [serve, result]⟩

theorem fst_serve_depart (pool : Pool η π) (descriptor : DescriptorId) (entry : Entry η π) :
    (pool.serve (.depart descriptor entry)).1 = [] := by
  rcases pool.serve_depart descriptor entry with ⟨-, _, -, same⟩ | ⟨-, -, same⟩ <;> rw [same]

/-- Traffic is part of the life of a pool. -/
theorem serve_exchange (pool : Pool η π) (call : Traffic η π) :
    ∃ transfers, pool.Exchange transfers (pool.serve call).2 ∧
      reported transfers = arrivals pool.nextDeparture [call] := by
  cases call with
  | depart descriptor entry =>
    rcases pool.serve_depart descriptor entry with
      ⟨own, after, accepted, same⟩ | ⟨foreign, ⟨misreport, refused⟩, same⟩
    · rw [same]
      exact ⟨_, .report accepted, by simp [arrivals, own, reported]⟩
    · rw [same]
      exact ⟨_, .misreport refused, by simp [arrivals, foreign, reported]⟩
  | place descriptor parameter position =>
    rcases pool.requestPlacement_cases descriptor parameter position with
      ⟨departure, departures, -, taken, same⟩ | ⟨-, -, -, same⟩ | ⟨-, -, same⟩
    · have answer := congrArg Prod.fst same
      exact ⟨_, .place answer (Departures.waiting_claim taken).1, rfl⟩
    · have answer := congrArg Prod.fst same
      exact ⟨_, .placeLater fun entry moved => (by simpa using answer.symm.trans moved), rfl⟩
    · have answer := congrArg Prod.fst same
      exact ⟨_, .placeLater fun entry moved => (by simpa using answer.symm.trans moved), rfl⟩

theorem arrivals_append (next : Nat) (first second : List (Traffic η π)) :
    arrivals next (first ++ second) =
      arrivals next first ++ arrivals (next + (arrivals next first).length) second := by
  induction first generalizing next with
  | nil => rfl
  | cons call first ih =>
    cases call with
    | place => exact ih next
    | depart descriptor entry =>
      by_cases own : entry.descriptor = descriptor
      · simp [arrivals, own, ih, Nat.add_assoc, Nat.add_comm 1]
      · simpa [arrivals, own] using ih next

variable {config : Settings.RelocationConfig} {transfers : List (Transfer η π)}

/-- A call of the traffic continues the life of a pool. -/
theorem Run.serve (run : Run config transfers pool) (call : Traffic η π) :
    ∃ more, Run config (transfers ++ more) (pool.serve call).2 ∧
      reported more = arrivals pool.nextDeparture [call] ∧
      (pool.serve call).2.nextDeparture =
        pool.nextDeparture + (arrivals pool.nextDeparture [call]).length := by
  obtain ⟨more, exchange, came⟩ := pool.serve_exchange call
  have counted := (exchange.turnover run.turnover.kept).nextDeparture
  exact ⟨more, run.next exchange, came, by rw [counted, came]⟩

/-- A stretch of traffic continues the life of a pool. -/
theorem Run.serveAll (run : Run config transfers pool) (traffic : List (Traffic η π)) :
    ∃ more, Run config (transfers ++ more) (pool.serveAll traffic).2 ∧
      reported more = arrivals pool.nextDeparture traffic := by
  induction traffic generalizing pool transfers with
  | nil => exact ⟨[], by simpa [Pool.serveAll] using run, rfl⟩
  | cons call calls ih =>
    obtain ⟨early, next, came, counted⟩ := run.serve call
    obtain ⟨late, later, cameLater⟩ := ih next
    refine ⟨early ++ late, by simpa [Pool.serveAll] using later, ?_⟩
    rw [reported_append, came, cameLater, counted,
      ← arrivals_append pool.nextDeparture [call] calls]
    rfl

/-- New content is to be inserted at once exactly when usage is tracked and nothing of the
descriptor was ever reported. -/
theorem Run.insertsNow_iff (run : Run config transfers pool) (descriptor : DescriptorId)
    (parameter : π) (position : Position.Hash) :
    (pool.requestPlacement descriptor parameter position).1.insertsNow = true ↔
      config.trackUsage = true ∧ pool.hasDeparted descriptor = false := by
  have configured : pool.config = config := run.turnover.config
  rw [← configured]
  rcases pool.requestPlacement_cases descriptor parameter position with
    ⟨departure, _, -, claimed, same⟩ | ⟨-, tracked, never, same⟩ | ⟨-, known, same⟩
  · have first := List.mem_of_mem_head? (Departures.waiting_claim claimed).1
    simp [same, Placement.insertsNow, run.hasDeparted_of_mem first]
  · simp [same, Placement.insertsNow, tracked, never]
  · rw [same]
    exact ⟨nofun, fun ⟨tracked, never⟩ => absurd (known tracked) (by simp [never])⟩

/-- A place that was asked for was asked for at some point of the traffic. -/
theorem exists_split_of_mem_serveAll {traffic : List (Traffic η π)} {place : Asked η π}
    (asked : place ∈ (pool.serveAll traffic).1) :
    ∃ before later, traffic =
        before ++ .place place.descriptor place.parameter place.position :: later ∧
      place.answer = ((pool.serveAll before).2.requestPlacement place.descriptor place.parameter
        place.position).1 := by
  induction traffic generalizing pool with
  | nil => cases asked
  | cons call calls ih =>
    rcases List.mem_append.mp asked with here | later
    · cases call with
      | depart descriptor entry =>
        rw [fst_serve_depart] at here
        cases here
      | place descriptor parameter position =>
        obtain rfl := List.mem_singleton.mp here
        exact ⟨[], calls, rfl, rfl⟩
    · obtain ⟨before, rest, rfl, answer⟩ := ih later
      exact ⟨call :: before, rest, rfl, answer⟩

/-- The places that wait, as a pool keeps them: in the order of their tickets, with the
descriptors for which something waits. -/
structure Queued (pool : Pool η π) : Prop where
  awaited : ∀ id, pool.isAwaited id = true ↔ requestsFor pool.deferred id ≠ []
  inOrder : pool.deferred.Pairwise fun first second => first.ticket < second.ticket
  issued : ∀ request ∈ pool.deferred, request.ticket < pool.nextTicket

namespace Queued

/-- Where no other place has to wait, the places wait as before. -/
private theorem still (queued : pool.Queued) (same : Juncture.SamePlaces pool after) :
    after.Queued where
  awaited id := by
    rw [isAwaited, same.descriptors, same.deferred]
    exact queued.awaited id
  inOrder := by rw [same.deferred]; exact queued.inOrder
  issued := by
    rw [same.deferred]
    exact fun request waits => Nat.lt_of_lt_of_le (queued.issued request waits) same.nextTicket

/-- Nothing waits when a pass has ended, or was cut short. -/
theorem idle (deferred : after.deferred = []) (descriptors : after.deferredDescriptors = []) :
    after.Queued where
  awaited id := by simp [isAwaited, descriptors, deferred]
  inOrder := by rw [deferred]; exact .nil
  issued := by simp [deferred]

/-- Any answer to a request leaves the places in order. -/
private theorem place (queued : pool.Queued) (descriptor : DescriptorId) (parameter : π)
    (position : Position.Hash) :
    (pool.requestPlacement descriptor parameter position).2.Queued := by
  rcases pool.requestPlacement_cases descriptor parameter position with
    ⟨_, _, -, -, same⟩ | ⟨-, -, -, same⟩ | ⟨-, -, same⟩
  · rw [same]
    exact queued.still ⟨rfl, rfl, Nat.le_refl _⟩
  · rw [same]
    exact queued.still ⟨rfl, rfl, Nat.le_succ _⟩
  · rw [same]
    constructor
    case awaited =>
      intro id
      have here : requestsFor [pool.nextRequest descriptor parameter position] id ≠ [] ↔
          descriptor = id := by
        simp [requestsFor, nextRequest]
      apply contains_noted.trans
      rw [requestsFor_append, ne_eq, List.append_eq_nil_iff, not_and_or]
      exact or_congr (queued.awaited id) here.symm
    case inOrder =>
      refine List.pairwise_append.mpr ⟨queued.inOrder, List.pairwise_singleton _ _, ?_⟩
      intro earlier waits latest isLatest
      rw [List.mem_singleton.mp isLatest]
      exact queued.issued earlier waits
    case issued =>
      intro request waits
      rcases List.mem_append.mp waits with earlier | isLatest
      · exact Nat.lt_succ_of_lt (queued.issued request earlier)
      · rw [List.mem_singleton.mp isLatest]
        exact Nat.lt_succ_self _

end Queued

end Pool

/-- Every step keeps the waiting places in order. -/
private theorem Juncture.Step.queued {juncture next : Juncture η π} {deed : Juncture.Deed η π}
    (step : juncture.Step deed next) (queued : juncture.pool.Queued) : next.pool.Queued := by
  cases step.queueing with
  | keeps places | reports places => exact queued.still places
  | @defers _ request asks =>
    cases asks with
    | asks answer =>
      have placed := queued.place request.descriptor request.parameter request.position
      rwa [Juncture.pool, answer] at placed
  | clears deferred descriptors => exact .idle deferred descriptors

theorem Juncture.Leads.queued {first last : Juncture η π} {history : List (Happening η π)}
    (leads : first.Leads history last) (queued : first.pool.Queued) : last.pool.Queued := by
  induction leads with
  | done => exact queued
  | @next happening _ _ _ ih => exact ih (happening.step.queued queued)

namespace Pool

variable {pool after : Pool η π} {config : Settings.RelocationConfig}
  {transfers : List (Transfer η π)}

/-- Every call keeps the waiting places in order. -/
private theorem Exchange.queued (exchange : pool.Exchange transfers after) (queued : pool.Queued) :
    after.Queued := by
  obtain ⟨_, leads⟩ := exchange.reaches
  exact leads.queued queued

theorem Run.queued (run : Run config transfers pool) : pool.Queued := by
  induction run with
  | created => exact .idle rfl rfl
  | next _ exchange ih => exact exchange.queued ih

end Pool

end LiveTree.Relocation
