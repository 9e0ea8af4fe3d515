import LiveTree.Proofs.Lifecycle.Delivery
import LiveTree.Proofs.Relocation.Allotment
import LiveTree.Proofs.Relocation.Operations

/-! The end of a pass. While requests are matched the host can run, namely when it makes new
content, so the matching is first described step by step for anything that the host may do. It
then turns out to serve the requests in their order, first come, first served. -/
namespace LiveTree.Relocation

open Lifecycle (ObjectId Drain)

variable {η π : Type}

/-- What becomes of places that no departure serves: the host gets them back, or it makes new
content for each on the spot. -/
inductive Filling where
  | handsBack | inserts
deriving DecidableEq, Repr

/-- Those of some places that the host gets back. -/
def Filling.returned {α : Type} : Filling → List α → List α
  | handsBack, places => places
  | inserts, _ => []

/-- Those of some places that get new content. -/
def Filling.filled {α : Type} : Filling → List α → List α
  | handsBack, _ => []
  | inserts, places => places

@[simp]
theorem Filling.returned_nil {α : Type} (filling : Filling) :
    filling.returned ([] : List α) = [] := by
  cases filling <;> rfl

@[simp]
theorem Filling.filled_nil {α : Type} (filling : Filling) :
    filling.filled ([] : List α) = [] := by
  cases filling <;> rfl

private theorem Filling.returned_append {α : Type} (filling : Filling) (first second : List α) :
    filling.returned (first ++ second) = filling.returned first ++ filling.returned second := by
  cases filling <;> rfl

private theorem Filling.filled_append {α : Type} (filling : Filling) (first second : List α) :
    filling.filled (first ++ second) = filling.filled first ++ filling.filled second := by
  cases filling <;> rfl

theorem Filling.returned_subset {α : Type} (filling : Filling) (places : List α) :
    filling.returned places ⊆ places := by
  cases filling with
  | handsBack => exact List.Subset.refl places
  | inserts => exact List.nil_subset places

theorem Filling.filled_subset {α : Type} (filling : Filling) (places : List α) :
    filling.filled places ⊆ places := by
  cases filling with
  | handsBack => exact List.nil_subset places
  | inserts => exact List.Subset.refl places

theorem Filling.filter_returned (filling : Filling) (requests : List (Request π))
    (ticket : PlacementTicket) :
    (filling.returned requests).filter (fun request => request.ticket = ticket) =
      filling.returned (requests.filter fun request => request.ticket = ticket) := by
  cases filling <;> rfl

theorem Filling.filter_filled (filling : Filling) (requests : List (Request π))
    (ticket : PlacementTicket) :
    (filling.filled requests).filter (fun request => request.ticket = ticket) =
      filling.filled (requests.filter fun request => request.ticket = ticket) := by
  cases filling <;> rfl

/-- The departure that a request for a descriptor would get first. -/
def Pool.first? (pool : Pool η π) (id : DescriptorId) : Option (Departure η π) :=
  (pool.departures.waiting id).head?

/-- The matching goes on and hands departures out, in this order. -/
inductive Pass.Advances (filling : Filling) :
    Pass η π → List (Departure η π) → Pass η π → Prop
  | refl (pass : Pass η π) : Advances filling pass [] pass
  | matched {pass next last : Pass η π} {request : Request π} {departure : Departure η π}
      {handedOut : List (Departure η π)}
      (step : pass.step = .matched request departure.entry next)
      (first : pass.pool.first? request.descriptor = some departure)
      (rest : Advances filling next handedOut last) :
      Advances filling pass (departure :: handedOut) last
  | handedBack {pass next last : Pass η π} {request : Request π}
      {handedOut : List (Departure η π)} (allowed : filling = .handsBack)
      (step : pass.step = .unmatched request next)
      (rest : Advances filling (next.handBack request) handedOut last) :
      Advances filling pass handedOut last
  | inserted {pass next last : Pass η π} {request : Request π}
      {handedOut : List (Departure η π)} (handle : η) (objects : List ObjectId)
      (allowed : filling = .inserts) (step : pass.step = .unmatched request next)
      (rest : Advances filling (next.insert request handle objects) handedOut last) :
      Advances filling pass handedOut last

/-- The end of a pass that returned: all requests were matched, what was left over was disposed,
and all notifications were delivered, whatever the observers made of them. -/
structure Ending (filling : Filling) (pool : Pool η π) where
  settled : Pass η π
  handedOut : List (Departure η π)
  drain : Drain
  matching : pool.endPass.Advances filling handedOut settled
  complete : settled.step = .settled
  delivery : settled.disposeDepartures.pool.dispatcher.drain.Proceeds drain
  finished : drain.step = .finished

namespace Ending

variable {filling : Filling} {pool : Pool η π}

/-- The departures that no request took, in the order in which they were disposed. -/
def disposed (ending : Ending filling pool) : List (Departure η π) :=
  ending.settled.pool.departures.inReportOrder

/-- What the host is told of the pass. -/
def outcome (ending : Ending filling pool) : PassOutcome η π :=
  ending.settled.disposeDepartures.outcome (ending.settled.pool.leftovers.map (·.handle))
    ending.drain.report

/-- The pool after the pass. -/
def after (ending : Ending filling pool) : Pool η π :=
  { ending.settled.disposeDepartures.closedPool with dispatcher := ending.drain.dispatcher }

end Ending

/-- A request and the content that comes to its place. -/
def arrival (pair : Request π × Option (Departure η π)) : Option (PlacementTicket × Entry η π) :=
  pair.2.map fun departure =>
    (pair.1.ticket, departure.entry.placedAt pair.1.parameter pair.1.position)

theorem filter_arrivals (pairs : List (Request π × Option (Departure η π)))
    (ticket : PlacementTicket) :
    (pairs.filterMap arrival).filter (fun moved => moved.1 = ticket) =
      (pairs.filter fun pair => pair.1.ticket = ticket).filterMap arrival := by
  induction pairs with
  | nil => rfl
  | cons pair pairs ih =>
    obtain ⟨request, _ | departure⟩ := pair
    · by_cases same : request.ticket = ticket <;> simp [arrival, same] at ih ⊢ <;> exact ih
    · by_cases same : request.ticket = ticket <;> simp [arrival, same] at ih ⊢ <;> exact ih

/-- New content that was made for a request. -/
structure Request.FilledBy (request : Request π) (placed : PlacementTicket × Entry η π) : Prop where
  ticket : placed.1 = request.ticket
  descriptor : placed.2.descriptor = request.descriptor
  parameter : placed.2.parameter = request.parameter
  position : placed.2.position = request.position
  active : placed.2.active = true

/-- A claim hands out the first of a queue and lets the next one move up. -/
theorem Departures.waiting_claim {departures rest : Departures η π} {id : DescriptorId}
    {departure : Departure η π} (claimed : departures.claim id = some (departure, rest)) :
    (departures.waiting id).head? = some departure ∧
      rest.waiting = advance departures.waiting id := by
  obtain ⟨queue, split, rfl⟩ := claim_eq_some_iff.mp claimed
  refine ⟨by simp [split], funext fun other => ?_⟩
  by_cases same : other = id
  · subst same
    simp [split]
  · rw [waiting_replace_of_ne _ _ same, advance_of_ne _ same]

/-- What a claim hands out is what a request would get first. -/
theorem Pool.eq_of_first? {pool : Pool η π} {id : DescriptorId} {departure found : Departure η π}
    {rest : Departures η π} (first : pool.first? id = some departure)
    (taken : pool.departures.claim id = some (found, rest)) : departure = found :=
  Option.some.inj (first.symm.trans (Departures.waiting_claim taken).1)

namespace Pass

variable {filling : Filling} {pass next last : Pass η π} {handedOut : List (Departure η π)}

/-- A part of the matching: it answers some requests, in their order, first come, first served. -/
structure Served (filling : Filling) (pass : Pass η π) (answered : List (Request π))
    (handedOut : List (Departure η π)) (last : Pass η π) : Prop where
  requests : pass.requests = answered ++ last.requests
  waiting : last.pool.departures.waiting = unallotted pass.pool.departures.waiting answered
  moved : last.moved =
    pass.moved ++ (allot pass.pool.departures.waiting answered).filterMap arrival
  fresh : last.fresh =
    pass.fresh ++ filling.returned (unserved (allot pass.pool.departures.waiting answered))
  inserted : ∃ made, last.inserted = pass.inserted ++ made ∧
    List.Forall₂ Request.FilledBy
      (filling.filled (unserved (allot pass.pool.departures.waiting answered))) made
  pool : last.pool = { pass.pool with
    departures := last.pool.departures
    dispatcher := last.pool.dispatcher
    stats := { pass.pool.stats with
      moves := pass.pool.stats.moves + handedOut.length
      unmatchedPlacements := pass.pool.stats.unmatchedPlacements +
        (unserved (allot pass.pool.departures.waiting answered)).length } }
  departures : handedOut = (allot pass.pool.departures.waiting answered).filterMap Prod.snd

namespace Served

private theorem refl (filling : Filling) (pass : Pass η π) : Served filling pass [] [] pass where
  requests := rfl
  waiting := rfl
  moved := by simp [allot]
  fresh := by simp [allot]
  inserted := ⟨[], by simp [allot]⟩
  pool := rfl
  departures := rfl

private theorem trans {middle : Pass η π} {first second : List (Request π)}
    {early late : List (Departure η π)} (start : Served filling pass first early middle)
    (rest : Served filling middle second late last) :
    Served filling pass (first ++ second) (early ++ late) last := by
  have pairs : allot pass.pool.departures.waiting (first ++ second) =
      allot pass.pool.departures.waiting first ++ allot middle.pool.departures.waiting second := by
    rw [allot_append, start.waiting]
  obtain ⟨made, madeInserted, madeFills⟩ := start.inserted
  obtain ⟨more, moreInserted, moreFills⟩ := rest.inserted
  refine ⟨?_, ?_, ?_, ?_, ⟨made ++ more, ?_, ?_⟩, ?_, ?_⟩
  · rw [start.requests, rest.requests, List.append_assoc]
  · rw [rest.waiting, start.waiting, unallotted_append]
  · rw [rest.moved, start.moved, pairs, List.filterMap_append, List.append_assoc]
  · rw [rest.fresh, start.fresh, pairs, unserved_append, Filling.returned_append,
      List.append_assoc]
  · rw [moreInserted, madeInserted, List.append_assoc]
  · rw [pairs, unserved_append, Filling.filled_append]
    exact List.rel_append madeFills moreFills
  · rw [rest.pool, start.pool, pairs]
    simp [Nat.add_assoc]
  · rw [start.departures, rest.departures, pairs, List.filterMap_append]

/-- A matched request is served. -/
private theorem matched {request : Request π} {departure : Departure η π}
    (step : pass.step = .matched request departure.entry next)
    (first : pass.pool.first? request.descriptor = some departure) :
    Served filling pass [request] [departure] next := by
  obtain ⟨requests, found, departures, split, taken, -, rfl⟩ := of_step_eq_matched step
  cases Pool.eq_of_first? first taken
  obtain ⟨head, moved⟩ := Departures.waiting_claim taken
  have pairs : allot pass.pool.departures.waiting [request] = [(request, some departure)] := by
    simp [allot, head]
  exact {
    requests := split
    waiting := moved
    moved := by simp [pairs, arrival]
    fresh := by simp [pairs, unserved]
    inserted := ⟨[], by simp [pairs, unserved]⟩
    pool := by simp [pairs, unserved]
    departures := by simp [pairs] }

/-- A request that is handed back is served. -/
private theorem handedBack {request : Request π} (step : pass.step = .unmatched request next) :
    Served .handsBack pass [request] [] (next.handBack request) := by
  obtain ⟨requests, split, empty, rfl⟩ := of_step_eq_unmatched step
  have pairs := allot_singleton_of_eq_nil empty
  have queues := unallotted_singleton_of_eq_nil empty
  exact {
    requests := split
    waiting := queues.symm
    moved := by simp [pairs, arrival, handBack]
    fresh := by simp [pairs, unserved, handBack, Filling.returned]
    inserted := ⟨[], by simp [handBack, Filling.filled]⟩
    pool := by simp [pairs, unserved, handBack]
    departures := by simp [pairs] }

/-- A request that is filled with new content is served. -/
private theorem inserted_new {request : Request π} (step : pass.step = .unmatched request next)
    (handle : η) (objects : List ObjectId) :
    Served .inserts pass [request] [] (next.insert request handle objects) := by
  obtain ⟨requests, split, empty, rfl⟩ := of_step_eq_unmatched step
  have pairs := allot_singleton_of_eq_nil empty
  have queues := unallotted_singleton_of_eq_nil empty
  have fills : request.FilledBy (request.ticket,
      Entry.mk request.descriptor handle request.parameter request.position objects true) :=
    ⟨rfl, rfl, rfl, rfl, rfl⟩
  exact {
    requests := split
    waiting := queues.symm
    moved := by simp [pairs, arrival, insert]
    fresh := by simp [insert, Filling.returned]
    inserted := ⟨_, rfl, by simpa [pairs, unserved, Filling.filled] using fills⟩
    pool := by simp [pairs, unserved, insert, Pool.instantiate_snd]
    departures := by simp [pairs] }

end Served

namespace Advances

/-- Whatever the host does meanwhile, the matching serves the requests in their order. -/
theorem served (advances : pass.Advances filling handedOut last) :
    ∃ answered, Served filling pass answered handedOut last := by
  induction advances with
  | refl pass => exact ⟨[], .refl filling pass⟩
  | matched step first _ ih =>
    obtain ⟨answered, later⟩ := ih
    exact ⟨_, (Served.matched step first).trans later⟩
  | handedBack allowed step _ ih =>
    obtain ⟨answered, later⟩ := ih
    subst allowed
    exact ⟨_, (Served.handedBack step).trans later⟩
  | inserted handle objects allowed step _ ih =>
    obtain ⟨answered, later⟩ := ih
    subst allowed
    exact ⟨_, (Served.inserted_new step handle objects).trans later⟩

/-- A matching that has come to its end has served all that was deferred. -/
theorem served_all {pool : Pool η π} (advances : pool.endPass.Advances filling handedOut last)
    (complete : last.step = .settled) :
    Served filling pool.endPass pool.deferred handedOut last := by
  obtain ⟨answered, served⟩ := advances.served
  have none := of_step_eq_settled complete
  have all : pool.deferred = answered := by
    simpa [none, Pool.endPass] using served.requests
  exact all ▸ served

/-- The matching takes what it hands out from the index, and keeps the index well kept. -/
theorem takes (advances : pass.Advances filling handedOut last) {bound : Nat}
    (kept : pass.pool.departures.WellKept bound) :
    last.pool.departures.WellKept bound ∧
      pass.pool.departures.all.Perm (handedOut ++ last.pool.departures.all) := by
  induction advances with
  | refl pass => exact ⟨kept, .refl _⟩
  | @matched pass next last request departure handedOut step first _ ih =>
    obtain ⟨_, found, departures, -, taken, -, rfl⟩ := of_step_eq_matched step
    cases Pool.eq_of_first? first taken
    obtain ⟨keptLast, perm⟩ := ih (kept.claim taken)
    exact ⟨keptLast, (Departures.all_claim_perm kept.distinct taken).trans (perm.cons departure)⟩
  | handedBack _ step _ ih =>
    obtain ⟨_, -, -, rfl⟩ := of_step_eq_unmatched step
    exact ih kept
  | inserted _ _ _ step _ ih =>
    obtain ⟨_, -, -, rfl⟩ := of_step_eq_unmatched step
    exact ih kept

/-- What a matched request gets is the first departure of its descriptor. -/
theorem first_of_matched {request : Request π} {claimed : Entry η π}
    (step : pass.step = .matched request claimed next) :
    ∃ departure, pass.pool.first? request.descriptor = some departure ∧
      claimed = departure.entry ∧ next.requests.length < pass.requests.length := by
  obtain ⟨_, departure, _, split, taken, same, rfl⟩ := of_step_eq_matched step
  exact ⟨departure, (Departures.waiting_claim taken).1, same, by simp [split]⟩

/-- The matching comes to its end, if new content can be made where it is wanted. -/
theorem exists_settled (filling : Filling) (handle : η) (pass : Pass η π) :
    ∃ handedOut last, pass.Advances filling handedOut last ∧ last.step = .settled := by
  match step : pass.step with
  | .settled => exact ⟨[], pass, .refl pass, step⟩
  | .matched request claimed next =>
    obtain ⟨departure, first, rfl, fewer⟩ := first_of_matched step
    obtain ⟨handedOut, last, rest, settled⟩ := exists_settled filling handle next
    exact ⟨departure :: handedOut, last, .matched step first rest, settled⟩
  | .unmatched request next =>
    obtain ⟨requests, split, -, same⟩ := of_step_eq_unmatched step
    cases filling with
    | handsBack =>
      obtain ⟨handedOut, last, rest, settled⟩ :=
        exists_settled .handsBack handle (next.handBack request)
      exact ⟨handedOut, last, .handedBack rfl step rest, settled⟩
    | inserts =>
      obtain ⟨handedOut, last, rest, settled⟩ :=
        exists_settled .inserts handle (next.insert request handle [])
      exact ⟨handedOut, last, .inserted handle [] rfl step rest, settled⟩
termination_by pass.requests.length
decreasing_by
  · exact fewer
  · simp [same, handBack, split]
  · simp [same, insert, split]

end Advances

end Pass

namespace Ending

variable {filling : Filling} {pool : Pool η π}

/-- A pass can always be ended. -/
theorem exists_ending (filling : Filling) (handle : η) (pool : Pool η π) :
    Nonempty (Ending filling pool) := by
  obtain ⟨handedOut, settled, matching, complete⟩ :=
    Pass.Advances.exists_settled filling handle pool.endPass
  obtain ⟨drain, delivery, finished⟩ :=
    settled.disposeDepartures.pool.dispatcher.drain.exists_finished
  exact ⟨⟨settled, handedOut, drain, matching, complete, delivery, finished⟩⟩

/-- The end of a pass serves all that was deferred. -/
theorem served (ending : Ending filling pool) :
    Pass.Served filling pool.endPass pool.deferred ending.handedOut ending.settled :=
  ending.matching.served_all ending.complete

/-- The end of a pass leaves nothing that waits, and forgets nothing else. -/
theorem after_eq (ending : Ending filling pool) :
    ending.after = { pool with
      departures := {}
      deferred := []
      deferredDescriptors := []
      dispatcher := ending.settled.disposeDepartures.pool.dispatcher.drained
      stats := { pool.stats with
        passes := pool.stats.passes + 1
        moves := pool.stats.moves + ending.handedOut.length
        unmatchedPlacements := pool.stats.unmatchedPlacements +
          (unserved (allot pool.departures.waiting pool.deferred)).length
        disposed := pool.stats.disposed + ending.disposed.length } } := by
  have delivered := ending.delivery.dispatcher_eq ending.finished
  have counted : ending.disposed.length = ending.settled.pool.departures.size :=
    ending.settled.pool.departures.inReportOrder_perm.length_eq
  have served := ending.served.pool
  simp only [after, Pass.closedPool, Pass.disposeDepartures, Pool.disposeDepartures_eq,
    Pool.passNumber, delivered, counted]
  rw [served]
  rfl

/-- What the host is told of the pass is how the requests were served, and the handles of what
nobody took. -/
theorem outcome_eq (ending : Ending filling pool) :
    ending.outcome.moved =
        (allot pool.departures.waiting pool.deferred).filterMap arrival ∧
      ending.outcome.fresh =
        filling.returned (unserved (allot pool.departures.waiting pool.deferred)) ∧
      List.Forall₂ Request.FilledBy
        (filling.filled (unserved (allot pool.departures.waiting pool.deferred)))
        ending.outcome.inserted ∧
      ending.outcome.disposed = ending.disposed.map (·.entry.handle) := by
  obtain ⟨-, -, moved, fresh, ⟨made, inserted, fills⟩, -, -⟩ := ending.served
  refine ⟨moved, fresh, ?_, ?_⟩
  · have made_eq : ending.outcome.inserted = made := inserted
    exact made_eq ▸ fills
  · simp [outcome, Pass.outcome, Pool.leftovers, disposed]

end Ending

end LiveTree.Relocation
