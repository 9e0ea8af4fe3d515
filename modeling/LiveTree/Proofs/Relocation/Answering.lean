import LiveTree.Proofs.Relocation.Traffic

/-! Every request for a place is answered once. A request is answered at once, with content that
moves or with leave to insert new content, or it gets a ticket and is answered when the pass ends,
again in one of two ways. The books that are kept here are the calls on a pool with what each of
them returned; a pass that an observer breaks off answers nothing, but the requests that waited
for it are settled all the same. It is assumed that no new content fails while it is made. -/
namespace LiveTree.Relocation

open Lifecycle (ObjectId Drain State)
open scoped List

variable {η π : Type}

/-- A call on a pool, as far as places are concerned. -/
inductive Call (η π : Type) where
  | asked (place : Asked η π)
  | ended (filling : Filling) (outcome : PassOutcome η π)
  | brokenOff
  | other

/-- A pool takes a call. -/
inductive Pool.Takes : Pool η π → Call η π → Pool η π → Prop
  | place (pool : Pool η π) (descriptor : DescriptorId) (parameter : π)
      (position : Position.Hash) :
      Takes pool
        (.asked ⟨descriptor, parameter, position,
          (pool.requestPlacement descriptor parameter position).1⟩)
        (pool.requestPlacement descriptor parameter position).2
  | endPass {filling : Filling} {pool : Pool η π} (ending : Ending filling pool) :
      Takes pool (.ended filling ending.outcome) ending.after
  | observerPanicsInPass {filling : Filling} {pool : Pool η π} {settled : Pass η π}
      {handedOut : List (Departure η π)} {drain next : Drain} {object : ObjectId} {target : State}
      (matching : pool.endPass.Advances filling handedOut settled)
      (complete : settled.step = .settled)
      (delivery : settled.disposeDepartures.pool.dispatcher.drain.Proceeds drain)
      (attempt : drain.step = .attempt object target next) :
      Takes pool .brokenOff { settled.disposeDepartures.pool with dispatcher := next.dispatcher }
  | instantiate (pool : Pool η π) (descriptor : DescriptorId) (handle : η) (parameter : π)
      (position : Position.Hash) (objects : List ObjectId) :
      Takes pool .other (pool.instantiate descriptor handle parameter position objects).2
  | deactivate (pool : Pool η π) (entry : Entry η π) :
      Takes pool .other (pool.deactivate entry).2
  | report {pool after : Pool η π} {descriptor : DescriptorId} {entry : Entry η π}
      (accepted : pool.reportDeparture descriptor entry = .ok after) : Takes pool .other after
  | misreport {pool : Pool η π} {descriptor : DescriptorId} {entry : Entry η π}
      {misreport : Misreport} (refused : pool.reportDeparture descriptor entry = .error misreport) :
      Takes pool .other pool
  | claim {pool after : Pool η π} {id : DescriptorId} {entry : Entry η π}
      (answer : pool.claim id = some (entry, after)) : Takes pool .other after
  | claimNothing {pool : Pool η π} {id : DescriptorId} (answer : pool.claim id = none) :
      Takes pool .other pool
  | dispatch {pool : Pool η π} {drain : Drain} (delivery : pool.dispatcher.drain.Proceeds drain)
      (finished : drain.step = .finished) :
      Takes pool .other { pool with dispatcher := drain.dispatcher }
  | observerPanics {pool : Pool η π} {drain next : Drain} {object : ObjectId} {target : State}
      (delivery : pool.dispatcher.drain.Proceeds drain)
      (attempt : drain.step = .attempt object target next) :
      Takes pool .other { pool with dispatcher := next.dispatcher }
  | takeRetirements (pool : Pool η π) :
      Takes pool .other { pool with dispatcher := pool.dispatcher.takeRetirements.2 }

/-- The calls on a new pool. -/
inductive Pool.Calls (config : Settings.RelocationConfig) :
    List (Call η π) → Pool η π → Prop
  | created : Calls config [] { config }
  | next {calls : List (Call η π)} {call : Call η π} {pool after : Pool η π}
      (earlier : Calls config calls pool) (takes : pool.Takes call after) :
      Calls config (calls ++ [call]) after

/-- The ticket that an answer brings, if it brings one. -/
def Placement.ticket? : Placement η π → Option PlacementTicket
  | moved _ => none
  | insertNow request => some request.ticket
  | deferred ticket => some ticket

/-- The request that has to wait for the end of the pass, if the answer says so. -/
def Asked.deferral (place : Asked η π) : List (Request π) :=
  match place.answer with
  | .deferred ticket => [place.request ticket]
  | _ => []

/-- The places that were asked for. -/
def asked (calls : List (Call η π)) : List (Asked η π) :=
  calls.filterMap fun
    | .asked place => some place
    | _ => none

/-- The tickets that were issued, in the order of the requests. -/
def issued (calls : List (Call η π)) : List PlacementTicket :=
  (asked calls).filterMap fun place => place.answer.ticket?

/-- The requests that had to wait since the last pass ended or was broken off. -/
def deferredSince (calls : List (Call η π)) : List (Request π) :=
  calls.foldl
    (fun waiting call =>
      match call with
      | .asked place => waiting ++ place.deferral
      | .ended _ _ | .brokenOff => []
      | .other => waiting) []

/-- An answer that is given at once is about the place that was asked for. -/
def Asked.AnsweredAtOnce (place : Asked η π) : Prop :=
  match place.answer with
  | .moved entry => entry.descriptor = place.descriptor ∧ entry.parameter = place.parameter ∧
      entry.position = place.position
  | .insertNow request => request = place.request request.ticket
  | .deferred _ => True

/-- What it means that a pass answers these requests. -/
structure PassOutcome.Answers (outcome : PassOutcome η π) (filling : Filling)
    (requests : List (Request π)) : Prop where
  /-- The tickets in the outcome are those of the requests, -/
  tickets : outcome.moved.map Prod.fst ++ outcome.inserted.map Prod.fst ++
    outcome.fresh.map Request.ticket ~ requests.map Request.ticket
  /-- and each of them is there once. -/
  once : (outcome.moved.map Prod.fst ++ outcome.inserted.map Prod.fst ++
    outcome.fresh.map Request.ticket).Nodup
  /-- Each part of the outcome is in the order of the requests. -/
  movedInOrder : (outcome.moved.map Prod.fst).Pairwise (· < ·)
  insertedInOrder : (outcome.inserted.map Prod.fst).Pairwise (· < ·)
  freshInOrder : (outcome.fresh.map Request.ticket).Pairwise (· < ·)
  /-- Nothing is inserted where requests are handed back, and the other way round. -/
  noneInserted : filling = .handsBack → outcome.inserted = []
  noneFresh : filling = .inserts → outcome.fresh = []
  /-- What is returned is for the request with its ticket. -/
  movedOwn : ∀ placed ∈ outcome.moved, ∃ request ∈ requests, request.FilledBy placed
  insertedOwn : ∀ placed ∈ outcome.inserted, ∃ request ∈ requests, request.FilledBy placed
  freshOwn : outcome.fresh ⊆ requests

/-- What it means that a pool has answered every request once. -/
structure Pool.AnswersOnce (calls : List (Call η π)) (pool : Pool η π) : Prop where
  /-- Every request is counted in one way. -/
  balance : (asked calls).length = pool.stats.moves + pool.stats.immediateInserts +
    pool.stats.unmatchedPlacements + pool.pendingPlacements
  /-- Tickets are issued in increasing order, so no ticket is issued twice. -/
  inOrder : (issued calls).Pairwise (· < ·)
  distinct : (issued calls).Nodup
  /-- An answer at once is for its own request. -/
  atOnce : ∀ place ∈ asked calls, place.AnsweredAtOnce
  /-- A pass answers the requests that had to wait for it. -/
  passes : ∀ (before : List (Call η π)) (filling : Filling) (outcome : PassOutcome η π),
    before ++ [.ended filling outcome] <+: calls → outcome.Answers filling (deferredSince before)

section Books

variable (calls : List (Call η π))

private theorem asked_concat (call : Call η π) :
    asked (calls ++ [call]) = asked calls ++ asked [call] :=
  List.filterMap_append ..

private theorem issued_concat (call : Call η π) :
    issued (calls ++ [call]) = issued calls ++ issued [call] := by
  simp only [issued, asked_concat, List.filterMap_append]

@[simp]
theorem deferredSince_asked (place : Asked η π) :
    deferredSince (calls ++ [.asked place]) = deferredSince calls ++ place.deferral := by
  simp [deferredSince]

@[simp]
theorem deferredSince_ended (filling : Filling) (outcome : PassOutcome η π) :
    deferredSince (calls ++ [.ended filling outcome]) = [] := by
  simp [deferredSince]

@[simp]
theorem deferredSince_brokenOff : deferredSince (calls ++ [.brokenOff]) = [] := by
  simp [deferredSince]

@[simp]
theorem deferredSince_other : deferredSince (calls ++ [.other]) = deferredSince calls := by
  simp [deferredSince]

end Books

/-- Content that is made for requests has their tickets. -/
private theorem Request.map_fst_filled {requests : List (Request π)}
    {made : List (PlacementTicket × Entry η π)} (fills : List.Forall₂ FilledBy requests made) :
    made.map Prod.fst = requests.map ticket := by
  induction fills with
  | nil => rfl
  | cons first _ ih => rw [List.map_cons, List.map_cons, ih, first.ticket]

/-- Content that is made for requests is made for one of them. -/
private theorem Request.exists_filledBy {requests : List (Request π)}
    {made : List (PlacementTicket × Entry η π)} (fills : List.Forall₂ FilledBy requests made)
    {placed : PlacementTicket × Entry η π} (member : placed ∈ made) :
    ∃ request ∈ requests, request.FilledBy placed := by
  induction fills with
  | nil => cases member
  | cons first _ ih =>
    rcases List.mem_cons.mp member with rfl | later
    · exact ⟨_, List.mem_cons_self, first⟩
    · obtain ⟨request, asks, fills⟩ := ih later
      exact ⟨request, List.mem_cons_of_mem _ asks, fills⟩

/-- The tickets of what arrives are those of the requests that got something. -/
private theorem map_fst_arrivals (pairs : List (Request π × Option (Departure η π))) :
    (pairs.filterMap arrival).map Prod.fst =
      (pairs.filter fun pair => pair.2.isSome).map fun pair => pair.1.ticket := by
  induction pairs with
  | nil => rfl
  | cons pair pairs ih =>
    obtain ⟨request, _ | departure⟩ := pair
    · simp only [List.filterMap_cons, arrival, Option.map_none, Option.isSome_none, ih,
        Bool.false_eq_true, not_false_eq_true, List.filter_cons_of_neg]
    · simp only [List.filterMap_cons, arrival, Option.map_some, Option.isSome_some, ih,
        List.map_cons, List.filter_cons_of_pos]

private theorem map_ticket_unserved (pairs : List (Request π × Option (Departure η π))) :
    (unserved pairs).map Request.ticket =
      (pairs.filter fun pair => !pair.2.isSome).map fun pair => pair.1.ticket := by
  simp [unserved, Function.comp_def]

namespace Ending

variable {filling : Filling} {pool : Pool η π}

/-- The tickets of the places that got new content or were handed back are those of the requests
that no departure served. -/
private theorem unserved_tickets (ending : Ending filling pool) :
    ending.outcome.inserted.map Prod.fst ++ ending.outcome.fresh.map Request.ticket =
      (unserved (allot pool.departures.waiting pool.deferred)).map Request.ticket := by
  obtain ⟨-, fresh, inserted, -⟩ := ending.outcome_eq
  rw [Request.map_fst_filled inserted, fresh]
  cases filling with
  | handsBack => rfl
  | inserts => exact List.append_nil _

/-- The end of a pass answers the requests that waited, each once and for its own place. -/
private theorem answers (ending : Ending filling pool) (queued : pool.Queued)
    (kept : pool.departures.WellKept pool.nextDeparture) :
    ending.outcome.Answers filling pool.deferred := by
  obtain ⟨moved, fresh, inserted, -⟩ := ending.outcome_eq
  have unserved_eq := ending.unserved_tickets
  have pairs_fst := map_fst_allot pool.departures.waiting pool.deferred
  have left := unserved_allot_subset pool.departures.waiting pool.deferred
  generalize pairs_eq : allot pool.departures.waiting pool.deferred = pairs at *
  have tickets : (pairs.map fun pair => pair.1.ticket) = pool.deferred.map Request.ticket := by
    rw [← pairs_fst, List.map_map]
    rfl
  have ordered : (pairs.map fun pair => pair.1.ticket).Pairwise (· < ·) := by
    rw [tickets]
    exact List.pairwise_map.mpr queued.inOrder
  have some_fst : ending.outcome.moved.map Prod.fst = _ := moved ▸ map_fst_arrivals pairs
  have none_fst := map_ticket_unserved pairs
  have unservedInOrder : ((unserved pairs).map Request.ticket).Pairwise (· < ·) := by
    rw [none_fst]
    exact ordered.sublist (List.filter_sublist.map _)
  have parts := unserved_eq ▸ unservedInOrder
  have perm : ending.outcome.moved.map Prod.fst ++ ending.outcome.inserted.map Prod.fst ++
      ending.outcome.fresh.map Request.ticket ~ pool.deferred.map Request.ticket := by
    rw [List.append_assoc, unserved_eq, some_fst, none_fst, ← List.map_append, ← tickets]
    exact (List.filter_append_perm _ pairs).map _
  constructor
  case tickets => exact perm
  case once =>
    rw [perm.nodup_iff, ← tickets]
    exact ordered.imp Nat.ne_of_lt
  case movedInOrder =>
    rw [some_fst]
    exact ordered.sublist (List.filter_sublist.map _)
  case insertedInOrder => exact (List.pairwise_append.mp parts).1
  case freshInOrder => exact (List.pairwise_append.mp parts).2.1
  case noneInserted =>
    rintro rfl
    exact List.forall₂_nil_left_iff.mp inserted
  case noneFresh =>
    rintro rfl
    exact fresh
  case movedOwn =>
    intro placed arrives
    rw [moved] at arrives
    obtain ⟨⟨request, _ | departure⟩, paired, arrived⟩ := List.mem_filterMap.mp arrives
    · cases arrived
    · cases arrived
      have asks : request ∈ pool.deferred := by
        rw [← pairs_fst]
        exact List.mem_map.mpr ⟨_, paired, rfl⟩
      have waits := mem_of_mem_allot (pairs_eq ▸ paired)
      exact ⟨request, asks, rfl, kept.own _ _ waits, rfl, rfl, rfl⟩
  case insertedOwn =>
    intro placed made
    obtain ⟨request, filled, fills⟩ := Request.exists_filledBy inserted made
    exact ⟨request, left (filling.filled_subset _ filled), fills⟩
  case freshOwn =>
    rw [fresh]
    exact fun request back => left (filling.returned_subset _ back)

end Ending

namespace Pool

variable {pool after : Pool η π} {calls : List (Call η π)} {call : Call η π}
  {config : Settings.RelocationConfig}

/-- Every call is a call in the life of the pool. -/
private theorem Takes.exchange (takes : pool.Takes call after) :
    ∃ transfers, pool.Exchange transfers after := by
  cases takes with
  | place _ descriptor parameter position =>
    obtain ⟨transfers, exchange, -⟩ := pool.serve_exchange (.place descriptor parameter position)
    exact ⟨transfers, exchange⟩
  | endPass ending => exact ⟨_, .endPass ending⟩
  | observerPanicsInPass matching complete delivery attempt =>
    exact ⟨_, .observerPanicsInPass matching complete delivery attempt⟩
  | instantiate _ descriptor handle parameter position objects =>
    exact ⟨_, .instantiate _ descriptor handle parameter position objects⟩
  | deactivate _ entry => exact ⟨_, .deactivate _ entry⟩
  | report accepted => exact ⟨_, .report accepted⟩
  | misreport refused => exact ⟨_, .misreport refused⟩
  | claim answer =>
    obtain ⟨departure, departures, taken, rfl, rfl⟩ := claim_eq_some_iff.mp answer
    exact ⟨_, .claim answer (Departures.waiting_claim taken).1⟩
  | claimNothing answer => exact ⟨_, .claimNothing answer⟩
  | dispatch delivery finished => exact ⟨_, .dispatch delivery finished⟩
  | observerPanics delivery attempt => exact ⟨_, .observerPanics delivery attempt⟩
  | takeRetirements => exact ⟨_, .takeRetirements pool⟩

private theorem Calls.run (made : Calls config calls pool) :
    ∃ transfers, Run config transfers pool := by
  induction made with
  | created => exact ⟨[], .created⟩
  | next _ takes ih =>
    obtain ⟨transfers, run⟩ := ih
    obtain ⟨more, exchange⟩ := takes.exchange
    exact ⟨transfers ++ more, run.next exchange⟩

/-- How the requests stand after some calls: each is counted in one way, and those that wait are
the ones that had to wait since the last end of a pass. -/
structure Tallied (calls : List (Call η π)) (pool : Pool η π) : Prop where
  waiting : pool.deferred = deferredSince calls
  balance : (asked calls).length = pool.stats.moves + pool.stats.immediateInserts +
    pool.stats.unmatchedPlacements + pool.deferred.length
  inOrder : (issued calls).Pairwise (· < ·)
  bound : ∀ ticket ∈ issued calls, ticket < pool.nextTicket

namespace Tallied

/-- A call that is not about places leaves the tally as it is. -/
private theorem still (tallied : Tallied calls pool) (deferred : after.deferred = pool.deferred)
    (nextTicket : after.nextTicket = pool.nextTicket)
    (moves : after.stats.moves = pool.stats.moves)
    (immediateInserts : after.stats.immediateInserts = pool.stats.immediateInserts)
    (unmatched : after.stats.unmatchedPlacements = pool.stats.unmatchedPlacements) :
    Tallied (calls ++ [.other]) after := by
  obtain ⟨waiting, balance, inOrder, bound⟩ := tallied
  constructor
  case waiting => rw [deferred, deferredSince_other, waiting]
  case balance =>
    rw [deferred, moves, immediateInserts, unmatched, ← balance, asked_concat]
    exact congrArg List.length (List.append_nil _)
  case inOrder =>
    rw [issued_concat]
    exact (List.append_nil _).symm ▸ inOrder
  case bound =>
    rw [issued_concat, nextTicket]
    exact (List.append_nil _).symm ▸ bound

/-- A matching that has come to its end counts every request that waited. -/
private theorem matched (tallied : Tallied calls pool) {filling : Filling} {settled : Pass η π}
    {handedOut : List (Departure η π)}
    (matching : pool.endPass.Advances filling handedOut settled)
    (complete : settled.step = .settled) (ends : deferredSince (calls ++ [call]) = [])
    (nothingAsked : asked [call] = [])
    (deferred : after.deferred = settled.pool.deferred)
    (nextTicket : after.nextTicket = settled.pool.nextTicket)
    (moves : after.stats.moves = settled.pool.stats.moves)
    (immediateInserts : after.stats.immediateInserts = settled.pool.stats.immediateInserts)
    (unmatched : after.stats.unmatchedPlacements = settled.pool.stats.unmatchedPlacements) :
    Tallied (calls ++ [call]) after := by
  obtain ⟨waiting, balance, inOrder, bound⟩ := tallied
  have served := matching.served_all complete
  have counted := length_allot pool.departures.waiting pool.deferred
  have nothingIssued : issued [call] = [] := by rw [issued, nothingAsked, List.filterMap_nil]
  rw [served.pool] at deferred nextTicket moves immediateInserts unmatched
  constructor
  case waiting => rw [ends, deferred]; rfl
  case balance =>
    rw [asked_concat, nothingAsked, List.append_nil, balance, deferred, moves, immediateInserts,
      unmatched, served.departures]
    simp only [endPass, List.length_nil]
    omega
  case inOrder =>
    rw [issued_concat, nothingIssued, List.append_nil]
    exact inOrder
  case bound =>
    rw [issued_concat, nothingIssued, List.append_nil, nextTicket]
    exact bound

/-- A ticket that is issued comes after all earlier ones. -/
private theorem issue (tallied : Tallied calls pool) (place : Asked η π)
    (issues : place.answer.ticket? = some pool.nextTicket) :
    (issued (calls ++ [.asked place])).Pairwise (· < ·) ∧
      ∀ ticket ∈ issued (calls ++ [.asked place]), ticket < pool.nextTicket + 1 := by
  have one : issued [Call.asked place] = [pool.nextTicket] := by
    simp [issued, asked, issues]
  rw [issued_concat, one]
  constructor
  · refine List.pairwise_append.mpr ⟨tallied.inOrder, List.pairwise_singleton _ _, ?_⟩
    intro ticket earlier latest isLatest
    rw [List.mem_singleton.mp isLatest]
    exact tallied.bound ticket earlier
  · intro ticket inside
    rcases List.mem_append.mp inside with earlier | isLatest
    · exact Nat.lt_succ_of_lt (tallied.bound ticket earlier)
    · rw [List.mem_singleton.mp isLatest]
      exact Nat.lt_succ_self _

/-- Any answer to a request is tallied. -/
private theorem place (tallied : Tallied calls pool) (descriptor : DescriptorId) (parameter : π)
    (position : Position.Hash) :
    Tallied
      (calls ++ [.asked ⟨descriptor, parameter, position,
        (pool.requestPlacement descriptor parameter position).1⟩])
      (pool.requestPlacement descriptor parameter position).2 := by
  have more (place : Asked η π) : (asked (calls ++ [.asked place])).length =
      (asked calls).length + 1 := by
    rw [asked_concat, List.length_append]
    rfl
  rcases pool.requestPlacement_cases descriptor parameter position with
    ⟨departure, departures, -, -, same⟩ | ⟨-, -, -, same⟩ | ⟨-, -, same⟩ <;> rw [same]
  case inl =>
    have noTicket : issued [Call.asked ⟨descriptor, parameter, position,
        Placement.moved (departure.entry.placedAt parameter position)⟩] = [] := rfl
    constructor
    case waiting =>
      rw [deferredSince_asked, ← tallied.waiting]
      exact (List.append_nil _).symm
    case balance =>
      rw [more, tallied.balance]
      dsimp only
      omega
    case inOrder =>
      rw [issued_concat, noTicket, List.append_nil]
      exact tallied.inOrder
    case bound =>
      rw [issued_concat, noTicket, List.append_nil]
      exact tallied.bound
  case inr.inl =>
    obtain ⟨inOrder, bound⟩ := tallied.issue ⟨descriptor, parameter, position,
      .insertNow (pool.nextRequest descriptor parameter position)⟩ rfl
    refine ⟨?_, ?_, inOrder, bound⟩
    · rw [deferredSince_asked, ← tallied.waiting]
      exact (List.append_nil _).symm
    · rw [more, tallied.balance]
      dsimp only
      omega
  case inr.inr =>
    obtain ⟨inOrder, bound⟩ := tallied.issue ⟨descriptor, parameter, position,
      .deferred pool.nextTicket⟩ rfl
    refine ⟨?_, ?_, inOrder, bound⟩
    · rw [deferredSince_asked, ← tallied.waiting]
      rfl
    · rw [more, tallied.balance, List.length_append]
      rfl

/-- Every call keeps the tally. -/
private theorem takes (tallied : Tallied calls pool) (takes : pool.Takes call after) :
    Tallied (calls ++ [call]) after := by
  cases takes with
  | place _ descriptor parameter position => exact tallied.place descriptor parameter position
  | endPass ending =>
    apply tallied.matched ending.matching ending.complete (deferredSince_ended ..) rfl <;>
      simp only [Ending.after, Pass.closedPool, Pass.disposeDepartures, disposeDepartures_eq]
  | observerPanicsInPass matching complete =>
    apply tallied.matched matching complete (deferredSince_brokenOff _) rfl <;>
      simp only [Pass.disposeDepartures, disposeDepartures_eq]
  | instantiate => exact tallied.still rfl rfl rfl rfl rfl
  | deactivate _ entry =>
    rw [deactivate_snd]
    exact tallied.still rfl rfl rfl rfl rfl
  | report accepted =>
    obtain ⟨-, rfl⟩ := reportDeparture_eq_ok_iff.mp accepted
    exact tallied.still rfl rfl rfl rfl rfl
  | misreport => exact tallied.still rfl rfl rfl rfl rfl
  | claim answer =>
    obtain ⟨_, _, -, -, rfl⟩ := claim_eq_some_iff.mp answer
    exact tallied.still rfl rfl rfl rfl rfl
  | claimNothing => exact tallied.still rfl rfl rfl rfl rfl
  | dispatch => exact tallied.still rfl rfl rfl rfl rfl
  | observerPanics => exact tallied.still rfl rfl rfl rfl rfl
  | takeRetirements => exact tallied.still rfl rfl rfl rfl rfl

end Tallied

private theorem Calls.tallied (made : Calls config calls pool) : Tallied calls pool := by
  induction made with
  | created => exact ⟨rfl, rfl, .nil, nofun⟩
  | next _ takes ih => exact ih.takes takes

/-- A place that is answered at once is answered for itself. -/
private theorem answeredAtOnce (kept : pool.departures.WellKept pool.nextDeparture)
    (descriptor : DescriptorId) (parameter : π) (position : Position.Hash) :
    Asked.AnsweredAtOnce ⟨descriptor, parameter, position,
      (pool.requestPlacement descriptor parameter position).1⟩ := by
  rcases pool.requestPlacement_cases descriptor parameter position with
    ⟨departure, departures, -, taken, same⟩ | ⟨-, -, -, same⟩ | ⟨-, -, same⟩
  · have waits := List.mem_of_mem_head? (Departures.waiting_claim taken).1
    simp only [same, Asked.AnsweredAtOnce]
    exact ⟨kept.own _ _ waits, rfl, rfl⟩
  · simp only [same, Asked.AnsweredAtOnce]
    rfl
  · simp only [same, Asked.AnsweredAtOnce]

private theorem Calls.answeredAtOnce (made : Calls config calls pool) :
    ∀ place ∈ asked calls, place.AnsweredAtOnce := by
  induction made with
  | created => nofun
  | next earlier takes ih =>
    obtain ⟨_, run⟩ := earlier.run
    rw [asked_concat]
    intro place inside
    rcases List.mem_append.mp inside with before | now
    · exact ih place before
    · cases takes with
      | place _ descriptor parameter position =>
        rw [List.mem_singleton.mp now]
        exact Pool.answeredAtOnce run.turnover.kept descriptor parameter position
      | _ => cases now

private theorem Calls.passes (made : Calls config calls pool) (before : List (Call η π))
    (filling : Filling) (outcome : PassOutcome η π)
    (part : before ++ [.ended filling outcome] <+: calls) :
    outcome.Answers filling (deferredSince before) := by
  induction made with
  | created => exact absurd (List.prefix_nil.mp part) (by simp)
  | next earlier takes ih =>
    rcases List.prefix_concat_iff.mp part with now | early
    · obtain ⟨rfl, same⟩ := List.append_inj' now rfl
      cases same
      cases takes with
      | endPass ending =>
        obtain ⟨_, run⟩ := earlier.run
        rw [← earlier.tallied.waiting]
        exact ending.answers run.queued run.turnover.kept
    · exact ih early

/-- Whatever is called on a pool, and whichever observers panic meanwhile, every request for a
place is answered exactly once, and for its own place. -/
theorem calls_answer_once (made : Calls config calls pool) : pool.AnswersOnce calls where
  balance := made.tallied.balance
  inOrder := made.tallied.inOrder
  distinct := made.tallied.inOrder.imp Nat.ne_of_lt
  atOnce := made.answeredAtOnce
  passes := made.passes

/-- Four requests, answered in each of the four ways: new content at once, a move at once, a move
at the end of the pass, and none. -/
theorem calls_answer_once_each_way :
    ∃ (calls : List (Call Unit Unit)) (pool : Pool Unit Unit),
      (asked calls).length = 4 ∧ issued calls = [0, 1, 2] ∧ pool.stats.immediateInserts = 1 ∧
        pool.stats.moves = 2 ∧ pool.stats.unmatchedPlacements = 1 ∧ pool.AnswersOnce calls := by
  have insertsNow := Calls.created.next (Takes.place ({} : Pool Unit Unit) ⟨7⟩ () ⟨1⟩)
  have reported := insertsNow.next
    (@Takes.report Unit Unit _ _ ⟨7⟩ ⟨⟨7⟩, (), (), ⟨0⟩, [], true⟩ rfl)
  have moves := reported.next (Takes.place _ ⟨7⟩ () ⟨2⟩)
  have waits := moves.next (Takes.place _ ⟨7⟩ () ⟨3⟩)
  have waitsToo := waits.next (Takes.place _ ⟨7⟩ () ⟨4⟩)
  have late := waitsToo.next (@Takes.report Unit Unit _ _ ⟨7⟩ ⟨⟨7⟩, (), (), ⟨0⟩, [], true⟩ rfl)
  obtain ⟨ending⟩ := Ending.exists_ending .handsBack () _
  have ends := late.next (.endPass ending)
  refine ⟨_, _, rfl, rfl, ?_, ?_, ?_, calls_answer_once ends⟩
  · simp only [ending.after_eq]
    decide +kernel
  · simp only [ending.after_eq, ending.served.departures]
    decide +kernel
  · simp only [ending.after_eq]
    decide +kernel

end Pool

end LiveTree.Relocation
