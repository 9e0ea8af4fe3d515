import LiveTree.Proofs.Relocation.Traffic

/-! First come, first served, across a whole pass. A place gets its content at once, or behind an
earlier place that waits, or only when the pass ends; on all three paths the n-th place of a
descriptor gets the n-th departure of it. While a pass goes on, the places of a descriptor split
into those that were served and those that wait, and its departures into those that were taken and
those that wait, so that the served places and the taken departures correspond. -/
namespace LiveTree.Relocation

variable {η π : Type} {filling : Filling} {id : DescriptorId}

/-- The departures of a descriptor. -/
def departuresFor (departures : List (Departure η π)) (id : DescriptorId) :
    List (Departure η π) :=
  departures.filter fun departure => departure.entry.descriptor = id

/-- The places of a descriptor, without those that are filled with new content at once. -/
def placesFor (asked : List (Asked η π)) (id : DescriptorId) : List (Asked η π) :=
  asked.filter fun place => place.descriptor = id ∧ place.answer.insertsNow = false

/-- Where no place of a descriptor is filled at once, all its places want content. -/
theorem placesFor_eq_filter {asked : List (Asked η π)}
    (want : ∀ place ∈ asked, place.descriptor = id → place.answer.insertsNow = false) :
    placesFor asked id = asked.filter fun place => place.descriptor = id := by
  apply List.filter_congr
  intro place member
  by_cases ours : place.descriptor = id
  · simp [ours, want place member ours]
  · simp [ours]

/-- Content came to a place: at once, or under the ticket of the place when the pass ended. -/
def Asked.Received (place : Asked η π) (outcome : PassOutcome η π) (entry : Entry η π) : Prop :=
  place.answer = .moved entry ∨
    ∃ ticket, place.answer = .deferred ticket ∧
      outcome.moved.filter (fun moved => moved.1 = ticket) = [(ticket, entry)]

/-- Nothing came to a place, and the pass hands it back or has filled it anew, under its ticket. -/
def Asked.Unmatched (filling : Filling) (place : Asked η π) (outcome : PassOutcome η π) : Prop :=
  ∃ ticket, place.answer = .deferred ticket ∧
    outcome.moved.filter (fun moved => moved.1 = ticket) = [] ∧
    match filling with
    | .handsBack =>
      outcome.fresh.filter (fun request => request.ticket = ticket) = [place.request ticket]
    | .inserts => ∃ made,
      outcome.inserted.filter (fun inserted => inserted.1 = ticket) = [(ticket, made)] ∧
        (place.request ticket).FilledBy (ticket, made)

namespace Asked

variable {place : Asked η π} {outcome : PassOutcome η π} {entry other : Entry η π}

/-- At most one content comes to a place. -/
private theorem Received.unique (received : place.Received outcome entry)
    (also : place.Received outcome other) : entry = other := by
  rcases received with now | ⟨ticket, later, found⟩ <;>
    rcases also with alsoNow | ⟨sameTicket, alsoLater, alsoFound⟩
  · exact Placement.moved.inj (now.symm.trans alsoNow)
  · cases now.symm.trans alsoLater
  · cases later.symm.trans alsoNow
  · cases Placement.deferred.inj (later.symm.trans alsoLater)
    cases found.symm.trans alsoFound
    rfl

theorem Unmatched.not_received (unmatched : place.Unmatched filling outcome) :
    ¬ place.Received outcome entry := by
  obtain ⟨ticket, later, nothing, -⟩ := unmatched
  rintro (now | ⟨sameTicket, alsoLater, found⟩)
  · cases later.symm.trans now
  · cases Placement.deferred.inj (later.symm.trans alsoLater)
    cases nothing.symm.trans found

theorem not_received_of_insertsNow (inserts : place.answer.insertsNow = true) :
    ¬ place.Received outcome entry := by
  rintro (now | ⟨ticket, later, -⟩)
  · rw [now] at inserts
    cases inserts
  · rw [later] at inserts
    cases inserts

end Asked

/-- A departure waits for its own descriptor, behind the earlier ones, and for no other. -/
private theorem Departures.waiting_add (departures : Departures η π) (departure : Departure η π)
    (id : DescriptorId) :
    (departures.add departure).waiting id =
      departures.waiting id ++ departuresFor [departure] id := by
  by_cases own : departure.entry.descriptor = id
  · subst own
    simp [departuresFor]
  · simp [departuresFor, own, departures.waiting_add_of_ne departure (Ne.symm own)]

/-- How the places and departures of a descriptor correspond while a pass goes on. -/
def Paired (id : DescriptorId) (departed : List (Departure η π)) (places : List (Asked η π))
    (pool : Pool η π) : Prop :=
  ∃ served waiting taken,
    places = served ++ waiting ∧ departed = taken ++ pool.departures.waiting id ∧
    List.Forall₂ (fun place departure =>
      place.answer = .moved (departure.entry.placedAt place.parameter place.position))
      served taken ∧
    List.Forall₂ (fun place request =>
      place.answer = .deferred request.ticket ∧ place.request request.ticket = request)
      waiting (requestsFor pool.deferred id)

namespace Paired

variable {pool : Pool η π} {departed : List (Departure η π)} {places : List (Asked η π)}

/-- When no place waits, only departures can. -/
private theorem start (idle : pool.deferred = []) :
    Paired id (pool.departures.waiting id) [] pool :=
  ⟨[], [], [], rfl, rfl, .nil, by rw [idle]; exact .nil⟩

/-- A departure waits behind those before it. -/
private theorem depart (paired : Paired id departed places pool) (descriptor : DescriptorId)
    (entry : Entry η π) :
    Paired id
      (departed ++ departuresFor (arrivals pool.nextDeparture [.depart descriptor entry]) id)
      places (pool.serve (.depart descriptor entry)).2 := by
  obtain ⟨served, waiting, taken, split, splitDeparted, pairs, waits⟩ := paired
  rcases pool.serve_depart descriptor entry with
    ⟨own, after, accepted, same⟩ | ⟨foreign, -, same⟩
  · obtain ⟨-, rfl⟩ := Pool.reportDeparture_eq_ok_iff.mp accepted
    rw [same]
    have arrived : arrivals pool.nextDeparture [.depart descriptor entry] =
        [⟨pool.nextDeparture, entry⟩] := by
      simp [arrivals, own]
    refine ⟨served, waiting, taken, split, ?_, pairs, waits⟩
    rw [splitDeparted, arrived, pool.departures.waiting_add, List.append_assoc]
  · rw [same]
    exact ⟨served, waiting, taken, split, by simp [departuresFor, arrivals, foreign, splitDeparted],
      pairs, waits⟩

/-- A place takes the first departure that waits, or it waits behind the places before it. -/
private theorem place (paired : Paired id departed places pool) (queued : pool.Queued)
    (descriptor : DescriptorId) (parameter : π) (position : Position.Hash) :
    Paired id departed
      (places ++ placesFor (pool.serve (.place descriptor parameter position)).1 id)
      (pool.serve (.place descriptor parameter position)).2 := by
  obtain ⟨served, waiting, taken, rfl, rfl, pairs, waits⟩ := paired
  simp only [Pool.serve]
  rcases pool.requestPlacement_cases descriptor parameter position with
    ⟨departure, departures, free, claimed, same⟩ | ⟨-, -, -, same⟩ | ⟨-, -, same⟩
  · obtain ⟨first, left⟩ := Departures.waiting_claim claimed
    rw [same]
    by_cases ours : descriptor = id
    · subst ours
      -- Nothing waits for the descriptor, so the place is the first that is not served.
      have noneWait : requestsFor pool.deferred descriptor = [] := by
        by_contra some
        rw [(queued.awaited descriptor).mpr some] at free
        cases free
      rw [noneWait] at waits
      cases waits
      have split : pool.departures.waiting descriptor =
          departure :: departures.waiting descriptor := by
        rw [left, advance_self]
        exact List.eq_cons_of_mem_head? first
      have moved : (Asked.mk descriptor parameter position
          (.moved (departure.entry.placedAt parameter position))).answer =
            .moved (departure.entry.placedAt parameter position) := rfl
      refine ⟨_, [], taken ++ [departure], ?_, ?_,
        List.rel_append pairs (.cons moved .nil), ?_⟩
      · simp [placesFor, Placement.insertsNow]
      · simp [split]
      · rw [noneWait]
        exact .nil
    · refine ⟨served, waiting, taken, by simp [placesFor, ours], ?_, pairs, waits⟩
      rw [left, advance_of_ne _ (Ne.symm ours)]
  · rw [same]
    exact ⟨served, waiting, taken, by simp [placesFor, Placement.insertsNow], rfl, pairs, waits⟩
  · rw [same]
    by_cases ours : descriptor = id
    · subst ours
      let asked : Asked η π := ⟨descriptor, parameter, position, .deferred pool.nextTicket⟩
      let request := pool.nextRequest descriptor parameter position
      have here : requestsFor [request] descriptor = [request] := by
        simp [requestsFor, request, Pool.nextRequest]
      have deferred : asked.answer = .deferred request.ticket ∧
          asked.request request.ticket = request := ⟨rfl, rfl⟩
      refine ⟨served, waiting ++ [asked], taken, ?_, rfl, pairs, ?_⟩
      · simp [placesFor, Placement.insertsNow, asked]
      · rw [requestsFor_append, here]
        exact List.rel_append waits (.cons deferred .nil)
    · have elsewhere : requestsFor [pool.nextRequest descriptor parameter position] id = [] := by
        simp [requestsFor, Pool.nextRequest, ours]
      refine ⟨served, waiting, taken, by simp [placesFor, ours], rfl, pairs, ?_⟩
      rw [requestsFor_append, elsewhere, List.append_nil]
      exact waits

/-- Whatever the traffic, the places and departures of a descriptor correspond. -/
private theorem serveAll {config : Settings.RelocationConfig} {transfers : List (Transfer η π)}
    (paired : Paired id departed places pool) (run : Pool.Run config transfers pool)
    (traffic : List (Traffic η π)) :
    Paired id (departed ++ departuresFor (arrivals pool.nextDeparture traffic) id)
      (places ++ placesFor (pool.serveAll traffic).1 id) (pool.serveAll traffic).2 := by
  induction traffic generalizing pool departed places transfers with
  | nil => simpa [arrivals, Pool.serveAll, departuresFor, placesFor] using paired
  | cons call calls ih =>
    obtain ⟨more, next, -, counted⟩ := run.serve call
    have step : Paired id (departed ++ departuresFor (arrivals pool.nextDeparture [call]) id)
        (places ++ placesFor (pool.serve call).1 id) (pool.serve call).2 := by
      cases call with
      | depart descriptor entry =>
        simpa [Pool.fst_serve_depart, placesFor] using paired.depart descriptor entry
      | place descriptor parameter position =>
        simpa [arrivals, departuresFor] using paired.place run.queued descriptor parameter position
    have rest := ih step next
    have arrived := Pool.arrivals_append pool.nextDeparture [call] calls
    rw [List.singleton_append, ← counted] at arrived
    rw [arrived]
    simpa [departuresFor, placesFor, Pool.serveAll] using rest

/-- The n-th place was served with the n-th departure, or it waits, and the end of the pass
allots it the n-th departure if there is one. -/
private theorem at_index (paired : Paired id departed places pool) {n : Nat} {place : Asked η π}
    (asked : places[n]? = some place) :
    (∃ departure, departed[n]? = some departure ∧
      place.answer = .moved (departure.entry.placedAt place.parameter place.position)) ∨
    ∃ request, place.answer = .deferred request.ticket ∧ place.request request.ticket = request ∧
      (request, departed[n]?) ∈ allot pool.departures.waiting pool.deferred := by
  obtain ⟨served, waiting, taken, rfl, rfl, pairs, waits⟩ := paired
  have sameLength := pairs.length_eq
  by_cases early : n < served.length
  · have early' : n < taken.length := sameLength ▸ early
    rw [List.getElem?_append_left early] at asked
    refine .inl ⟨taken[n], by simp [List.getElem?_append_left early'], ?_⟩
    have related := pairs.get early early'
    rw [List.getElem?_eq_getElem early] at asked
    cases asked
    exact related
  · obtain ⟨k, rfl⟩ := Nat.exists_eq_add_of_le (Nat.le_of_not_lt early)
    rw [List.getElem?_append_right (by omega), Nat.add_sub_cancel_left] at asked
    obtain ⟨within, rfl⟩ := List.getElem?_eq_some_iff.mp asked
    have within' : k < (requestsFor pool.deferred id).length := waits.length_eq ▸ within
    obtain ⟨answer, same⟩ := waits.get within within'
    refine .inr ⟨(requestsFor pool.deferred id)[k], answer, same, ?_⟩
    rw [List.getElem?_append_right (by omega), ← sameLength, Nat.add_sub_cancel_left]
    exact mem_allot_of_getElem? (List.getElem?_eq_getElem within')

/-- The n-th place receives the n-th departure. -/
theorem received (paired : Paired id departed places pool) (queued : pool.Queued)
    (ending : Ending filling pool) {n : Nat} {place : Asked η π} {departure : Departure η π}
    (asked : places[n]? = some place) (departs : departed[n]? = some departure) :
    place.Received ending.outcome (departure.entry.placedAt place.parameter place.position) := by
  rcases paired.at_index asked with ⟨found, there, answer⟩ | ⟨request, answer, same, allotted⟩
  · cases Option.some.inj (departs.symm.trans there)
    exact .inl answer
  · refine .inr ⟨request.ticket, answer, ?_⟩
    have alone := filter_ticket_allot queued.inOrder allotted
    rw [ending.outcome_eq.1, filter_arrivals, alone, departs, ← same]
    rfl

/-- A place behind the last departure comes back. -/
theorem unmatched (paired : Paired id departed places pool) (queued : pool.Queued)
    (ending : Ending filling pool) {n : Nat} {place : Asked η π}
    (asked : places[n]? = some place) (behind : departed.length ≤ n) :
    place.Unmatched filling ending.outcome := by
  have departs : departed[n]? = none := List.getElem?_eq_none behind
  rcases paired.at_index asked with ⟨found, there, -⟩ | ⟨request, answer, same, allotted⟩
  · rw [departs] at there
    cases there
  · have alone := filter_ticket_allot queued.inOrder allotted
    obtain ⟨moved, fresh, inserted, -⟩ := ending.outcome_eq
    refine ⟨request.ticket, answer, ?_, ?_⟩
    · rw [moved, filter_arrivals, alone, departs]
      rfl
    · rw [departs] at alone
      cases filling with
      | handsBack =>
        rw [fresh, Filling.filter_returned, filter_unserved, alone, same]
        rfl
      | inserts =>
        have sameTicket : ∀ ⦃asked : Request π⦄ ⦃placed : PlacementTicket × Entry η π⦄,
            asked.FilledBy placed →
              (decide (asked.ticket = request.ticket) = true ↔
                decide (placed.1 = request.ticket) = true) :=
          fun _ _ fills => by rw [fills.ticket]
        have filled := List.rel_filter sameTicket inserted
        rw [Filling.filter_filled, filter_unserved, alone] at filled
        obtain ⟨made, rest, fills, ends, split⟩ := List.forall₂_cons_left_iff.mp filled
        rw [List.forall₂_nil_left_iff.mp ends] at split
        have made_eq : made = (request.ticket, made.2) := by rw [← fills.ticket]
        exact ⟨made.2, by rw [split, ← made_eq], by rw [same, ← made_eq]; exact fills⟩

/-- What a place receives is the departure of its number, if there is one. -/
theorem received_iff (paired : Paired id departed places pool) (queued : pool.Queued)
    (ending : Ending filling pool) {n : Nat} {place : Asked η π} {entry : Entry η π}
    (asked : places[n]? = some place) :
    place.Received ending.outcome entry ↔ ∃ departure, departed[n]? = some departure ∧
      entry = departure.entry.placedAt place.parameter place.position := by
  cases departs : departed[n]? with
  | none =>
    have back := paired.unmatched queued ending asked (List.getElem?_eq_none_iff.mp departs)
    simp [back.not_received]
  | some departure =>
    have comes := paired.received queued ending asked departs
    refine ⟨fun received => ⟨departure, rfl, received.unique comes⟩, ?_⟩
    rintro ⟨_, ⟨⟩, rfl⟩
    exact comes

/-- What no place reached is left over. -/
theorem left (paired : Paired id departed places pool) (ending : Ending filling pool) :
    ending.settled.pool.departures.waiting id = departed.drop places.length := by
  obtain ⟨served, waiting, taken, rfl, rfl, pairs, waits⟩ := paired
  have passed : (served ++ waiting).length =
      taken.length + (requestsFor pool.deferred id).length := by
    rw [List.length_append, pairs.length_eq, waits.length_eq]
  rw [passed, List.drop_length_add_append, ending.served.waiting, unallotted_eq_drop]
  rfl

/-- What no place reached is disposed. -/
private theorem disposed (paired : Paired id departed places pool)
    (kept : pool.departures.WellKept pool.nextDeparture) (ending : Ending filling pool) :
    departuresFor ending.disposed id = departed.drop places.length := by
  rw [← paired.left ending]
  exact Departures.filter_inReportOrder (ending.matching.takes kept).1 id

end Paired

namespace Pool

variable {config : Settings.RelocationConfig} {transfers : List (Transfer η π)} {pool : Pool η π}

/-- The departures of a descriptor that a pass with this traffic can hand out, in their order. -/
def departuresIn (pool : Pool η π) (traffic : List (Traffic η π)) (id : DescriptorId) :
    List (Departure η π) :=
  pool.departures.waiting id ++ departuresFor (arrivals pool.nextDeparture traffic) id

/-- The places of a descriptor that traffic asks for and that want content, in their order. -/
def placesIn (pool : Pool η π) (traffic : List (Traffic η π)) (id : DescriptorId) :
    List (Asked η π) :=
  placesFor (pool.serveAll traffic).1 id

/-- What it means that a pass serves its traffic first come, first served. -/
structure ServesInOrder (config : Settings.RelocationConfig) (transfers : List (Transfer η π))
    (pool : Pool η π) (traffic : List (Traffic η π))
    (ending : Ending filling (pool.serveAll traffic).2) : Prop where
  /-- The n-th place receives the n-th departure. -/
  received : ∀ (id : DescriptorId) (n : Nat) (place : Asked η π) (departure : Departure η π),
    (pool.placesIn traffic id)[n]? = some place →
      (pool.departuresIn traffic id)[n]? = some departure →
        place.Received ending.outcome (departure.entry.placedAt place.parameter place.position)
  /-- Every later place comes back. -/
  unmatched : ∀ (id : DescriptorId) (n : Nat) (place : Asked η π),
    (pool.placesIn traffic id)[n]? = some place → (pool.departuresIn traffic id).length ≤ n →
      place.Unmatched filling ending.outcome
  /-- Every later departure is disposed. -/
  disposed : ∀ id : DescriptorId, departuresFor ending.disposed id =
    (pool.departuresIn traffic id).drop (pool.placesIn traffic id).length
  /-- The host is told of exactly the departures that were disposed. -/
  handles : ending.outcome.disposed = ending.disposed.map fun departure => departure.entry.handle
  /-- A place is filled with new content at once exactly when usage is tracked and nothing of
  the descriptor was ever reported before. -/
  insertsNow : ∀ (before later : List (Traffic η π)) (descriptor : DescriptorId) (parameter : π)
    (position : Position.Hash), traffic = before ++ .place descriptor parameter position :: later →
      (((pool.serveAll before).2.requestPlacement descriptor parameter position).1.insertsNow =
        true ↔ config.trackUsage = true ∧
          ∀ departure ∈ reported transfers ++ arrivals pool.nextDeparture before,
            departure.entry.descriptor ≠ descriptor)
  /-- Without tracking, and for descriptors reported in good time, this concerns all places. -/
  everyPlace : ∀ id : DescriptorId, config.trackUsage = false ∨
      (∃ departure ∈ reported transfers, departure.entry.descriptor = id) →
    pool.placesIn traffic id = (pool.serveAll traffic).1.filter fun place => place.descriptor = id

/-- In a pass that begins with no place waiting, places and departures correspond. -/
theorem Run.paired (run : Run config transfers pool) (idle : pool.deferred = [])
    (traffic : List (Traffic η π)) (id : DescriptorId) :
    Paired id (pool.departuresIn traffic id) (pool.placesIn traffic id)
      (pool.serveAll traffic).2 := by
  simpa [departuresIn, placesIn] using (Paired.start idle).serveAll run traffic

/-- A place in the middle of a pass is filled at once only under these conditions. -/
theorem Run.insertsNow_after_iff (run : Run config transfers pool) (before : List (Traffic η π))
    (descriptor : DescriptorId) (parameter : π) (position : Position.Hash) :
    ((pool.serveAll before).2.requestPlacement descriptor parameter position).1.insertsNow =
      true ↔ config.trackUsage = true ∧
        ∀ departure ∈ reported transfers ++ arrivals pool.nextDeparture before,
          departure.entry.descriptor ≠ descriptor := by
  obtain ⟨more, later, came⟩ := run.serveAll before
  have known : (pool.serveAll before).2.hasDeparted descriptor = true ↔ _ := later.hasDeparted_iff
  rw [reported_append, came] at known
  rw [later.insertsNow_iff, ← Bool.not_eq_true, known]
  simp only [not_exists, not_and, ne_eq]

/-- A pass that begins with no place waiting serves its traffic first come, first served: across
immediate moves, places that queue behind others, and matches when the pass ends. -/
theorem pass_serves_in_order (run : Run config transfers pool) (idle : pool.deferred = [])
    (traffic : List (Traffic η π)) (ending : Ending filling (pool.serveAll traffic).2) :
    ServesInOrder config transfers pool traffic ending := by
  obtain ⟨more, later, -⟩ := run.serveAll traffic
  have paired := run.paired idle traffic
  refine ⟨?_, ?_, ?_, ending.outcome_eq.2.2.2, ?_, ?_⟩
  · intro id n place departure asked departs
    exact (paired id).received later.queued ending asked departs
  · intro id n place asked behind
    exact (paired id).unmatched later.queued ending asked behind
  · intro id
    exact (paired id).disposed later.turnover.kept ending
  · rintro before after descriptor parameter position -
    exact run.insertsNow_after_iff before descriptor parameter position
  · intro id known
    apply placesFor_eq_filter
    intro place asked ours
    obtain ⟨before, after, -, answer⟩ := exists_split_of_mem_serveAll asked
    rw [answer, ← Bool.not_eq_true, run.insertsNow_after_iff]
    rintro ⟨tracked, never⟩
    rcases known with untracked | ⟨departure, came, same⟩
    · rw [tracked] at untracked
      cases untracked
    · exact never departure (List.mem_append_left _ came) (same.trans ours.symm)

/-- One departure and then two places of a descriptor, beside a place that is filled at once. -/
theorem pass_serves_in_order_twice :
    ∃ ending : Ending .handsBack (Pool.serveAll ({} : Pool Unit Unit)
        [.depart ⟨7⟩ ⟨⟨7⟩, (), (), ⟨0⟩, [], true⟩, .place ⟨8⟩ () ⟨1⟩, .place ⟨7⟩ () ⟨2⟩,
          .place ⟨7⟩ () ⟨3⟩]).2,
      ServesInOrder {} [] {} _ ending := by
  obtain ⟨ending⟩ := Ending.exists_ending .handsBack () (Pool.serveAll ({} : Pool Unit Unit)
    [.depart ⟨7⟩ ⟨⟨7⟩, (), (), ⟨0⟩, [], true⟩, .place ⟨8⟩ () ⟨1⟩, .place ⟨7⟩ () ⟨2⟩,
      .place ⟨7⟩ () ⟨3⟩]).2
  exact ⟨ending, pass_serves_in_order .created rfl _ ending⟩

end Pool

end LiveTree.Relocation
