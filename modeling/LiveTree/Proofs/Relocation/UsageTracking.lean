import LiveTree.Proofs.Sequences
import LiveTree.Proofs.Relocation.Pairing

/-! Tracking of usage, as an optimization. A pool that tracks usage fills a place at once if
nothing of its descriptor ever departed. That saves the place a wait that could only have been in
vain, unless the first departure of the descriptor is reported later in the same pass: then a pool
that does not track usage would have moved that content to the place. This is the only way in
which the two can differ. -/
namespace LiveTree.Relocation

variable {η π : Type}

/-- What is seen of a pass: the places that were asked for, and the outcome. -/
structure Turn (η π : Type) where
  asked : List (Asked η π)
  outcome : PassOutcome η π

/-- Passes one after another, each with its traffic. -/
inductive Pool.Passes : Pool η π → List (List (Traffic η π)) → List (Turn η π) → Prop
  | done (pool : Pool η π) : Passes pool [] []
  | pass {pool : Pool η π} {traffic : List (Traffic η π)} {passes : List (List (Traffic η π))}
      {turns : List (Turn η π)} (ending : Ending .handsBack (pool.serveAll traffic).2)
      (rest : Passes ending.after passes turns) :
      Passes pool (traffic :: passes) (⟨(pool.serveAll traffic).1, ending.outcome⟩ :: turns)

/-- Two places get the same content when their passes end, and one that is filled at once comes
back in the other pass. -/
def Asked.AgreeWith (tracking untracked : PassOutcome η π) (place other : Asked η π) : Prop :=
  (∀ entry, place.Received tracking entry ↔ other.Received untracked entry) ∧
    (place.answer.insertsNow = true → other.Unmatched .handsBack untracked)

/-- A pass matches the same places with the same content and disposes the same as another, except
that places which are filled at once come back in the other. -/
structure Turn.Agrees (tracking untracked : Turn η π) : Prop where
  places : List.Forall₂ (Asked.AgreeWith tracking.outcome untracked.outcome)
    tracking.asked untracked.asked
  disposed : tracking.outcome.disposed = untracked.outcome.disposed

/-- Whether a call brings a departure of a descriptor. -/
def Traffic.brings (id : DescriptorId) : Traffic η π → Bool
  | .depart descriptor entry => entry.descriptor = descriptor && descriptor = id
  | .place .. => false

/-- After a place of a descriptor of which nothing ever departed, something departs in the same
pass. -/
def LatePass (earlier traffic : List (Traffic η π)) : Prop :=
  ∃ before id parameter position after, traffic = before ++ .place id parameter position :: after ∧
    (∀ call ∈ earlier ++ before, call.brings id = false) ∧ ∃ call ∈ after, call.brings id = true

/-- This happens in one of several passes. -/
def LateDeparture (earlier : List (Traffic η π)) : List (List (Traffic η π)) → Prop
  | [] => False
  | traffic :: passes => LatePass earlier traffic ∨ LateDeparture (earlier ++ traffic) passes

private theorem exists_arrival_iff (next : Nat) (calls : List (Traffic η π)) (id : DescriptorId) :
    (∃ departure ∈ arrivals next calls, departure.entry.descriptor = id) ↔
      ∃ call ∈ calls, call.brings id = true := by
  induction calls generalizing next with
  | nil => simp [arrivals]
  | cons call calls ih =>
    cases call with
    | place => simpa [arrivals, Traffic.brings] using ih next
    | depart descriptor entry =>
      by_cases own : entry.descriptor = descriptor
      · simp [arrivals, own, Traffic.brings, ih]
      · simpa [arrivals, own, Traffic.brings] using ih next

/-- Whether a call asks for a place of a descriptor. -/
def Traffic.asksFor (id : DescriptorId) : Traffic η π → Bool
  | .depart .. => false
  | .place descriptor _ _ => descriptor = id

/-- The first place of the descriptor is then early as well. -/
private theorem LatePass.exists_first {earlier traffic : List (Traffic η π)}
    (late : LatePass earlier traffic) :
    ∃ before id parameter position after,
      traffic = before ++ .place id parameter position :: after ∧
      (∀ call ∈ earlier ++ before, call.brings id = false) ∧
      (∃ call ∈ traffic, call.brings id = true) ∧ ∀ call ∈ before, call.asksFor id = false := by
  obtain ⟨before, id, parameter, position, after, rfl, never, call, departs, brings⟩ := late
  have brought : ∃ call ∈ before ++ .place id parameter position :: after,
      call.brings id = true :=
    ⟨call, List.mem_append_right _ (List.mem_cons_of_mem _ departs), brings⟩
  cases asked : before.find? (Traffic.asksFor id) with
  | none =>
    refine ⟨before, id, parameter, position, after, rfl, never, brought, ?_⟩
    intro call member
    simpa using List.find?_eq_none.mp asked call member
  | some first =>
    obtain ⟨asks, early, between, rfl, unasked⟩ := List.find?_eq_some_iff_append.mp asked
    cases first with
    | depart => cases asks
    | place descriptor otherParameter otherPosition =>
      obtain rfl : descriptor = id := of_decide_eq_true asks
      refine ⟨early, descriptor, otherParameter, otherPosition, _, List.append_assoc .., ?_,
        brought, fun call member => by simpa using unasked call member⟩
      intro call member
      apply never call
      rw [← List.append_assoc]
      exact List.mem_append_left _ member

/-- Two places that were asked for by the same call. -/
def Asked.SamePlace (place other : Asked η π) : Prop :=
  place.descriptor = other.descriptor ∧ place.parameter = other.parameter ∧
    place.position = other.position

/-- Pools that take the same traffic are asked for the same places. -/
private theorem samePlaces (first second : Pool η π) (traffic : List (Traffic η π)) :
    List.Forall₂ Asked.SamePlace (first.serveAll traffic).1 (second.serveAll traffic).1 := by
  induction traffic generalizing first second with
  | nil => exact .nil
  | cons call calls ih =>
    refine List.rel_append ?_ (ih _ _)
    cases call with
    | depart descriptor entry =>
      rw [Pool.fst_serve_depart, Pool.fst_serve_depart]
      exact .nil
    | place descriptor parameter position => exact .cons ⟨rfl, rfl, rfl⟩ .nil

/-- A pool between two passes: nothing waits in it. -/
structure Pool.Rested (config : Settings.RelocationConfig) (earlier : List (Traffic η π))
    (pool : Pool η π) : Prop where
  reached : ∃ transfers, Run config transfers pool ∧ reported transfers = arrivals 0 earlier
  idle : pool.deferred = []
  empty : ∀ id, pool.departures.waiting id = []

namespace Pool.Rested

variable {config : Settings.RelocationConfig} {earlier : List (Traffic η π)} {pool : Pool η π}

private theorem new (config : Settings.RelocationConfig) :
    Rested config [] ({ config } : Pool η π) :=
  ⟨⟨[], .created, rfl⟩, rfl, fun _ => rfl⟩

private theorem nextDeparture (rested : Rested config earlier pool) :
    pool.nextDeparture = (arrivals 0 earlier).length := by
  obtain ⟨transfers, run, came⟩ := rested.reached
  simpa [came] using run.turnover.nextDeparture

/-- A pass that ends leaves the pool as it was, with more behind it. -/
private theorem pass (rested : Rested config earlier pool) {traffic : List (Traffic η π)}
    {filling : Filling} (ending : Ending filling (pool.serveAll traffic).2) :
    Rested config (earlier ++ traffic) ending.after := by
  have next := rested.nextDeparture
  obtain ⟨transfers, run, came⟩ := rested.reached
  obtain ⟨more, later, cameLater⟩ := run.serveAll traffic
  refine ⟨⟨_, later.next (.endPass ending), ?_⟩, ?_, ?_⟩
  · simp [came, cameLater, next, arrivals_append]
  · rw [ending.after_eq]
  · intro id
    rw [ending.after_eq]
    rfl

/-- What a pass can hand out is what departs in it. -/
private theorem departuresIn_eq (rested : Rested config earlier pool) (traffic : List (Traffic η π))
    (id : DescriptorId) :
    pool.departuresIn traffic id =
      departuresFor (arrivals (arrivals 0 earlier).length traffic) id := by
  rw [departuresIn, rested.empty, rested.nextDeparture, List.nil_append]

/-- Something can be handed out exactly when something departs. -/
private theorem departuresIn_ne_nil_iff (rested : Rested config earlier pool)
    {traffic : List (Traffic η π)} {id : DescriptorId} :
    pool.departuresIn traffic id ≠ [] ↔ ∃ call ∈ traffic, call.brings id = true := by
  rw [rested.departuresIn_eq, ← exists_arrival_iff (arrivals 0 earlier).length]
  simp [departuresFor, List.filter_eq_nil_iff]

/-- A place is filled at once if usage is tracked and nothing of the descriptor departed before. -/
private theorem insertsNow_iff (rested : Rested config earlier pool) (before : List (Traffic η π))
    (descriptor : DescriptorId) (parameter : π) (position : Position.Hash) :
    ((pool.serveAll before).2.requestPlacement descriptor parameter position).1.insertsNow =
      true ↔ config.trackUsage = true ∧
        ∀ call ∈ earlier ++ before, call.brings descriptor = false := by
  have next := rested.nextDeparture
  obtain ⟨transfers, run, came⟩ := rested.reached
  have known := exists_arrival_iff 0 (earlier ++ before) descriptor
  rw [arrivals_append, Nat.zero_add, ← next, ← came] at known
  rw [run.insertsNow_after_iff]
  apply and_congr_right
  intro _
  simpa only [not_exists, not_and, Bool.not_eq_true, ne_eq] using not_congr known

/-- A pass that begins with a rested pool pairs places and departures. -/
private theorem paired (rested : Rested config earlier pool) (traffic : List (Traffic η π))
    (id : DescriptorId) :
    Paired id (pool.departuresIn traffic id) (pool.placesIn traffic id)
      (pool.serveAll traffic).2 := by
  obtain ⟨transfers, run, -⟩ := rested.reached
  exact run.paired rested.idle traffic id

private theorem queued (rested : Rested config earlier pool) (traffic : List (Traffic η π)) :
    (pool.serveAll traffic).2.Queued := by
  obtain ⟨transfers, run, -⟩ := rested.reached
  obtain ⟨more, later, -⟩ := run.serveAll traffic
  exact later.queued

private theorem kept (rested : Rested config earlier pool) (traffic : List (Traffic η π)) :
    (pool.serveAll traffic).2.departures.WellKept (pool.serveAll traffic).2.nextDeparture := by
  obtain ⟨transfers, run, -⟩ := rested.reached
  obtain ⟨more, later, -⟩ := run.serveAll traffic
  exact later.turnover.kept

end Pool.Rested

/-- The number of a place among those of its descriptor, if they all want content. -/
private theorem Pool.getElem?_placesIn {pool : Pool η π} {traffic : List (Traffic η π)}
    {id : DescriptorId} {n : Nat} {place : Asked η π}
    (want : ∀ place ∈ (pool.serveAll traffic).1, place.descriptor = id →
      place.answer.insertsNow = false)
    (found : (pool.serveAll traffic).1[n]? = some place) (ours : place.descriptor = id) :
    (pool.placesIn traffic id)[(((pool.serveAll traffic).1.take n).filter fun place =>
      place.descriptor = id).length]? = some place := by
  rw [placesIn, placesFor_eq_filter want]
  exact getElem?_filter_of_kept _ found (decide_eq_true ours)

/-- Of two lists of the same places, the same are places of a descriptor. -/
private theorem sameCount {places others : List (Asked η π)}
    (same : List.Forall₂ Asked.SamePlace places others) (id : DescriptorId) :
    (places.filter fun place => place.descriptor = id).length =
      (others.filter fun place => place.descriptor = id).length := by
  have ours : ∀ ⦃place other : Asked η π⦄, place.SamePlace other →
      (decide (place.descriptor = id) = true ↔ decide (other.descriptor = id) = true) :=
    fun _ _ same => by rw [same.1]
  exact (List.rel_filter ours same).length_eq

/-- A stretch of traffic that does not ask for a descriptor asks for no place of it. -/
private theorem Pool.placesIn_eq_nil {pool : Pool η π} {traffic : List (Traffic η π)}
    {id : DescriptorId} (unasked : ∀ call ∈ traffic, call.asksFor id = false) :
    pool.placesIn traffic id = [] := by
  apply List.filter_eq_nil_iff.mpr
  intro place asked keeps
  obtain ⟨before, after, split, -⟩ := exists_split_of_mem_serveAll asked
  have asks := unasked (.place place.descriptor place.parameter place.position) (by simp [split])
  simp only [Traffic.asksFor, decide_eq_false_iff_not] at asks
  exact asks (of_decide_eq_true keeps).1

section OnePass

variable {earlier traffic : List (Traffic η π)} {tracking untracked : Pool η π}

/-- Without tracking, every place wants content. -/
private theorem Pool.Rested.untracked_wants
    (off : Rested { trackUsage := false } earlier untracked) :
    ∀ place ∈ (untracked.serveAll traffic).1, place.answer.insertsNow = false := by
  intro place asked
  obtain ⟨before, after, -, answer⟩ := Pool.exists_split_of_mem_serveAll asked
  rw [answer, ← Bool.not_eq_true, off.insertsNow_iff]
  exact fun ⟨tracked, _⟩ => Bool.false_ne_true tracked

/-- With tracking, every place of a descriptor that departs in the pass wants content, unless the
departure is late. -/
private theorem Pool.Rested.tracking_wants (on : Rested { trackUsage := true } earlier tracking)
    (timely : ¬ LatePass earlier traffic) {id : DescriptorId}
    (brought : ∃ call ∈ traffic, call.brings id = true) :
    ∀ place ∈ (tracking.serveAll traffic).1, place.descriptor = id →
      place.answer.insertsNow = false := by
  rintro place asked rfl
  obtain ⟨before, after, split, answer⟩ := Pool.exists_split_of_mem_serveAll asked
  rw [answer, ← Bool.not_eq_true, on.insertsNow_iff]
  rintro ⟨-, never⟩
  obtain ⟨call, member, brings⟩ := brought
  rw [split] at member
  rcases List.mem_append.mp member with early | here
  · rw [never call (List.mem_append_right _ early)] at brings
    cases brings
  · rcases List.mem_cons.mp here with rfl | late
    · cases brings
    · exact timely ⟨before, _, _, _, after, split, never, call, late, brings⟩

variable (on : Pool.Rested { trackUsage := true } earlier tracking)
  (off : Pool.Rested { trackUsage := false } earlier untracked)
  (ending : Ending .handsBack (tracking.serveAll traffic).2)
  (other : Ending .handsBack (untracked.serveAll traffic).2)

include on off

/-- In a pass without a late departure, tracking makes no difference to any place. -/
private theorem agreeWith_of_timely (timely : ¬ LatePass earlier traffic) {n : Nat}
    {first second : Asked η π} (atFirst : (tracking.serveAll traffic).1[n]? = some first)
    (atSecond : (untracked.serveAll traffic).1[n]? = some second)
    (same : first.SamePlace second) :
    Asked.AgreeWith ending.outcome other.outcome first second := by
  obtain ⟨sameDescriptor, sameParameter, samePosition⟩ := same
  obtain ⟨id, ours⟩ : ∃ id, second.descriptor = id := ⟨_, rfl⟩
  have oursFirst : first.descriptor = id := sameDescriptor.trans ours
  have secondAt := Pool.getElem?_placesIn (fun place asked _ => off.untracked_wants place asked)
    atSecond ours
  by_cases brought : ∃ call ∈ traffic, call.brings id = true
  · have wants := on.tracking_wants timely brought
    have firstAt := Pool.getElem?_placesIn wants atFirst oursFirst
    have taken := List.forall₂_take n (samePlaces tracking untracked traffic)
    rw [sameCount taken id] at firstAt
    constructor
    · intro entry
      rw [(on.paired traffic id).received_iff (on.queued traffic) ending firstAt,
        (off.paired traffic id).received_iff (off.queued traffic) other secondAt,
        on.departuresIn_eq, off.departuresIn_eq, sameParameter, samePosition]
    · intro inserts
      rw [wants first (List.mem_of_getElem? atFirst) oursFirst] at inserts
      cases inserts
  · have nothing {pool : Pool η π} {config : Settings.RelocationConfig}
        (rested : Pool.Rested config earlier pool) (n : Nat) :
        (pool.departuresIn traffic id).length ≤ n := by
      have none := not_not.mp (mt rested.departuresIn_ne_nil_iff.mp brought)
      rw [none]
      exact Nat.zero_le n
    have secondBack := (off.paired traffic id).unmatched (off.queued traffic) other secondAt
      (nothing off _)
    have firstGets (entry : Entry η π) : ¬ first.Received ending.outcome entry := by
      by_cases inserts : first.answer.insertsNow = true
      · exact Asked.not_received_of_insertsNow inserts
      · have member : first ∈ tracking.placesIn traffic id :=
          List.mem_filter.mpr ⟨List.mem_of_getElem? atFirst, by simp [oursFirst, inserts]⟩
        obtain ⟨k, firstAt⟩ := List.mem_iff_getElem?.mp member
        exact ((on.paired traffic id).unmatched (on.queued traffic) ending firstAt
          (nothing on k)).not_received
    exact ⟨fun entry => iff_of_false (firstGets entry) secondBack.not_received,
      fun _ => secondBack⟩

/-- In a pass without a late departure, tracking makes no difference to what is disposed. -/
private theorem disposed_eq_of_timely (timely : ¬ LatePass earlier traffic) :
    ending.outcome.disposed = other.outcome.disposed := by
  have left (id : DescriptorId) : ending.settled.pool.departures.waiting id =
      other.settled.pool.departures.waiting id := by
    rw [(on.paired traffic id).left ending, (off.paired traffic id).left other,
      on.departuresIn_eq, off.departuresIn_eq]
    by_cases brought : ∃ call ∈ traffic, call.brings id = true
    · have want := on.tracking_wants timely brought
      rw [Pool.placesIn, Pool.placesIn, placesFor_eq_filter want,
        placesFor_eq_filter fun place asked _ => off.untracked_wants place asked,
        sameCount (samePlaces tracking untracked traffic) id]
    · have none := not_not.mp (mt on.departuresIn_ne_nil_iff.mp brought)
      rw [on.departuresIn_eq] at none
      rw [none, List.drop_nil, List.drop_nil]
  rw [ending.outcome_eq.2.2.2, other.outcome_eq.2.2.2]
  exact congrArg _ (Departures.inReportOrder_eq_of_waiting_eq
    (ending.matching.takes (on.kept traffic)).1 (other.matching.takes (off.kept traffic)).1 left)

/-- In a pass with a late departure, the first place before it gets content only where usage is
not tracked. -/
private theorem not_agrees_of_late (late : LatePass earlier traffic) :
    ¬ Turn.Agrees ⟨(tracking.serveAll traffic).1, ending.outcome⟩
      ⟨(untracked.serveAll traffic).1, other.outcome⟩ := by
  obtain ⟨before, id, parameter, position, after, split, never, brought, unasked⟩ :=
    late.exists_first
  rintro ⟨places, -⟩
  obtain ⟨later, splitOn⟩ := tracking.serveAll_place before after id parameter position
  obtain ⟨rest, splitOff⟩ := untracked.serveAll_place before after id parameter position
  rw [← split] at splitOn splitOff
  have sameLength := (samePlaces tracking untracked before).length_eq
  have pairs := List.forall₂_drop (tracking.serveAll before).1.length places
  simp only [splitOn, splitOff, List.drop_left] at pairs
  rw [sameLength, List.drop_left] at pairs
  obtain ⟨sameContent, -⟩ := (List.forall₂_cons.mp pairs).1
  have inserts := (on.insertsNow_iff before id parameter position).mpr ⟨rfl, never⟩
  -- Without tracking it is the first place of its descriptor, so the first departure moves to it.
  have firstAt : (untracked.placesIn traffic id)[0]? = some ⟨id, parameter, position,
      ((untracked.serveAll before).2.requestPlacement id parameter position).1⟩ := by
    have none : (untracked.serveAll before).1.filter (fun place => place.descriptor = id) = [] := by
      rw [← placesFor_eq_filter fun place asked _ => off.untracked_wants place asked]
      exact Pool.placesIn_eq_nil unasked
    rw [Pool.placesIn, placesFor_eq_filter fun place asked _ => off.untracked_wants place asked,
      splitOff, List.filter_append, none, List.nil_append, List.filter_cons_of_pos (by simp)]
    rfl
  have departs := off.departuresIn_ne_nil_iff.mpr brought
  obtain ⟨departure, others, isFirst⟩ := List.exists_cons_of_ne_nil departs
  have comes := (off.paired traffic id).received (off.queued traffic) other firstAt
    (by rw [isFirst]; rfl)
  exact Asked.not_received_of_insertsNow inserts ((sameContent _).mpr comes)

/-- A pass is the same with and without tracking exactly when no departure in it is late. -/
private theorem agrees_iff_timely :
    Turn.Agrees ⟨(tracking.serveAll traffic).1, ending.outcome⟩
      ⟨(untracked.serveAll traffic).1, other.outcome⟩ ↔ ¬ LatePass earlier traffic := by
  constructor
  · intro agrees late
    exact not_agrees_of_late on off ending other late agrees
  · intro timely
    refine ⟨?_, disposed_eq_of_timely on off ending other timely⟩
    have same := samePlaces tracking untracked traffic
    refine List.forall₂_iff_get.mpr ⟨same.length_eq, fun n within withinOther => ?_⟩
    exact agreeWith_of_timely on off ending other timely (List.getElem?_eq_getElem within)
      (List.getElem?_eq_getElem withinOther) (same.get within withinOther)

end OnePass

private theorem agree_iff_timely_from {earlier : List (Traffic η π)} {tracking untracked : Pool η π}
    (on : Pool.Rested { trackUsage := true } earlier tracking)
    (off : Pool.Rested { trackUsage := false } earlier untracked)
    {passes : List (List (Traffic η π))} {turns others : List (Turn η π)}
    (tracked : tracking.Passes passes turns) (plain : untracked.Passes passes others) :
    List.Forall₂ Turn.Agrees turns others ↔ ¬ LateDeparture earlier passes := by
  induction tracked generalizing earlier untracked others with
  | done =>
    cases plain
    simp [LateDeparture]
  | pass ending rest ih =>
    cases plain with
    | pass other restOther =>
      rw [List.forall₂_cons, agrees_iff_timely on off ending other,
        ih (on.pass ending) (off.pass other) restOther, LateDeparture, not_or]

/-- Usage tracking is an optimization as long as no departure is late: then, and only then, a pool
that tracks usage and one that does not match the same places with the same content and dispose
the same content, pass after pass, and what the first fills at once comes back in the second. -/
theorem tracking_agrees_iff_timely {passes : List (List (Traffic η π))}
    {turns others : List (Turn η π)}
    (tracked : Pool.Passes { config := { trackUsage := true } } passes turns)
    (plain : Pool.Passes { config := { trackUsage := false } } passes others) :
    List.Forall₂ Turn.Agrees turns others ↔ ¬ LateDeparture [] passes :=
  agree_iff_timely_from (.new _) (.new _) tracked plain

/-- Passes can always be made, whatever their traffic. -/
private theorem Pool.exists_passes (handle : η) (passes : List (List (Traffic η π)))
    (pool : Pool η π) : ∃ turns, pool.Passes passes turns := by
  induction passes generalizing pool with
  | nil => exact ⟨[], .done pool⟩
  | cons traffic passes ih =>
    obtain ⟨ending⟩ := Ending.exists_ending .handsBack handle (pool.serveAll traffic).2
    obtain ⟨turns, rest⟩ := ih ending.after
    exact ⟨_, .pass ending rest⟩

/-- A departure in good time: both pools move it. -/
theorem tracking_agrees_in_good_time :
    ∃ turns others : List (Turn Unit Unit),
      Pool.Passes { config := { trackUsage := true } }
        [[.depart ⟨7⟩ ⟨⟨7⟩, (), (), ⟨0⟩, [], true⟩, .place ⟨7⟩ () ⟨1⟩]] turns ∧
      Pool.Passes { config := { trackUsage := false } }
        [[.depart ⟨7⟩ ⟨⟨7⟩, (), (), ⟨0⟩, [], true⟩, .place ⟨7⟩ () ⟨1⟩]] others ∧
      List.Forall₂ Turn.Agrees turns others := by
  obtain ⟨turns, tracked⟩ := Pool.exists_passes () _ _
  obtain ⟨others, plain⟩ := Pool.exists_passes () _ _
  refine ⟨turns, others, tracked, plain, (tracking_agrees_iff_timely tracked plain).mpr ?_⟩
  rintro (⟨before, id, parameter, position, after, split, -, call, member, -⟩ | ⟨⟨⟩⟩)
  match before, split with
  | [], split => cases split
  | [_], split =>
    cases split
    cases member
  | _ :: _ :: rest, split => simp at split

/-- A late departure: the tracking pool fills the place at once and disposes the content that the
other pool moves there. -/
theorem tracking_disagrees_when_late :
    ∃ turns others : List (Turn Unit Unit),
      Pool.Passes { config := { trackUsage := true } }
        [[.place ⟨7⟩ () ⟨1⟩, .depart ⟨7⟩ ⟨⟨7⟩, (), (), ⟨0⟩, [], true⟩]] turns ∧
      Pool.Passes { config := { trackUsage := false } }
        [[.place ⟨7⟩ () ⟨1⟩, .depart ⟨7⟩ ⟨⟨7⟩, (), (), ⟨0⟩, [], true⟩]] others ∧
      ¬ List.Forall₂ Turn.Agrees turns others := by
  obtain ⟨turns, tracked⟩ := Pool.exists_passes () _ _
  obtain ⟨others, plain⟩ := Pool.exists_passes () _ _
  refine ⟨turns, others, tracked, plain, ?_⟩
  rw [agree_iff_timely_from (.new _) (.new _) tracked plain, not_not]
  exact .inl ⟨[], ⟨7⟩, (), ⟨1⟩, _, rfl, by simp, _, List.mem_singleton_self _, rfl⟩

end LiveTree.Relocation
