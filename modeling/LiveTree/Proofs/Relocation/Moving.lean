import LiveTree.Proofs.Relocation.Junctures

/-! Content that moves. An entry is reported as departing, waits in the pool, takes the place of a
request, and comes back to the host, at once or when the pass is over that matched it. On the way
it keeps what it is: it comes back with the handle and the objects with which it was reported, its
parameter and position are those of the request, and it is active. Nothing of it is recorded, but
that it enters again if it was inactive, whatever else departs, is placed, inserted or disposed in
the meantime. And where it is matched, it alone is touched. -/
namespace LiveTree.Relocation

open Lifecycle (ObjectId Event)

variable {η π : Type} {request : Request π} {departure : Departure η π} {placed : Entry η π}

/-- An entry comes back to the host for a place that it asked for. -/
inductive Juncture.Deed.HandsBack : Deed η π → PlacementTicket → Entry η π → Prop
  | atOnce (request : Request π) (departure : Departure η π) (placed : Entry η π) :
      HandsBack (.moves request departure placed) request.ticket placed
  | atTheEnd {outcome : PassOutcome η π} {ticket : PlacementTicket} {placed : Entry η π}
      (answered : (ticket, placed) ∈ outcome.moved) : HandsBack (.returns outcome) ticket placed

/-- How a departure that is matched comes back: with the answer to the request, or with the outcome
of the pass. -/
inductive Route (request : Request π) (departure : Departure η π) (placed : Entry η π) :
    Happening η π → List (Happening η π) → Prop
  | atOnce {matching : Happening η π} (deed : matching.deed = .moves request departure placed) :
      Route request departure placed matching []
  | atTheEnd {matching ended : Happening η π} {during : List (Happening η π)}
      {outcome : PassOutcome η π} (deed : matching.deed = .matches request departure)
      (noted : matching.after.moved = matching.before.moved ++ [(request.ticket, placed)])
      (within : ∀ happening ∈ during, happening.after.InPass)
      (returned : ended.deed = .returns outcome)
      (answered : (request.ticket, placed) ∈ outcome.moved) :
      Route request departure placed matching (during ++ [ended])

/-- The way of an entry through a history: its report, the steps in which it waits, the step in
which it is matched, and the steps until it comes back with the last of them. -/
structure Journey (history : List (Happening η π)) where
  earlier : List (Happening η π)
  report : Happening η π
  waits : List (Happening η π)
  matching : Happening η π
  since : List (Happening η π)
  departure : Departure η π
  request : Request π
  placed : Entry η π
  split : history = earlier ++ report :: waits ++ matching :: since
  reported : report.deed = .reports departure
  route : Route request departure placed matching since

namespace Journey

variable {history : List (Happening η π)}

def entry (journey : Journey history) : Entry η π := journey.departure.entry

/-- What is recorded of the objects of the entry from its report on until it is back. -/
def recorded (journey : Journey history) (event : Event) : List ObjectId :=
  ((journey.report :: journey.waits ++ journey.matching :: journey.since).flatMap
    (·.recorded event)).filter (· ∈ journey.entry.objects)

/-- The objects of the entry belong to no other entry that the pool has or sees until it is
back. -/
structure Alone (journey : Journey history) : Prop where
  waiting : ∀ other ∈ journey.report.before.waits,
    other.entry.objects.Disjoint journey.entry.objects
  shown : ∀ happening ∈ journey.waits ++ journey.since, ∀ other, happening.deed.Shows other →
    other.objects.Disjoint journey.entry.objects

end Journey

/-- A step takes a departure for a request, counts it, and records what it is to be told. All other
departures, the requests, the answers so far and the retirements stay as they are. -/
structure Happening.TakesOnly (happening : Happening η π) (request : Request π)
    (departure : Departure η π) : Prop where
  queue : happening.before.pool.departures.waiting request.descriptor =
    departure :: happening.after.pool.departures.waiting request.descriptor
  otherQueues : ∀ id, id ≠ request.descriptor →
    happening.after.pool.departures.waiting id = happening.before.pool.departures.waiting id
  notices : ∀ event, happening.after.pool.dispatcher.recorded event =
    happening.before.pool.dispatcher.recorded event ++ departure.entry.moveNotices event
  retirements : happening.after.pool.dispatcher.retiring = happening.before.pool.dispatcher.retiring
  moved : happening.before.moved <+: happening.after.moved
  inserted : happening.after.inserted = happening.before.inserted
  pool : happening.after.pool = { happening.before.pool with
    departures := happening.after.pool.departures
    dispatcher := happening.after.pool.dispatcher
    stats := { happening.before.pool.stats with
      moves := happening.before.pool.stats.moves + 1 } }

/-- What it means that a move keeps the state of the entry that moves, and of all others. -/
structure Journey.KeepsState {history : List (Happening η π)} (journey : Journey history) :
    Prop where
  placed : journey.placed =
    journey.entry.placedAt journey.request.parameter journey.request.position
  descriptor : journey.entry.descriptor = journey.request.descriptor
  recorded : journey.Alone → ∀ event, journey.recorded event = journey.entry.moveNotices event
  matching : journey.matching.TakesOnly journey.request journey.departure

/-! ### The step of the match -/

namespace Juncture

private theorem Deed.Matches.shows_nothing {deed : Deed η π} {entry : Entry η π}
    (fits : deed.Matches request departure) : ¬ deed.Shows entry := by
  cases fits <;> exact nofun

variable {juncture next : Juncture η π} {deed : Deed η π}

private theorem Step.takes (step : juncture.Step deed next)
    (fits : deed.Matches request departure) :
    juncture.pool.departures.claim request.descriptor = some (departure, next.pool.departures) ∧
      next.pool = { juncture.pool with
        departures := next.pool.departures
        dispatcher := Pool.welcome juncture.pool.dispatcher departure.entry
        stats := { juncture.pool.stats with moves := juncture.pool.stats.moves + 1 } } := by
  cases fits with
  | atOnce | inPass =>
    cases step.effect with
    | fills fits taken same =>
      cases fits
      exact ⟨taken, same⟩

/-- A match leaves the answers of a pass in progress and adds its own to those that moved. -/
private theorem Step.answers (step : juncture.Step deed next)
    (fits : deed.Matches request departure) :
    juncture.moved <+: next.moved ∧ next.inserted = juncture.inserted := by
  cases fits with
  | atOnce =>
    cases step with
    | place => exact ⟨List.prefix_rfl, rfl⟩
  | inPass =>
    cases step with
    | matched step first =>
      obtain ⟨_, _, _, -, -, -, rfl⟩ := Pass.of_step_eq_matched step
      exact ⟨List.prefix_append _ _, rfl⟩

private theorem Step.placed_of_moves (step : juncture.Step (.moves request departure placed) next) :
    placed = departure.entry.placedAt request.parameter request.position := by
  cases step with
  | @place pool _ descriptor parameter position _ _ answer first =>
    rcases pool.requestPlacement_cases descriptor parameter position with
      ⟨found, departures, -, taken, same⟩ | ⟨-, -, -, same⟩ | ⟨-, -, same⟩
    · cases Pool.eq_of_first? first taken
      cases same.symm.trans answer
      rfl
    all_goals cases same.symm.trans answer

private theorem Step.noted_of_matches (step : juncture.Step (.matches request departure) next) :
    next.moved = juncture.moved ++
      [(request.ticket, departure.entry.placedAt request.parameter request.position)] := by
  cases step with
  | matched step first =>
    obtain ⟨_, found, departures, -, taken, -, rfl⟩ := Pass.of_step_eq_matched step
    cases Pool.eq_of_first? first taken
    rfl

end Juncture

namespace Happening

variable {happening : Happening η π}

/-- Where an entry is matched, it alone is touched. -/
private theorem takesOnly (happening : Happening η π)
    (fits : happening.deed.Matches request departure) : happening.TakesOnly request departure := by
  obtain ⟨taken, same⟩ := happening.step.takes fits
  obtain ⟨moved, inserted⟩ := happening.step.answers fits
  obtain ⟨queue, split, rest⟩ := Departures.claim_eq_some_iff.mp taken
  have notices : ∀ event, happening.after.pool.dispatcher.recorded event =
      happening.before.pool.dispatcher.recorded event ++ departure.entry.moveNotices event := by
    intro event
    rw [same, Pool.recorded_welcome]
  constructor
  case queue => rw [split, rest, Departures.waiting_replace_self]
  case otherQueues =>
    intro id other
    rw [rest, Departures.waiting_replace_of_ne _ _ other]
  case notices => exact notices
  case retirements => exact (notices .retired).trans (List.append_nil _)
  case moved => exact moved
  case inserted => exact inserted
  case pool => rw [same]

end Happening

/-! ### The steps before and after -/

/-- Some steps record nothing of some objects. -/
def RecordNothingOf (objects : List ObjectId) (stretch : List (Happening η π)) : Prop :=
  ∀ happening ∈ stretch, ∀ event, (happening.recorded event).Disjoint objects

/-- The objects of a departure belong to no other entry that waits. -/
def Juncture.Apart (juncture : Juncture η π) (departure : Departure η π) : Prop :=
  ∀ other ∈ juncture.waits,
    other = departure ∨ other.entry.objects.Disjoint departure.entry.objects

namespace Happening

variable {happening : Happening η π}

private theorem apart (happening : Happening η π) (kept : happening.before.WellKept)
    (apart : happening.before.Apart departure)
    (shown : ∀ other, happening.deed.Shows other →
      other.objects.Disjoint departure.entry.objects) : happening.after.Apart departure := by
  intro other waits
  rcases happening.step.mem_waits kept waits with waited | reported
  · exact apart other waited
  · exact .inr (shown other.entry (reported ▸ .reports other))

/-- A step in which a departure does not go records nothing of its objects, if they belong to no
entry that waits or is brought. -/
private theorem quiet (happening : Happening η π) (kept : happening.before.WellKept)
    (apart : happening.before.Apart departure)
    (brought : ∀ other, happening.deed = .brings other →
      other.objects.Disjoint departure.entry.objects)
    (stays : departure ∈ happening.before.waits → departure ∈ happening.after.waits)
    (event : Event) : (happening.recorded event).Disjoint departure.entry.objects := by
  intro object recorded ours
  obtain ⟨entry, concerned | ⟨other, waited, gone, rfl⟩, theirs⟩ :=
    happening.exists_concerned kept recorded
  · exact brought entry concerned theirs ours
  · rcases apart other waited with rfl | disjoint
    · exact gone (stays waited)
    · exact disjoint theirs ours

end Happening

/-- As long as a departure waits, and when it is gone, nothing of its objects is recorded, if they
belong to no other entry that waits at first or is shown on the way. -/
private theorem Juncture.Leads.quiet {first last : Juncture η π} {stretch : List (Happening η π)}
    (leads : first.Leads stretch last) (kept : first.WellKept) (apart : first.Apart departure)
    (shown : ∀ happening ∈ stretch, ∀ other, happening.deed.Shows other →
      other.objects.Disjoint departure.entry.objects)
    (stays : ∀ happening ∈ stretch,
      departure ∈ happening.before.waits → departure ∈ happening.after.waits) :
    last.Apart departure ∧ RecordNothingOf departure.entry.objects stretch := by
  induction leads with
  | done => exact ⟨apart, List.forall_mem_nil _⟩
  | @next happening rest last _ ih =>
    obtain ⟨shownNow, shownLater⟩ := List.forall_mem_cons.mp shown
    obtain ⟨staysNow, staysLater⟩ := List.forall_mem_cons.mp stays
    obtain ⟨apartLast, quietLater⟩ :=
      ih (happening.step.kept kept) (happening.apart kept apart shownNow) shownLater staysLater
    refine ⟨apartLast, List.forall_mem_cons.mpr ⟨?_, quietLater⟩⟩
    refine happening.quiet kept apart (fun other brought => ?_) staysNow
    exact shownNow other (brought ▸ .brings other)

private theorem RecordNothingOf.filter_eq_nil {stretch : List (Happening η π)}
    {objects : List ObjectId} (quiet : RecordNothingOf objects stretch) (event : Event) :
    (stretch.flatMap (·.recorded event)).filter (· ∈ objects) = [] := by
  refine List.filter_eq_nil_iff.mpr fun object recorded ours => ?_
  obtain ⟨happening, among, recorded⟩ := List.mem_flatMap.mp recorded
  exact quiet happening among event recorded (of_decide_eq_true ours)

namespace Route

variable {matching : Happening η π} {since : List (Happening η π)}

private theorem fits (route : Route request departure placed matching since) :
    matching.deed.Matches request departure := by
  cases route with
  | atOnce deed => exact deed ▸ .atOnce _ _ _
  | atTheEnd deed => exact deed ▸ .inPass _ _

/-- What comes back is the entry at the place of the request. -/
private theorem placed_eq (route : Route request departure placed matching since) :
    placed = departure.entry.placedAt request.parameter request.position := by
  have step := matching.step
  cases route with
  | atOnce deed =>
    rw [deed] at step
    exact step.placed_of_moves
  | atTheEnd deed noted =>
    rw [deed] at step
    have both := List.append_cancel_left (noted.symm.trans step.noted_of_matches)
    simpa using both

end Route

namespace Journey

variable {history : List (Happening η π)} {first last : Juncture η π}

/-- What a history says of the journey of an entry. -/
structure Traced (journey : Journey history) (last : Juncture η π) : Prop where
  keptReport : journey.report.before.WellKept
  waiting : journey.report.after.Leads journey.waits journey.matching.before
  leaving : journey.matching.after.Leads journey.since last

private theorem traced (journey : Journey history) (leads : first.Leads history last)
    (kept : first.WellKept) : journey.Traced last := by
  rw [journey.split] at leads
  obtain ⟨_, before, matching⟩ := Juncture.Leads.append_iff.mp leads
  obtain ⟨rfl, leaving⟩ := Juncture.Leads.cons_iff.mp matching
  obtain ⟨_, early, reporting⟩ := Juncture.Leads.append_iff.mp before
  obtain ⟨rfl, waiting⟩ := Juncture.Leads.cons_iff.mp reporting
  exact ⟨early.kept kept, waiting, leaving⟩

private theorem Alone.apart {journey : Journey history} (alone : journey.Alone) :
    journey.report.before.Apart journey.departure :=
  fun other waits => .inr (alone.waiting other waits)

namespace Traced

variable {journey : Journey history}

private theorem taken (_ : journey.Traced last) :
    journey.matching.before.pool.departures.claim journey.request.descriptor =
      some (journey.departure, journey.matching.after.pool.departures) :=
  (journey.matching.step.takes journey.route.fits).1

private theorem reports (_ : journey.Traced last) :
    journey.report.before.Step (.reports journey.departure) journey.report.after :=
  journey.reported ▸ journey.report.step

private theorem keptWaiting (traced : journey.Traced last) : journey.report.after.WellKept :=
  journey.report.step.kept traced.keptReport

private theorem keptMatching (traced : journey.Traced last) : journey.matching.before.WellKept :=
  traced.waiting.kept traced.keptWaiting

private theorem keptLeaving (traced : journey.Traced last) : journey.matching.after.WellKept :=
  journey.matching.step.kept traced.keptMatching

private theorem comes (traced : journey.Traced last) :
    journey.departure ∈ journey.report.after.waits :=
  traced.reports.waits_of_reports traced.keptReport

private theorem numbered (traced : journey.Traced last) :
    journey.departure.sequence < journey.report.after.pool.nextDeparture :=
  traced.keptWaiting.numbered _ traced.comes

/-- The entry waits until it is matched. -/
private theorem stays (traced : journey.Traced last) :
    ∀ happening ∈ journey.waits, journey.departure ∈ happening.after.waits := by
  have waited := (traced.keptMatching.mem_of_claim traced.taken).1
  exact (traced.waiting.waits_throughout traced.keptWaiting traced.numbered waited).2

/-- From then on it waits no longer. -/
private theorem gone (traced : journey.Traced last) :
    ∀ happening ∈ journey.since, journey.departure ∉ happening.before.waits := by
  have gone := (traced.keptMatching.mem_of_claim traced.taken).2
  have grown := Nat.le_trans traced.waiting.nextDeparture_le journey.matching.step.nextDeparture_le
  exact traced.leaving.stays_away traced.keptLeaving (Nat.lt_of_lt_of_le traced.numbered grown) gone

private theorem apart_waiting (traced : journey.Traced last) (alone : journey.Alone) :
    journey.report.after.Apart journey.departure := by
  intro other waits
  rcases traced.reports.mem_waits traced.keptReport waits with waited | reported
  · exact alone.apart other waited
  · cases reported
    exact .inl rfl

/-- Until the entry is matched, nothing of it is recorded. -/
private theorem quiet_waiting (traced : journey.Traced last) (alone : journey.Alone) :
    journey.matching.before.Apart journey.departure ∧
      RecordNothingOf journey.entry.objects (journey.report :: journey.waits) := by
  have waiting : journey.matching.before.Apart journey.departure ∧
      RecordNothingOf journey.entry.objects journey.waits := by
    apply traced.waiting.quiet traced.keptWaiting (traced.apart_waiting alone)
    case shown =>
      intro happening among
      exact alone.shown happening (List.mem_append_left _ among)
    case stays =>
      intro happening among _
      exact traced.stays happening among
  have reporting : ∀ event,
      (journey.report.recorded event).Disjoint journey.entry.objects := by
    apply journey.report.quiet traced.keptReport alone.apart
    case brought =>
      intro other brings
      cases brings.symm.trans journey.reported
    case stays =>
      intro _
      exact traced.comes
  exact ⟨waiting.1, List.forall_mem_cons.mpr ⟨reporting, waiting.2⟩⟩

/-- After the match, nothing of it is recorded. -/
private theorem quiet_leaving (traced : journey.Traced last) (alone : journey.Alone) :
    RecordNothingOf journey.entry.objects journey.since := by
  have apart : journey.matching.after.Apart journey.departure := by
    apply journey.matching.apart traced.keptMatching (traced.quiet_waiting alone).1
    intro other shown
    exact absurd shown journey.route.fits.shows_nothing
  have leaving := traced.leaving.quiet traced.keptLeaving apart
  apply (leaving ?shown ?stays).2
  case shown =>
    intro happening among
    exact alone.shown happening (List.mem_append_right _ among)
  case stays =>
    intro happening among waits
    exact absurd waits (traced.gone happening among)

/-- So all that is recorded of its objects is recorded where it is matched. -/
private theorem recorded_eq (traced : journey.Traced last) (alone : journey.Alone) (event : Event) :
    journey.recorded event = journey.entry.moveNotices event := by
  have matched : journey.matching.recorded event = journey.entry.moveNotices event :=
    Happening.recorded_of_append ((journey.matching.takesOnly journey.route.fits).notices event)
  have ours : (journey.entry.moveNotices event).filter (· ∈ journey.entry.objects) =
      journey.entry.moveNotices event :=
    List.filter_eq_self.mpr fun object among =>
      decide_eq_true (journey.entry.moveNotices_subset event among)
  have before := (traced.quiet_waiting alone).2.filter_eq_nil event
  have after := (traced.quiet_leaving alone).filter_eq_nil event
  rw [Journey.recorded, List.flatMap_append, List.filter_append, before, List.flatMap_cons,
    List.filter_append, matched, ours, after, List.nil_append, List.append_nil]

end Traced

/-- A move keeps the state of the entry that moves, and of all others. -/
private theorem keepsState (journey : Journey history) (leads : first.Leads history last)
    (kept : first.WellKept) : journey.KeepsState := by
  have traced := journey.traced leads kept
  constructor
  case placed => exact journey.route.placed_eq
  case descriptor =>
    obtain ⟨queue, split, -⟩ := Departures.claim_eq_some_iff.mp traced.taken
    exact traced.keptMatching.own _ _ (split ▸ List.mem_cons_self)
  case recorded => exact traced.recorded_eq
  case matching => exact journey.matching.takesOnly journey.route.fits

end Journey

/-! ### What comes back has been on a journey -/

/-- What is matched was reported before. -/
private theorem Route.exists_journey {first last : Juncture η π}
    {before since : List (Happening η π)} {matching : Happening η π}
    (route : Route request departure placed matching since)
    (leads : first.Leads (before ++ matching :: since) last) (kept : first.WellKept)
    (empty : first.waits = []) :
    ∃ journey : Journey (before ++ matching :: since),
      journey.request = request ∧ journey.placed = placed := by
  obtain ⟨_, early, later⟩ := Juncture.Leads.append_iff.mp leads
  obtain ⟨rfl, -⟩ := Juncture.Leads.cons_iff.mp later
  have waited := ((early.kept kept).mem_of_claim (matching.step.takes route.fits).1).1
  rcases early.exists_report kept waited with absent | ⟨earlier, report, waits, rfl, reported⟩
  · rw [empty] at absent
    cases absent
  · exact ⟨⟨earlier, report, waits, matching, since, departure, request, placed, rfl, reported,
      route⟩, rfl, rfl⟩

/-- An entry that comes back has been matched, and comes back on one of the routes. -/
private theorem Juncture.Leads.exists_route {first last : Juncture η π}
    {passed : List (Happening η π)} {happening : Happening η π} {ticket : PlacementTicket}
    (leads : first.Leads (passed ++ [happening]) last) (resting : first.moved = [])
    (back : happening.deed.HandsBack ticket placed) :
    ∃ before matching since request departure,
      passed ++ [happening] = before ++ matching :: since ∧ request.ticket = ticket ∧
        Route request departure placed matching since := by
  obtain ⟨_, early, later⟩ := append_iff.mp leads
  obtain ⟨rfl, -⟩ := cons_iff.mp later
  obtain ⟨before, deed, after, step⟩ := happening
  cases back with
  | atOnce request departure placed =>
    exact ⟨passed, ⟨before, _, after, step⟩, [], request, departure, rfl, rfl, .atOnce rfl⟩
  | atTheEnd answered =>
    have filled : (ticket, placed) ∈ before.moved := by
      cases step with
      | endPass => exact answered
    rcases early.exists_matching filled with ⟨absent, -⟩ |
      ⟨earlier, matching, since, request, departure, rfl, deed, rfl, noted, within⟩
    · rw [resting] at absent
      cases absent
    · exact ⟨earlier, matching, since ++ [⟨before, _, after, step⟩], request, departure, by simp,
        rfl, .atTheEnd deed noted within rfl answered⟩

/-- Moves keep the state of what moves. In every history of a pool, an entry that comes back for a
place was reported and matched before, and whatever else happens on its journey, it keeps its
state, and so do all others. -/
theorem Juncture.Leads.moves_keep_state {config : Settings.RelocationConfig}
    {history : List (Happening η π)} {last : Juncture η π}
    (leads : (Juncture.resting { config }).Leads history last) :
    (∀ happening ∈ history.getLast?, ∀ ticket placed, happening.deed.HandsBack ticket placed →
      ∃ journey : Journey history, journey.request.ticket = ticket ∧ journey.placed = placed) ∧
    ∀ journey : Journey history, journey.KeepsState := by
  have kept : (Juncture.resting ({ config } : Pool η π)).WellKept := .empty 0
  refine ⟨?_, fun journey => journey.keepsState leads kept⟩
  intro happening latest ticket placed back
  obtain ⟨passed, rfl⟩ := List.getLast?_eq_some_iff.mp latest
  obtain ⟨before, matching, since, request, departure, same, rfl, route⟩ :=
    leads.exists_route rfl back
  rw [same] at leads ⊢
  obtain ⟨journey, rfl, rfl⟩ := route.exists_journey leads kept rfl
  exact ⟨journey, rfl, rfl⟩

/-- A pool in which a place waits. -/
def awaiting : Pool String Int :=
  (({ config := { trackUsage := false } } : Pool String Int).requestPlacement ⟨7⟩ 5 ⟨9⟩).2

/-- Content that departs and is not in the tree. -/
def dormant : Entry String Int := ⟨⟨7⟩, "dormant", 0, ⟨1⟩, [⟨1⟩, ⟨2⟩], false⟩

/-- Content that departs and for which nobody asks. -/
def unwanted : Entry String Int := ⟨⟨8⟩, "unwanted", 0, ⟨2⟩, [⟨3⟩], true⟩

/-- A place waits, content that is not in the tree departs and then other content, and the pass
brings the first to the place, where it enters again, and disposes the other. -/
theorem Juncture.Leads.moves_keep_state_dormant :
    ∃ (history : List (Happening String Int)) (last : Juncture String Int)
      (journey : Journey history),
      (Juncture.resting { config := { trackUsage := false } }).Leads history last ∧
        journey.Alone ∧ journey.placed = ⟨⟨7⟩, "dormant", 5, ⟨9⟩, [⟨1⟩, ⟨2⟩], true⟩ ∧
          journey.recorded .entered = [⟨1⟩, ⟨2⟩] ∧ journey.recorded .exited = [] := by
  let asks : Happening String Int := ⟨_, _, .resting awaiting, .placeLater nofun⟩
  let reports : Happening String Int :=
    ⟨.resting awaiting, .reports ⟨0, dormant⟩, .resting _,
      .report (Pool.reportDeparture_eq_ok_iff.mpr ⟨rfl, rfl⟩)⟩
  let joins : Happening String Int :=
    ⟨reports.after, .reports ⟨1, unwanted⟩, .resting _,
      .report (Pool.reportDeparture_eq_ok_iff.mpr ⟨rfl, rfl⟩)⟩
  let begins : Happening String Int := ⟨_, _, _, .beginPass .handsBack joins.after.pool⟩
  let takes : Happening String Int :=
    ⟨begins.after, .matches ⟨0, ⟨7⟩, 5, ⟨9⟩⟩ ⟨0, dormant⟩, .matching .handsBack _, .matched rfl rfl⟩
  let settles : Happening String Int := ⟨takes.after, .settles, .settled _ _, .settle rfl⟩
  obtain ⟨drain, delivery, finished⟩ := settles.after.pool.dispatcher.drain.exists_finished
  let returns : Happening String Int := ⟨settles.after, _, _, .endPass delivery finished⟩
  have within : ∀ happening ∈ [settles], happening.after.InPass :=
    List.forall_mem_singleton.mpr trivial
  let journey : Journey [asks, reports, joins, begins, takes, settles, returns] := {
    earlier := [asks]
    report := reports
    waits := [joins, begins]
    matching := takes
    since := [settles, returns]
    departure := ⟨0, dormant⟩
    request := ⟨0, ⟨7⟩, 5, ⟨9⟩⟩
    placed := dormant.placedAt 5 ⟨9⟩
    split := rfl
    reported := rfl
    route := .atTheEnd rfl rfl within rfl List.mem_cons_self }
  have leads : (Juncture.resting { config := { trackUsage := false } }).Leads
      [asks, reports, joins, begins, takes, settles, returns] returns.after := by
    iterate 7 refine Juncture.Leads.cons_iff.mpr ⟨rfl, ?_⟩
    exact .done _
  have apart : ∀ other, joins.deed.Shows other → other.objects.Disjoint dormant.objects := by
    rintro _ ⟨⟩
    simp [unwanted, dormant]
  have alone : journey.Alone := {
    waiting := List.forall_mem_nil _
    shown := List.forall_mem_cons.mpr ⟨apart, List.forall_mem_cons.mpr ⟨nofun,
      List.forall_mem_cons.mpr ⟨nofun, List.forall_mem_singleton.mpr nofun⟩⟩⟩ }
  have keeps := leads.moves_keep_state.2 journey
  exact ⟨_, _, journey, leads, alone, keeps.placed, keeps.recorded alone .entered,
    keeps.recorded alone .exited⟩

end LiveTree.Relocation
