import LiveTree.Proofs.Relocation.Traffic

/-! How a pool represents what waits in it. The departures are kept in queues, the places in a list
of their own, and beside them stand the descriptors that are awaited, those that are known, and the
numbers to be given out next. All of them fit each other after every step of a pool, those in the
middle of a pass and those that are cut short by a panic included. And as long as a place waits for
content of a descriptor, whatever waits of that descriptor came after it was asked for: it could
not be given to that place then, and is not given to a later one. -/
namespace LiveTree.Relocation

variable {η π : Type} {id : DescriptorId} {request : Request π} {departure : Departure η π}

/-- Some steps report a departure. -/
def Reported (stretch : List (Happening η π)) (departure : Departure η π) : Prop :=
  ∃ report ∈ stretch, report.deed = .reports departure

/-- The place of a request was asked for in the course of a history, and what waits of its
descriptor was reported after that, not before. -/
def Pool.Outwaits (history : List (Happening η π)) (pool : Pool η π) (request : Request π) :
    Prop :=
  ∃ earlier asking since, history = earlier ++ asking :: since ∧
    asking.before.Defers request asking.after ∧
      ∀ departure ∈ pool.departures.waiting request.descriptor,
        Reported since departure ∧ ¬ Reported (earlier ++ [asking]) departure

/-- What the parts of a pool say of each other, at the end of a history. -/
structure Pool.Represents (history : List (Happening η π)) (pool : Pool η π) : Prop where
  awaited : ∀ id, id ∈ pool.deferredDescriptors ↔
    ∃ request ∈ pool.deferred, request.descriptor = id
  oneQueue : pool.departures.queues.Distinct
  own : ∀ id, ∀ departure ∈ pool.departures.waiting id, departure.entry.descriptor = id
  inOrder : ∀ id, (pool.departures.waiting id).Pairwise fun first second =>
    first.sequence < second.sequence
  apart : (pool.departures.all.map Departure.sequence).Nodup
  numbered : ∀ departure ∈ pool.departures.all, departure.sequence < pool.nextDeparture
  ticketsInOrder : pool.deferred.Pairwise fun first second => first.ticket < second.ticket
  issued : ∀ request ∈ pool.deferred, request.ticket < pool.nextTicket
  known : ∀ departure ∈ pool.departures.all,
    pool.hasDeparted departure.entry.descriptor = true
  tracked : pool.config.trackUsage = true → ∀ request ∈ pool.deferred,
    pool.hasDeparted request.descriptor = true
  first : ∀ id, ∀ request ∈ (requestsFor pool.deferred id).head?, pool.Outwaits history request

/-- A descriptor is awaited as long as a place waits for its content. -/
private theorem Pool.Queued.mem_deferredDescriptors_iff {pool : Pool η π} (queued : pool.Queued)
    (id : DescriptorId) :
    id ∈ pool.deferredDescriptors ↔ ∃ request ∈ pool.deferred, request.descriptor = id := by
  have awaited := queued.awaited id
  rw [isAwaited, List.contains_iff_mem] at awaited
  rw [awaited]
  simp [requestsFor]

namespace Juncture

variable {juncture next : Juncture η π} {deed : Deed η π}

/-! ### The known descriptors -/

/-- What waits is known, and where usage is tracked, so is what places wait for. -/
structure Known (juncture : Juncture η π) : Prop where
  departures : ∀ departure ∈ juncture.waits,
    juncture.pool.hasDeparted departure.entry.descriptor = true
  places : juncture.pool.config.trackUsage = true → ∀ request ∈ juncture.pool.deferred,
    juncture.pool.hasDeparted request.descriptor = true

private theorem Step.config_eq (step : juncture.Step deed next) :
    next.pool.config = juncture.pool.config := by
  cases step.queueing with
  | keeps _ knowledge | clears _ _ knowledge => exact knowledge.config
  | reports _ config => exact config
  | defers asks => rw [asks.facts.2.2]

/-- No descriptor is forgotten. -/
private theorem Step.hasDeparted (step : juncture.Step deed next)
    (departed : juncture.pool.hasDeparted id = true) : next.pool.hasDeparted id = true := by
  cases step.queueing with
  | keeps _ knowledge | clears _ _ knowledge =>
    rwa [Pool.hasDeparted, knowledge.everDeparted]
  | reports _ _ known => exact (known id).mpr (.inl departed)
  | defers asks => rwa [asks.facts.2.2]

/-- What is reported is known from then on. -/
private theorem Step.hasDeparted_of_reports (step : juncture.Step (.reports departure) next) :
    next.pool.hasDeparted departure.entry.descriptor = true := by
  cases step with
  | report accepted => exact (Pool.hasDeparted_report accepted).mpr (.inr rfl)

private theorem Step.known (step : juncture.Step deed next) (kept : juncture.WellKept)
    (known : juncture.Known) : next.Known where
  departures departure waits := by
    rcases step.mem_waits kept waits with waited | rfl
    · exact step.hasDeparted (known.departures departure waited)
    · exact step.hasDeparted_of_reports
  places tracked request waits := by
    rw [step.config_eq] at tracked
    have before (waited : request ∈ juncture.pool.deferred) :=
      step.hasDeparted (known.places tracked request waited)
    cases step.queueing with
    | keeps places | reports places => exact before (places.deferred ▸ waits)
    | defers asks =>
      obtain ⟨-, departed, same⟩ := asks.facts
      rw [same] at waits
      rcases List.mem_append.mp waits with waited | latest
      · exact before waited
      · rw [List.mem_singleton.mp latest]
        exact step.hasDeparted (departed tracked)
    | clears deferred =>
      rw [deferred] at waits
      cases waits

/-! ### The first place of a descriptor -/

/-- A place that is the first of its descriptor was the first before, or it has just been asked for
and is the only one. -/
private theorem Step.first_place (step : juncture.Step deed next)
    (first : request ∈ (requestsFor next.pool.deferred id).head?) :
    request ∈ (requestsFor juncture.pool.deferred id).head? ∨
      juncture.Defers request next ∧ requestsFor juncture.pool.deferred id = [] := by
  cases step.queueing with
  | keeps places | reports places => exact .inl (places.deferred ▸ first)
  | @defers _ asked asks =>
    rw [asks.facts.2.2] at first
    cases earlier : requestsFor juncture.pool.deferred id with
    | nil =>
      rw [requestsFor_append, earlier, List.nil_append] at first
      have alone := List.mem_of_mem_head? first
      obtain rfl := List.mem_singleton.mp (List.mem_filter.mp alone).1
      exact .inr ⟨asks, rfl⟩
    | cons earliest others =>
      rw [requestsFor_append, earlier] at first
      exact .inl first
  | clears deferred =>
    rw [deferred] at first
    cases first

variable {first last : Juncture η π} {history : List (Happening η π)}

/-- A place that is the first of its descriptor in the end was so from the beginning, or was asked
for on the way, when no other place waited for it. -/
private theorem Leads.exists_asking (leads : first.Leads history last)
    (waits : request ∈ (requestsFor last.pool.deferred id).head?) :
    request ∈ (requestsFor first.pool.deferred id).head? ∨
      ∃ earlier asking since, history = earlier ++ asking :: since ∧
        asking.before.Defers request asking.after ∧
          requestsFor asking.before.pool.deferred id = [] := by
  induction leads with
  | done => exact .inl waits
  | @next happening rest last _ ih =>
    rcases ih waits with waited | ⟨earlier, asking, since, rfl, asks⟩
    · rcases happening.step.first_place waited with before | asks
      · exact .inl before
      · exact .inr ⟨[], happening, rest, rfl, asks⟩
    · exact .inr ⟨happening :: earlier, asking, since, rfl, asks⟩

private theorem Leads.known (leads : first.Leads history last) (kept : first.WellKept)
    (known : first.Known) : last.Known := by
  induction leads with
  | done => exact known
  | @next happening _ _ _ ih =>
    exact ih (happening.step.kept kept) (happening.step.known kept known)

/-- What was reported has a number. -/
private theorem Leads.sequence_lt (leads : first.Leads history last) (kept : first.WellKept)
    (reported : Reported history departure) :
    departure.sequence < last.pool.nextDeparture := by
  obtain ⟨report, among, reports⟩ := reported
  obtain ⟨earlier, later, rfl⟩ := List.append_of_mem among
  obtain ⟨_, early, late⟩ := append_iff.mp leads
  obtain ⟨rfl, rest⟩ := cons_iff.mp late
  have step := reports ▸ report.step
  have keptThere := early.kept kept
  have waits := step.waits_of_reports keptThere
  have numbered := (step.kept keptThere).numbered departure waits
  exact Nat.lt_of_lt_of_le numbered rest.nextDeparture_le

/-- Nothing of a descriptor waits where the first place for it has to wait. -/
private theorem Defers.waiting_eq_nil (asks : juncture.Defers request next)
    (queued : juncture.pool.Queued)
    (idle : requestsFor juncture.pool.deferred request.descriptor = []) :
    next.pool.departures.waiting request.descriptor = [] := by
  obtain ⟨unserved, -, same⟩ := asks.facts
  have unawaited : ¬ juncture.pool.isAwaited request.descriptor = true :=
    fun awaited => (queued.awaited _).mp awaited idle
  rw [Pool.claimFor, if_neg unawaited] at unserved
  have empty := Pool.claim_eq_none_iff.mp unserved
  rwa [same]

/-- The first place that waits for content of a descriptor was asked for before anything of what
waits was reported. -/
private theorem Leads.outwaits {config : Settings.RelocationConfig}
    (leads : (Juncture.resting { config }).Leads history last)
    (first : request ∈ (requestsFor last.pool.deferred id).head?) :
    last.pool.Outwaits history request := by
  have kept : (Juncture.resting ({ config } : Pool η π)).WellKept := .empty 0
  have queued : ({ config } : Pool η π).Queued := .idle rfl rfl
  obtain rfl : request.descriptor = id := by
    have ours := List.mem_of_mem_head? first
    simpa [requestsFor] using (List.mem_filter.mp ours).2
  rcases leads.exists_asking first with absent | ⟨earlier, asking, since, rfl, asks, idle⟩
  · cases absent
  refine ⟨earlier, asking, since, rfl, asks, fun departure waits => ?_⟩
  obtain ⟨_, early, late⟩ := append_iff.mp leads
  obtain ⟨rfl, rest⟩ := cons_iff.mp late
  have keptThen := asking.step.kept (early.kept kept)
  have empty := asks.waiting_eq_nil (early.queued queued) idle
  have keptNow := rest.kept keptThen
  have waitsNow : departure ∈ last.waits :=
    (Departures.mem_all_iff keptNow.distinct).mpr ⟨_, waits⟩
  -- what waited when the place was asked for would have waited for its descriptor
  have absent : departure ∉ asking.after.waits := by
    intro waited
    obtain ⟨descriptor, there⟩ := (Departures.mem_all_iff keptThen.distinct).mp waited
    obtain rfl := (keptThen.own _ _ there).symm.trans (keptNow.own _ _ waits)
    rw [empty] at there
    cases there
  constructor
  · rcases rest.exists_report keptThen waitsNow with waited | ⟨_, report, _, rfl, reported⟩
    · exact absurd waited absent
    · exact ⟨report, by simp, reported⟩
  · intro reported
    have before := early.trans (.single asking)
    have numbered := before.sequence_lt kept reported
    exact absent (rest.waits_throughout keptThen numbered waitsNow).1

/-- The parts of a pool fit each other after every step. -/
theorem Leads.represents {config : Settings.RelocationConfig}
    (leads : (Juncture.resting { config }).Leads history last) :
    last.pool.Represents history := by
  have kept : (Juncture.resting ({ config } : Pool η π)).WellKept := .empty 0
  have index := leads.kept kept
  have queued := leads.queued (.idle rfl rfl)
  have known := leads.known kept ⟨List.forall_mem_nil _, fun _ => List.forall_mem_nil _⟩
  constructor
  case awaited => exact queued.mem_deferredDescriptors_iff
  case oneQueue => exact index.distinct
  case own => exact index.own
  case inOrder => exact index.inOrder
  case apart => exact index.apart
  case numbered => exact index.numbered
  case ticketsInOrder => exact queued.inOrder
  case issued => exact queued.issued
  case known => exact known.departures
  case tracked => exact known.places
  case first =>
    intro id request first
    exact leads.outwaits first

/-- A pass is cut short while new content is made for the place that waited. Another place is asked
for, which has to wait as well, and then content departs: it came after the second place, and does
not belong to the first one any more. -/
theorem Leads.represents_cut_short :
    ∃ (history : List (Happening String Int)) (last : Juncture String Int),
      (Juncture.resting { config := { trackUsage := false } }).Leads history last ∧
        last.pool.Represents history ∧ last.pool.deferred = [⟨1, ⟨7⟩, 6, ⟨10⟩⟩] ∧
          last.pool.Outwaits history ⟨1, ⟨7⟩, 6, ⟨10⟩⟩ ∧
            (last.pool.departures.waiting ⟨7⟩).map (·.entry.handle) = ["late"] := by
  let entry : Entry String Int := ⟨⟨7⟩, "late", 0, ⟨1⟩, [⟨1⟩], true⟩
  let fresh : Pool String Int := { config := { trackUsage := false } }
  let asks : Happening String Int :=
    ⟨.resting fresh, .rests, .resting (fresh.requestPlacement ⟨7⟩ 5 ⟨9⟩).2, .placeLater nofun⟩
  let begins : Happening String Int := ⟨_, _, _, .beginPass .inserts asks.after.pool⟩
  let panics : Happening String Int := ⟨begins.after, .rests, .resting _, .insertPanics rfl⟩
  let asksAgain : Happening String Int :=
    ⟨panics.after, .rests, .resting (panics.after.pool.requestPlacement ⟨7⟩ 6 ⟨10⟩).2,
      .placeLater nofun⟩
  let reports : Happening String Int :=
    ⟨asksAgain.after, .reports ⟨0, entry⟩, .resting _,
      .report (Pool.reportDeparture_eq_ok_iff.mpr ⟨rfl, rfl⟩)⟩
  have leads : (Juncture.resting fresh).Leads [asks, begins, panics, asksAgain, reports]
      reports.after := by
    iterate 5 refine Juncture.Leads.cons_iff.mpr ⟨rfl, ?_⟩
    exact .done _
  have represents := leads.represents
  exact ⟨_, _, leads, represents, rfl, represents.first ⟨7⟩ _ rfl, rfl⟩

end Juncture

end LiveTree.Relocation
