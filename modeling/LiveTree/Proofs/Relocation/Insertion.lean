import Mathlib.Data.List.Induction
import LiveTree.Proofs.Lifecycle.Newcomers
import LiveTree.Proofs.Relocation.Disposal
import LiveTree.Proofs.Relocation.Exchange

/-! New content in a pass or after it. Places that no departure serves are filled by the host, on
the spot, so that the objects of the new content are told together with all others; or after the
pass, with a delivery of its own. The lists that are delivered differ between the two, because new
objects and content that enters again are mixed in one and apart in the other. Where the host
creates new objects and observers only listen, no object can tell the difference. -/
namespace LiveTree.Lifecycle.Registry

variable {ω : Type}

private theorem isSome_get?_iff {registry : Registry ω} {object : ObjectId} :
    (registry.get? object).isSome ↔ object.index < registry.objects.size := by
  simp [get?]

private theorem size_foldl_create (registry : Registry ω) (observers : List ω) :
    (observers.foldl (fun registry observer => (registry.create observer).2) registry).objects.size
      = registry.objects.size + observers.length := by
  induction observers generalizing registry with
  | nil => rfl
  | cons observer observers ih =>
    rw [List.foldl_cons, ih, List.length_cons]
    simp only [create, Array.size_push]
    omega

private theorem state_foldl_create (registry : Registry ω) (observers : List ω)
    (object : ObjectId) :
    (observers.foldl (fun registry observer => (registry.create observer).2) registry).state object
      = registry.state object := by
  induction observers generalizing registry with
  | nil => rfl
  | cons observer observers ih => rw [List.foldl_cons, ih, state_create]

end LiveTree.Lifecycle.Registry

namespace LiveTree.Relocation

open Lifecycle (ObjectId State Registry Dispatcher Drain Phase storyOf)
open scoped List

variable {η π ω σ : Type}

/-- New content as the host makes it: its handle, the observers of the objects that are created
for it, in the order of creation, and those objects that it retains, in structural order. -/
structure Content (η ω : Type) where
  handle : η
  observers : List ω
  objects : List (Fin observers.length)
  distinct : objects.Nodup

/-- How the host makes content for a request, given what it remembers of what it made before. -/
abbrev Maker (σ η π ω : Type) := σ → Request π → Content η ω × σ

/-- The host as far as it makes content: what it remembers, and all objects. -/
structure Host (σ ω : Type) where
  memory : σ
  registry : Registry ω

namespace Host

variable (host : Host σ ω) (make : Maker σ η π ω) (request : Request π)

/-- The content that is made for a request. -/
def content : Content η ω := (make host.memory request).1

/-- The objects that the content retains. They are among the next ones to be created. -/
def objects : List ObjectId :=
  (host.content make request).objects.map fun place : Fin _ =>
    ⟨host.registry.objects.size + place.val⟩

/-- The host when the content has been made. -/
def after : Host σ ω where
  memory := (make host.memory request).2
  registry := (host.content make request).observers.foldl
    (fun registry observer => (registry.create observer).2) host.registry

end Host

/-- The rest of the matching at the end of a pass, where the host fills every place that no
departure serves. -/
inductive Pass.Fills (make : Maker σ η π ω) : Host σ ω → Pass η π → Host σ ω → Pass η π → Prop
  | settled {host : Host σ ω} {pass : Pass η π} (step : pass.step = .settled) :
      Fills make host pass host pass
  | matched {host made : Host σ ω} {pass next last : Pass η π} {request : Request π}
      {claimed : Entry η π} (step : pass.step = .matched request claimed next)
      (rest : Fills make host next made last) : Fills make host pass made last
  | filled {host made : Host σ ω} {pass next last : Pass η π} {request : Request π}
      (step : pass.step = .unmatched request next)
      (rest : Fills make (host.after make request)
        (next.insert request (host.content make request).handle (host.objects make request))
        made last) :
      Fills make host pass made last

/-- Places that are being filled after a pass: what has been placed, the host, and the pool. -/
structure Refill (σ η π ω : Type) where
  placed : List (PlacementTicket × Entry η π)
  host : Host σ ω
  pool : Pool η π

namespace Refill

/-- Fills one more place. -/
def next (make : Maker σ η π ω) (refill : Refill σ η π ω) (request : Request π) :
    Refill σ η π ω :=
  let made := refill.pool.instantiate request.descriptor (refill.host.content make request).handle
    request.parameter request.position (refill.host.objects make request)
  ⟨refill.placed ++ [(request.ticket, made.1)], refill.host.after make request, made.2⟩

/-- The objects of all that has been placed. -/
def objects (refill : Refill σ η π ω) : List ObjectId := refill.placed.flatMap (·.2.objects)

end Refill

/-- Fills the places of several requests, in their order. -/
def Pool.refill (pool : Pool η π) (make : Maker σ η π ω) (host : Host σ ω)
    (requests : List (Request π)) : Refill σ η π ω :=
  requests.foldl (Refill.next make) ⟨[], host, pool⟩

/-- The end of a pass in which the host fills places on the spot and observers only listen. -/
structure FilledEnding (make : Maker σ η π ω) (host : Host σ ω) (pool : Pool η π) extends
    Ending .inserts pool where
  made : Host σ ω
  told : List (ObjectId × State)
  registry : Registry ω
  filling : pool.endPass.Fills make host made settled
  listening : Drain.Delivers made.registry settled.disposeDepartures.pool.dispatcher.drain told
    registry drain

/-- The end of a pass in which places are handed back, while observers only listen; then the host
fills them, and what the pool has recorded of that is delivered to observers that only listen. -/
structure RefilledEnding (make : Maker σ η π ω) (host : Host σ ω) (pool : Pool η π) extends
    Ending .handsBack pool where
  told : List (ObjectId × State)
  registry : Registry ω
  refill : Refill σ η π ω
  toldLater : List (ObjectId × State)
  registryLater : Registry ω
  drainLater : Drain
  listening : Drain.Delivers host.registry settled.disposeDepartures.pool.dispatcher.drain told
    registry drain
  refilling : toEnding.after.refill make ⟨host.memory, registry⟩ toEnding.outcome.fresh = refill
  listeningLater : Drain.Delivers refill.host.registry refill.pool.dispatcher.drain toldLater
    registryLater drainLater

/-- The pool in the end. -/
def RefilledEnding.afterRefill {make : Maker σ η π ω} {host : Host σ ω} {pool : Pool η π}
    (ending : RefilledEnding make host pool) : Pool η π :=
  { ending.refill.pool with dispatcher := ending.drainLater.dispatcher }

/-! ### Pools and the objects that exist -/

/-- A pool names an object if it is to be told something or belongs to content that waits. -/
inductive Pool.Names (pool : Pool η π) (object : ObjectId) : Prop
  | recorded {event : Lifecycle.Event} (recorded : object ∈ pool.dispatcher.recorded event)
  | waits {departure : Departure η π} (waits : departure ∈ pool.departures.all)
      (own : object ∈ departure.entry.objects)

/-- A pool as a host can come to have it, whatever it calls and whoever panics. Objects are created
and moved by anybody at any time, also in the middle of a call; what is handed to the pool
exists. -/
inductive Pool.Hosted (config : Settings.RelocationConfig) : Registry ω → Pool η π → Prop
  | created (registry : Registry ω) : Hosted config registry { config }
  | creates {registry : Registry ω} {pool : Pool η π} (hosted : Hosted config registry pool)
      (observer : ω) : Hosted config (registry.create observer).2 pool
  | moves {registry moved : Registry ω} {pool : Pool η π} {object : ObjectId} {target : State}
      (hosted : Hosted config registry pool) (legal : registry.advance object target = .ok moved) :
      Hosted config moved pool
  | calls {registry : Registry ω} {pool after : Pool η π} {transfers : List (Transfer η π)}
      (hosted : Hosted config registry pool) (exchange : pool.Exchange transfers after)
      (exist : ∀ object, after.Names object →
        pool.Names object ∨ (registry.get? object).isSome) :
      Hosted config registry after

namespace Host

variable {host other : Host σ ω} {make : Maker σ η π ω} {request : Request π} {object : ObjectId}

/-- Two hosts that make the same next. -/
structure Alike (host other : Host σ ω) : Prop where
  memory : host.memory = other.memory
  size : host.registry.objects.size = other.registry.objects.size

private theorem size_after (host : Host σ ω) (make : Maker σ η π ω) (request : Request π) :
    (host.after make request).registry.objects.size =
      host.registry.objects.size + (host.content make request).observers.length :=
  Lifecycle.Registry.size_foldl_create ..

private theorem state_after (host : Host σ ω) (make : Maker σ η π ω) (request : Request π)
    (object : ObjectId) :
    (host.after make request).registry.state object = host.registry.state object :=
  Lifecycle.Registry.state_foldl_create ..

private theorem nodup_objects (host : Host σ ω) (make : Maker σ η π ω) (request : Request π) :
    (host.objects make request).Nodup := by
  refine (host.content make request).distinct.map fun first second same => ?_
  have index := ObjectId.mk.inj same
  exact Fin.ext (Nat.add_left_cancel index)

/-- The objects of new content are new. -/
private theorem index_of_mem_objects (member : object ∈ host.objects make request) :
    host.registry.objects.size ≤ object.index ∧
      object.index < (host.after make request).registry.objects.size := by
  obtain ⟨place, -, rfl⟩ := List.mem_map.mp member
  rw [size_after]
  exact ⟨Nat.le_add_right .., Nat.add_lt_add_left place.isLt _⟩

namespace Alike

private theorem content (alike : host.Alike other) :
    host.content make request = other.content make request := by
  rw [Host.content, Host.content, alike.memory]

private theorem objects (alike : host.Alike other) :
    host.objects make request = other.objects make request := by
  rw [Host.objects, Host.objects, alike.content, alike.size]

private theorem after (alike : host.Alike other) :
    (host.after make request).Alike (other.after make request) where
  memory := by rw [Host.after, Host.after, alike.memory]
  size := by rw [size_after, size_after, alike.content, alike.size]

end Alike

end Host

/-! ### What a pool names exists -/

namespace Pool

variable {pool after : Pool η π} {object : ObjectId} {registry : Registry ω}
  {config : Settings.RelocationConfig}

private theorem Hosted.run (hosted : Hosted config registry pool) :
    ∃ transfers, Run config transfers pool := by
  induction hosted with
  | created => exact ⟨[], .created⟩
  | creates _ _ ih | moves _ _ ih => exact ih
  | calls _ exchange _ ih =>
    obtain ⟨transfers, run⟩ := ih
    exact ⟨_, run.next exchange⟩

private theorem Hosted.kept (hosted : Hosted config registry pool) :
    pool.departures.WellKept pool.nextDeparture := by
  obtain ⟨transfers, run⟩ := hosted.run
  exact run.turnover.kept

private theorem Hosted.exist (hosted : Hosted config registry pool) (names : pool.Names object) :
    (registry.get? object).isSome := by
  induction hosted with
  | created =>
    cases names with
    | @recorded event recorded => cases event <;> cases recorded
    | waits waits => cases waits
  | creates _ observer ih =>
    rw [Registry.get?_create_of_isSome observer (ih names)]
    exact ih names
  | moves _ legal ih =>
    rw [Registry.isSome_get?_advance legal]
    exact ih names
  | calls _ _ exist ih => exact (exist object names).elim ih id

/-- Content that moves to a new place brings no new names. -/
theorem Names.of_welcome {departures : Departures η π} {departure : Departure η π}
    {dispatcher : Dispatcher} {stats : Stats} (waits : departure ∈ pool.departures.all)
    (fewer : departures.all ⊆ pool.departures.all)
    (welcomed : dispatcher = welcome pool.dispatcher departure.entry)
    (names : Names { pool with departures, dispatcher, stats } object) : pool.Names object := by
  cases names with
  | waits member own => exact .waits (fewer member) own
  | @recorded event recorded =>
    subst welcomed
    unfold welcome at recorded
    split at recorded
    · exact .recorded recorded
    · by_cases enters : event = .entered
      · subst enters
        rw [Dispatcher.recorded_record_self] at recorded
        rcases List.mem_append.mp recorded with before | own
        · exact .recorded before
        · exact .waits waits own
      · rw [Dispatcher.recorded_record_of_ne _ _ enters] at recorded
        exact .recorded recorded

end Pool

/-! ### The two ways side by side -/

/-- Whether an object is among the first that were created. -/
def isAmong (base : Nat) (object : ObjectId) : Bool := object.index < base

/-- A pass in which places are filled, beside the same pass in which they are handed back to be
filled later. -/
structure Parallel (make : Maker σ η π ω) (start : Refill σ η π ω) (base : Nat) (host : Host σ ω)
    (filled handed : Pass η π) (refill : Refill σ η π ω) : Prop where
  later : handed.fresh.foldl (Refill.next make) start = refill
  requests : filled.requests = handed.requests
  moved : filled.moved = handed.moved
  pool : filled.pool = { handed.pool with dispatcher := filled.pool.dispatcher }
  inserted : filled.inserted = refill.placed
  alike : host.Alike refill.host
  lists : Dispatcher.Mixed (isAmong base) refill.objects filled.pool.dispatcher
    handed.pool.dispatcher
  kept : handed.pool.departures.WellKept handed.pool.nextDeparture
  old : ∀ object, handed.pool.Names object → isAmong base object
  new : ∀ object ∈ refill.objects,
    base ≤ object.index ∧ object.index < host.registry.objects.size
  grown : base ≤ host.registry.objects.size

namespace Parallel

variable {make : Maker σ η π ω} {start refill : Refill σ η π ω} {base : Nat} {host : Host σ ω}
  {filled handed next : Pass η π} {request : Request π} {claimed : Entry η π}

private theorem departures (parallel : Parallel make start base host filled handed refill) :
    filled.pool.departures = handed.pool.departures := by
  rw [parallel.pool]

/-- Where one pass gives a request content that moves, so does the other. -/
private theorem matched (parallel : Parallel make start base host filled handed refill)
    (step : filled.step = .matched request claimed next) :
    ∃ departure after, handed.step = .matched request departure.entry after ∧
      handed.pool.first? request.descriptor = some departure ∧
      Parallel make start base host next after refill := by
  obtain ⟨requests, departure, departures, split, taken, -, rfl⟩ := Pass.of_step_eq_matched step
  rw [parallel.requests] at split
  rw [parallel.departures] at taken
  rcases handed.step_cases with ⟨none, -⟩ |
    ⟨_, _, found, rest, splitToo, takenToo, same⟩ | ⟨_, _, splitToo, empty, -⟩
  · rw [none] at split
    cases split
  · cases split.symm.trans splitToo
    cases taken.symm.trans takenToo
    refine ⟨departure, _, same, (Departures.waiting_claim taken).1, ?_⟩
    have all := Departures.all_claim_perm parallel.kept.distinct taken
    have waits : departure ∈ handed.pool.departures.all :=
      all.mem_iff.mpr List.mem_cons_self
    have fewer : departures.all ⊆ handed.pool.departures.all := fun other member =>
      all.mem_iff.mpr (List.mem_cons_of_mem _ member)
    have own : ∀ object ∈ departure.entry.objects, isAmong base object := fun object member =>
      parallel.old object (.waits waits member)
    have stats : filled.pool.stats = handed.pool.stats := by rw [parallel.pool]
    exact { parallel with
      requests := rfl
      moved := by simp only [parallel.moved]
      pool := by
        simp only [stats]
        rw [parallel.pool]
      lists := by
        unfold Pool.welcome
        split
        · exact parallel.lists
        · exact parallel.lists.enter own
      kept := parallel.kept.claim taken
      old := fun object names => parallel.old object (names.of_welcome waits fewer rfl) }
  · cases split.symm.trans splitToo
    rw [(Departures.claim_eq_none_iff ..).mpr empty] at taken
    cases taken

/-- Where one pass fills a place, the other hands it back, and it is filled in the same way. -/
private theorem filledNext (parallel : Parallel make start base host filled handed refill)
    (step : filled.step = .unmatched request next) :
    ∃ after, handed.step = .unmatched request after ∧
      Parallel make start base (host.after make request)
        (next.insert request (host.content make request).handle (host.objects make request))
        (after.handBack request) (refill.next make request) := by
  obtain ⟨requests, split, empty, rfl⟩ := Pass.of_step_eq_unmatched step
  rw [parallel.requests] at split
  rw [parallel.departures] at empty
  rcases handed.step_cases with ⟨none, -⟩ |
    ⟨_, _, found, rest, splitToo, taken, -⟩ | ⟨_, _, splitToo, -, same⟩
  · rw [none] at split
    cases split
  · cases split.symm.trans splitToo
    rw [(Departures.claim_eq_none_iff ..).mpr empty] at taken
    cases taken
  · cases split.symm.trans splitToo
    refine ⟨_, same, ?_⟩
    have objects : (refill.next make request).objects =
        refill.objects ++ host.objects make request := by
      simp [Refill.objects, Refill.next, Pool.instantiate, parallel.alike.objects]
    have stats : filled.pool.stats = handed.pool.stats := by rw [parallel.pool]
    have created {object : ObjectId} (member : object ∈ host.objects make request) :=
      Host.index_of_mem_objects member
    have foreign : ∀ object ∈ host.objects make request, isAmong base object = false :=
      fun object member => decide_eq_false
        (Nat.not_lt.mpr (Nat.le_trans parallel.grown (created member).1))
    have larger : host.registry.objects.size ≤
        (host.after make request).registry.objects.size := by
      rw [Host.size_after]
      exact Nat.le_add_right ..
    exact { parallel with
      later := by
        simp only [Pass.handBack, List.foldl_append, List.foldl_cons, List.foldl_nil,
          parallel.later]
      requests := rfl
      pool := by
        simp only [Pass.insert, Pool.instantiate_snd, stats]
        rw [parallel.pool]
        rfl
      inserted := by
        simp only [Pass.insert, parallel.inserted, Refill.next, Pool.instantiate,
          parallel.alike.content, parallel.alike.objects]
      alike := parallel.alike.after
      lists := by
        rw [objects]
        refine parallel.lists.add foreign (host.nodup_objects make request) ?_
        intro object before now
        exact Nat.not_lt.mpr (created now).1 (parallel.new object before).2
      old := fun object names => parallel.old object <| by
        cases names with
        | recorded recorded => exact .recorded recorded
        | waits waits own => exact .waits waits own
      new := by
        rw [objects]
        intro object member
        rcases List.mem_append.mp member with before | now
        · obtain ⟨least, most⟩ := parallel.new object before
          exact ⟨least, Nat.lt_of_lt_of_le most larger⟩
        · exact ⟨Nat.le_trans parallel.grown (created now).1, (created now).2⟩
      grown := Nat.le_trans parallel.grown larger }

end Parallel

namespace Pass

variable {make : Maker σ η π ω} {start refill : Refill σ η π ω} {base : Nat}
  {host made : Host σ ω} {pass last handed one other : Pass η π}

/-- A pass in which places are handed back goes through the same requests as one in which they are
filled. -/
private theorem Fills.parallel (fills : Fills make host pass made last)
    (alongside : Parallel make start base host pass handed refill) :
    ∃ handedOut lastHanded refilled, handed.Advances .handsBack handedOut lastHanded ∧
      lastHanded.step = .settled ∧
      Parallel make start base made last lastHanded refilled := by
  induction fills generalizing handed refill with
  | settled step =>
    have none : handed.requests = [] :=
      alongside.requests.symm.trans (of_step_eq_settled step)
    exact ⟨[], handed, refill, .refl handed, by simp [Pass.step, none], alongside⟩
  | matched step _ ih =>
    obtain ⟨departure, after, stepToo, first, onward⟩ := alongside.matched step
    obtain ⟨handedOut, lastHanded, refilled, advances, settled, ended⟩ := ih onward
    exact ⟨_, lastHanded, refilled, .matched stepToo first advances, settled, ended⟩
  | filled step _ ih =>
    obtain ⟨after, stepToo, onward⟩ := alongside.filledNext step
    obtain ⟨handedOut, lastHanded, refilled, advances, settled, ended⟩ := ih onward
    exact ⟨handedOut, lastHanded, refilled, .handedBack rfl stepToo advances, settled, ended⟩

/-- A pass in which places are handed back has one end. -/
private theorem Advances.eq_of_settled {handedOut handedOutToo : List (Departure η π)}
    (advances : pass.Advances .handsBack handedOut one) (settled : one.step = .settled)
    (advancesToo : pass.Advances .handsBack handedOutToo other)
    (settledToo : other.step = .settled) : one = other := by
  induction advances generalizing handedOutToo with
  | refl pass =>
    cases advancesToo with
    | refl => rfl
    | matched step | handedBack _ step => cases settled.symm.trans step
    | inserted _ _ never => cases never
  | matched step _ _ ih =>
    cases advancesToo with
    | refl => cases settledToo.symm.trans step
    | matched stepToo _ rest =>
      obtain ⟨-, -, rfl⟩ := PassStep.matched.inj (step.symm.trans stepToo)
      exact ih settled rest
    | handedBack _ stepToo => cases step.symm.trans stepToo
    | inserted _ _ never => cases never
  | handedBack _ step _ ih =>
    cases advancesToo with
    | refl => cases settledToo.symm.trans step
    | matched stepToo => cases step.symm.trans stepToo
    | handedBack _ stepToo rest =>
      cases step.symm.trans stepToo
      exact ih settled rest
    | inserted _ _ never => cases never
  | inserted _ _ never => cases never

/-- To fill places is one way in which a pass can go on, and it comes to its end. -/
private theorem Fills.advances (fills : Fills make host pass made last) :
    last.step = .settled ∧ ∃ handedOut, pass.Advances .inserts handedOut last := by
  induction fills with
  | settled step => exact ⟨step, [], .refl _⟩
  | matched step _ ih =>
    obtain ⟨settled, handedOut, rest⟩ := ih
    obtain ⟨departure, first, rfl, -⟩ := Advances.first_of_matched step
    exact ⟨settled, _, .matched step first rest⟩
  | filled step _ ih =>
    obtain ⟨settled, handedOut, rest⟩ := ih
    exact ⟨settled, _, .inserted _ _ rfl step rest⟩

private theorem exists_fills (make : Maker σ η π ω) (host : Host σ ω) (pass : Pass η π) :
    ∃ made last, Fills make host pass made last := by
  match step : pass.step with
  | .settled => exact ⟨host, pass, .settled step⟩
  | .matched request claimed next =>
    obtain ⟨-, -, -, fewer⟩ := Advances.first_of_matched step
    obtain ⟨made, last, rest⟩ := exists_fills make host next
    exact ⟨made, last, .matched step rest⟩
  | .unmatched request next =>
    obtain ⟨requests, split, -, same⟩ := of_step_eq_unmatched step
    obtain ⟨made, last, rest⟩ := exists_fills make (host.after make request)
      (next.insert request (host.content make request).handle (host.objects make request))
    exact ⟨made, last, .filled step rest⟩
termination_by pass.requests.length
decreasing_by
  · exact fewer
  · simp [same, insert, split]

end Pass

/-! ### The two ways come to the same -/

namespace Pool

variable {make : Maker σ η π ω} {host : Host σ ω} {pool : Pool η π}

/-- To fill places records the objects of what is placed, and changes nothing else in the pool. -/
private theorem pool_refill (pool : Pool η π) (make : Maker σ η π ω) (host : Host σ ω)
    (requests : List (Request π)) :
    (pool.refill make host requests).pool = { pool with
      dispatcher := { pool.dispatcher with
        retaining := pool.dispatcher.retaining ++ (pool.refill make host requests).objects
        entering := pool.dispatcher.entering ++ (pool.refill make host requests).objects } } := by
  induction requests using List.reverseRecOn with
  | nil => simp [refill, Refill.objects]
  | append_singleton requests request ih =>
    simp only [refill, List.foldl_append, List.foldl_cons, List.foldl_nil] at ih ⊢
    simp only [Refill.next, Refill.objects, instantiate_snd, List.flatMap_append,
      List.flatMap_cons, List.flatMap_nil, List.append_nil] at ih ⊢
    rw [ih]
    simp [Dispatcher.record, instantiate]

private theorem state_refill (pool : Pool η π) (make : Maker σ η π ω) (host : Host σ ω)
    (requests : List (Request π)) (object : ObjectId) :
    (pool.refill make host requests).host.registry.state object = host.registry.state object := by
  induction requests using List.reverseRecOn with
  | nil => rfl
  | append_singleton requests request ih =>
    simp only [refill, List.foldl_append, List.foldl_cons, List.foldl_nil] at ih ⊢
    exact (Host.state_after ..).trans ih

end Pool

private theorem Pass.Fills.state_eq {make : Maker σ η π ω} {host made : Host σ ω}
    {pass last : Pass η π} (fills : Fills make host pass made last) (object : ObjectId) :
    made.registry.state object = host.registry.state object := by
  induction fills with
  | settled => rfl
  | matched _ _ ih => exact ih
  | filled _ _ ih => exact ih.trans (Host.state_after ..)

/-- What a pass with places that are filled on the spot comes to is what the same pass comes to when
the places are handed back and filled after it. -/
structure SameWork {make : Maker σ η π ω} {host : Host σ ω} {pool : Pool η π}
    (direct : FilledEnding make host pool) (staged : RefilledEnding make host pool) : Prop where
  moved : direct.outcome.moved = staged.outcome.moved
  disposed : direct.outcome.disposed = staged.outcome.disposed
  /-- The same content is placed under the same tickets, in the same order. -/
  inserted : direct.outcome.inserted = staged.refill.placed
  /-- The index, the deferrals, the counters and what is to retire are the same. -/
  pool : direct.after = staged.afterRefill
  memory : direct.made.memory = staged.refill.host.memory
  states : ∀ object, direct.registry.state object = staged.registryLater.state object
  /-- Every object is told the same, in the same order. -/
  stories : ∀ object, storyOf direct.told object =
    storyOf staged.told object ++ storyOf staged.toldLater object
  exited : direct.outcome.lifecycle.exited =
    staged.outcome.lifecycle.exited + staged.drainLater.report.exited
  retained : direct.outcome.lifecycle.retained =
    staged.outcome.lifecycle.retained + staged.drainLater.report.retained
  entered : direct.outcome.lifecycle.entered =
    staged.outcome.lifecycle.entered + staged.drainLater.report.entered
  errors : direct.outcome.lifecycle.errors =
    staged.outcome.lifecycle.errors ++ staged.drainLater.report.errors

namespace Ending

variable {filling : Filling} {pool : Pool η π}

/-- What is delivered at the end of a pass: what was recorded before, and the farewell of what no
request took. -/
private theorem dispatcher_eq (ending : Ending filling pool) :
    ending.settled.disposeDepartures.pool.dispatcher =
      { ending.settled.pool.dispatcher with
        exiting := ending.settled.pool.dispatcher.exiting ++
          (ending.settled.pool.leftovers.filter Entry.active).flatMap Entry.objects
        retiring := ending.settled.pool.dispatcher.retiring ++
          ending.settled.pool.leftovers.flatMap Entry.objects } := by
  simp only [Pass.disposeDepartures, Pool.disposeDepartures_eq, Pool.foldl_farewell]

end Ending

namespace RefilledEnding

variable {make : Maker σ η π ω} {host : Host σ ω} {pool : Pool η π}
  (staged : RefilledEnding make host pool)

/-- The host when the pass has been ended and no place has been filled yet. -/
def hostAfter : Host σ ω := ⟨host.memory, staged.registry⟩

private theorem size_eq : staged.registry.objects.size = host.registry.objects.size := by
  have same (index : Nat) : index < staged.registry.objects.size ↔
      index < host.registry.objects.size := by
    have present := staged.listening.isSome_get? ⟨index⟩
    rw [Bool.eq_iff_iff, Lifecycle.Registry.isSome_get?_iff,
      Lifecycle.Registry.isSome_get?_iff] at present
    exact present
  exact Nat.le_antisymm (Nat.le_of_not_lt fun more => Nat.lt_irrefl _ ((same _).mp more))
    (Nat.le_of_not_lt fun less => Nat.lt_irrefl _ ((same _).mpr less))

/-- When the places are filled, everything before has been delivered. -/
private theorem dispatcher_refill :
    staged.refill.pool.dispatcher =
      staged.settled.disposeDepartures.pool.dispatcher.welcoming staged.refill.objects := by
  have delivered := staged.delivery.dispatcher_eq staged.finished
  rw [← staged.refilling, Pool.pool_refill, Ending.after, delivered]
  rfl

end RefilledEnding

section Endings

variable {make : Maker σ η π ω} {host : Host σ ω} {pool : Pool η π}
  {config : Settings.RelocationConfig}

/-- Both passes go through the same requests. -/
private theorem parallel_of_endings (hosted : Pool.Hosted config host.registry pool)
    (direct : FilledEnding make host pool) (staged : RefilledEnding make host pool) :
    Parallel make ⟨[], staged.hostAfter, staged.after⟩ host.registry.objects.size direct.made
      direct.settled staged.settled staged.refill := by
  have old (object : ObjectId) (names : pool.Names object) :
      isAmong host.registry.objects.size object := by
    have present := hosted.exist names
    rw [Lifecycle.Registry.isSome_get?_iff] at present
    exact decide_eq_true present
  have told (event : Lifecycle.Event) (object : ObjectId)
      (recorded : object ∈ pool.dispatcher.recorded event) :
      isAmong host.registry.objects.size object := old object (.recorded recorded)
  have start : Parallel make ⟨[], staged.hostAfter, staged.after⟩ host.registry.objects.size host
      pool.endPass pool.endPass ⟨[], staged.hostAfter, staged.after⟩ :=
    { later := rfl
      requests := rfl
      moved := rfl
      pool := rfl
      inserted := rfl
      alike := ⟨rfl, staged.size_eq.symm⟩
      lists := .start (told .exited) (told .retained) (told .entered)
      kept := hosted.kept
      old := fun object names => old object <| by
        cases names with
        | recorded recorded => exact .recorded recorded
        | waits waits own => exact .waits waits own
      new := nofun
      grown := Nat.le_refl _ }
  obtain ⟨handedOut, lastHanded, refilled, advances, settled, parallel⟩ :=
    direct.filling.parallel start
  have same := advances.eq_of_settled settled staged.matching staged.complete
  subst same
  have refill : refilled = staged.refill := parallel.later.symm.trans staged.refilling
  exact refill ▸ parallel

variable (hosted : Pool.Hosted config host.registry pool) (direct : FilledEnding make host pool)
  (staged : RefilledEnding make host pool)
include hosted

private theorem leftovers_eq : direct.settled.pool.leftovers = staged.settled.pool.leftovers := by
  rw [Pool.leftovers, Pool.leftovers, (parallel_of_endings hosted direct staged).departures]

/-- The lists of the two passes differ in the new objects only. -/
private theorem mixed_of_endings :
    Dispatcher.Mixed (isAmong host.registry.objects.size) staged.refill.objects
      direct.settled.disposeDepartures.pool.dispatcher
      staged.settled.disposeDepartures.pool.dispatcher := by
  have parallel := parallel_of_endings hosted direct staged
  rw [direct.dispatcher_eq, staged.dispatcher_eq, leftovers_eq hosted direct staged]
  refine parallel.lists.leave (fun object member => ?_) _
  obtain ⟨entry, among, own⟩ := List.mem_flatMap.mp member
  obtain ⟨departure, ordered, rfl⟩ := List.mem_map.mp (List.mem_filter.mp among).1
  have waits := staged.settled.pool.departures.inReportOrder_perm.mem_iff.mp ordered
  exact parallel.old object (.waits waits own)

private theorem arrivals_of_endings :
    Lifecycle.Arrivals (isAmong host.registry.objects.size) staged.refill.objects
      direct.made.registry host.registry staged.registry staged.refill.host.registry := by
  have parallel := parallel_of_endings hosted direct staged
  constructor
  case state => exact direct.filling.state_eq
  case stateLater =>
    rw [← staged.refilling]
    exact Pool.state_refill staged.after make staged.hostAfter _
  case existed =>
    intro object
    rw [Bool.eq_iff_iff, Lifecycle.Registry.isSome_get?_iff, isAmong, decide_eq_true_iff]
  case kept =>
    intro object own
    rw [Lifecycle.Registry.isSome_get?_iff]
    exact Nat.lt_of_lt_of_le (of_decide_eq_true own) parallel.grown
  case new =>
    intro object member
    have created := (parallel.new object member).2
    rw [Lifecycle.Registry.isSome_get?_iff, Lifecycle.Registry.isSome_get?_iff,
      ← parallel.alike.size]
    exact ⟨created, created⟩

private theorem after_of_endings : direct.after = staged.afterRefill := by
  have parallel := parallel_of_endings hosted direct staged
  have lists := mixed_of_endings hosted direct staged
  obtain ⟨proceeds, finished⟩ := staged.listeningLater.proceeds
  have retiring : direct.drain.dispatcher = staged.drainLater.dispatcher := by
    rw [direct.delivery.dispatcher_eq direct.finished, proceeds.dispatcher_eq finished,
      staged.dispatcher_refill, Dispatcher.drained, Dispatcher.drained, lists.retiring]
    rfl
  have refilled : staged.refill.pool =
      { staged.after with dispatcher := staged.refill.pool.dispatcher } := by
    rw [← staged.refilling, Pool.pool_refill]
  rw [RefilledEnding.afterRefill, refilled, ← retiring]
  simp only [Ending.after, Pass.closedPool, Pool.passNumber, Pass.disposeDepartures,
    Pool.disposeDepartures_eq]
  rw [parallel.pool]

/-- To fill places during a pass is to fill them after it: the same content moves, is placed and is
disposed, the pool is left the same, and every object hears the same. -/
private theorem sameWork : SameWork direct staged := by
  have parallel := parallel_of_endings hosted direct staged
  have telling := (mixed_of_endings hosted direct staged).sameTelling
    (arrivals_of_endings hosted direct staged) direct.listening staged.listening
    (staged.dispatcher_refill ▸ staged.listeningLater)
  exact {
    moved := parallel.moved
    disposed := congrArg (List.map Entry.handle) (leftovers_eq hosted direct staged)
    inserted := parallel.inserted
    pool := after_of_endings hosted direct staged
    memory := parallel.alike.memory
    states := telling.states
    stories := telling.stories
    exited := telling.counts .exits
    retained := telling.counts .retentions
    entered := telling.counts .entries
    errors := telling.errors }

end Endings

namespace Pool

variable {config : Settings.RelocationConfig}

private theorem exists_filledEnding (pool : Pool η π) (make : Maker σ η π ω) (host : Host σ ω) :
    Nonempty (FilledEnding make host pool) := by
  obtain ⟨made, settled, filling⟩ := Pass.exists_fills make host pool.endPass
  obtain ⟨complete, handedOut, matching⟩ := filling.advances
  obtain ⟨told, registry, drain, listening⟩ :=
    settled.disposeDepartures.pool.dispatcher.drain.exists_delivers made.registry
  obtain ⟨delivery, finished⟩ := listening.proceeds
  exact ⟨⟨⟨settled, handedOut, drain, matching, complete, delivery, finished⟩, made, told,
    registry, filling, listening⟩⟩

private theorem exists_refilledEnding (pool : Pool η π) (make : Maker σ η π ω) (host : Host σ ω) :
    Nonempty (RefilledEnding make host pool) := by
  obtain ⟨handedOut, settled, matching, complete⟩ :
      ∃ handedOut settled, pool.endPass.Advances .handsBack handedOut settled ∧
        settled.step = .settled := by
    cases waiting : pool.deferred with
    | nil => exact ⟨[], pool.endPass, .refl _, by simp [Pass.step, Pool.endPass, waiting]⟩
    | cons request _ =>
      exact Pass.Advances.exists_settled .handsBack (host.content make request).handle pool.endPass
  obtain ⟨told, registry, drain, listening⟩ :=
    settled.disposeDepartures.pool.dispatcher.drain.exists_delivers host.registry
  obtain ⟨delivery, finished⟩ := listening.proceeds
  let ending : Ending .handsBack pool :=
    ⟨settled, handedOut, drain, matching, complete, delivery, finished⟩
  let refill := ending.after.refill make ⟨host.memory, registry⟩ ending.outcome.fresh
  obtain ⟨toldLater, registryLater, drainLater, listeningLater⟩ :=
    refill.pool.dispatcher.drain.exists_delivers refill.host.registry
  exact ⟨⟨ending, told, registry, refill, toldLater, registryLater, drainLater, listening, rfl,
    listeningLater⟩⟩

/-- For every pool that a host can come to have, and every way in which the host may make new
content: the end of a pass in which the host fills places on the spot, and the end of a pass after
which it fills them, both come about, and they come to the same. -/
theorem filling_in_pass_is_filling_after {host : Host σ ω} {pool : Pool η π}
    (hosted : Pool.Hosted config host.registry pool) (make : Maker σ η π ω) :
    Nonempty (FilledEnding make host pool) ∧ Nonempty (RefilledEnding make host pool) ∧
      ∀ (direct : FilledEnding make host pool) (staged : RefilledEnding make host pool),
        SameWork direct staged :=
  ⟨pool.exists_filledEnding make host, pool.exists_refilledEnding make host,
    fun direct staged => sameWork hosted direct staged⟩

/-- A place waits for content that then departs while it is inactive, so that it will enter again;
another place waits in vain. -/
theorem filling_in_pass_is_filling_after_mixed :
    ∃ (host : Host Unit Unit) (pool : Pool Unit Unit),
      Hosted ⟨false⟩ host.registry pool ∧ pool.deferred.length = 2 ∧ pool.departures.size = 1 ∧
        ∀ (make : Maker Unit Unit Unit Unit) (direct : FilledEnding make host pool)
          (staged : RefilledEnding make host pool), SameWork direct staged := by
  let host : Host Unit Unit := ⟨(), ⟨#[⟨.exited, ()⟩]⟩⟩
  have known (after : Pool Unit Unit) (quiet : after.dispatcher = {})
      (own : ∀ departure ∈ after.departures.all, departure.entry.objects = [⟨0⟩])
      (object : ObjectId) (names : after.Names object) :
      (host.registry.get? object).isSome := by
    cases names with
    | @recorded event recorded =>
      rw [quiet] at recorded
      cases event <;> cases recorded
    | waits waits member =>
      rw [own _ waits, List.mem_singleton] at member
      subst member
      rfl
  let empty : Pool Unit Unit := { config := ⟨false⟩ }
  let awaited := (empty.requestPlacement ⟨1⟩ () ⟨0⟩).2
  have first : Hosted ⟨false⟩ host.registry awaited :=
    .calls (.created _) (.placeLater (by rintro _ ⟨⟩)) fun object names =>
      .inr (known _ rfl (by rintro _ ⟨⟩) object names)
  let departed : Pool Unit Unit := { awaited with
    departures := awaited.departures.add ⟨0, ⟨⟨1⟩, (), (), ⟨0⟩, [⟨0⟩], false⟩⟩
    everDeparted := [⟨1⟩]
    nextDeparture := 1
    stats := { departures := 1 } }
  have own : ∀ departure ∈ departed.departures.all, departure.entry.objects = [⟨0⟩] := by
    rintro _ (_ | ⟨_, ⟨⟩⟩)
    rfl
  have second : Hosted ⟨false⟩ host.registry departed :=
    .calls first (.report (Pool.reportDeparture_eq_ok_iff.mpr ⟨rfl, rfl⟩)) fun object names =>
      .inr (known _ rfl own object names)
  let pool := (departed.requestPlacement ⟨2⟩ () ⟨0⟩).2
  have third : Hosted ⟨false⟩ host.registry pool :=
    .calls second (.placeLater (by rintro _ ⟨⟩)) fun object names =>
      .inr (known pool rfl own object names)
  exact ⟨host, pool, third, rfl, rfl, fun make =>
    (filling_in_pass_is_filling_after third make).2.2⟩

end Pool

end LiveTree.Relocation
