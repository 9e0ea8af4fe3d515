import LiveTree.Proofs.Sequences
import LiveTree.Proofs.Relocation.Disposal
import LiveTree.Proofs.Relocation.Matching

/-! A pool and everything around it. The host creates objects, holds content and batches of
retirements, and calls the pool; objects that are told something only listen. Every object is
given to the pool once, before it was told anything, and nobody else tells it anything. Whatever
happens in such a scene is then a course of the affairs of its objects. -/
namespace LiveTree.Relocation

open Lifecycle (ObjectId State Registry Dispatcher RetireBatch Drain Retirement)
open scoped List

variable {η π ω : Type}

/-- Where a pool stands: between two passes, in the middle of the matching at the end of one, or
given up. -/
inductive Stage (η π : Type) where
  | resting (pool : Pool η π)
  | matching (filling : Filling) (pass : Pass η π)
  | gone

namespace Stage

def departures : Stage η π → Departures η π
  | resting pool => pool.departures
  | matching _ pass => pass.pool.departures
  | gone => {}

/-- What objects are to be told. A pool that is given up has told everything. -/
def dispatcher : Stage η π → Dispatcher
  | resting pool => pool.dispatcher
  | matching _ pass => pass.pool.dispatcher
  | gone => {}

end Stage

/-- The content that a pass has placed so far. -/
def Pass.placed (pass : Pass η π) : List (Entry η π) :=
  pass.moved.map Prod.snd ++ pass.inserted.map Prod.snd

private theorem Pass.placed_moved (pass : Pass η π) (pair : PlacementTicket × Entry η π) :
    { pass with moved := pass.moved ++ [pair] }.placed ~ pair.2 :: pass.placed := by
  simp [placed]

private theorem Pass.placed_inserted (pass : Pass η π) (pair : PlacementTicket × Entry η π) :
    { pass with inserted := pass.inserted ++ [pair] }.placed ~ pair.2 :: pass.placed := by
  simp only [placed, List.map_append, List.map_cons, List.map_nil, ← List.append_assoc]
  exact List.perm_append_singleton ..

/-- Content that a pass moves joins all that is around. -/
theorem Pass.entries_moved (pass : Pass η π) (held waiting : List (Entry η π))
    (pair : PlacementTicket × Entry η π) :
    held ++ (waiting ++ { pass with moved := pass.moved ++ [pair] }.placed) ~
      pair.2 :: (held ++ (waiting ++ pass.placed)) :=
  perm_behind held waiting (pass.placed_moved pair)

/-- New content that a pass inserts joins all that is around. -/
theorem Pass.entries_inserted (pass : Pass η π) (held waiting : List (Entry η π))
    (pair : PlacementTicket × Entry η π) :
    held ++ (waiting ++ { pass with inserted := pass.inserted ++ [pair] }.placed) ~
      pair.2 :: (held ++ (waiting ++ pass.placed)) :=
  perm_behind held waiting (pass.placed_inserted pair)

theorem Pool.leftovers_perm (pool : Pool η π) :
    pool.leftovers ~ pool.departures.all.map Departure.entry :=
  pool.departures.inReportOrder_perm.map _

theorem Pool.entries_leftovers (pool : Pool η π) (held : List (Entry η π)) :
    held ++ pool.departures.all.map Departure.entry ~ pool.leftovers ++ held :=
  List.perm_append_comm.trans (pool.leftovers_perm.symm.append_right held)

/-- At the end of a pass the host gets what was placed, and the rest is left over. -/
theorem Pass.entries_leftovers (pass : Pass η π) (held : List (Entry η π)) :
    held ++ (pass.pool.departures.all.map Departure.entry ++ pass.placed) ~
      pass.pool.leftovers ++ (pass.placed ++ held) := by
  calc held ++ (pass.pool.departures.all.map Departure.entry ++ pass.placed)
    _ ~ pass.pool.departures.all.map Departure.entry ++ pass.placed ++ held :=
      List.perm_append_comm
    _ = pass.pool.departures.all.map Departure.entry ++ (pass.placed ++ held) :=
      List.append_assoc ..
    _ ~ pass.pool.leftovers ++ (pass.placed ++ held) :=
      pass.pool.leftovers_perm.symm.append_right _

/-- The content that a stage holds: the departures that wait, and what is not handed out yet. -/
def Stage.entries : Stage η π → List (Entry η π)
  | resting pool => pool.departures.all.map Departure.entry
  | matching _ pass => pass.pool.departures.all.map Departure.entry ++ pass.placed
  | gone => []

/-- The content that comes with an answer. -/
def Placement.entries : Placement η π → List (Entry η π)
  | moved entry => [entry]
  | insertNow _ => []
  | deferred _ => []

/-- A pool with all that is around it: the objects, which of them were given to the pool, the
content that the host holds, and its batches of retirements. -/
structure Scene (η π ω : Type) where
  registry : Registry ω
  given : List ObjectId
  held : List (Entry η π)
  batches : List RetireBatch
  stage : Stage η π

namespace Scene

/-- A new pool, before any object is created. -/
def new (config : Settings.RelocationConfig) : Scene η π ω :=
  ⟨{}, [], [], [], .resting { config }⟩

/-- What matters for the objects of a scene. -/
def affairs (scene : Scene η π ω) : Affairs ω where
  registry := scene.registry
  given := scene.given
  live := (scene.held ++ scene.stage.entries).map Entry.objects
  dispatcher := scene.stage.dispatcher
  batches := scene.batches

/-- One thing that the host does, or that the end of a pass does between two things that the host
does; with what is told, and the content that is disposed. -/
inductive Step : Scene η π ω → List (ObjectId × State) → List (Entry η π) → Scene η π ω → Prop
  | create (scene : Scene η π ω) (observer : ω) :
      Step scene [] [] { scene with registry := (scene.registry.create observer).2 }
  | instantiate {scene : Scene η π ω} {pool : Pool η π} (resting : scene.stage = .resting pool)
      (descriptor : DescriptorId) (handle : η) (parameter : π) (position : Position.Hash)
      {objects : List ObjectId} (fresh : scene.affairs.Fresh objects) :
      Step scene [] [] { scene with
        given := objects ++ scene.given
        held := (pool.instantiate descriptor handle parameter position objects).1 :: scene.held
        stage := .resting (pool.instantiate descriptor handle parameter position objects).2 }
  | setHandle {scene : Scene η π ω} {entry : Entry η π} {rest : List (Entry η π)}
      (held : scene.held ~ entry :: rest) (handle : η) :
      Step scene [] [] { scene with held := { entry with handle } :: rest }
  | discard {scene : Scene η π ω} {entry : Entry η π} {rest : List (Entry η π)}
      (held : scene.held ~ entry :: rest) : Step scene [] [] { scene with held := rest }
  | deactivate {scene : Scene η π ω} {pool : Pool η π} (resting : scene.stage = .resting pool)
      {entry : Entry η π} {rest : List (Entry η π)} (held : scene.held ~ entry :: rest) :
      Step scene [] [] { scene with
        held := (pool.deactivate entry).1 :: rest
        stage := .resting (pool.deactivate entry).2 }
  | report {scene : Scene η π ω} {pool after : Pool η π} (resting : scene.stage = .resting pool)
      {descriptor : DescriptorId} {entry : Entry η π} {rest : List (Entry η π)}
      (held : scene.held ~ entry :: rest)
      (accepted : pool.reportDeparture descriptor entry = .ok after) :
      Step scene [] [] { scene with held := rest, stage := .resting after }
  | claim {scene : Scene η π ω} {pool after : Pool η π} (resting : scene.stage = .resting pool)
      {id : DescriptorId} {entry : Entry η π} (answer : pool.claim id = some (entry, after)) :
      Step scene [] [] { scene with held := entry :: scene.held, stage := .resting after }
  | place {scene : Scene η π ω} {pool : Pool η π} (resting : scene.stage = .resting pool)
      (descriptor : DescriptorId) (parameter : π) (position : Position.Hash) :
      Step scene [] [] { scene with
        held := (pool.requestPlacement descriptor parameter position).1.entries ++ scene.held
        stage := .resting (pool.requestPlacement descriptor parameter position).2 }
  | beginPass {scene : Scene η π ω} {pool : Pool η π} (resting : scene.stage = .resting pool)
      (filling : Filling) :
      Step scene [] [] { scene with stage := .matching filling pool.endPass }
  | matched {scene : Scene η π ω} {filling : Filling} {pass next : Pass η π}
      (matching : scene.stage = .matching filling pass) {request : Request π}
      {claimed : Entry η π} (step : pass.step = .matched request claimed next) :
      Step scene [] [] { scene with stage := .matching filling next }
  | handedBack {scene : Scene η π ω} {pass next : Pass η π}
      (matching : scene.stage = .matching .handsBack pass) {request : Request π}
      (step : pass.step = .unmatched request next) :
      Step scene [] [] { scene with stage := .matching .handsBack (next.handBack request) }
  | inserted {scene : Scene η π ω} {pass next : Pass η π}
      (matching : scene.stage = .matching .inserts pass) {request : Request π}
      (step : pass.step = .unmatched request next) (handle : η) {objects : List ObjectId}
      (fresh : scene.affairs.Fresh objects) :
      Step scene [] [] { scene with
        given := objects ++ scene.given
        stage := .matching .inserts (next.insert request handle objects) }
  | insertPanics {scene : Scene η π ω} {pass next : Pass η π}
      (matching : scene.stage = .matching .inserts pass) {request : Request π}
      (step : pass.step = .unmatched request next) :
      Step scene [] [] { scene with stage := .resting next.pool }
  | endPass {scene : Scene η π ω} {filling : Filling} {pass : Pass η π}
      (matching : scene.stage = .matching filling pass) (settled : pass.step = .settled)
      {told : List (ObjectId × State)} {registry : Registry ω} {drain : Drain}
      (delivery : Drain.Delivers scene.registry pass.disposeDepartures.pool.dispatcher.drain told
        registry drain) :
      Step scene told pass.pool.leftovers { scene with
        registry
        held := pass.placed ++ scene.held
        stage := .resting
          { pass.disposeDepartures.closedPool with dispatcher := drain.dispatcher } }
  | dispatch {scene : Scene η π ω} {pool : Pool η π} (resting : scene.stage = .resting pool)
      {told : List (ObjectId × State)} {registry : Registry ω} {drain : Drain}
      (delivery : Drain.Delivers scene.registry pool.dispatcher.drain told registry drain) :
      Step scene told [] { scene with
        registry
        stage := .resting { pool with dispatcher := drain.dispatcher } }
  | takeRetirements {scene : Scene η π ω} {pool : Pool η π}
      (resting : scene.stage = .resting pool) :
      Step scene [] [] { scene with
        batches := ⟨pool.dispatcher.takeRetirements.1⟩ :: scene.batches
        stage := .resting { pool with dispatcher := pool.dispatcher.takeRetirements.2 } }
  | mergeBatches {scene : Scene η π ω} {first second : RetireBatch} {rest : List RetireBatch}
      (among : scene.batches ~ first :: second :: rest) :
      Step scene [] [] { scene with batches := first.extend second :: rest }
  | deliverBatch {scene : Scene η π ω} {batch : RetireBatch} {rest : List RetireBatch}
      {told : List (ObjectId × State)} {registry : Registry ω}
      (among : scene.batches ~ batch :: rest)
      (delivery : Retirement.Delivers scene.registry batch.deliver told registry) :
      Step scene told [] { scene with registry, batches := rest }
  | discardPool {scene : Scene η π ω} {pool : Pool η π} (resting : scene.stage = .resting pool)
      {told more : List (ObjectId × State)} {middle registry : Registry ω} {drain : Drain}
      (delivery : Drain.Delivers scene.registry pool.disposeDepartures.dispatcher.drain told
        middle drain)
      (retirement : Retirement.Delivers middle
        (RetireBatch.deliver ⟨drain.dispatcher.takeRetirements.1⟩) more registry) :
      Step scene (told ++ more) pool.leftovers { scene with registry, stage := .gone }

/-- Things happen one after another, with all that is told. -/
inductive Run : Scene η π ω → List (ObjectId × State) → Scene η π ω → Prop
  | refl (scene : Scene η π ω) : Run scene [] scene
  | next {first middle last : Scene η π ω} {told more : List (ObjectId × State)}
      {disposed : List (Entry η π)} (run : Run first told middle)
      (step : Step middle more disposed last) : Run first (told ++ more) last

end Scene

namespace Departures

variable {departures rest : Departures η π}

theorem entries_add (distinct : departures.queues.Distinct) (departure : Departure η π) :
    (departures.add departure).all.map Departure.entry ~
      departure.entry :: departures.all.map Departure.entry :=
  (all_add_perm distinct departure).map _

theorem entries_claim (distinct : departures.queues.Distinct) {id : DescriptorId}
    {departure : Departure η π} (claimed : departures.claim id = some (departure, rest)) :
    departures.all.map Departure.entry ~ departure.entry :: rest.all.map Departure.entry :=
  (all_claim_perm distinct claimed).map _

/-- What is reported comes from what is held. -/
theorem entries_report {held others : List (Entry η π)}
    (distinct : departures.queues.Distinct) {entry : Entry η π} (among : held ~ entry :: others)
    (number : Nat) :
    held ++ departures.all.map Departure.entry ~
      others ++ (departures.add ⟨number, entry⟩).all.map Departure.entry :=
  (among.append_right _).trans
    (List.perm_middle.symm.trans ((entries_add distinct ⟨number, entry⟩).symm.append_left others))

/-- What is claimed comes to what is held. -/
theorem entries_claim_behind (held : List (Entry η π)) (distinct : departures.queues.Distinct)
    {id : DescriptorId} {departure : Departure η π}
    (claimed : departures.claim id = some (departure, rest)) :
    held ++ departures.all.map Departure.entry ~
      departure.entry :: held ++ rest.all.map Departure.entry :=
  ((entries_claim distinct claimed).append_left held).trans List.perm_middle

/-- What is claimed in the middle of a pass leaves what is placed and held as it was. -/
theorem entries_claim_between (held placed : List (Entry η π))
    (distinct : departures.queues.Distinct) {id : DescriptorId} {departure : Departure η π}
    (claimed : departures.claim id = some (departure, rest)) :
    held ++ (departures.all.map Departure.entry ++ placed) ~
      departure.entry :: (held ++ (rest.all.map Departure.entry ++ placed)) :=
  (((entries_claim distinct claimed).append_right placed).append_left held).trans
    List.perm_middle

private theorem distinct_claim (distinct : departures.queues.Distinct) {id : DescriptorId}
    {departure : Departure η π} (claimed : departures.claim id = some (departure, rest)) :
    rest.queues.Distinct := by
  obtain ⟨queue, -, rfl⟩ := claim_eq_some_iff.mp claimed
  exact Table.distinct_set distinct id queue

end Departures

namespace Scene

/-- Every descriptor has one queue in the index. -/
def Indexed (scene : Scene η π ω) : Prop := scene.stage.departures.queues.Distinct

variable {scene next : Scene η π ω} {told : List (ObjectId × State)} {disposed : List (Entry η π)}

namespace Step

theorem indexed (step : scene.Step told disposed next) (indexed : scene.Indexed) :
    next.Indexed := by
  obtain ⟨registry, given, held, batches, stage⟩ := scene
  cases step with
  | create | setHandle | discard | mergeBatches | deliverBatch => exact indexed
  | instantiate resting | takeRetirements resting | dispatch resting | beginPass resting =>
    cases resting
    exact indexed
  | deactivate resting =>
    cases resting
    rw [Indexed, Pool.deactivate_snd]
    exact indexed
  | report resting held accepted =>
    cases resting
    obtain ⟨-, rfl⟩ := Pool.reportDeparture_eq_ok_iff.mp accepted
    exact Table.distinct_set indexed _ _
  | claim resting answer =>
    cases resting
    obtain ⟨_, _, taken, -, rfl⟩ := Pool.claim_eq_some_iff.mp answer
    exact Departures.distinct_claim indexed taken
  | @place pool resting descriptor parameter position =>
    cases resting
    rcases pool.requestPlacement_cases descriptor parameter position with
      ⟨_, _, -, taken, same⟩ | ⟨-, -, -, same⟩ | ⟨-, -, same⟩
    · rw [same]
      exact Departures.distinct_claim indexed taken
    · rw [same]
      exact indexed
    · rw [same]
      exact indexed
  | matched matching step =>
    cases matching
    obtain ⟨_, _, _, -, taken, -, rfl⟩ := Pass.of_step_eq_matched step
    exact Departures.distinct_claim indexed taken
  | handedBack matching step | inserted matching step | insertPanics matching step =>
    cases matching
    obtain ⟨_, -, -, rfl⟩ := Pass.of_step_eq_unmatched step
    exact indexed
  | endPass =>
    have none : ({} : Departures η π).queues.Distinct := List.nodup_nil
    simpa [Indexed, Stage.departures, Pass.closedPool, Pass.disposeDepartures,
      Pool.disposeDepartures_eq] using none
  | discardPool => exact List.nodup_nil

/-- The end of a pass disposes what no request took. -/
private theorem disposal_of_endPass {filling : Filling} {pass : Pass η π} {registry : Registry ω}
    {drain : Drain} (matching : scene.stage = .matching filling pass)
    (delivery : Drain.Delivers scene.registry pass.disposeDepartures.pool.dispatcher.drain told
      registry drain) :
    scene.affairs.Disposal pass.pool.leftovers told
      (affairs { scene with
        registry
        held := pass.placed ++ scene.held
        stage := .resting
          { pass.disposeDepartures.closedPool with dispatcher := drain.dispatcher } }) := by
  obtain ⟨before, given, held, batches, stage⟩ := scene
  cases matching
  simp only [Pass.disposeDepartures, Pool.disposeDepartures_eq] at delivery
  obtain ⟨proceeds, finished⟩ := delivery.proceeds
  have parted := ((pass.entries_leftovers held).map Entry.objects).trans (.of_eq List.map_append)
  simp only [affairs, Stage.entries, Stage.dispatcher, Pass.closedPool, Pass.disposeDepartures,
    Pool.disposeDepartures_eq, Departures.all_empty, List.map_nil, List.append_nil,
    proceeds.dispatcher_eq finished]
  exact .disposed parted delivery

/-- A pool that is given up disposes what waits, and then tells the retirements. -/
private theorem disposal_of_discardPool {pool : Pool η π} {more : List (ObjectId × State)}
    {middle registry : Registry ω} {drain : Drain} (resting : scene.stage = .resting pool)
    (delivery : Drain.Delivers scene.registry pool.disposeDepartures.dispatcher.drain told middle
      drain)
    (retirement : Retirement.Delivers middle
      (RetireBatch.deliver ⟨drain.dispatcher.takeRetirements.1⟩) more registry) :
    ∃ after, scene.affairs.Disposal pool.leftovers told after ∧
      after.Course more (affairs { scene with registry, stage := .gone }) := by
  obtain ⟨before, given, held, batches, stage⟩ := scene
  cases resting
  simp only [Pool.disposeDepartures_eq] at delivery
  obtain ⟨proceeds, finished⟩ := delivery.proceeds
  have parted := ((pool.entries_leftovers held).map Entry.objects).trans (.of_eq List.map_append)
  refine ⟨_, .disposed parted delivery, .quietly (.single (.take _)) ?_⟩
  rw [proceeds.dispatcher_eq finished] at retirement
  simp only [affairs, Stage.entries, List.append_nil]
  exact .single (.deliverBatch (.refl _) retirement)

/-- Whatever happens in a scene is a course of the affairs of its objects. -/
theorem course (step : scene.Step told disposed next) (indexed : scene.Indexed) :
    scene.affairs.Course told next.affairs := by
  obtain ⟨registry, given, held, batches, stage⟩ := scene
  cases step with
  | create observer => exact .single (.create _ observer)
  | instantiate resting _ _ _ _ fresh =>
    cases resting
    exact .single (.give fresh)
  | setHandle among handle =>
    exact .passOn ((among.append_right stage.entries).map Entry.objects)
  | @discard entry rest among =>
    have fewer : rest.map Entry.objects <+~ held.map Entry.objects :=
      ((List.sublist_cons_self entry rest).map _).subperm.trans (among.map _).symm.subperm
    refine .single (.release ?_)
    simpa [affairs] using
      (List.subperm_append_right (stage.entries.map Entry.objects)).mpr fewer
  | @deactivate pool resting entry rest among =>
    cases resting
    refine .quietly (.passOn ((among.append_right _).map Entry.objects)) ?_
    cases active : entry.active with
    | false =>
      simp only [Pool.deactivate, active]
      exact .none _
    | true =>
      simp only [Pool.deactivate, active]
      exact .single (.exit List.mem_cons_self)
  | @report pool _ resting _ entry rest among accepted =>
    cases resting
    obtain ⟨-, rfl⟩ := Pool.reportDeparture_eq_ok_iff.mp accepted
    have same := Departures.entries_report indexed among pool.nextDeparture
    exact .passOn (same.map Entry.objects)
  | @claim pool _ resting _ entry answer =>
    cases resting
    obtain ⟨departure, departures, taken, rfl, rfl⟩ := Pool.claim_eq_some_iff.mp answer
    have left := Departures.entries_claim_behind held indexed taken
    exact .passOn (left.map Entry.objects)
  | @place pool resting descriptor parameter position =>
    cases resting
    rcases pool.requestPlacement_cases descriptor parameter position with
      ⟨departure, departures, -, taken, same⟩ | ⟨-, -, -, same⟩ | ⟨-, -, same⟩
    · rw [same]
      have left := Departures.entries_claim_behind held indexed taken
      refine .quietly (.passOn (left.map Entry.objects)) ?_
      exact .welcome List.mem_cons_self
    · rw [same]
      exact .none _
    · rw [same]
      exact .none _
  | @beginPass pool resting filling =>
    cases resting
    have none : pool.departures.all.map Departure.entry =
        (pool.endPass.pool.departures.all.map Departure.entry ++ pool.endPass.placed) := by
      simp [Pool.endPass, Pass.placed]
    exact .passOn (.of_eq (congrArg (fun entries => (held ++ entries).map Entry.objects) none))
  | @matched _ pass _ matching request _ step =>
    cases matching
    obtain ⟨_, departure, departures, -, taken, -, rfl⟩ := Pass.of_step_eq_matched step
    have left := Departures.entries_claim_between held pass.placed indexed taken
    have arrived := pass.entries_moved held (departures.all.map Departure.entry)
      (request.ticket, departure.entry.placedAt request.parameter request.position)
    refine .quietly (.passOn (left.map Entry.objects)) ?_
    refine .quietly (.welcome List.mem_cons_self) ?_
    exact .passOn (arrived.symm.map Entry.objects)
  | handedBack matching step =>
    cases matching
    obtain ⟨_, -, -, rfl⟩ := Pass.of_step_eq_unmatched step
    exact .none _
  | @inserted pass next matching request step handle objects fresh =>
    cases matching
    obtain ⟨_, -, -, rfl⟩ := Pass.of_step_eq_unmatched step
    have arrived := pass.entries_inserted held (pass.pool.departures.all.map Departure.entry)
      (request.ticket,
        ⟨request.descriptor, handle, request.parameter, request.position, objects, true⟩)
    refine .quietly (.single (.give fresh)) ?_
    exact .passOn (arrived.symm.map Entry.objects)
  | @insertPanics pass _ matching _ step =>
    cases matching
    obtain ⟨_, -, -, rfl⟩ := Pass.of_step_eq_unmatched step
    have fewer : held ++ pass.pool.departures.all.map Departure.entry <+
        held ++ (pass.pool.departures.all.map Departure.entry ++ pass.placed) :=
      (List.sublist_append_left ..).append_left held
    exact .single (.release (fewer.map Entry.objects).subperm)
  | endPass matching settled delivery => exact (disposal_of_endPass matching delivery).course
  | dispatch resting delivery =>
    cases resting
    obtain ⟨proceeds, finished⟩ := delivery.proceeds
    rw [proceeds.dispatcher_eq finished]
    exact .single (.deliver delivery)
  | takeRetirements resting =>
    cases resting
    exact .single (.take _)
  | mergeBatches among => exact .single (.merge among)
  | deliverBatch among delivery => exact .single (.deliverBatch among delivery)
  | discardPool resting delivery retirement =>
    obtain ⟨after, disposal, rest⟩ := disposal_of_discardPool resting delivery retirement
    exact disposal.course.trans rest

/-- What is disposed is given up once and for all, and only then are retirements told. -/
theorem disposal (step : scene.Step told disposed next) {entry : Entry η π}
    (unmatched : entry ∈ disposed) :
    ∃ first rest after, told = first ++ rest ∧ scene.affairs.Disposal disposed first after ∧
      after.Course rest next.affairs := by
  cases step with
  | endPass matching settled delivery =>
    exact ⟨_, [], _, (List.append_nil _).symm, disposal_of_endPass matching delivery, .none _⟩
  | discardPool resting delivery retirement =>
    obtain ⟨after, disposal, rest⟩ := disposal_of_discardPool resting delivery retirement
    exact ⟨_, _, after, rfl, disposal, rest⟩
  | _ => cases unmatched

end Step

namespace Run

variable {config : Settings.RelocationConfig} {last : Scene η π ω}
  {history : List (ObjectId × State)}

/-- So is all that ever happens. -/
theorem course (run : scene.Run told last) (indexed : scene.Indexed) :
    last.Indexed ∧ scene.affairs.Course told last.affairs := by
  induction run with
  | refl => exact ⟨indexed, .none _⟩
  | next _ step ih =>
    obtain ⟨kept, course⟩ := ih
    exact ⟨step.indexed kept, course.trans (step.course kept)⟩

/-- What is always true of the affairs is true in every scene that comes about. -/
theorem sound (run : (new config).Run history last) :
    last.Indexed ∧ Affairs.Sound history last.affairs := by
  obtain ⟨indexed, course⟩ := run.course List.nodup_nil
  exact ⟨indexed, Affairs.Sound.start.course course⟩

end Run

end Scene

end LiveTree.Relocation
