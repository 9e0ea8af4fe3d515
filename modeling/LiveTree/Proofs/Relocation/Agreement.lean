import LiveTree.Proofs.Relocation.Order
import LiveTree.Proofs.Relocation.Scene

/-! Flags and states agree. The flag of content changes at once, the states of its objects only
when they are told; so the two agree directly after every delivery, if content is taken out of the
tree or reported as departing only while nothing of it is still to enter. Nothing is then told in
vain: no delivery makes an illegal attempt, and a batch retires all that it holds.

In such a run the host neither panics nor lets others move the objects; each object is given to
one call, and is new then. -/
namespace LiveTree.Relocation

open Lifecycle (ObjectId State Registry Dispatcher RetireBatch Drain Retirement)
open scoped List

variable {η π ω : Type}

/-- What the host learns: the report of a delivery, or how many objects of a batch retired. -/
inductive Hearing where
  | report (report : Lifecycle.Report)
  | retired (batch : RetireBatch) (count : Nat)

namespace Scene

/-- The content that waits for a place. -/
def waiting (scene : Scene η π ω) : List (Entry η π) :=
  scene.stage.departures.all.map Departure.entry

/-- All content that the host or the pool holds. -/
def entries (scene : Scene η π ω) : List (Entry η π) := scene.held ++ scene.stage.entries

/-- The objects of all content are where its flag says. -/
def Agrees (scene : Scene η π ω) : Prop :=
  ∀ entry ∈ scene.entries, ∀ object ∈ entry.objects, scene.registry.state object = entry.standing

/-- A step of a scene in which nobody panics, and content is taken out of the tree or departs only
while none of its objects is still to enter; with what the host learns. -/
inductive Turn : Scene η π ω → List Hearing → Scene η π ω → Prop
  | create (scene : Scene η π ω) (observer : ω) :
      Turn scene [] { scene with registry := (scene.registry.create observer).2 }
  | instantiate {scene : Scene η π ω} {pool : Pool η π} (resting : scene.stage = .resting pool)
      (descriptor : DescriptorId) (handle : η) (parameter : π) (position : Position.Hash)
      {objects : List ObjectId} (fresh : scene.affairs.Fresh objects) :
      Turn scene [] { scene with
        given := objects ++ scene.given
        held := (pool.instantiate descriptor handle parameter position objects).1 :: scene.held
        stage := .resting (pool.instantiate descriptor handle parameter position objects).2 }
  | setHandle {scene : Scene η π ω} {entry : Entry η π} {rest : List (Entry η π)}
      (held : scene.held ~ entry :: rest) (handle : η) :
      Turn scene [] { scene with held := { entry with handle } :: rest }
  | discard {scene : Scene η π ω} {entry : Entry η π} {rest : List (Entry η π)}
      (held : scene.held ~ entry :: rest) : Turn scene [] { scene with held := rest }
  | deactivate {scene : Scene η π ω} {pool : Pool η π} (resting : scene.stage = .resting pool)
      {entry : Entry η π} {rest : List (Entry η π)} (held : scene.held ~ entry :: rest)
      (told : ∀ object ∈ entry.objects, object ∉ pool.dispatcher.entering) :
      Turn scene [] { scene with
        held := (pool.deactivate entry).1 :: rest
        stage := .resting (pool.deactivate entry).2 }
  | report {scene : Scene η π ω} {pool after : Pool η π} (resting : scene.stage = .resting pool)
      {descriptor : DescriptorId} {entry : Entry η π} {rest : List (Entry η π)}
      (held : scene.held ~ entry :: rest)
      (told : ∀ object ∈ entry.objects, object ∉ pool.dispatcher.entering)
      (accepted : pool.reportDeparture descriptor entry = .ok after) :
      Turn scene [] { scene with held := rest, stage := .resting after }
  | claim {scene : Scene η π ω} {pool after : Pool η π} (resting : scene.stage = .resting pool)
      {id : DescriptorId} {entry : Entry η π} (answer : pool.claim id = some (entry, after)) :
      Turn scene [] { scene with held := entry :: scene.held, stage := .resting after }
  | place {scene : Scene η π ω} {pool : Pool η π} (resting : scene.stage = .resting pool)
      (descriptor : DescriptorId) (parameter : π) (position : Position.Hash) :
      Turn scene [] { scene with
        held := (pool.requestPlacement descriptor parameter position).1.entries ++ scene.held
        stage := .resting (pool.requestPlacement descriptor parameter position).2 }
  | beginPass {scene : Scene η π ω} {pool : Pool η π} (resting : scene.stage = .resting pool)
      (filling : Filling) : Turn scene [] { scene with stage := .matching filling pool.endPass }
  | matched {scene : Scene η π ω} {filling : Filling} {pass next : Pass η π}
      (matching : scene.stage = .matching filling pass) {request : Request π}
      {claimed : Entry η π} (step : pass.step = .matched request claimed next) :
      Turn scene [] { scene with stage := .matching filling next }
  | handedBack {scene : Scene η π ω} {pass next : Pass η π}
      (matching : scene.stage = .matching .handsBack pass) {request : Request π}
      (step : pass.step = .unmatched request next) :
      Turn scene [] { scene with stage := .matching .handsBack (next.handBack request) }
  | inserted {scene : Scene η π ω} {pass next : Pass η π}
      (matching : scene.stage = .matching .inserts pass) {request : Request π}
      (step : pass.step = .unmatched request next) (handle : η) {objects : List ObjectId}
      (fresh : scene.affairs.Fresh objects) :
      Turn scene [] { scene with
        given := objects ++ scene.given
        stage := .matching .inserts (next.insert request handle objects) }
  | endPass {scene : Scene η π ω} {filling : Filling} {pass : Pass η π}
      (matching : scene.stage = .matching filling pass) (settled : pass.step = .settled)
      {heard : List (ObjectId × State)} {registry : Registry ω} {drain : Drain}
      (delivery : Drain.Delivers scene.registry pass.disposeDepartures.pool.dispatcher.drain heard
        registry drain) :
      Turn scene [.report drain.report] { scene with
        registry
        held := pass.placed ++ scene.held
        stage := .resting
          { pass.disposeDepartures.closedPool with dispatcher := drain.dispatcher } }
  | dispatch {scene : Scene η π ω} {pool : Pool η π} (resting : scene.stage = .resting pool)
      {heard : List (ObjectId × State)} {registry : Registry ω} {drain : Drain}
      (delivery : Drain.Delivers scene.registry pool.dispatcher.drain heard registry drain) :
      Turn scene [.report drain.report] { scene with
        registry
        stage := .resting { pool with dispatcher := drain.dispatcher } }
  | takeRetirements {scene : Scene η π ω} {pool : Pool η π}
      (resting : scene.stage = .resting pool) :
      Turn scene [] { scene with
        batches := ⟨pool.dispatcher.takeRetirements.1⟩ :: scene.batches
        stage := .resting { pool with dispatcher := pool.dispatcher.takeRetirements.2 } }
  | mergeBatches {scene : Scene η π ω} {first second : RetireBatch} {rest : List RetireBatch}
      (among : scene.batches ~ first :: second :: rest) :
      Turn scene [] { scene with batches := first.extend second :: rest }
  | deliverBatch {scene : Scene η π ω} {batch : RetireBatch} {rest : List RetireBatch}
      {heard : List (ObjectId × State)} {registry : Registry ω} {last : Retirement}
      (among : scene.batches ~ batch :: rest)
      (delivery : Retirement.Finishes scene.registry batch.deliver heard registry last) :
      Turn scene [.retired batch last.retired] { scene with registry, batches := rest }
  | discardPool {scene : Scene η π ω} {pool : Pool η π} (resting : scene.stage = .resting pool)
      {heard more : List (ObjectId × State)} {middle registry : Registry ω} {drain : Drain}
      {last : Retirement}
      (delivery : Drain.Delivers scene.registry pool.disposeDepartures.dispatcher.drain heard
        middle drain)
      (retirement : Retirement.Finishes middle
        (RetireBatch.deliver ⟨drain.dispatcher.takeRetirements.1⟩) more registry last) :
      Turn scene
        [.report drain.report, .retired ⟨drain.dispatcher.takeRetirements.1⟩ last.retired]
        { scene with registry, stage := .gone }

/-- Turns one after another. All that the host learns is noted with the scene directly after it. -/
inductive Orderly : Scene η π ω → List (Hearing × Scene η π ω) → Scene η π ω → Prop
  | refl (scene : Scene η π ω) : Orderly scene [] scene
  | next {first middle last : Scene η π ω} {heard : List (Hearing × Scene η π ω)}
      {news : List Hearing} (run : Orderly first heard middle) (turn : Turn middle news last) :
      Orderly first (heard ++ news.map (·, last)) last

variable {scene next : Scene η π ω} {news : List Hearing}

/-- A turn is a step of the scene. -/
private theorem Turn.step (turn : scene.Turn news next) :
    ∃ told disposed, scene.Step told disposed next := by
  cases turn with
  | create observer => exact ⟨_, _, .create _ observer⟩
  | instantiate resting descriptor handle parameter position fresh =>
    exact ⟨_, _, .instantiate resting descriptor handle parameter position fresh⟩
  | setHandle held handle => exact ⟨_, _, .setHandle held handle⟩
  | discard held => exact ⟨_, _, .discard held⟩
  | deactivate resting held _ => exact ⟨_, _, .deactivate resting held⟩
  | report resting held _ accepted => exact ⟨_, _, .report resting held accepted⟩
  | claim resting answer => exact ⟨_, _, .claim resting answer⟩
  | place resting descriptor parameter position =>
    exact ⟨_, _, .place resting descriptor parameter position⟩
  | beginPass resting filling => exact ⟨_, _, .beginPass resting filling⟩
  | matched matching step => exact ⟨_, _, .matched matching step⟩
  | handedBack matching step => exact ⟨_, _, .handedBack matching step⟩
  | inserted matching step handle fresh => exact ⟨_, _, .inserted matching step handle fresh⟩
  | endPass matching settled delivery => exact ⟨_, _, .endPass matching settled delivery⟩
  | dispatch resting delivery => exact ⟨_, _, .dispatch resting delivery⟩
  | takeRetirements resting => exact ⟨_, _, .takeRetirements resting⟩
  | mergeBatches among => exact ⟨_, _, .mergeBatches among⟩
  | deliverBatch among delivery => exact ⟨_, _, .deliverBatch among delivery.delivers⟩
  | discardPool resting delivery retirement =>
    exact ⟨_, _, .discardPool resting delivery retirement.delivers⟩

/-- Nothing that waits for a place is still to enter. -/
def Told (scene : Scene η π ω) : Prop :=
  ∀ entry ∈ scene.waiting, ∀ object ∈ entry.objects, object ∉ scene.stage.dispatcher.entering

/-- What the host learns is clean: a report names no illegal move, and flags and states agree
directly after it; a batch has retired all that it held. -/
def Clean (scene : Scene η π ω) : Hearing → Prop
  | .report report => report.errors = [] ∧ scene.Agrees
  | .retired batch count => count = batch.size

private theorem waiting_subset (scene : Scene η π ω) : scene.waiting ⊆ scene.entries := by
  obtain ⟨_, _, _, _, stage⟩ := scene
  cases stage with
  | resting => exact List.subset_append_right ..
  | matching =>
    exact List.Subset.trans (List.subset_append_left ..) (List.subset_append_right ..)
  | gone => exact List.nil_subset _

/-- The entries of new content are of no concern to content that waits. -/
private theorem Told.give {history : List (ObjectId × State)} {objects : List ObjectId}
    (told : scene.Told) (sound : Affairs.Sound history scene.affairs)
    (fresh : scene.affairs.Fresh objects) :
    ∀ entry ∈ scene.waiting, ∀ object ∈ entry.objects,
      object ∉ ((scene.stage.dispatcher.record .retained objects).record .entered
        objects).entering := by
  intro entry present object member recorded
  have given := sound.liveGiven entry.objects
    (List.mem_map_of_mem (scene.waiting_subset present)) member
  rcases List.mem_append.mp recorded with before | new
  · exact told entry present object member before
  · exact (fresh object new).1 given

/-- Nor are those of content that moves. -/
private theorem Told.welcome {moved : Entry η π} {rest : List (Entry η π)} (told : scene.Told)
    (single : scene.affairs.custody.Nodup) (among : scene.entries ~ moved :: rest) :
    ∀ entry ∈ scene.waiting, entry ∈ rest → ∀ object ∈ entry.objects,
      object ∉ (Pool.welcome scene.stage.dispatcher moved).entering := by
  intro entry present left object member recorded
  obtain ⟨-, apart, -⟩ := Affairs.parted_of_nodup single (among.map Entry.objects)
  unfold Pool.welcome at recorded
  split at recorded
  · exact told entry present object member recorded
  · rcases List.mem_append.mp recorded with before | now
    · exact told entry present object member before
    · exact apart entry.objects (List.mem_map_of_mem left) now member

/-- What departs has been told, and nothing is recorded for it to enter while it waits. -/
private theorem Turn.told {history : List (ObjectId × State)} (turn : scene.Turn news next)
    (indexed : scene.Indexed) (sound : Affairs.Sound history scene.affairs)
    (single : scene.affairs.custody.Nodup) (told : scene.Told) : next.Told := by
  obtain ⟨registry, given, held, batches, stage⟩ := scene
  cases turn with
  | create | setHandle | discard | mergeBatches | deliverBatch => exact told
  | instantiate resting _ _ _ _ fresh =>
    cases resting
    exact told.give sound fresh
  | deactivate resting =>
    cases resting
    intro entry present object member
    simp only [waiting, Stage.departures, Stage.dispatcher, Pool.deactivate_snd] at present ⊢
    have before := told entry present object member
    split <;> exact before
  | @report pool _ resting _ entry rest among noEntry accepted =>
    cases resting
    obtain ⟨-, rfl⟩ := Pool.reportDeparture_eq_ok_iff.mp accepted
    have joined := Departures.entries_add indexed ⟨pool.nextDeparture, entry⟩
    intro other present
    rcases List.mem_cons.mp (joined.mem_iff.mp present) with rfl | before
    · exact noEntry
    · exact told other before
  | claim resting answer =>
    cases resting
    obtain ⟨departure, departures, taken, rfl, rfl⟩ := Pool.claim_eq_some_iff.mp answer
    have among := Departures.entries_claim indexed taken
    exact fun other present => told other (among.mem_iff.mpr (List.mem_cons_of_mem _ present))
  | @place pool resting descriptor parameter position =>
    cases resting
    rcases pool.requestPlacement_cases descriptor parameter position with
      ⟨departure, departures, -, taken, same⟩ | ⟨-, -, -, same⟩ | ⟨-, -, same⟩
    · simp only [same]
      have left := Departures.entries_claim_behind held indexed taken
      have among := Departures.entries_claim indexed taken
      exact fun other present => told.welcome single left other
        (among.mem_iff.mpr (List.mem_cons_of_mem _ present)) (List.mem_append_right _ present)
    · simp only [same]
      exact told
    · simp only [same]
      exact told
  | beginPass resting =>
    cases resting
    exact told
  | @matched _ pass _ matching _ _ step =>
    cases matching
    obtain ⟨_, departure, departures, -, taken, -, rfl⟩ := Pass.of_step_eq_matched step
    have left := Departures.entries_claim_between held pass.placed indexed taken
    have among := Departures.entries_claim indexed taken
    exact fun other present => told.welcome single left other
      (among.mem_iff.mpr (List.mem_cons_of_mem _ present))
      (List.mem_append_right _ (List.mem_append_left _ present))
  | handedBack matching step =>
    cases matching
    obtain ⟨_, -, -, rfl⟩ := Pass.of_step_eq_unmatched step
    exact told
  | inserted matching step _ fresh =>
    cases matching
    obtain ⟨_, -, -, rfl⟩ := Pass.of_step_eq_unmatched step
    exact told.give sound fresh
  | endPass matching settled delivery =>
    obtain ⟨proceeds, finished⟩ := delivery.proceeds
    simp only [Told, Stage.dispatcher, proceeds.dispatcher_eq finished]
    exact fun _ _ _ _ => List.not_mem_nil
  | dispatch resting delivery =>
    obtain ⟨proceeds, finished⟩ := delivery.proceeds
    simp only [Told, Stage.dispatcher, proceeds.dispatcher_eq finished]
    exact fun _ _ _ _ => List.not_mem_nil
  | takeRetirements resting =>
    cases resting
    exact told
  | discardPool => exact fun _ _ _ _ => List.not_mem_nil

section drains

variable {history heard : List (ObjectId × State)}

/-- The end of a pass leaves everything in order: what is left over is disposed, and all is told. -/
private theorem inOrder_endPass {filling : Filling} {pass : Pass η π} {registry : Registry ω}
    {drain : Drain} (matching : scene.stage = .matching filling pass)
    (delivery : Drain.Delivers scene.registry pass.disposeDepartures.pool.dispatcher.drain heard
      registry drain)
    (closed : next = { scene with
      registry
      held := pass.placed ++ scene.held
      stage := .resting
        { pass.disposeDepartures.closedPool with dispatcher := drain.dispatcher } })
    (sound : Affairs.Sound history scene.affairs) (single : scene.affairs.custody.Nodup)
    (told : scene.Told) (inOrder : scene.affairs.InOrder scene.entries) :
    next.affairs.InOrder next.entries ∧ next.Clean (.report drain.report) := by
  obtain ⟨before, given, held, batches, stage⟩ := scene
  cases matching
  simp only [Pass.disposeDepartures, Pool.disposeDepartures_eq] at delivery
  obtain ⟨proceeds, finished⟩ := delivery.proceeds
  have noEntry : ∀ entry ∈ pass.pool.leftovers, ∀ object ∈ entry.objects,
      object ∉ pass.pool.dispatcher.entering :=
    fun entry present => told entry (pass.pool.leftovers_perm.mem_iff.mp present)
  obtain ⟨errors, order⟩ :=
    inOrder.dispose sound single (pass.entries_leftovers held) noEntry delivery
  subst closed
  simp only [Clean, Agrees, affairs, entries, Stage.entries, Stage.dispatcher, Pass.closedPool,
    Pass.disposeDepartures, Pool.disposeDepartures_eq, Departures.all_empty, List.map_nil,
    List.append_nil, proceeds.dispatcher_eq finished]
  exact ⟨order, errors, order.settled (Dispatcher.due_drained _)⟩

/-- A pool that is given up leaves everything in order: what waits is disposed, all is told, and
what is to retire does. -/
private theorem inOrder_discardPool {more : List (ObjectId × State)} {pool : Pool η π}
    {middle registry : Registry ω} {drain : Drain} {last : Retirement}
    (resting : scene.stage = .resting pool)
    (delivery : Drain.Delivers scene.registry pool.disposeDepartures.dispatcher.drain heard
      middle drain)
    (retirement : Retirement.Finishes middle
      (RetireBatch.deliver ⟨drain.dispatcher.takeRetirements.1⟩) more registry last)
    (discarded : next = { scene with registry, stage := .gone })
    (sound : Affairs.Sound history scene.affairs)
    (accounted : scene.affairs.custody <+~ scene.given) (once : scene.given.Nodup)
    (told : scene.Told) (inOrder : scene.affairs.InOrder scene.entries) :
    next.affairs.InOrder next.entries ∧ next.Clean (.report drain.report) ∧
      next.Clean (.retired ⟨drain.dispatcher.takeRetirements.1⟩ last.retired) := by
  obtain ⟨before, given, held, batches, stage⟩ := scene
  cases resting
  simp only [Pool.disposeDepartures_eq] at delivery
  obtain ⟨proceeds, finished⟩ := delivery.proceeds
  have noEntry : ∀ entry ∈ pool.leftovers, ∀ object ∈ entry.objects,
      object ∉ pool.dispatcher.entering :=
    fun entry present => told entry (pool.leftovers_perm.mem_iff.mp present)
  obtain ⟨errors, order⟩ := inOrder.dispose sound (Affairs.nodup_custody accounted once)
    (pool.entries_leftovers held) noEntry delivery
  have parted := ((pool.entries_leftovers held).map Entry.objects).trans (.of_eq List.map_append)
  have disposal : Affairs.Disposal (affairs ⟨before, given, held, batches, .resting pool⟩)
      pool.leftovers heard _ := .disposed parted delivery
  have course := disposal.course.trans (.single (.take _))
  have single := Affairs.nodup_custody (course.custody accounted) once
  rw [proceeds.dispatcher_eq finished] at retirement ⊢
  obtain ⟨count, retired⟩ :=
    order.take.deliverBatch (sound.course course) single (.refl _) retirement
  have gone := retired.passOn (List.Perm.of_eq (List.append_nil held)).subset
  subst discarded
  exact ⟨gone, ⟨errors, gone.settled fun _ => rfl⟩, count⟩

end drains

/-- A turn keeps the affairs in order, and what the host learns of it is clean. -/
private theorem Turn.inOrder {history : List (ObjectId × State)} (turn : scene.Turn news next)
    (indexed : scene.Indexed) (sound : Affairs.Sound history scene.affairs)
    (accounted : scene.affairs.custody <+~ scene.given) (given : scene.given.Nodup)
    (once : next.given.Nodup) (told : scene.Told)
    (inOrder : scene.affairs.InOrder scene.entries) :
    next.affairs.InOrder next.entries ∧ ∀ hearing ∈ news, next.Clean hearing := by
  have single := Affairs.nodup_custody accounted given
  obtain ⟨registry, given, held, batches, stage⟩ := scene
  cases turn with
  | create observer =>
    refine ⟨?_, nofun⟩
    exact inOrder.of_same (.refl _) rfl (funext (registry.state_create observer)) rfl
      (fun _ => id) fun entry member => ⟨entry, member, rfl, rfl⟩
  | @instantiate pool resting descriptor handle parameter position objects fresh =>
    cases resting
    refine ⟨?_, nofun⟩
    have new : objects.Nodup := (List.nodup_append.mp once).1
    exact @Affairs.InOrder.give _ _ _ _ _ _ ⟨descriptor, handle, parameter, position, objects, true⟩
      inOrder sound fresh new rfl
  | @setHandle entry rest among handle =>
    refine ⟨?_, nofun⟩
    have moved : Affairs.InOrder _ ({ entry with handle } :: (rest ++ stage.entries)) :=
      inOrder.relabel (among.append_right stage.entries) rfl rfl
    exact moved.passOn (List.Subset.refl _)
  | @discard entry rest among =>
    refine ⟨?_, nofun⟩
    have fewer : rest ⊆ held := fun entry member =>
      among.mem_iff.mpr (List.mem_cons_of_mem _ member)
    exact inOrder.passOn (List.append_subset.mpr
      ⟨List.Subset.trans fewer (List.subset_append_left ..), List.subset_append_right ..⟩)
  | @deactivate pool resting entry rest among noEntry =>
    cases resting
    refine ⟨?_, nofun⟩
    have left := inOrder.deactivate sound single (among.append_right _) noEntry
    simp only [affairs, entries, Stage.dispatcher, Stage.entries, Pool.deactivate_fst,
      Pool.deactivate_snd]
    exact left.passOn (List.Subset.refl _)
  | @report pool _ resting _ entry rest among noEntry accepted =>
    cases resting
    obtain ⟨-, rfl⟩ := Pool.reportDeparture_eq_ok_iff.mp accepted
    have same := Departures.entries_report indexed among pool.nextDeparture
    exact ⟨inOrder.passOn same.symm.subset, nofun⟩
  | @claim pool _ resting _ entry answer =>
    cases resting
    obtain ⟨departure, departures, taken, rfl, rfl⟩ := Pool.claim_eq_some_iff.mp answer
    have left := Departures.entries_claim_behind held indexed taken
    exact ⟨inOrder.passOn left.symm.subset, nofun⟩
  | @place pool resting descriptor parameter position =>
    cases resting
    rcases pool.requestPlacement_cases descriptor parameter position with
      ⟨departure, departures, -, taken, same⟩ | ⟨-, -, -, same⟩ | ⟨-, -, same⟩
    · simp only [same]
      have left := Departures.entries_claim_behind held indexed taken
      exact ⟨(inOrder.welcome single left parameter position).passOn (List.Subset.refl _), nofun⟩
    · simp only [same]
      exact ⟨inOrder, nofun⟩
    · simp only [same]
      exact ⟨inOrder, nofun⟩
  | @beginPass pool resting filling =>
    cases resting
    refine ⟨inOrder.passOn ?_, nofun⟩
    simp [entries, Stage.entries, Pool.endPass, Pass.placed]
  | @matched _ pass _ matching request _ step =>
    cases matching
    obtain ⟨_, departure, departures, -, taken, -, rfl⟩ := Pass.of_step_eq_matched step
    have left := Departures.entries_claim_between held pass.placed indexed taken
    have arrived := pass.entries_moved held (departures.all.map Departure.entry)
      (request.ticket, departure.entry.placedAt request.parameter request.position)
    have moved := inOrder.welcome single left request.parameter request.position
    exact ⟨moved.passOn arrived.subset, nofun⟩
  | handedBack matching step =>
    cases matching
    obtain ⟨_, -, -, rfl⟩ := Pass.of_step_eq_unmatched step
    exact ⟨inOrder, nofun⟩
  | @inserted pass next matching request step handle objects fresh =>
    cases matching
    obtain ⟨_, -, -, rfl⟩ := Pass.of_step_eq_unmatched step
    have new : objects.Nodup := (List.nodup_append.mp once).1
    have arrived := pass.entries_inserted held (pass.pool.departures.all.map Departure.entry)
      (request.ticket,
        ⟨request.descriptor, handle, request.parameter, request.position, objects, true⟩)
    have given := @Affairs.InOrder.give _ _ _ _ _ _
      ⟨request.descriptor, handle, request.parameter, request.position, objects, true⟩
      inOrder sound fresh new rfl
    exact ⟨given.passOn arrived.subset, nofun⟩
  | endPass matching settled delivery =>
    obtain ⟨order, clean⟩ := inOrder_endPass matching delivery rfl sound single told inOrder
    exact ⟨order, List.forall_mem_singleton.mpr clean⟩
  | dispatch resting delivery =>
    cases resting
    obtain ⟨proceeds, finished⟩ := delivery.proceeds
    obtain ⟨errors, order⟩ := inOrder.deliver sound single delivery
    simp only [affairs, entries, Stage.dispatcher, proceeds.dispatcher_eq finished]
    exact ⟨order, List.forall_mem_singleton.mpr
      ⟨errors, order.settled (Dispatcher.due_drained _)⟩⟩
  | takeRetirements resting =>
    cases resting
    exact ⟨inOrder.take, nofun⟩
  | mergeBatches among =>
    refine ⟨?_, nofun⟩
    exact inOrder.of_same (.refl _) rfl rfl rfl
      (fun object owed => (Affairs.mem_owed_merge among).mp owed)
      fun entry member => ⟨entry, member, rfl, rfl⟩
  | deliverBatch among delivery =>
    obtain ⟨count, order⟩ := inOrder.deliverBatch sound single among delivery
    exact ⟨order, List.forall_mem_singleton.mpr count⟩
  | discardPool resting delivery retirement =>
    obtain ⟨order, report, count⟩ :=
      inOrder_discardPool resting delivery retirement rfl sound accounted once told inOrder
    exact ⟨order, List.forall_mem_cons.mpr ⟨report, List.forall_mem_singleton.mpr count⟩⟩

private theorem Run.accounted {config : Settings.RelocationConfig}
    {history : List (ObjectId × State)} (run : (new config).Run history scene) :
    scene.affairs.custody <+~ scene.given :=
  (run.course List.nodup_nil).2.custody List.nil_subperm

namespace Orderly

variable {config : Settings.RelocationConfig} {heard : List (Hearing × Scene η π ω)}

/-- Turns are things that happen in the scene. -/
private theorem run (orderly : scene.Orderly heard next) : ∃ history, scene.Run history next := by
  induction orderly with
  | refl => exact ⟨[], .refl _⟩
  | next _ turn ih =>
    obtain ⟨history, run⟩ := ih
    obtain ⟨told, disposed, step⟩ := turn.step
    exact ⟨history ++ told, run.next step⟩

/-- Where every object was given once, turns keep the affairs in order. -/
private theorem inOrder (orderly : (new config).Orderly heard scene) (once : scene.given.Nodup) :
    scene.Told ∧ scene.affairs.InOrder scene.entries ∧
      ∀ learned ∈ heard, learned.2.Clean learned.1 := by
  induction orderly with
  | refl => exact ⟨nofun, ⟨.nil, nofun, nofun, nofun⟩, nofun⟩
  | @next middle last heard news orderly turn ih =>
    obtain ⟨history, run⟩ := Orderly.run orderly
    obtain ⟨indexed, sound⟩ := run.sound
    obtain ⟨told, disposed, step⟩ := turn.step
    have given := once.sublist (step.course indexed).given_sublist
    have accounted := run.accounted
    obtain ⟨told, order, clean⟩ := ih given
    obtain ⟨kept, now⟩ := turn.inOrder indexed sound accounted given once told order
    have single := Affairs.nodup_custody accounted given
    refine ⟨turn.told indexed sound single told, kept, ?_⟩
    intro learned among
    rcases List.mem_append.mp among with before | just
    · exact clean learned before
    · obtain ⟨hearing, new, rfl⟩ := List.mem_map.mp just
      exact now hearing new

end Orderly

end Scene

end LiveTree.Relocation
