import LiveTree.Proofs.Relocation.Clearing
import LiveTree.Proofs.Session.Informing

/-! Pools that are given up. A pool informs the objects that are with it when it goes, whether the
pass that is under way is ended first or not: giving it up attempts what the end of the pass would
attempt if nobody waited for a place, and then what the batch of its retirements would. -/
namespace LiveTree.Relocation

open Lifecycle (ObjectId State)

variable {η π : Type}

namespace Pool

/-- The pool without the places that wait for the end of the pass. -/
def withdrawn (pool : Pool η π) : Pool η π :=
  { pool with deferred := [], deferredDescriptors := [] }

/-- What is attempted when a pool is given up, the retirements apart: the exits in reverse, those of
the waiting departures that are active behind those that were pending before, then the pending
retentions and entries. -/
def partingNotices (pool : Pool η π) : List (ObjectId × State) :=
  (pool.dispatcher.exiting ++
      objectsOf (pool.departures.inReportOrder.filter (·.entry.active))).reverse.map (·, .exited) ++
    (pool.dispatcher.retaining.map (·, .retained) ++ pool.dispatcher.entering.map (·, .entered))

/-- What is attempted after that: the retirements that nobody took, and behind them those of all
waiting departures. -/
def partingRetirements (pool : Pool η π) : List (ObjectId × State) :=
  (pool.dispatcher.retiring ++ objectsOf pool.departures.inReportOrder).map (·, .retired)

private theorem notices_disposeDepartures (pool : Pool η π) :
    pool.disposeDepartures.dispatcher.notices = pool.partingNotices := by
  rw [dispatcher_disposeDepartures]
  rfl

private theorem retiring_disposeDepartures (pool : Pool η π) :
    pool.disposeDepartures.dispatcher.retiring.map (·, .retired) = pool.partingRetirements := by
  rw [dispatcher_disposeDepartures]
  rfl

end Pool

end LiveTree.Relocation

namespace LiveTree.Session.Machine

open Lifecycle (ObjectId Dispatcher Drain RetireBatch)

variable {machine dropping passing taking : Machine} {base : List Call} {call : PassCall}
  {pool : Pool} {batch : RetireBatch} {name other : Name} {id : Nat}

/-- In the next step a pool is given up over some calls. -/
def DropsPool (machine : Machine) (base : List Call) (pool : Pool) : Prop :=
  ∃ reached : Machine, machine.step = reached.discardPool pool ∧ reached.stack = base

/-- In the next step a batch of retirements is given up over some calls. -/
def DropsBatch (machine : Machine) (base : List Call) (batch : RetireBatch) : Prop :=
  ∃ reached : Machine, machine.step = reached.discardBatch batch ∧ reached.stack = base

/-- In the next step control is back at some calls, and nothing is said to them. -/
def Returns (base : List Call) (machine : Machine) : Prop :=
  machine.step.stack = base ∧ machine.step.control = .proceed

/-- In the next step a pool is given back to its place, with an answer to some calls. -/
def GivesBack (base : List Call) (id : Nat) (pool : Pool) (machine : Machine) : Prop :=
  ∃ (reached : Machine) (answer : Answer),
    machine.step = reached.giveBack id pool (.ok answer) ∧ reached.stack = base

/-- What a call over some calls attempts that begins here and informs objects, and what holds when
it ends. -/
structure InformsOf (first : Machine) (base : List Call)
    (notices : List (ObjectId × Lifecycle.State)) (ended : Machine → Prop) : Prop where
  /-- So far the first of the notices have been attempted in order, whatever observers do. -/
  soFar : ∀ {during machine}, first.Goes during machine →
    (∀ middle ∈ during, ¬ middle.EndsInforming base) →
      (informed base during).map Lifecycle.Attempt.notice <+: notices
  /-- Unless a panic comes back from an observer, all have been attempted in the end. -/
  all : ∀ {during machine}, first.Goes during machine →
    (∀ middle ∈ during, ¬ middle.EndsInforming base) → machine.EndsInforming base →
      (∀ reason, machine.control ≠ .unwind reason) →
        (informed base during).map Lifecycle.Attempt.notice = notices ∧ ended machine
  /-- If its observers come back, the call comes to its end. -/
  comesToEnd : ObserversReturn first base → ∃ steps,
    (∀ middle ∈ trail steps first, ¬ middle.EndsInforming base) ∧
      (advanced steps first).EndsInforming base ∧
        ∀ reason, (advanced steps first).control ≠ .unwind reason

private theorem InformsOf.of_stack {first : Machine} {informing : Call} {ended : Machine → Prop}
    (stack : first.stack = informing :: base) (informs : informing.Informs)
    (ends : ∀ {machine : Machine} {done : Call}, machine.stack = done :: base →
      machine.control = .proceed → done.Done → done.Informs →
        done.closing = informing.closing → ended machine) :
    first.InformsOf base informing.due ended where
  soFar goes lasts := by
    obtain ⟨next, running⟩ := goes.informing stack informs lasts
    exact running.informed_prefix
  all goes lasts ending calm := by
    obtain ⟨next, running⟩ := goes.informing stack informs lasts
    obtain ⟨stack, proceeds, done, whole⟩ := running.ends ending calm
    exact ⟨whole, ends stack proceeds done running.informs running.closes⟩
  comesToEnd returns := by
    have still : StillInforms informing.due informing.closing base first 0 informing :=
      ⟨.begins stack informs, List.forall_mem_nil _⟩
    exact still.exists_done returns

/-! ### How calls that inform objects end -/

variable {done : Call}

/-- A call that returns and says nothing. -/
private theorem returns_of_done (stack : machine.stack = done :: base)
    (proceeds : machine.control = .proceed) (finished : done.Done)
    (closes : done.closing = .returns) : machine.Returns base := by
  have stepped := step_of_proceed proceeds stack
  cases finished with
  | @draining owner drain kept =>
    cases owner with
    | discardedPool => exact absurd rfl kept
    | _ => cases closes
  | @retiring retired counted =>
    cases counted with
    | true => cases closes
    | false =>
      rw [Returns, stepped]
      exact ⟨congrArg List.tail stack, rfl⟩

/-- A pass that gives its pool back. -/
private theorem givesBack_of_done (stack : machine.stack = done :: base)
    (proceeds : machine.control = .proceed) (finished : done.Done) (informs : done.Informs)
    (closes : done.closing = .passes id pool) : machine.GivesBack base id pool := by
  cases finished with
  | @draining owner drain _ last =>
    cases owner with
    | pass call pass disposed =>
      cases informs with
      | draining begun =>
        have atDelivery : machine.AtDelivery (.pass call pass disposed) drain base :=
          ⟨stack, proceeds⟩
        obtain ⟨reached, text, _, step, back, -⟩ := atDelivery.exists_giveBack last
        rw [begun.eq_drained last] at step
        cases closes
        exact ⟨reached, _, step, back⟩
    | _ => cases closes
  | @retiring retired counted => cases counted <;> cases closes

/-! ### The two ways of parting with a pool -/

/-- A pool that is given up informs the objects of all that was pending, of the exits of what waits
and then of the retirements. -/
private theorem DropsPool.informs (drops : dropping.DropsPool base pool) :
    dropping.step.InformsOf base (pool.partingNotices ++ pool.partingRetirements)
      (·.Returns base) := by
  obtain ⟨reached, step, rfl⟩ := drops
  have stack : dropping.step.stack =
      .draining .discardedPool pool.disposeDepartures.dispatcher.drain :: reached.stack := by
    rw [step]
    exact congrArg _ (reached.stack_diagnoseAll (pool.leftovers.map Relocation.Entry.disposal))
  have due : (Call.draining .discardedPool pool.disposeDepartures.dispatcher.drain).due =
      pool.partingNotices ++ pool.partingRetirements := by
    rw [← pool.notices_disposeDepartures, ← pool.retiring_disposeDepartures]
    rfl
  rw [← due]
  refine .of_stack stack (.draining (.start _)) ?_
  intro machine done stack proceeds finished _ closes
  exact returns_of_done stack proceeds finished closes

/-- A batch that is given up informs its objects in order. -/
private theorem DropsBatch.informs (drops : dropping.DropsBatch base batch) :
    dropping.step.InformsOf base (batch.objects.map (·, .retired)) (·.Returns base) := by
  obtain ⟨reached, step, rfl⟩ := drops
  have stack : dropping.step.stack = .retiring batch.deliver false :: reached.stack := by
    rw [step]
    rfl
  refine .of_stack stack .retiring ?_
  intro machine done stack proceeds finished _ closes
  exact returns_of_done stack proceeds finished closes

/-- A pass for which nobody waits informs the objects of all that was pending and of the exits of
what waits, and leaves the retirements with the pool. -/
private theorem StartsPass.informs (starts : passing.StartsPass call pool.withdrawn) :
    ∃ left : Pool, left.dispatcher.retiring.map (·, .retired) = pool.partingRetirements ∧
      passing.step.InformsOf passing.stack pool.partingNotices
        (·.GivesBack passing.stack call.pool left) := by
  let informing : Call := .matching call pool.withdrawn.endPass
  let left : Pool := { pool.withdrawn.endPass.disposeDepartures.closedPool with
    dispatcher := pool.withdrawn.endPass.disposeDepartures.pool.dispatcher.drained }
  have stack : passing.step.stack = informing :: passing.stack := by
    rw [starts.step_eq]
    exact congrArg _ ((passing.setPool call.pool none).stack_enter (.pass call.number))
  have due : informing.due = pool.partingNotices :=
    pool.withdrawn.endPass.pool.notices_disposeDepartures
  have closing : informing.closing = .passes call.pool left := rfl
  refine ⟨left, pool.withdrawn.endPass.pool.retiring_disposeDepartures, ?_⟩
  rw [← due]
  refine .of_stack stack (.matching rfl) ?_
  intro machine done stack proceeds finished informs closes
  exact givesBack_of_done stack proceeds finished informs (closes.trans closing)

/-- Retirements that are taken from a pool are found under the name of their batch. -/
private theorem get?_batch_of_takes
    (control : taking.control = .execute (.pool (.takeRetirements name other)))
    (present : taking.poolAt? name = some (id, pool)) :
    taking.step.world.batches.get? other = some ⟨pool.dispatcher.takeRetirements.1⟩ := by
  rw [step_of_execute control]
  change (taking.onPool name _).world.batches.get? other = _
  rcases taking.onPool_cases name _ with ⟨absent, -⟩ | ⟨_, _, found, -, works⟩
  · rw [absent] at present
    cases present
  · rw [works]
    cases found.symm.trans present
    unfold storeBatch
    dsimp only
    split <;> exact Table.get?_set_self ..

/-- To drop the one name of a pool is to give it up. -/
private theorem DropsPool.of_discard (control : machine.control = .execute (.pool (.discard name)))
    (present : machine.poolAt? name = some (id, pool)) (free : machine.isHeld id = false)
    (only : (machine.world.poolNames.erase name).any (· == id) = false) :
    machine.DropsPool (.replying .ok :: machine.stack) pool := by
  let unnamed : Machine := machine.withWorld
    { machine.world with poolNames := machine.world.poolNames.erase name }
  have step : machine.step = unnamed.release id (.ok .ok) := by
    rw [step_of_execute control]
    change machine.onPool name _ = _
    rcases machine.onPool_cases name _ with ⟨absent, -⟩ | ⟨_, _, found, -, works⟩
    · rw [absent] at present
      cases present
    · rw [works]
      cases found.symm.trans present
      exact if_neg (by simp [free])
  have unwanted : unnamed.Wants machine.stack id = false := by
    rw [Wants, Bool.or_eq_false_iff]
    exact ⟨only, free⟩
  obtain ⟨_, -, found⟩ := Option.bind_eq_some_iff.mp present
  obtain ⟨_, placed, same⟩ := Option.map_eq_some_iff.mp found
  cases same
  have given : unnamed.release id (.ok .ok) =
      ((unnamed.setPool id none).push (.replying .ok)).discardPool pool :=
    release_of_unwanted rfl unwanted placed
  exact ⟨_, step.trans given, rfl⟩

/-- The other way of parting with a pool: the pass is ended for which nobody waits, the retirements
are taken, and their batch is given up. -/
structure PartsByPass (passing : Machine) (call : PassCall) (pool left : Pool) : Prop where
  pass : passing.step.InformsOf passing.stack pool.partingNotices
    (·.GivesBack passing.stack call.pool left)
  takes : ∀ {taking : Machine} {name other : Name} {id : Nat},
    taking.control = .execute (.pool (.takeRetirements name other)) →
      taking.poolAt? name = some (id, left) →
        taking.step.world.batches.get? other = some ⟨left.dispatcher.takeRetirements.1⟩
  batch : ∀ {dropping : Machine} {base : List Call},
    dropping.DropsBatch base ⟨left.dispatcher.takeRetirements.1⟩ →
      dropping.step.InformsOf base pool.partingRetirements (·.Returns base)

/-- A pool that is given up makes the same attempts in the same order as the end of its pass without
the places that wait, followed by the giving up of its retirements. Whatever waits exits if it is
active and is then to retire, even what a place waits for; whatever was pending is told, and the
older retirements come first. -/
theorem dropped_pool_informs_as_withdrawn_pass (drops : dropping.DropsPool base pool)
    (starts : passing.StartsPass call pool.withdrawn) :
    dropping.step.InformsOf base (pool.partingNotices ++ pool.partingRetirements)
        (·.Returns base) ∧
      ∃ left, passing.PartsByPass call pool left := by
  obtain ⟨left, retirements, pass⟩ := starts.informs
  refine ⟨drops.informs, left, pass, get?_batch_of_takes, ?_⟩
  intro dropping base dropsBatch
  have informs := dropsBatch.informs
  rwa [← retirements]

/-- A pool in the middle of a pass. A place waits for the second of its departures, which was
deactivated; new content is still to enter, and earlier content to retire. -/
def midPass : Pool where
  config := ⟨false⟩
  departures :=
    (({} : Relocation.Departures String Int).add ⟨1, ⟨⟨2⟩, "a", 0, ⟨0⟩, [⟨0⟩], true⟩⟩).add
      ⟨2, ⟨⟨1⟩, "b", 0, ⟨0⟩, [⟨1⟩], false⟩⟩
  deferred := [⟨0, ⟨1⟩, 0, ⟨0⟩⟩]
  deferredDescriptors := [⟨1⟩]
  everDeparted := [⟨1⟩, ⟨2⟩, ⟨3⟩]
  dispatcher := ⟨[⟨2⟩], [⟨2⟩], [⟨1⟩], [⟨3⟩]⟩
  nextTicket := 1
  nextDeparture := 3
  stats := { passes := 1, departures := 3, disposed := 1 }

/-- A session with that pool, about to run a command. -/
def runsWith (pool : Pool) (command : Command) : Machine :=
  let observed (name : Name) (state : Lifecycle.State) : Lifecycle.Retained Observer :=
    ⟨state, .recording name⟩
  start { objects := ⟨#[observed "o" .entered, observed "q" .entered, observed "r" .unretained,
      observed "s" .exited]⟩
          pools := #[some pool]
          poolNames := ⟨[("p", 0)]⟩ } none command

private theorem inReportOrder_midPass :
    midPass.departures.inReportOrder = [⟨1, ⟨⟨2⟩, "a", 0, ⟨0⟩, [⟨0⟩], true⟩⟩,
      ⟨2, ⟨⟨1⟩, "b", 0, ⟨0⟩, [⟨1⟩], false⟩⟩] := by
  have kept : midPass.departures.WellKept 3 :=
    (((Relocation.Departures.WellKept.empty 1).add _).add _)
  refine (kept.eq_inReportOrder (.refl _) ?_ (by decide)).symm
  exact .swap _ _ _

/-- The session in which it is dropped. -/
def dropsMidPass : Machine := runsWith midPass (.pool (.discard "p"))

/-- The delivery of what it has to tell begins. -/
def partsMidPass : Machine :=
  let dispatcher : Dispatcher := ⟨[⟨2⟩], [⟨2⟩], [⟨1⟩, ⟨0⟩], [⟨3⟩, ⟨0⟩, ⟨1⟩]⟩
  { dropsMidPass with
    world := { dropsMidPass.world with pools := #[none], poolNames := {} }
    stack := [.draining .discardedPool dispatcher.drain, .replying .ok]
    control := .proceed }

private theorem step_dropsMidPass : dropsMidPass.step = partsMidPass := by
  let reached : Machine := { dropsMidPass with
    world := { dropsMidPass.world with pools := #[none], poolNames := {} }
    stack := [.replying .ok] }
  change ((reached.diagnoseAll (midPass.leftovers.map Relocation.Entry.disposal)).push (.draining
    .discardedPool midPass.disposeDepartures.dispatcher.drain)).proceed = _
  rw [Relocation.Pool.dispatcher_disposeDepartures, Relocation.Pool.leftovers,
    inReportOrder_midPass]
  with_unfolding_all rfl

theorem dropped_pool_informs_as_withdrawn_pass_midPass :
    (∃ left, (runsWith midPass.withdrawn (.pool (.endPass "p" none "" false))).PartsByPass
        ⟨0, 2, none, "", false⟩ midPass left) ∧
      (advanced 17 dropsMidPass.step).Returns [.replying .ok] ∧
      midPass.partingNotices ++ midPass.partingRetirements =
        [(⟨0⟩, .exited), (⟨1⟩, .exited), (⟨2⟩, .retained), (⟨2⟩, .entered), (⟨3⟩, .retired),
          (⟨0⟩, .retired), (⟨1⟩, .retired)] := by
  have drops : dropsMidPass.DropsPool [.replying .ok] midPass :=
    .of_discard rfl rfl rfl rfl
  have starts : (runsWith midPass.withdrawn (.pool (.endPass "p" none "" false))).StartsPass
      ⟨0, 2, none, "", false⟩ midPass.withdrawn := ⟨"p", rfl, rfl, rfl⟩
  obtain ⟨informs, parts⟩ := dropped_pool_informs_as_withdrawn_pass drops starts
  have lasts : ((trail 17 dropsMidPass.step).all fun middle => !middle.endsInforming) = true := by
    rw [step_dropsMidPass]
    with_unfolding_all rfl
  have proceeds : (advanced 17 dropsMidPass.step).control = .proceed := by
    rw [step_dropsMidPass]
    with_unfolding_all rfl
  have ends : (advanced 17 dropsMidPass.step).EndsInforming [.replying .ok] := by
    refine ⟨.retiring ⟨[], 3⟩ false, ?_, .inl ⟨proceeds, .retiring⟩⟩
    rw [step_dropsMidPass]
    with_unfolding_all rfl
  obtain ⟨made, returns⟩ := informs.all (goes_trail 17 dropsMidPass.step)
    (not_endsInforming_of_all lasts) ends (by simp [proceeds])
  refine ⟨parts, returns, made.symm.trans ?_⟩
  rw [step_dropsMidPass]
  with_unfolding_all rfl

end LiveTree.Session.Machine
