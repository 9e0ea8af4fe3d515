import LiveTree.Proofs.Lifecycle.Accounting
import LiveTree.Proofs.Relocation.Disposal
import LiveTree.Proofs.Relocation.Passing

/-! Pools that come back. A call that has taken a pool away brings it back in the step in which it
ends, with an answer or because a panic leaves it. What the pool is by then depends on how far the
pass has come: when all is delivered, it is the pool after the end of the pass, whatever user code
did meanwhile. -/
namespace LiveTree.Relocation

variable {η π : Type}

/-- In the order of the reports, every departure comes once. -/
theorem Departures.WellKept.inReportOrder_ascending {departures : Departures η π} {bound : Nat}
    (kept : departures.WellKept bound) :
    departures.inReportOrder.Pairwise fun first second => first.sequence < second.sequence := by
  have apart : (departures.inReportOrder.map Departure.sequence).Nodup :=
    (departures.inReportOrder_perm.map _).nodup_iff.mpr kept.apart
  have distinct := List.pairwise_map.mp apart
  refine (departures.inReportOrder_sorted.and distinct).imp fun ⟨noLater, different⟩ => ?_
  omega

/-- What the disposal of the departures records: the exits of the active ones and the retirements of
all, in the order of the reports. -/
theorem Pool.dispatcher_disposeDepartures (pool : Pool η π) :
    pool.disposeDepartures.dispatcher = { pool.dispatcher with
      exiting := pool.dispatcher.exiting ++
        (pool.departures.inReportOrder.filter (·.entry.active)).flatMap (·.entry.objects)
      retiring := pool.dispatcher.retiring ++
        pool.departures.inReportOrder.flatMap (·.entry.objects) } := by
  rw [disposeDepartures_eq, foldl_farewell, leftovers, List.filter_map, List.flatMap_map,
    List.flatMap_map]
  rfl

end LiveTree.Relocation

namespace LiveTree.Session

open Lifecycle (ObjectId Dispatcher Drain Report)
open Relocation (Departure Ending Filling)

/-- What the caller gets to know when a call ends. -/
def Control.ended : Except Panic Answer → Control
  | .ok given => .answer given
  | .error reason => .unwind reason

/-- What is left of a call that ends while its pool is given up. -/
def Call.ended : Except Panic Answer → Call
  | .ok answer => .replying answer
  | .error reason => .unwinding reason

namespace Machine

variable {machine reached : Machine} {base : List Call} {during : List Machine} {id : Nat}
  {pool : Pool} {ending : Except Panic Answer} {first call : PassCall} {drain : Drain}
  {pass : Relocation.Pass String Int} {reason : Panic}

/-- Whether somebody can ask for the pool at a place when a call over some others has ended: a name
stands for it, or one of the others holds it. -/
def Wants (machine : Machine) (base : List Call) (id : Nat) : Bool :=
  machine.world.poolNames.any (· == id) || base.any (·.holds id)

/-- A call over some others ends in the next step and brings its pool back. A pool that nobody can
ask for any more is given up before the caller gets to know of it. -/
structure BringsBack (machine : Machine) (base : List Call) (id : Nat) (pool : Pool)
    (ending : Except Panic Answer) : Prop where
  objects : machine.step.world.objects = machine.world.objects
  calls : machine.step.calls = machine.calls
  wanted : machine.Wants base id = true → machine.step.world.pools[id]? = some (some pool) ∧
    machine.step.stack = base ∧ machine.step.control = .ended ending
  unwanted : machine.Wants base id = false → machine.step.control = .proceed ∧
    machine.step.stack =
      .draining .discardedPool pool.disposeDepartures.dispatcher.drain :: .ended ending :: base

/-! ### The last step of a call -/

private theorem control_finish (machine : Machine) (ending : Except Panic Answer) :
    (machine.finish ending).control = .ended ending := by
  cases ending <;> rfl

private theorem stack_finish (machine : Machine) (ending : Except Panic Answer) :
    (machine.finish ending).stack = machine.stack := by
  cases ending <;> rfl

private theorem world_leave (machine : Machine) (span : Span) :
    (machine.leave span).world = machine.world := by
  unfold leave
  split <;> rfl

/-- What a pass placed is stored among the entries, and nowhere else. -/
private theorem exists_world_storePlaced (machine : Machine) (label : String)
    (placed : List (Relocation.PlacementTicket × Entry)) :
    ∃ entries, (machine.storePlaced label placed).world = { machine.world with entries } := by
  unfold storePlaced
  induction placed generalizing machine with
  | nil => exact ⟨_, rfl⟩
  | cons pair placed ih =>
    obtain ⟨entries, same⟩ := ih (machine.storeEntry (label ++ toString pair.1) pair.2)
    exact ⟨entries, same⟩

/-- A pool that is wanted is at its place again. -/
private theorem giveBack_of_wanted (stack : reached.stack = base)
    (wanted : reached.Wants base id = true) :
    reached.giveBack id pool ending = (reached.setPool id (some pool)).finish ending := by
  subst stack
  unfold giveBack release
  exact if_pos wanted

/-- A pool at its place that nobody can ask for any more is given up. -/
theorem release_of_unwanted (stack : reached.stack = base)
    (unwanted : reached.Wants base id = false)
    (present : (reached.world.pools[id]?).join = some pool) :
    reached.release id ending =
      ((reached.setPool id none).push (.ended ending)).discardPool pool := by
  subst stack
  unfold release
  rw [if_neg (by rw [← Bool.not_eq_true] at unwanted; exact unwanted)]
  simp only [present]
  cases ending <;> rfl

/-- So is one that a call gives back. -/
private theorem giveBack_of_unwanted (stack : reached.stack = base)
    (unwanted : reached.Wants base id = false) (inside : id < reached.world.pools.size) :
    reached.giveBack id pool ending =
      (((reached.setPool id (some pool)).setPool id none).push
        (.ended ending)).discardPool pool := by
  have present : ((reached.setPool id (some pool)).world.pools[id]?).join = some pool := by
    change ((reached.world.pools.setIfInBounds id (some pool))[id]?).join = _
    rw [Array.getElem?_setIfInBounds_self_of_lt inside]
    rfl
  exact release_of_unwanted stack unwanted present

/-- What brings a pool back in the last step of a call. -/
private theorem BringsBack.of_giveBack {entries : Table Name Entry}
    (step : machine.step = reached.giveBack id pool ending) (stack : reached.stack = base)
    (world : reached.world = { machine.world with entries })
    (calls : reached.calls = machine.calls) (inside : id < machine.world.pools.size) :
    machine.BringsBack base id pool ending := by
  have wants : reached.Wants base id = machine.Wants base id := by
    unfold Wants
    rw [world]
  have room : id < reached.world.pools.size := by
    rw [world]
    exact inside
  constructor
  case objects =>
    have same := congrArg Stage.objects (reached.stage_giveBack id pool ending)
    have untouched : reached.world.objects = machine.world.objects := by rw [world]
    rw [step]
    exact same.trans untouched
  case calls =>
    rw [step]
    exact (reached.calls_giveBack id pool ending).trans calls
  case wanted =>
    intro wanted
    rw [step, giveBack_of_wanted stack (wants.trans wanted)]
    refine ⟨?_, (stack_finish _ _).trans stack, control_finish _ _⟩
    have kept := congrArg Stock.pools
      ((reached.setPool id (some pool)).stock_finish ending)
    change ((reached.setPool id (some pool)).finish ending).world.pools =
      reached.world.pools.setIfInBounds id (some pool) at kept
    rw [kept]
    exact Array.getElem?_setIfInBounds_self_of_lt room
  case unwanted =>
    intro unwanted
    rw [step, giveBack_of_unwanted stack (wants.trans unwanted) room]
    refine ⟨rfl, congrArg (List.cons _) ?_⟩
    exact (stack_diagnoseAll ..).trans (congrArg (List.cons _) stack)

/-! ### How a pass ends -/

/-- A panic that leaves the making of new content. -/
theorem brings_back_of_inserting {request : Relocation.Request Int} {objects : List Name}
    (stack : machine.stack = .inserting call pass request objects :: base)
    (panics : machine.control = .unwind reason) (inside : call.pool < machine.world.pools.size) :
    machine.BringsBack base call.pool pass.pool (.error reason) := by
  have step : machine.step = machine.unwindMatching call pass reason := by
    rcases machine with ⟨world, listener, log, stack, control⟩
    cases stack
    cases panics
    rfl
  have held := (machine.stack_leave (.pass call.number)).trans stack
  refine .of_giveBack step ?_ (machine.world_leave (.pass call.number))
    (machine.calls_leave (.pass call.number)) inside
  exact congrArg List.tail held

/-- A panic that leaves the delivery at the end of a pass. -/
theorem brings_back_of_closing {disposed : List String}
    (stack : machine.stack = .draining (.pass call pass disposed) drain :: base)
    (panics : machine.control = .unwind reason) (inside : call.pool < machine.world.pools.size) :
    machine.BringsBack base call.pool { pass.pool with dispatcher := drain.dispatcher }
      (.error reason) := by
  have step : machine.step = (machine.leave (.pass call.number)).pop.giveBack call.pool
      { pass.pool with dispatcher := drain.dispatcher } (.error reason) := by
    rcases machine with ⟨world, listener, log, stack, control⟩
    cases stack
    cases panics
    rfl
  have held := (machine.stack_leave (.pass call.number)).trans stack
  refine .of_giveBack step ?_ (machine.world_leave (.pass call.number))
    (machine.calls_leave (.pass call.number)) inside
  exact congrArg List.tail held

/-- In the last step of a pass that was not interrupted its pool is given back. -/
theorem AtDelivery.exists_giveBack {disposed : List String}
    (atDelivery : machine.AtDelivery (.pass call pass disposed) drain base)
    (finished : drain.step = .finished) :
    ∃ (reached : Machine) (text : Option String) (entries : Table Name Entry),
      machine.step = reached.giveBack call.pool
        { pass.closedPool with dispatcher := drain.dispatcher }
        (.ok (.passed (viewOutcome machine.world (pass.outcome disposed drain.report)) text)) ∧
      reached.stack = base ∧ reached.world = { machine.world with entries } ∧
      reached.calls = machine.calls := by
  have kept := machine.world_diagnoseAll drain.report.diagnostics
  have held := machine.stack_diagnoseAll drain.report.diagnostics
  have silent := machine.calls_diagnoseAll drain.report.diagnostics
  have step := atDelivery.step_eq
  simp only [continueDrain, finished, finishDrain] at step
  generalize machine.diagnoseAll drain.report.diagnostics = reported at kept held silent step
  unfold finishPass at step
  dsimp only at step
  generalize pass.outcome disposed drain.report = outcome at step ⊢
  generalize Relocation.PassOutcome.resolution outcome call.number _ = resolution at step
  let left := (reported.diagnose resolution).leave (.pass call.number)
  have world : left.world = machine.world :=
    (world_leave _ _).trans ((world_diagnose _ _).trans kept)
  change machine.step = ((left.storePlaced call.label outcome.moved).storePlaced call.label
    outcome.inserted).pop.giveBack call.pool _ (.ok (.passed (viewOutcome left.world outcome) _))
    at step
  rw [world] at step
  obtain ⟨moved, early⟩ := left.exists_world_storePlaced call.label outcome.moved
  obtain ⟨entries, late⟩ :=
    (left.storePlaced call.label outcome.moved).exists_world_storePlaced call.label outcome.inserted
  rw [early, world] at late
  refine ⟨_, _, entries, step, ?_, late, ?_⟩
  · have stays : left.stack = .draining (.pass call pass disposed) drain :: base :=
      (stack_leave _ _).trans ((stack_diagnose _ _).trans (held.trans atDelivery.stack))
    simp only [pop, stack_storePlaced, stays, List.tail_cons]
  · have quiet : left.calls = machine.calls :=
      (calls_leave _ _).trans ((calls_diagnose _ _).trans silent)
    exact (calls_storePlaced _ _ _).trans ((calls_storePlaced _ _ _).trans quiet)

/-- So it comes back. -/
private theorem AtDelivery.brings_back {disposed : List String}
    (atDelivery : machine.AtDelivery (.pass call pass disposed) drain base)
    (finished : drain.step = .finished) (inside : call.pool < machine.world.pools.size) :
    ∃ text, machine.BringsBack base call.pool
      { pass.closedPool with dispatcher := drain.dispatcher }
      (.ok (.passed (viewOutcome machine.world (pass.outcome disposed drain.report)) text)) := by
  obtain ⟨reached, text, entries, step, stack, world, calls⟩ := atDelivery.exists_giveBack finished
  exact ⟨text, .of_giveBack step stack world calls inside⟩

/-- Where a call works on a pool, there is a place for it. -/
theorem Course.inside {passed : List Machine} {working : Call} {job : Job}
    (course : Course passed machine) (stack : machine.stack = working :: base)
    (busy : working.job? = some job) : job.id < machine.world.pools.size := by
  have listed : job ∈ machine.stock.jobs := by
    rw [jobs_of_stack stack busy]
    exact List.mem_cons_self
  exact (Array.getElem?_eq_some_iff.mp (course.sound_stock.away job listed)).1

/-- A pass works on a pool that was at its place. -/
private theorem StartsPass.getElem? (starts : machine.StartsPass call pool) :
    machine.world.pools[call.pool]? = some (some pool) := by
  obtain ⟨name, -, present, -⟩ := starts
  obtain ⟨_, -, found⟩ := Option.bind_eq_some_iff.mp present
  obtain ⟨_, found, same⟩ := Option.map_eq_some_iff.mp found
  cases same
  exact Option.join_eq_some_iff.mp found

/-- It has lived through what was done with it. -/
theorem Course.lived {passed : List Machine} (course : Course passed machine)
    (starts : machine.StartsPass call pool) :
    Relocation.Pool.Lived (dealingsAt call.pool (dealings passed)) pool :=
  course.sound_stock.lived call.pool pool starts.getElem?

/-- A pass that begins in a course is in progress there until it ends. -/
theorem Course.inPass {earlier : List Machine} {beginning : Machine}
    (course : Course (earlier ++ beginning :: during) machine)
    (starts : beginning.StartsPass call pool)
    (lasts : ∀ middle ∈ during, ¬ middle.EndsPass beginning.stack) :
    InPass call pool beginning.stack during machine := by
  obtain ⟨command, control⟩ := starts.executes
  have split : earlier ++ beginning :: during ++ [machine] =
      earlier ++ beginning :: during ++ machine :: [] := rfl
  exact (course.goes_step control split).inPass starts lasts

/-- While a pass matches requests, it does not attempt to move any object. -/
theorem Matches.not_attempting {object : ObjectId} {target : Lifecycle.State}
    (matching : machine.Matches base) (low : machine.stack.length = base.length + 1)
    (proceeds : machine.control = .proceed) : ¬ machine.Attempting object target := by
  intro attempting
  have atop : ∃ working : Call, machine.stack = working :: base ∧
      (∀ owner drain, working ≠ .draining owner drain) ∧
      ∀ delivery counted, working ≠ .retiring delivery counted := by
    obtain ⟨call, pass, above | ⟨request, objects, above⟩⟩ := matching
    · exact ⟨_, above.stack_eq_of_length (Nat.le_of_eq low), nofun, nofun⟩
    · exact ⟨_, above.stack_eq_of_length (Nat.le_of_eq low), nofun, nofun⟩
  obtain ⟨working, stack, noDelivery, noBatch⟩ := atop
  cases attempting with
  | advances control =>
    rw [proceeds] at control
    cases control
  | drains _ innermost => exact noDelivery _ _ (List.cons.inj (stack.symm.trans innermost)).1
  | retires _ innermost => exact noBatch _ _ (List.cons.inj (stack.symm.trans innermost)).1

/-- A pass over some calls is about to end without having been interrupted. What it answers is the
outcome of the pass, the pool is as the end of a pass leaves it, and all that was recorded by the
end of the matching has been attempted once and in order. -/
structure Closes (machine : Machine) (base : List Call) (during : List Machine) (call : PassCall)
    (pool : Pool) (ending : Ending call.filling pool) : Prop where
  back : ∃ text, machine.BringsBack base call.pool ending.after
    (.ok (.passed (viewOutcome machine.world ending.outcome) text))
  attempted : (attempts base during).map Lifecycle.Attempt.notice =
    ending.settled.disposeDepartures.pool.dispatcher.notices
  report : ending.outcome.lifecycle = Report.of (attempts base during)

/-- Every pass that has delivered its notifications ends like this. -/
theorem InPass.closes {passed : List Machine} {owner : DrainOwner} (course : Course passed machine)
    (inPass : InPass first pool base during machine)
    (atDelivery : machine.AtDelivery owner drain base) (finished : drain.step = .finished) :
    ∃ ending, machine.Closes base during first pool ending := by
  have low : machine.stack.length ≤ base.length + 1 :=
    Nat.le_of_eq (congrArg List.length atDelivery.stack)
  cases inPass with
  | matching _ stack =>
    rw [atDelivery.stack] at stack
    cases stack
  | inserting _ _ above =>
    have stack := above.stack_eq_of_length low
    rw [atDelivery.stack] at stack
    cases stack
  | @closing before running _ call pass last handedOut same advances complete silent delivery =>
    have stack := delivery.inProgress.stack_eq_of_length low
    rw [atDelivery.stack] at stack
    cases stack
    let ending : Ending first.filling pool :=
      ⟨pass, handedOut, drain, advances, complete, delivery.visits.proceeds, finished⟩
    have made : attempts base (before ++ running) = attempts base running := by
      rw [attempts_append, attempts_of_matches silent, List.nil_append]
    have inside : call.pool < machine.world.pools.size := course.inside atDelivery.stack rfl
    obtain ⟨text, back⟩ := atDelivery.brings_back finished inside
    rw [same.pool] at back
    refine ⟨ending, ⟨text, back⟩, ?_, ?_⟩
    · rw [made]
      exact delivery.visits.eq_notices finished
    · rw [made]
      exact delivery.report

end Machine

end LiveTree.Session
