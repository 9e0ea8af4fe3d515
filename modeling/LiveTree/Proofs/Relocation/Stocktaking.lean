import LiveTree.Proofs.Relocation.Jobs
import LiveTree.Proofs.Session.Course

/-! The pools of a session, step by step. What a step does with a pool can be read off the machine
before it; so in every course each pool has lived through what was done with it, whether it is at
its place or a call has taken it away. -/
namespace LiveTree.Session.Machine

open Lifecycle (ObjectId Drain)
open Relocation (Departure)

/-- Whether a call that has taken a pool away has control. -/
def working (machine : Machine) : Bool :=
  match machine.control, machine.stack with
  | .proceed, call :: _ => call.job?.isSome
  | _, _ => false

/-- The pool of a name with its place, unless a call has taken it away. -/
def poolAt? (machine : Machine) (name : Name) : Option (Nat × Pool) :=
  (machine.world.poolNames.get? name).bind fun id =>
    (machine.world.pools[id]?).join.map fun pool => (id, pool)

/-- Whether a place can be found. -/
def knowsPlace (machine : Machine) : Place → Bool
  | .fixed _ => true
  | .ofHasher name => (machine.world.hashers.get? name).isSome

/-- What a command does with a pool. -/
def startedDealing? (machine : Machine) : Command → Option (Nat × Dealing)
  | .pool (.deactivate name entryName) =>
    match machine.poolAt? name, machine.world.entries.get? entryName with
    | some (id, _), some entry =>
      if entry.active then some (id, .deactivates entry.objects) else none
    | _, _ => none
  | .pool (.depart name entryName descriptor) =>
    match machine.poolAt? name, machine.world.entries.get? entryName with
    | some (id, pool), some entry =>
      if entry.descriptor = descriptor.getD entry.descriptor then
        some (id, .reports ⟨pool.nextDeparture, entry⟩)
      else none
    | _, _ => none
  | .pool (.claim name descriptor _) =>
    match machine.poolAt? name with
    | some (id, pool) =>
      (pool.first? descriptor).map fun departure => (id, .gives .claimed departure)
    | none => none
  | .pool (.place name descriptor _ place _ _) =>
    match machine.poolAt? name with
    | some (id, pool) =>
      if machine.knowsPlace place then
        (if !pool.isAwaited descriptor then pool.first? descriptor else none).map fun departure =>
          (id, .gives .moved departure)
      else none
    | none => none
  | .pool (.dispatch name) => (machine.poolAt? name).map fun found => (found.1, .dispatches)
  | _ => none

/-- What a call does with a pool when it goes on. -/
def continuedDealing? : Call → Option (Nat × Dealing)
  | .matching call pass =>
    match pass.step with
    | .matched request _ _ =>
      (pass.pool.first? request.descriptor).map fun departure =>
        (call.pool, .gives .resolved departure)
    | .unmatched _ _ => none
    | .settled => some (call.pool, .settles pass.pool.departures.inReportOrder)
  | _ => none

/-- What the machine does with a pool in its next step. -/
def dealing? (machine : Machine) : Option (Nat × Dealing) :=
  match machine.control, machine.stack with
  | .execute command, _ => machine.startedDealing? command
  | .proceed, call :: _ => continuedDealing? call
  | _, _ => none

/-- What was done with pools by machines that were passed. -/
def dealings (passed : List Machine) : List (Nat × Dealing) := passed.filterMap dealing?

private theorem dealings_concat (passed : List Machine) (last : Machine) :
    dealings (passed ++ [last]) = dealings passed ++ last.dealing?.toList := by
  unfold dealings
  cases dealing : last.dealing? <;> simp [dealing]

variable {machine after : Machine} {stock : Stock} {label : Option (Nat × Dealing)} {was : Bool}
  {calls : List Call} {name : Name}

/-! ### Pools that come back or are given up -/

/-- A call that ends may leave its pool without anybody who could ask for it. -/
private theorem stock_step_release (step : ∀ later, stock.Step was label machine.stock later)
    (id : Nat) (ending : Except Panic Answer) :
    stock.Step was label (machine.release id ending).stock (machine.release id ending).working := by
  unfold release
  split
  · rw [stock_finish]
    exact step _
  · split
    · rw [stock_finish]
      exact step _
    · cases ending with
      | ok answer =>
        have given := stock_discardPool ((machine.setPool id none).push (.replying answer))
        rw [given]
        exact (step _).drops id
      | error reason =>
        have given := stock_discardPool ((machine.setPool id none).push (.unwinding reason))
        rw [given]
        exact (step _).drops id

private theorem stock_setPool (machine : Machine) (id : Nat) (pool : Option Pool) :
    (machine.setPool id pool).stock =
      { machine.stock with pools := machine.stock.pools.setIfInBounds id pool } := rfl

/-- A call ends and brings its pool back. -/
private theorem stock_step_giveBack {job : Job} {pool : Pool}
    (front : machine.stock.jobs = job :: calls.filterMap Call.job?)
    (leaves : job.Leaves was pool) (reached : after.stock =
      { machine.stock with jobs := calls.filterMap Call.job? })
    (ending : Except Panic Answer) :
    machine.stock.Step was none (after.giveBack job.id pool ending).stock
      (after.giveBack job.id pool ending).working := by
  refine stock_step_release (fun later => ?_) job.id ending
  rw [stock_setPool, reached]
  exact .returns front leaves later

/-! ### Commands -/

section Commands

private theorem rests_at_stock (idle : was = false) (same : after.stock = machine.stock) :
    machine.stock.Step was none after.stock after.working := by
  rw [same]
  exact .rests idle _

/-- A command on a pool does not find it, or works on it. -/
theorem onPool_cases (machine : Machine) (name : Name) (work : Nat → Pool → Machine) :
    (machine.poolAt? name = none ∧ (machine.onPool name work).stock = machine.stock) ∨
    ∃ id pool, machine.poolAt? name = some (id, pool) ∧
      machine.stock.pools[id]? = some (some pool) ∧ machine.onPool name work = work id pool := by
  unfold poolAt? onPool
  cases named : machine.world.poolNames.get? name with
  | none => exact .inl ⟨rfl, rfl⟩
  | some id =>
    cases found : (machine.world.pools[id]?).join with
    | none => exact .inl ⟨by simp [found], by simp only [found]; rfl⟩
    | some pool =>
      exact .inr ⟨id, pool, by simp [found], Option.join_eq_some_iff.mp found,
        by simp only [found]⟩

variable {id : Nat} {pool changed : Pool} {dealing : Option Dealing}

/-- A pool that is worked on at its place. -/
private theorem stock_step_setPool (idle : was = false)
    (found : machine.stock.pools[id]? = some (some pool)) (deals : pool.Deals dealing changed)
    (reached : after.stock = (machine.setPool id (some changed)).stock) :
    machine.stock.Step was (dealing.map (id, ·)) after.stock after.working := by
  rw [reached]
  exact .deals idle found deals _

private theorem stock_step_depart (idle : was = false)
    (found : machine.stock.pools[id]? = some (some pool)) (name : Name)
    (descriptor : Option DescriptorId) (entry : Entry) :
    machine.stock.Step was
      (if entry.descriptor = descriptor.getD entry.descriptor then
        some (id, .reports ⟨pool.nextDeparture, entry⟩)
      else none)
      (machine.depart id pool name descriptor entry).stock
      (machine.depart id pool name descriptor entry).working := by
  cases reported : pool.reportDeparture (descriptor.getD entry.descriptor) entry with
  | error misreport =>
    have refused : ¬ entry.descriptor = descriptor.getD entry.descriptor := by
      intro same
      rw [Relocation.Pool.reportDeparture, if_pos same] at reported
      cases reported
    rw [if_neg refused]
    refine rests_at_stock idle ?_
    simp only [depart, reported]
    rfl
  | ok changed =>
    obtain ⟨same, changes⟩ := Relocation.Pool.reportDeparture_eq_ok_iff.mp reported
    have deals : pool.Deals (some (.reports ⟨pool.nextDeparture, entry⟩)) changed :=
      ⟨.report reported, by rw [changes]; rfl⟩
    rw [if_pos same]
    refine stock_step_setPool idle found deals ?_
    simp only [depart, reported]
    exact stock_diagnose (setPool _ id _) _

private theorem stock_step_claim (idle : was = false)
    (found : machine.stock.pools[id]? = some (some pool)) (descriptor : DescriptorId)
    (name : Name) :
    machine.stock.Step was
      ((pool.first? descriptor).map fun departure => (id, .gives .claimed departure))
      (machine.claim id pool descriptor name).stock
      (machine.claim id pool descriptor name).working := by
  cases answer : pool.claim descriptor with
  | none =>
    have empty := Relocation.Pool.claim_eq_none_iff.mp answer
    rw [Relocation.Pool.first?, empty]
    refine rests_at_stock idle ?_
    simp only [claim, answer]
    rfl
  | some claimed =>
    obtain ⟨entry, changed⟩ := claimed
    obtain ⟨departure, departures, taken, same, changes⟩ :=
      Relocation.Pool.claim_eq_some_iff.mp answer
    subst same
    have first : pool.first? descriptor = some departure :=
      (Relocation.Departures.waiting_claim taken).1
    have deals : pool.Deals (some (.gives .claimed departure)) changed :=
      ⟨.claim answer first, by rw [changes]; rfl⟩
    rw [first]
    refine stock_step_setPool idle found deals ?_
    simp only [claim, answer]
    exact stock_diagnose (setPool _ id _) _

/-- A request behind another one or without a departure gets none. -/
private theorem first?_of_unserved {descriptor : DescriptorId}
    (unserved : pool.claimFor descriptor = none) :
    (if !pool.isAwaited descriptor then pool.first? descriptor else none) = none := by
  unfold Relocation.Pool.claimFor at unserved
  cases awaited : pool.isAwaited descriptor with
  | true => rfl
  | false =>
    rw [awaited] at unserved
    have empty := Relocation.Pool.claim_eq_none_iff.mp unserved
    simp [Relocation.Pool.first?, empty]

private theorem stock_step_place (idle : was = false)
    (found : machine.stock.pools[id]? = some (some pool)) (descriptor : DescriptorId)
    (parameter : Int) (position : Position.Hash) (name : Name) (described : Bool) :
    machine.stock.Step was
      ((if !pool.isAwaited descriptor then pool.first? descriptor else none).map fun departure =>
        (id, .gives .moved departure))
      (machine.place id pool descriptor parameter position name described).stock
      (machine.place id pool descriptor parameter position name described).working := by
  have stored (changed : Pool) (diagnostic : Diagnostic) :
      ((machine.setPool id (some changed)).diagnose diagnostic).stock =
        (machine.setPool id (some changed)).stock := stock_diagnose _ _
  rcases pool.requestPlacement_cases descriptor parameter position with
    ⟨departure, departures, free, taken, same⟩ | ⟨unserved, -, -, same⟩ | ⟨unserved, -, same⟩
  · have first : pool.first? descriptor = some departure :=
      (Relocation.Departures.waiting_claim taken).1
    have moved : (pool.requestPlacement descriptor parameter position).1 =
        .moved (departure.entry.placedAt parameter position) := congrArg Prod.fst same
    have deals : pool.Deals (some (.gives .moved departure))
        (pool.requestPlacement descriptor parameter position).2 := by
      refine ⟨.place moved first, ?_⟩
      rw [same]
      simp only [Relocation.Pool.welcome]
      split <;> rfl
    rw [free, first]
    refine stock_step_setPool idle found deals ?_
    simp only [place, same]
    exact stored _ _
  · rw [first?_of_unserved unserved]
    have deals : pool.Deals none (pool.requestPlacement descriptor parameter position).2 :=
      ⟨.placeLater (by simp [same]), by rw [same]; rfl⟩
    refine stock_step_setPool idle found deals ?_
    simp only [place, same]
    exact stored _ _
  · rw [first?_of_unserved unserved]
    have deals : pool.Deals none (pool.requestPlacement descriptor parameter position).2 :=
      ⟨.placeLater (by simp [same]), by rw [same]; rfl⟩
    refine stock_step_setPool idle found deals ?_
    simp only [place, same]
    exact stored _ _

private theorem stock_step_instantiate (idle : was = false)
    (found : machine.stock.pools[id]? = some (some pool)) (name : Name)
    (descriptor : DescriptorId) (handle : String) (parameter : Int) (position : Position.Hash)
    (objects : List Name) :
    machine.stock.Step was none
      (machine.instantiate id pool name descriptor handle parameter position objects).stock
      (machine.instantiate id pool name descriptor handle parameter position objects).working := by
  let ids := (machine.world.resolveObjects objects).1
  have deals : pool.Deals none (pool.instantiate descriptor handle parameter position ids).2 :=
    ⟨.instantiate pool descriptor handle parameter position ids, rfl⟩
  refine stock_step_setPool idle found deals ?_
  have resolved := machine.stock_resolveObjects objects
  simp only [instantiate]
  refine (stock_diagnose _ _).trans ?_
  rw [stock_setPool, stock_setPool, resolved]

private theorem stock_step_deactivate (idle : was = false)
    (found : machine.stock.pools[id]? = some (some pool)) (entry : Entry)
    (reached : after.stock = (machine.setPool id (some (pool.deactivate entry).2)).stock) :
    machine.stock.Step was (if entry.active then some (id, .deactivates entry.objects) else none)
      after.stock after.working := by
  have exchange := Relocation.Pool.Exchange.deactivate pool entry
  have same := pool.deactivate_snd entry
  cases active : entry.active with
  | true =>
    rw [active, if_pos rfl] at same
    have deals : pool.Deals (some (.deactivates entry.objects)) (pool.deactivate entry).2 :=
      ⟨exchange, by rw [same]; rfl⟩
    exact stock_step_setPool idle found deals reached
  | false =>
    rw [active] at same
    have deals : pool.Deals none (pool.deactivate entry).2 := ⟨exchange, by rw [same]; rfl⟩
    exact stock_step_setPool idle found deals reached

/-- An answer that is given at once is about no pool. -/
private theorem rests_reply (idle : was = false) (answer : Answer) :
    machine.stock.Step was none (machine.reply answer).stock (machine.reply answer).working :=
  rests_at_stock idle rfl

private theorem stock_step_atPlace (place : Place) {work : Position.Hash → Machine}
    (idle : was = false)
    (works : ∀ position, machine.stock.Step was label (work position).stock
      (work position).working) :
    machine.stock.Step was (if machine.knowsPlace place then label else none)
      (machine.atPlace place work).stock (machine.atPlace place work).working := by
  unfold atPlace knowsPlace
  cases place with
  | fixed position => exact works position
  | ofHasher name =>
    rcases known : machine.world.hashers.get? name with _ | hasher
    · simp only [known]
      exact rests_reply idle (.missing .place)
    · simp only [known]
      exact works hasher.current

private theorem stock_step_executePool (idle : was = false) (command : PoolCommand Body) :
    machine.stock.Step was (machine.startedDealing? (.pool command))
      (machine.executePool command).stock (machine.executePool command).working := by
  cases command with
  | create name config =>
    simp only [executePool, createPool]
    split
    · exact .founds idle config _
    · exact stock_step_release (fun later => .founds idle config later) _ _
  | discard name =>
    rcases machine.onPool_cases name _ with ⟨-, same⟩ | ⟨id, pool, -, -, works⟩
    · exact rests_at_stock idle same
    · rw [executePool, removePool, works]
      split
      · exact rests_reply idle .busy
      · refine stock_step_release (fun later => ?_) _ _
        exact .rests idle later
  | describe name =>
    exact rests_at_stock idle (@onPool_eq _ Machine.stock _ _ _ _ rfl rfl fun _ _ => rfl)
  | query name descriptor =>
    exact rests_at_stock idle (@onPool_eq _ Machine.stock _ _ _ _ rfl rfl fun _ _ => rfl)
  | instantiate name entry descriptor handle parameter place objects =>
    rcases machine.onPool_cases name _ with ⟨-, same⟩ | ⟨id, pool, -, found, works⟩
    · exact rests_at_stock idle same
    · rw [executePool, works]
      have step := stock_step_atPlace place idle fun position =>
        stock_step_instantiate idle found entry descriptor handle parameter position objects
      rwa [ite_self] at step
  | deactivate name entryName =>
    rcases machine.onPool_cases name _ with ⟨absent, same⟩ | ⟨id, pool, present, found, works⟩
    · simp only [startedDealing?, absent]
      exact rests_at_stock idle same
    · rw [executePool, works]
      simp only [startedDealing?, present, onEntry]
      cases machine.world.entries.get? entryName with
      | none => exact rests_reply idle _
      | some entry => exact stock_step_deactivate idle found entry rfl
  | depart name entryName descriptor =>
    rcases machine.onPool_cases name _ with ⟨absent, same⟩ | ⟨id, pool, present, found, works⟩
    · simp only [startedDealing?, absent]
      exact rests_at_stock idle same
    · rw [executePool, works]
      simp only [startedDealing?, present, onEntry]
      cases machine.world.entries.get? entryName with
      | none => exact rests_reply idle _
      | some entry => exact stock_step_depart idle found entryName descriptor entry
  | claim name descriptor entry =>
    rcases machine.onPool_cases name _ with ⟨absent, same⟩ | ⟨id, pool, present, found, works⟩
    · simp only [startedDealing?, absent]
      exact rests_at_stock idle same
    · rw [executePool, works]
      simp only [startedDealing?, present]
      exact stock_step_claim idle found descriptor entry
  | place name descriptor parameter place entry described =>
    rcases machine.onPool_cases name _ with ⟨absent, same⟩ | ⟨id, pool, present, found, works⟩
    · simp only [startedDealing?, absent]
      exact rests_at_stock idle same
    · rw [executePool, works]
      simp only [startedDealing?, present]
      exact stock_step_atPlace place idle fun position =>
        stock_step_place idle found descriptor parameter position entry described
  | endPass name insertions label described =>
    rcases machine.onPool_cases name _ with ⟨-, same⟩ | ⟨id, pool, -, found, works⟩
    · exact rests_at_stock idle same
    · rw [executePool, works]
      let call : PassCall := ⟨id, pool.passNumber, insertions, label, described⟩
      have entered := (machine.setPool id none).stock_enter (.pass call.number)
      have begun : ((((machine.setPool id none).enter (.pass call.number)).push
          (.matching call pool.endPass)).proceed).stock =
          { pools := machine.stock.pools.setIfInBounds id none
            jobs := .matching call pool.endPass :: machine.stock.jobs } := by
        rw [stock_setPool] at entered
        exact congrArg (fun stock : Stock =>
          { stock with jobs := .matching call pool.endPass :: stock.jobs }) entered
      refine Eq.mpr ?_ (@Stock.Step.lendsForPass _ _ idle pool call found)
      rw [begun]
      rfl
  | dispatch name =>
    rcases machine.onPool_cases name _ with ⟨absent, same⟩ | ⟨id, pool, present, found, works⟩
    · simp only [startedDealing?, absent]
      exact rests_at_stock idle same
    · rw [executePool, works]
      simp only [startedDealing?, present]
      exact .lendsForDispatch idle found
  | takeRetirements name batch =>
    rcases machine.onPool_cases name _ with ⟨-, same⟩ | ⟨id, pool, -, found, works⟩
    · exact rests_at_stock idle same
    · rw [executePool, works]
      have deals : pool.Deals none
          { pool with dispatcher := pool.dispatcher.takeRetirements.2 } :=
        ⟨.takeRetirements pool, rfl⟩
      exact stock_step_setPool idle found deals (stock_storeBatch _ batch _)

end Commands

/-! ### Calls that go on or end -/

section Calls

variable {call : Call} {job changed : Job}

theorem jobs_of_stack (stack : machine.stack = call :: calls) (busy : call.job? = some job) :
    machine.stock.jobs = job :: calls.filterMap Call.job? := by
  simp [Machine.stock, stack, busy]

private theorem stock_become_of_job (next : Call) (stack : machine.stack = call :: calls)
    (busy : next.job? = some changed) :
    (machine.become next).stock =
      { machine.stock with jobs := changed :: calls.filterMap Call.job? } := by
  simp [Machine.stock, become, stack, busy]

private theorem stock_pop_of_stack (stack : machine.stack = call :: calls) :
    machine.pop.stock = { machine.stock with jobs := calls.filterMap Call.job? } := by
  simp [Machine.stock, pop, stack]

/-- A call that has taken a pool away goes on. -/
private theorem stock_step_goesOn (dealing : Option Dealing) (changed : Job)
    (stack : machine.stack = call :: calls) (busy : call.job? = some job)
    (goes : job.Goes dealing changed after.working)
    (reached : after.stock =
      { machine.stock with jobs := changed :: calls.filterMap Call.job? }) :
    machine.stock.Step call.job?.isSome (dealing.map (job.id, ·)) after.stock after.working := by
  rw [reached]
  exact .goesOn (jobs_of_stack stack busy) (by rw [busy]; rfl) goes

/-- A delivery goes on with the pool for which it is made. -/
private theorem exists_drain_goes {owner : DrainOwner} {drain later : Drain} {working : Bool}
    (busy : (Call.draining owner drain).job? = some job)
    (turns : (Call.draining owner later).job?.isSome = true → DrainTurn drain later working) :
    ∃ changed, (Call.draining owner later).job? = some changed ∧
      job.Goes none changed working := by
  cases owner with
  | dispatcher | discardedPool => cases busy
  | pool id pool =>
    cases busy
    exact ⟨_, rfl, .dispatching (turns rfl)⟩
  | pass call pass disposed =>
    cases busy
    exact ⟨_, rfl, .closing (turns rfl)⟩

private theorem stock_step_turns {owner : DrainOwner} {drain later : Drain}
    (stack : machine.stack = .draining owner drain :: calls) (world : World)
    (same : world.pools = machine.world.pools)
    (reached : after.stock = ((machine.withWorld world).become (.draining owner later)).stock)
    (turns : (Call.draining owner later).job?.isSome = true → DrainTurn drain later after.working) :
    machine.stock.Step (Call.draining owner drain).job?.isSome none after.stock after.working := by
  have held : (machine.withWorld world).stack = .draining owner drain :: calls := stack
  have kept : (machine.withWorld world).stock = machine.stock := by
    simp only [Machine.stock, withWorld, same]
  cases busy : (Call.draining owner drain).job? with
  | none =>
    have idle : (Call.draining owner later).job? = none := by
      cases owner <;> first | rfl | cases busy
    refine rests_at_stock rfl (reached.trans ?_)
    rw [stock_become _ held (idle.trans busy.symm), kept]
  | some job =>
    obtain ⟨changed, busyStill, goes⟩ := exists_drain_goes busy turns
    rw [stock_become_of_job _ held busyStill, kept] at reached
    rw [← busy]
    exact stock_step_goesOn none changed stack busy goes reached

private theorem stock_step_finishDrain {owner : DrainOwner} {drain : Drain}
    (stack : machine.stack = .draining owner drain :: calls) (finished : drain.step = .finished) :
    machine.stock.Step (Call.draining owner drain).job?.isSome none
      (machine.finishDrain owner drain).stock (machine.finishDrain owner drain).working := by
  have untouched := machine.stock_diagnoseAll drain.report.diagnostics
  have held := (machine.stack_diagnoseAll drain.report.diagnostics).trans stack
  unfold finishDrain
  dsimp only
  -- What is reported on the way changes neither the pools nor the calls.
  generalize machine.diagnoseAll drain.report.diagnostics = reported at untouched held
  rw [← untouched]
  cases owner with
  | dispatcher id => exact rests_at_stock rfl (reported.stock_pop held rfl)
  | pool id pool =>
    exact stock_step_giveBack (jobs_of_stack held rfl) (.dispatched finished)
      (stock_pop_of_stack held) _
  | pass call pass disposed =>
    unfold finishPass
    dsimp only
    generalize pass.outcome disposed drain.report = outcome
    generalize Relocation.PassOutcome.resolution outcome call.number _ = resolution
    let placed := (((reported.diagnose resolution).leave (.pass call.number)).storePlaced call.label
      outcome.moved).storePlaced call.label outcome.inserted
    have stays : placed.stack = .draining (.pass call pass disposed) drain :: calls := by
      rw [stack_storePlaced, stack_storePlaced, stack_leave, stack_diagnose]
      exact held
    have same : placed.stock = reported.stock := by
      rw [stock_storePlaced, stock_storePlaced, stock_leave, stock_diagnose]
    have popped := stock_pop_of_stack stays
    rw [same] at popped
    exact stock_step_giveBack (jobs_of_stack held rfl) (.closed finished) popped _
  | discardedPool => exact rests_at_stock rfl (reported.stock_pop held rfl)

private theorem stock_step_continueDrain {owner : DrainOwner} {drain : Drain}
    (stack : machine.stack = .draining owner drain :: calls) :
    machine.stock.Step (Call.draining owner drain).job?.isSome none
      (machine.continueDrain owner drain).stock (machine.continueDrain owner drain).working := by
  -- A delivery that keeps control has it with its pool, if it has one.
  have proceeds (later : Drain) (busy : (Call.draining owner later).job?.isSome = true) :
      (machine.become (.draining owner later)).proceed.working = true := by
    simpa [working, become, proceed] using busy
  cases going : drain.step with
  | attempt object target later =>
    simp only [continueDrain, going, advance]
    split
    · next illegal _ =>
      refine stock_step_turns stack machine.world rfl rfl fun busy => ?_
      rw [proceeds _ busy]
      exact .refused going illegal
    · next objects _ =>
      exact stock_step_turns stack { machine.world with objects } rfl
        (stock_tellState _ _ _) fun _ => .told going _
  | nextList later =>
    simp only [continueDrain, going]
    refine stock_step_turns stack machine.world rfl rfl fun busy => ?_
    rw [proceeds _ busy]
    exact .nextList going
  | finished =>
    simp only [continueDrain, going]
    exact stock_step_finishDrain stack going

private theorem stock_step_continueMatching {call : PassCall} {pass : Relocation.Pass String Int}
    (stack : machine.stack = .matching call pass :: calls) :
    machine.stock.Step true (continuedDealing? (.matching call pass))
      (machine.continueMatching call pass).stock
      (machine.continueMatching call pass).working := by
  have busy : (Call.matching call pass).job? = some (.matching call pass) := rfl
  have became (next : Call) (changed : Job) (is : next.job? = some changed) :
      (machine.become next).stock =
        { machine.stock with jobs := changed :: calls.filterMap Call.job? } :=
    stock_become_of_job next stack is
  cases going : pass.step with
  | matched request claimed later =>
    obtain ⟨departure, first, same, -⟩ := Relocation.Pass.Advances.first_of_matched going
    subst same
    simp only [continuedDealing?, going, first, continueMatching]
    have works : ((machine.become (.matching call later)).diagnose
        departure.entry.claim).proceed.working = true := by
      simp only [working, proceed, stack_diagnose]
      rfl
    refine stock_step_goesOn (some (.gives .resolved departure)) (.matching call later) stack busy
      ?_ ?_
    · rw [works]
      exact .matched going first
    · exact (stock_diagnose _ _).trans (became _ _ rfl)
  | unmatched request later =>
    simp only [continuedDealing?, going, continueMatching]
    cases kept : call.insertions with
    | none =>
      exact stock_step_goesOn none (.matching call (later.handBack request)) stack busy
        (.handsBack kept going) (became _ _ rfl)
    | some insertions =>
      exact stock_step_goesOn none _ stack busy (.asks kept going _)
        (became (.inserting { call with insertions := some insertions.tail } later request
          (insertions.head?.getD ⟨[], []⟩).objects) _ rfl)
  | settled =>
    simp only [continuedDealing?, going, continueMatching]
    have untouched :=
      machine.stock_diagnoseAll (pass.pool.leftovers.map Relocation.Entry.disposal)
    have held :=
      (machine.stack_diagnoseAll (pass.pool.leftovers.map Relocation.Entry.disposal)).trans stack
    let closing : Call := .draining
      (.pass call pass.disposeDepartures (pass.pool.leftovers.map (·.handle)))
      pass.disposeDepartures.pool.dispatcher.drain
    have closes := stock_become_of_job closing held rfl
    rw [untouched] at closes
    exact stock_step_goesOn (some (.settles pass.pool.departures.inReportOrder)) _ stack busy
      (.settles going) closes

private theorem stock_step_continueInserting {call : PassCall} {pass : Relocation.Pass String Int}
    {request : Relocation.Request Int} {objects : List Name}
    (stack : machine.stack = .inserting call pass request objects :: calls) :
    machine.stock.Step true none (machine.continueInserting call pass request objects).stock
      (machine.continueInserting call pass request objects).working := by
  let ids := (machine.world.resolveObjects objects).1
  let handle := "new" ++ toString request.ticket
  let next : Call := .matching call (pass.insert request handle ids)
  have held : (machine.withWorld (machine.world.resolveObjects objects).2).stack =
      .inserting call pass request objects :: calls := stack
  have became := stock_become_of_job next held rfl
  rw [stock_resolveObjects] at became
  have works (diagnostic : Diagnostic) :
      (((machine.withWorld (machine.world.resolveObjects objects).2).become next).diagnose
        diagnostic).proceed.working = true := by
    simp only [working, proceed, stack_diagnose]
    rfl
  refine stock_step_goesOn none _ stack rfl ?_ ((stock_diagnose _ _).trans became)
  rw [continueInserting, works]
  exact .inserts handle ids

private theorem stock_step_resume {call : Call} (stack : machine.stack = call :: calls) :
    machine.stock.Step call.job?.isSome (continuedDealing? call) (machine.resume call).stock
      (machine.resume call).working := by
  have innermost : machine.stack.head? = some call := by rw [stack, List.head?_cons]
  cases call with
  | holding id answer =>
    have ended : machine.pop.stock = machine.stock := machine.stock_pop stack rfl
    refine stock_step_release (fun later => ?_) id _
    rw [ended]
    exact .rests rfl later
  | draining => exact stock_step_continueDrain stack
  | retiring => exact rests_at_stock rfl (stock_continueRetirement stack)
  | matching => exact stock_step_continueMatching stack
  | inserting => exact stock_step_continueInserting stack
  | body | iterating | replying | unwinding | registering | queue | scheduler | clock =>
    exact rests_at_stock rfl (spares_resume innermost rfl).stock_eq

private theorem stock_step_unwindMatching {call : PassCall} {pass : Relocation.Pass String Int}
    {frame : Call} (stack : machine.stack = frame :: calls) (busy : frame.job? = some job)
    (own : job.id = call.pool) (leaves : job.Leaves false pass.pool) (reason : Panic) :
    machine.stock.Step false none (machine.unwindMatching call pass reason).stock
      (machine.unwindMatching call pass reason).working := by
  have held := (machine.stack_leave (.pass call.number)).trans stack
  have popped := stock_pop_of_stack held
  rw [stock_leave] at popped
  rw [unwindMatching, ← own]
  exact stock_step_giveBack (jobs_of_stack stack busy) leaves popped _

private theorem stock_step_unwindCall {call : Call} (reason : Panic)
    (stack : machine.stack = call :: calls) :
    machine.stock.Step false none (machine.unwindCall reason call).stock
      (machine.unwindCall reason call).working := by
  have innermost : machine.stack.head? = some call := by rw [stack, List.head?_cons]
  have popped (idle : call.job? = none) : machine.pop.stock = machine.stock :=
    machine.stock_pop stack idle
  cases call with
  | holding id answer =>
    have ended := popped rfl
    refine stock_step_release (fun later => ?_) id _
    rw [ended]
    exact .rests rfl later
  | retiring => exact rests_at_stock rfl (popped rfl)
  | draining owner drain =>
    cases owner with
    | dispatcher | discardedPool => exact rests_at_stock rfl (popped rfl)
    | pool id pool =>
      exact stock_step_giveBack (jobs_of_stack stack rfl) .dispatchPanics
        (stock_pop_of_stack stack) _
    | pass call pass disposed =>
      have held := (machine.stack_leave (.pass call.number)).trans stack
      have ended := stock_pop_of_stack held
      rw [stock_leave] at ended
      exact stock_step_giveBack (jobs_of_stack stack rfl) .closingPanics ended _
  | matching call pass => exact stock_step_unwindMatching stack rfl rfl .matchingPanics reason
  | inserting call pass request objects =>
    exact stock_step_unwindMatching stack rfl rfl .insertPanics reason
  | body | iterating | replying | unwinding | registering | queue | scheduler | clock =>
    exact rests_at_stock rfl (spares_unwindCall innermost rfl reason).stock_eq

end Calls

variable {passed : List Machine}

private theorem stock_step_execute (idle : was = false) (command : Command) :
    machine.stock.Step was (machine.startedDealing? command) (machine.execute command).stock
      (machine.execute command).working := by
  cases command with
  | object command => exact rests_at_stock idle (machine.stock_executeObject command)
  | dispatcher command => exact rests_at_stock idle (machine.stock_executeDispatcher command)
  | batch command => exact rests_at_stock idle (machine.stock_executeBatch command)
  | pool command => exact stock_step_executePool idle command
  | entry command => exact rests_at_stock idle (machine.stock_executeEntry command)
  | note | inspect | panic | call | iterate | queue | scheduler | clock | handle | hasher | arena =>
    exact rests_at_stock idle (machine.spares_execute rfl).stock_eq

/-- A step of the machine does with the pools what was to be expected. -/
private theorem stock_step (machine : Machine) :
    machine.stock.Step machine.working machine.dealing? machine.step.stock
      machine.step.working := by
  rcases machine with ⟨world, listener, log, stack, control⟩
  cases control with
  | execute command => exact stock_step_execute rfl command
  | answer answer =>
    cases stack with
    | nil => exact rests_at_stock rfl rfl
    | cons call calls => cases call <;> exact rests_at_stock rfl rfl
  | proceed =>
    cases stack with
    | nil => exact rests_at_stock rfl rfl
    | cons call calls => exact stock_step_resume rfl
  | unwind reason =>
    cases stack with
    | nil => exact rests_at_stock rfl rfl
    | cons call calls => exact stock_step_unwindCall reason rfl

/-- A move of a session does with the pools what was to be expected. -/
private theorem Move.stock_step (move : machine.Move after) :
    machine.stock.Step machine.working machine.dealing? after.stock after.working := by
  cases move with
  | step => exact Machine.stock_step machine
  | @reconsider call other rest innermost proceeds free =>
    have none : machine.dealing? = none := by
      unfold dealing?
      rw [proceeds, innermost]
      cases free <;> rfl
    have same : ({ machine with stack := other :: rest } : Machine).stock = machine.stock := by
      simp only [stock, innermost]
      cases free <;> rfl
    have works : ({ machine with stack := other :: rest } : Machine).working = machine.working := by
      simp only [working, innermost, proceeds]
      cases free <;> rfl
    rw [none, same, works]
    exact .waits
  | command finished command =>
    have idle := (rests_of_outcome finished).1
    have none : machine.dealing? = none := by
      rcases machine with ⟨world, listener, log, stack, control⟩
      cases idle
      cases control <;> first | rfl | cases finished
    have resting : machine.working = false := by
      unfold working
      rw [idle]
      cases machine.control <;> rfl
    rw [none]
    refine rests_at_stock resting ?_
    simp only [stock, start, idle]

/-- In every course the pools have lived through what was done with them. -/
theorem Course.sound_stock (course : Course passed machine) :
    machine.stock.Sound machine.working (dealings passed) := by
  obtain ⟨scripts, listener, command, goes⟩ := course
  induction goes with
  | stays =>
    have empty (id : Nat) (pool : Pool) :
        ¬ (#[] : Array (Option Pool))[id]? = some (some pool) := by simp
    exact ⟨nofun, List.nodup_nil, fun id pool found => absurd found (empty id pool), nofun, nofun,
      fun _ _ => rfl⟩
  | moves _ move ih =>
    rw [dealings_concat]
    exact move.stock_step.sound ih

end LiveTree.Session.Machine
