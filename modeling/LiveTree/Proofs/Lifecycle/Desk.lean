import LiveTree.Proofs.Session.Sparing

/-! The desk at which retirements are kept: what waits in the dispatchers, the batches, and the
deliveries in progress. What can be done at the desk is said once, as errands that carry
retirements from one place to another; and a step of the machine does at most a few errands, which
can be read off the machine before the step. A pool keeps its retirements to itself and hands them
over in a batch. -/
namespace LiveTree.Session

open Lifecycle (ObjectId Dispatcher Drain RetireBatch Retirement)

/-- Where a retirement can be: in a dispatcher, in a batch, handed over by a pool that is given up,
still to be attempted by a delivery, attempted by it, or lost with it. -/
inductive Spot where
  | queue (id : Nat)
  | batch (name : Name)
  | handed
  | due (round : Nat)
  | attempted (round : Nat)
  | lost (round : Nat)
deriving DecidableEq

/-- What is done at the desk. -/
inductive Errand where
  /-- New retirements come to a place, behind those that are there. -/
  | enters (spot : Spot) (objects : List ObjectId)
  /-- All retirements at a place go to another one, behind those that are there. -/
  | pours (source target : Spot)
  /-- A delivery begins of all retirements at a place, perhaps for calls to which its count will be
  the answer. -/
  | begins (source : Spot) (asker : Option (List Call))
  /-- The innermost delivery attempts its next retirement, and tells the object or does not. -/
  | attempts (told : Bool)
  /-- The innermost delivery is over. -/
  | ends

/-- A call in progress that has to do with retirements. -/
inductive Duty where
  | draining (id : Nat) (drain : Drain)
  | retiring (delivery : Retirement) (asker : Option (List Call))

/-- What a call has to do with retirements. A delivery that is counted gives its count to the calls
outside it. -/
def Call.duty? (outer : List Call) : Call → Option Duty
  | .draining (.dispatcher id) drain => some (.draining id drain)
  | .retiring delivery counted => some (.retiring delivery (if counted then some outer else none))
  | _ => none

/-- What calls in progress have to do with retirements. -/
def duties : List Call → List Duty
  | [] => []
  | call :: calls => (call.duty? calls).toList ++ duties calls

/-- The dispatchers, the batches, and what the calls in progress have to do with them, the innermost
first. -/
structure Desk where
  dispatchers : Array (Option Dispatcher)
  batches : Names RetireBatch
  duties : List Duty

namespace Desk

/-- The desk with a batch under a name. A batch that was there is delivered. -/
def store (desk : Desk) (name : Name) (batch : RetireBatch) : Desk :=
  { desk with
    batches := desk.batches.set name batch
    duties := match desk.batches.get? name with
      | some former => .retiring former.deliver none :: desk.duties
      | none => desk.duties }

/-- The errand for a batch that loses its name to another one. -/
def ousts (desk : Desk) (name : Name) : List Errand :=
  match desk.batches.get? name with
  | some _ => [.begins (.batch name) none]
  | none => []

/-- One step at the desk, with its errands. -/
inductive Step (desk : Desk) : List Errand → Desk → Prop
  | rests : Step desk [] desk
  | founds : Step desk [] { desk with dispatchers := desk.dispatchers.push (some {}) }
  | notes {id : Nat} {dispatcher noted : Dispatcher}
      (found : (desk.dispatchers[id]?).join = some dispatcher)
      (same : noted.retiring = dispatcher.retiring) :
      Step desk [] { desk with dispatchers := desk.dispatchers.setIfInBounds id (some noted) }
  | records {id : Nat} {dispatcher : Dispatcher}
      (found : (desk.dispatchers[id]?).join = some dispatcher) (objects : List ObjectId) :
      Step desk [.enters (.queue id) objects]
        { desk with
          dispatchers := desk.dispatchers.setIfInBounds id
            (some (dispatcher.record .retired objects)) }
  | lends {id : Nat} {dispatcher : Dispatcher}
      (found : (desk.dispatchers[id]?).join = some dispatcher) :
      Step desk []
        { desk with
          dispatchers := desk.dispatchers.setIfInBounds id none
          duties := .draining id dispatcher.drain :: desk.duties }
  | drains {id : Nat} {drain later : Drain} {duties : List Duty}
      (front : desk.duties = .draining id drain :: duties)
      (same : later.dispatcher.retiring = drain.dispatcher.retiring) :
      Step desk [] { desk with duties := .draining id later :: duties }
  | returns {id : Nat} {drain : Drain} {duties : List Duty}
      (front : desk.duties = .draining id drain :: duties) :
      Step desk []
        { desk with
          dispatchers := desk.dispatchers.setIfInBounds id (some drain.dispatcher)
          duties }
  | takes {id : Nat} {dispatcher : Dispatcher} {name : Name}
      (found : (desk.dispatchers[id]?).join = some dispatcher) :
      Step desk (desk.ousts name ++ [.pours (.queue id) (.batch name)])
        (({ desk with
          dispatchers := desk.dispatchers.setIfInBounds id
            (some dispatcher.takeRetirements.2) } : Desk).store name
          ⟨dispatcher.takeRetirements.1⟩)
  | stores (name : Name) (objects : List ObjectId) :
      Step desk (desk.ousts name ++ [.enters (.batch name) objects]) (desk.store name ⟨objects⟩)
  | merges {name source : Name} {batch other : RetireBatch}
      (found : desk.batches.get? source = some other)
      (into : (desk.batches.erase source).get? name = some batch) :
      Step desk [.pours (.batch source) (.batch name)]
        { desk with batches := (desk.batches.erase source).set name (batch.extend other) }
  | delivers {name : Name} {batch : RetireBatch} (found : desk.batches.get? name = some batch)
      (asker : Option (List Call)) :
      Step desk [.begins (.batch name) asker]
        { desk with
          batches := desk.batches.erase name
          duties := .retiring batch.deliver asker :: desk.duties }
  | arrives (objects : List ObjectId) :
      Step desk [.enters .handed objects, .begins .handed none]
        { desk with duties := .retiring (RetireBatch.mk objects).deliver none :: desk.duties }
  | attempts {delivery next : Retirement} {asker : Option (List Call)} {object : ObjectId}
      {duties : List Duty} (front : desk.duties = .retiring delivery asker :: duties)
      (turn : delivery.next? = some (object, next)) (told : Bool) :
      Step desk [.attempts told]
        { desk with
          duties := .retiring (if told then next.delivered else next) asker :: duties }
  | ends {delivery : Retirement} {asker : Option (List Call)} {duties : List Duty}
      (front : desk.duties = .retiring delivery asker :: duties) :
      Step desk [.ends] { desk with duties }

theorem Step.of_eq {desk after reached : Desk} {errands : List Errand} (same : reached = after)
    (step : desk.Step errands after) : desk.Step errands reached := by
  rwa [same]

end Desk

namespace Machine

/-- What can be seen of the desk. -/
def desk (machine : Machine) : Desk :=
  ⟨machine.world.dispatchers, machine.world.batches, duties machine.stack⟩

/-- The dispatcher of a name, unless a call works on it. -/
def dispatcher? (machine : Machine) (name : Name) : Option (Nat × Dispatcher) :=
  (machine.world.dispatcherNames.get? name).bind fun id =>
    (machine.world.dispatchers[id]?).join.map fun dispatcher => (id, dispatcher)

/-- The pool of a name, unless a call works on it. -/
def pool? (machine : Machine) (name : Name) : Option Pool :=
  (machine.world.poolNames.get? name).bind fun id => (machine.world.pools[id]?).join

/-- The errands of a command that starts. -/
def startedErrands (machine : Machine) : Command → List Errand
  | .dispatcher (.record name .retired objects) =>
    match machine.dispatcher? name with
    | some (id, _) => [.enters (.queue id) (machine.world.resolveObjects objects).1]
    | none => []
  | .dispatcher (.takeRetirements name batch) =>
    match machine.dispatcher? name with
    | some (id, _) => machine.desk.ousts batch ++ [.pours (.queue id) (.batch batch)]
    | none => []
  | .batch (.create name) => machine.desk.ousts name ++ [.enters (.batch name) []]
  | .batch (.extend name source) =>
    match machine.world.batches.get? source with
    | none => []
    | some _ =>
      match (machine.world.batches.erase source).get? name with
      | some _ => [.pours (.batch source) (.batch name)]
      | none => [.begins (.batch source) none]
  | .batch (.dispatch name) =>
    match machine.world.batches.get? name with
    | some _ => [.begins (.batch name) (some machine.stack)]
    | none => []
  | .batch (.discard name) => machine.desk.ousts name
  | .pool (.takeRetirements name batch) =>
    match machine.pool? name with
    | some pool => machine.desk.ousts batch ++ [.enters (.batch batch) pool.dispatcher.retiring]
    | none => []
  | _ => []

/-- The errands of a call that goes on. -/
def continuedErrands (machine : Machine) : Call → List Errand
  | .draining .discardedPool drain =>
    match drain.step with
    | .finished => [.enters .handed drain.dispatcher.retiring, .begins .handed none]
    | _ => []
  | .retiring delivery _ =>
    match delivery.next? with
    | some (object, _) => [.attempts ((machine.world.objects.state object).canBecome .retired)]
    | none => [.ends]
  | _ => []

/-- The errands of the machine in its next step. -/
def errands (machine : Machine) : List Errand :=
  match machine.control, machine.stack with
  | .execute command, _ => machine.startedErrands command
  | .proceed, call :: _ => machine.continuedErrands call
  | .unwind _, .retiring _ _ :: _ => [.ends]
  | _, _ => []

variable {machine : Machine} {call : Call} {calls : List Call} {duty : Duty}

theorem duties_of_stack (stack : machine.stack = call :: calls)
    (busy : call.duty? calls = some duty) : machine.desk.duties = duty :: duties calls := by
  simp [desk, stack, duties, busy]

theorem desk_pop_of_duty (stack : machine.stack = call :: calls) :
    machine.pop.desk = { machine.desk with duties := duties calls } := by
  simp [desk, pop, stack]

/-! ### What leaves the desk as it is -/

/-- What leaves the tree alone leaves the desk as it is. -/
theorem Spares.desk_eq {after : Machine} (spares : machine.Spares after) :
    after.desk = machine.desk := by
  have dispatchers : after.world.dispatchers = machine.world.dispatchers :=
    congrArg Tree.dispatchers spares.tree_eq
  have batches : after.world.batches = machine.world.batches :=
    congrArg Tree.batches spares.tree_eq
  have same : duties after.stack = duties machine.stack := by
    refine spares.eq_of_blind fun call calls apart => ?_
    have idle : call.duty? calls = none := by
      cases call <;> first | rfl | cases apart
    rw [duties, idle, Option.toList_none, List.nil_append]
  simp only [desk, dispatchers, batches, same]

section Quiet

variable (machine : Machine)

@[simp]
theorem desk_finish (ending : Except Panic Answer) :
    (machine.finish ending).desk = machine.desk := Spares.stays.finish.desk_eq

@[simp]
theorem desk_diagnose (diagnostic : Diagnostic) :
    (machine.diagnose diagnostic).desk = machine.desk := Spares.stays.diagnose.desk_eq

@[simp]
theorem desk_diagnoseAll (diagnostics : List Diagnostic) :
    (machine.diagnoseAll diagnostics).desk = machine.desk := Spares.stays.diagnoseAll.desk_eq

@[simp]
theorem desk_enter (span : Span) : (machine.enter span).desk = machine.desk :=
  Spares.stays.enter.desk_eq

@[simp]
theorem desk_leave (span : Span) : (machine.leave span).desk = machine.desk :=
  Spares.stays.leave.desk_eq

/-- A call that has nothing to do with retirements comes and goes unseen. -/
private theorem desk_push {call : Call} (idle : call.duty? machine.stack = none) :
    (machine.push call).desk = machine.desk := by
  simp [desk, push, duties, idle]

theorem desk_pop {call : Call} {calls : List Call} (stack : machine.stack = call :: calls)
    (idle : call.duty? calls = none) : machine.pop.desk = machine.desk := by
  simp [desk, pop, stack, duties, idle]

theorem desk_become {call next : Call} {calls : List Call} (stack : machine.stack = call :: calls)
    (idle : call.duty? calls = none) (nextIdle : next.duty? calls = none) :
    (machine.become next).desk = machine.desk := by
  simp [desk, become, stack, duties, idle, nextIdle]

@[simp]
theorem desk_tell (id : ObjectId) (event : Lifecycle.Event) :
    (machine.tell id event).desk = machine.desk := Spares.stays.tell.desk_eq

@[simp]
theorem desk_tellState (id : ObjectId) (state : Lifecycle.State) :
    (machine.tellState id state).desk = machine.desk := Spares.stays.tellState.desk_eq

@[simp]
theorem desk_discardPool (pool : Pool) : (machine.discardPool pool).desk = machine.desk := by
  unfold discardPool diagnoseDisposal
  exact ((machine.diagnoseAll _).desk_push rfl).trans (machine.desk_diagnoseAll _)

@[simp]
theorem desk_release (id : Nat) (ending : Except Panic Answer) :
    (machine.release id ending).desk = machine.desk := by
  unfold release
  split
  · exact machine.desk_finish ending
  · split
    · exact machine.desk_finish ending
    · cases ending <;> exact desk_discardPool ((machine.setPool id none).push _) _

@[simp]
theorem desk_giveBack (id : Nat) (pool : Pool) (ending : Except Panic Answer) :
    (machine.giveBack id pool ending).desk = machine.desk :=
  (machine.setPool id (some pool)).desk_release id ending

@[simp]
theorem desk_storePlaced (label : String) (placed : List (Relocation.PlacementTicket × Entry)) :
    (machine.storePlaced label placed).desk = machine.desk := by
  unfold storePlaced
  induction placed generalizing machine with
  | nil => rfl
  | cons pair placed ih =>
    rw [List.foldl_cons, ih]
    rfl

/-- Objects come about without the desk. -/
theorem desk_resolveObjects (names : List Name) :
    (machine.withWorld (machine.world.resolveObjects names).2).desk = machine.desk := by
  have same (world : World) : (world.resolveObjects names).2.dispatchers = world.dispatchers ∧
      (world.resolveObjects names).2.batches = world.batches := by
    induction names generalizing world with
    | nil => exact ⟨rfl, rfl⟩
    | cons name names ih =>
      dsimp only [World.resolveObjects]
      cases world.objectNames.get? name with
      | some id => exact ih world
      | none => exact ih { world with objects := _, objectNames := _ }
  obtain ⟨dispatchers, batches⟩ := same machine.world
  dsimp only [desk, withWorld]
  rw [dispatchers, batches]

/-- An attempt to move an object has nothing to do with the desk, whatever comes of it. -/
private theorem desk_advance {desk : Desk} {object : ObjectId} {target : Lifecycle.State}
    {refused : Lifecycle.IllegalMove → Machine} {allowed : Machine → Machine}
    (illegal : ∀ move, (refused move).desk = desk)
    (legal : ∀ objects,
      (allowed (machine.withWorld { machine.world with objects })).desk = desk) :
    (machine.advance object target refused allowed).desk = desk := by
  unfold advance
  split
  · exact illegal _
  · exact (desk_tellState _ _ _).trans (legal _)

theorem desk_executeObject (command : ObjectCommand Body) :
    (machine.executeObject command).desk = machine.desk := by
  cases command with
  | create => rfl
  | share | describe => exact @onObject_eq _ desk _ _ _ _ rfl fun _ => rfl
  | compare =>
    refine @onObject_eq _ desk _ _ _ _ rfl fun id => ?_
    split <;> rfl
  | advance =>
    refine @onObject_eq _ desk _ _ _ _ rfl fun id => ?_
    exact machine.desk_advance (fun _ => rfl) fun _ => rfl
  | poke name event =>
    refine @onObject_eq _ desk _ _ _ _ rfl fun id => ?_
    cases event with
    | none => rfl
    | some event => exact desk_tell (machine.push (.replying .ok)) id event

theorem desk_executeEntry (command : EntryCommand) :
    (machine.executeEntry command).desk = machine.desk := by
  cases command <;> exact @onEntry_eq _ desk _ _ _ _ rfl fun _ => rfl

private theorem desk_instantiate (id : Nat) (pool : Pool) (name : Name) (descriptor : DescriptorId)
    (handle : String) (parameter : Int) (position : Position.Hash) (objects : List Name) :
    (machine.instantiate id pool name descriptor handle parameter position objects).desk =
      machine.desk := by
  have stored (changed : Pool) :
      (setPool (machine.withWorld (machine.world.resolveObjects objects).2) id
        (some changed)).desk = machine.desk := machine.desk_resolveObjects objects
  exact (desk_diagnose _ _).trans (stored _)

private theorem desk_depart (id : Nat) (pool : Pool) (name : Name)
    (descriptor : Option DescriptorId) (entry : Entry) :
    (machine.depart id pool name descriptor entry).desk = machine.desk := by
  unfold depart
  dsimp only
  split
  · rfl
  · exact desk_diagnose (setPool (machine.withWorld _) id _) _

private theorem desk_claim (id : Nat) (pool : Pool) (descriptor : DescriptorId) (name : Name) :
    (machine.claim id pool descriptor name).desk = machine.desk := by
  unfold claim
  split
  · rfl
  · exact desk_diagnose (machine.setPool id _) _

private theorem desk_place (id : Nat) (pool : Pool) (descriptor : DescriptorId) (parameter : Int)
    (position : Position.Hash) (name : Name) (described : Bool) :
    (machine.place id pool descriptor parameter position name described).desk = machine.desk := by
  unfold place
  dsimp only
  split <;> exact desk_diagnose (machine.setPool id _) _

/-- Most of what is asked of a pool leaves the desk as it is. -/
theorem desk_executePool {command : PoolCommand Body}
    (other : ∀ name batch, command ≠ .takeRetirements name batch) :
    (machine.executePool command).desk = machine.desk := by
  cases command with
  | create name config =>
    dsimp only [executePool, createPool]
    split
    · rfl
    · exact desk_release (machine.withWorld _) _ _
  | discard name =>
    refine @onPool_eq _ desk _ _ _ _ rfl rfl fun id pool => ?_
    split
    · rfl
    · exact desk_release (machine.withWorld _) _ _
  | describe | query => exact @onPool_eq _ desk _ _ _ _ rfl rfl fun _ _ => rfl
  | instantiate =>
    refine @onPool_eq _ desk _ _ _ _ rfl rfl fun id pool => ?_
    exact @atPlace_eq _ desk _ _ _ _ rfl fun _ => machine.desk_instantiate ..
  | deactivate =>
    refine @onPool_eq _ desk _ _ _ _ rfl rfl fun id pool => ?_
    exact @onEntry_eq _ desk _ _ _ _ rfl fun _ => rfl
  | depart =>
    refine @onPool_eq _ desk _ _ _ _ rfl rfl fun id pool => ?_
    exact @onEntry_eq _ desk _ _ _ _ rfl fun _ => machine.desk_depart ..
  | claim => exact @onPool_eq _ desk _ _ _ _ rfl rfl fun _ _ => machine.desk_claim ..
  | place =>
    refine @onPool_eq _ desk _ _ _ _ rfl rfl fun id pool => ?_
    exact @atPlace_eq _ desk _ _ _ _ rfl fun _ => machine.desk_place ..
  | endPass =>
    refine @onPool_eq _ desk _ _ _ _ rfl rfl fun id pool => ?_
    exact desk_enter (machine.setPool id none) _
  | dispatch => exact @onPool_eq _ desk _ _ _ _ rfl rfl fun _ _ => rfl
  | takeRetirements name batch => exact absurd rfl (other name batch)

end Quiet

end Machine

end LiveTree.Session
