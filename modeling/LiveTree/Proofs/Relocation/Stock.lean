import LiveTree.Proofs.Session.Acting
import LiveTree.Proofs.Session.Sparing

/-! The pools of a session at a glance: those at their places, and those that calls have taken away
to work on them. What has nothing to do with pools leaves this picture as it is. -/
namespace LiveTree.Session

open Lifecycle (ObjectId Drain RetireBatch Retirement)

/-- What a call does that has taken a pool away from its place. -/
inductive Job where
  /-- The delivery of what a pool has recorded. -/
  | dispatching (id : Nat) (pool : Pool) (drain : Drain)
  /-- The matching of deferred requests. -/
  | matching (call : PassCall) (pass : Relocation.Pass String Int)
  /-- The making of new content for a request. -/
  | inserting (call : PassCall) (pass : Relocation.Pass String Int)
      (request : Relocation.Request Int)
  /-- The delivery at the end of a pass. -/
  | closing (call : PassCall) (pass : Relocation.Pass String Int) (disposed : List String)
      (drain : Drain)

/-- The place of the pool. -/
def Job.id : Job → Nat
  | dispatching id _ _ => id
  | matching call _ => call.pool
  | inserting call _ _ => call.pool
  | closing call _ _ _ => call.pool

def Call.job? : Call → Option Job
  | .draining (.pool id pool) drain => some (.dispatching id pool drain)
  | .draining (.pass call pass disposed) drain => some (.closing call pass disposed drain)
  | .matching call pass => some (.matching call pass)
  | .inserting call pass request _ => some (.inserting call pass request)
  | _ => none

/-- The pools at their places, and what is done to the others, the innermost call first. -/
structure Stock where
  pools : Array (Option Pool)
  jobs : List Job

namespace Machine

/-- What can be seen of the pools. -/
def stock (machine : Machine) : Stock :=
  ⟨machine.world.pools, machine.stack.filterMap Call.job?⟩

/-! ### What has nothing to do with pools -/

/-- What leaves the tree alone leaves the pools alone. -/
theorem Spares.stock_eq {machine after : Machine} (spares : machine.Spares after) :
    after.stock = machine.stock := by
  have pools : after.world.pools = machine.world.pools := congrArg Tree.pools spares.tree_eq
  have jobs : after.stack.filterMap Call.job? = machine.stack.filterMap Call.job? := by
    refine spares.eq_of_blind fun call calls apart => List.filterMap_cons_none ?_
    cases call <;> first | rfl | cases apart
  simp only [stock, pools, jobs]

section Quiet

variable (machine : Machine)

@[simp]
theorem stock_finish (ending : Except Panic Answer) :
    (machine.finish ending).stock = machine.stock := Spares.stays.finish.stock_eq

@[simp]
theorem stock_diagnose (diagnostic : Diagnostic) :
    (machine.diagnose diagnostic).stock = machine.stock := Spares.stays.diagnose.stock_eq

@[simp]
theorem stock_diagnoseAll (diagnostics : List Diagnostic) :
    (machine.diagnoseAll diagnostics).stock = machine.stock := Spares.stays.diagnoseAll.stock_eq

@[simp]
theorem stock_enter (span : Span) : (machine.enter span).stock = machine.stock :=
  Spares.stays.enter.stock_eq

@[simp]
theorem stock_leave (span : Span) : (machine.leave span).stock = machine.stock :=
  Spares.stays.leave.stock_eq

/-- A call that has not taken a pool away comes and goes unseen. -/
private theorem stock_push {call : Call} (idle : call.job? = none) :
    (machine.push call).stock = machine.stock := by
  simp [stock, push, idle]

theorem stock_pop {call : Call} {calls : List Call} (stack : machine.stack = call :: calls)
    (idle : call.job? = none) : machine.pop.stock = machine.stock := by
  simp [stock, pop, stack, idle]

theorem stock_become {call next : Call} {calls : List Call} (stack : machine.stack = call :: calls)
    (same : next.job? = call.job?) : (machine.become next).stock = machine.stock := by
  simp only [stock, become, stack, List.tail_cons, List.filterMap_cons, same]

@[simp]
theorem stock_tell (id : ObjectId) (event : Lifecycle.Event) :
    (machine.tell id event).stock = machine.stock := Spares.stays.tell.stock_eq

@[simp]
theorem stock_tellState (id : ObjectId) (state : Lifecycle.State) :
    (machine.tellState id state).stock = machine.stock := Spares.stays.tellState.stock_eq

@[simp]
theorem stock_discardPool (pool : Pool) : (machine.discardPool pool).stock = machine.stock := by
  unfold discardPool diagnoseDisposal
  exact ((machine.diagnoseAll _).stock_push rfl).trans (machine.stock_diagnoseAll _)

@[simp]
theorem stock_storePlaced (label : String) (placed : List (Relocation.PlacementTicket × Entry)) :
    (machine.storePlaced label placed).stock = machine.stock := by
  unfold storePlaced
  induction placed generalizing machine with
  | nil => rfl
  | cons pair placed ih =>
    rw [List.foldl_cons, ih]
    rfl

/-- Objects come about without the pools. -/
theorem stock_resolveObjects (names : List Name) :
    (machine.withWorld (machine.world.resolveObjects names).2).stock = machine.stock := by
  obtain ⟨objects, objectNames, -, same⟩ := machine.world.resolveObjects_cases names
  rw [same]
  rfl

/-- An attempt to move an object has nothing to do with the pools, whatever comes of it. -/
private theorem stock_advance {stock : Stock} {object : ObjectId} {target : Lifecycle.State}
    {refused : Lifecycle.IllegalMove → Machine} {allowed : Machine → Machine}
    (illegal : ∀ move, (refused move).stock = stock)
    (legal : ∀ objects,
      (allowed (machine.withWorld { machine.world with objects })).stock = stock) :
    (machine.advance object target refused allowed).stock = stock := by
  unfold advance
  split
  · exact illegal _
  · exact (stock_tellState _ _ _).trans (legal _)

theorem stock_executeObject (command : ObjectCommand Body) :
    (machine.executeObject command).stock = machine.stock := by
  cases command with
  | create => rfl
  | share | describe => exact @onObject_eq _ stock _ _ _ _ rfl fun _ => rfl
  | compare =>
    refine @onObject_eq _ stock _ _ _ _ rfl fun id => ?_
    split <;> rfl
  | advance =>
    refine @onObject_eq _ stock _ _ _ _ rfl fun id => ?_
    exact machine.stock_advance (fun _ => rfl) fun _ => rfl
  | poke name event =>
    refine @onObject_eq _ stock _ _ _ _ rfl fun id => ?_
    cases event with
    | none => rfl
    | some event => exact stock_tell (machine.push (.replying .ok)) id event

theorem stock_executeEntry (command : EntryCommand) :
    (machine.executeEntry command).stock = machine.stock := by
  cases command <;> exact @onEntry_eq _ stock _ _ _ _ rfl fun _ => rfl

theorem stock_storeBatch (name : Name) (batch : RetireBatch) :
    (machine.storeBatch name batch).stock = machine.stock := by
  unfold storeBatch
  dsimp only
  split <;> rfl

theorem stock_executeDispatcher (command : DispatcherCommand) :
    (machine.executeDispatcher command).stock = machine.stock := by
  cases command with
  | create => rfl
  | record name event objects =>
    exact @onDispatcher_eq _ stock _ _ _ _ rfl rfl fun _ _ => machine.stock_resolveObjects objects
  | takeRetirements name batch =>
    refine @onDispatcher_eq _ stock _ _ _ _ rfl rfl fun id dispatcher => ?_
    exact stock_storeBatch (machine.setDispatcher id _) batch _
  | dispatch | describe => exact @onDispatcher_eq _ stock _ _ _ _ rfl rfl fun _ _ => rfl

theorem stock_executeBatch (command : BatchCommand) :
    (machine.executeBatch command).stock = machine.stock := by
  cases command with
  | create => exact machine.stock_storeBatch ..
  | extend name source =>
    simp only [executeBatch]
    split
    · rfl
    · unfold mergeBatch
      split <;> rfl
  | dispatch | discard | describe => exact @onBatch_eq _ stock _ _ _ _ rfl fun _ => rfl

end Quiet

theorem stock_continueRetirement {machine : Machine} {calls : List Call}
    {delivery : Retirement} {counted : Bool}
    (stack : machine.stack = .retiring delivery counted :: calls) :
    (machine.continueRetirement delivery counted).stock = machine.stock := by
  unfold continueRetirement
  split
  · split <;> exact machine.stock_pop stack rfl
  · unfold advance
    split
    · exact (stock_diagnose _ _).trans (machine.stock_become stack rfl)
    · next objects _ =>
      have moved : (machine.withWorld { machine.world with objects }).stack =
          .retiring delivery counted :: calls := stack
      exact (stock_tellState _ _ _).trans (stock_become _ moved rfl)

end Machine

end LiveTree.Session
