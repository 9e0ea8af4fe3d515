import LiveTree.Proofs.Relocation.Naming
import LiveTree.Proofs.Session.Course
import LiveTree.Proofs.Session.Sparing

/-! Whatever a session refers to exists. Names, dispatchers, batches, pools, entries and the calls
in progress all refer to objects. An object is created before anything refers to it and is never
taken away again, whatever callbacks do and whoever panics; so no attempt to tell an object ever
misses it. -/
namespace LiveTree.Lifecycle.Registry

variable {ω : Type} {registry : Registry ω} {object : ObjectId}

private theorem isSome_get?_create_self (registry : Registry ω) (observer : ω) :
    ((registry.create observer).2.get? (registry.create observer).1).isSome := by
  simp [create, get?]

private theorem isSome_get?_create (there : (registry.get? object).isSome) (observer : ω) :
    ((registry.create observer).2.get? object).isSome := by
  rwa [get?_create_of_isSome observer there]

end LiveTree.Lifecycle.Registry

namespace LiveTree.Session

open Lifecycle (ObjectId Dispatcher Drain RetireBatch Retirement)

/-- A delivery on behalf of a pool names what the pool or its pass names. -/
def DrainOwner.Names (owner : DrainOwner) (object : ObjectId) : Prop :=
  match owner with
  | .pool _ held => held.Names object
  | .pass _ current _ => current.Names object
  | .dispatcher _ | .discardedPool => False

/-- What a call in progress names. -/
def Call.Names (call : Call) (object : ObjectId) : Prop :=
  match call with
  | .draining owner drain => owner.Names object ∨ drain.Names object
  | .retiring delivery _ => object ∈ delivery.rest
  | .matching _ pass | .inserting _ pass _ _ => pass.Names object
  | _ => False

private theorem Call.not_names_of_isApart {call : Call} {object : ObjectId}
    (apart : call.isApart = true) : ¬ call.Names object := by
  cases call <;> first | exact id | cases apart

namespace Machine

/-- Whether there is an object. -/
def Has (machine : Machine) (object : ObjectId) : Prop :=
  (machine.world.objects.get? object).isSome

/-- Every object exists to which something refers. -/
structure Intact (machine : Machine) : Prop where
  named : ∀ object ∈ machine.world.objectNames.values, machine.Has object
  recorded : ∀ dispatcher, some dispatcher ∈ machine.world.dispatchers →
    ∀ object, dispatcher.Names object → machine.Has object
  batched : ∀ batch ∈ machine.world.batches.values, ∀ object ∈ batch.objects, machine.Has object
  pooled : ∀ pool, some pool ∈ machine.world.pools →
    ∀ object, pool.Names object → machine.Has object
  stored : ∀ entry ∈ machine.world.entries.values, ∀ object ∈ entry.objects, machine.Has object
  running : ∀ call ∈ machine.stack, ∀ object, call.Names object → machine.Has object

variable {machine after : Machine}

/-! ### Parts of a step -/

private theorem Spares.has {object : ObjectId} (spares : machine.Spares after)
    (there : machine.Has object) : after.Has object := by
  have objects : after.world.objects = machine.world.objects :=
    congrArg Tree.objects spares.tree_eq
  unfold Has
  rw [objects]
  exact there

private theorem Intact.of_spares (intact : machine.Intact) (spares : machine.Spares after) :
    after.Intact := by
  obtain ⟨-, objectNames, dispatchers, batches, pools, entries⟩ := Tree.mk.inj spares.tree_eq
  have has (object : ObjectId) (there : machine.Has object) : after.Has object := spares.has there
  constructor
  case named =>
    rw [objectNames]
    exact fun object member => has object (intact.named object member)
  case recorded =>
    rw [dispatchers]
    exact fun dispatcher kept object names =>
      has object (intact.recorded dispatcher kept object names)
  case batched =>
    rw [batches]
    exact fun batch kept object member => has object (intact.batched batch kept object member)
  case pooled =>
    rw [pools]
    exact fun pool kept object names => has object (intact.pooled pool kept object names)
  case stored =>
    rw [entries]
    exact fun entry kept object member => has object (intact.stored entry kept object member)
  case running =>
    intro call member object names
    rcases spares.mem_stack member with before | apart
    · exact has object (intact.running call before object names)
    · exact absurd names (Call.not_names_of_isApart apart)

/-- More objects do no harm. -/
private theorem Intact.withObjects {objects : Lifecycle.Registry Observer} (intact : machine.Intact)
    (lasting : ∀ object, machine.Has object → (objects.get? object).isSome) :
    (machine.withWorld { machine.world with objects }).Intact where
  named object member := lasting object (intact.named object member)
  recorded dispatcher kept object names :=
    lasting object (intact.recorded dispatcher kept object names)
  batched batch kept object member := lasting object (intact.batched batch kept object member)
  pooled pool kept object names := lasting object (intact.pooled pool kept object names)
  stored entry kept object member := lasting object (intact.stored entry kept object member)
  running call member object names := lasting object (intact.running call member object names)

private theorem Intact.nameObject {name : Name} {object : ObjectId} (intact : machine.Intact)
    (has : machine.Has object) : (machine.nameObject name object).Intact :=
  { intact with
    named := fun other member => by
      rcases Table.mem_values_of_set member with rfl | before
      · exact has
      · exact intact.named other before }

private theorem Intact.takeDispatcher {id : Nat} (intact : machine.Intact) :
    (machine.setDispatcher id none).Intact :=
  { intact with
    recorded := fun dispatcher member => by
      have before := (Array.mem_or_eq_of_mem_setIfInBounds member).resolve_right (by simp)
      exact intact.recorded dispatcher before }

private theorem Intact.keepDispatcher {id : Nat} {dispatcher : Dispatcher} (intact : machine.Intact)
    (has : ∀ object, dispatcher.Names object → machine.Has object) :
    (machine.setDispatcher id (some dispatcher)).Intact :=
  { intact with
    recorded := fun other member => by
      rcases Array.mem_or_eq_of_mem_setIfInBounds member with before | same
      · exact intact.recorded other before
      · cases same
        exact has }

private theorem Intact.takePool {id : Nat} (intact : machine.Intact) :
    (machine.setPool id none).Intact :=
  { intact with
    pooled := fun pool member => by
      have before := (Array.mem_or_eq_of_mem_setIfInBounds member).resolve_right (by simp)
      exact intact.pooled pool before }

private theorem Intact.keepPool {id : Nat} {pool : Pool} (intact : machine.Intact)
    (has : ∀ object, pool.Names object → machine.Has object) :
    (machine.setPool id (some pool)).Intact :=
  { intact with
    pooled := fun other member => by
      rcases Array.mem_or_eq_of_mem_setIfInBounds member with before | same
      · exact intact.pooled other before
      · cases same
        exact has }

private theorem Intact.storeEntry {name : Name} {entry : Entry} (intact : machine.Intact)
    (has : ∀ object ∈ entry.objects, machine.Has object) :
    (machine.storeEntry name entry).Intact :=
  { intact with
    stored := fun other member => by
      rcases Table.mem_values_of_set member with rfl | before
      · exact has
      · exact intact.stored other before }

private theorem Intact.push {call : Call} (intact : machine.Intact)
    (has : ∀ object, call.Names object → machine.Has object) : (machine.push call).Intact :=
  { intact with
    running := fun other member => by
      rcases List.mem_cons.mp member with rfl | before
      · exact has
      · exact intact.running other before }

private theorem Intact.pop (intact : machine.Intact) : machine.pop.Intact :=
  { intact with
    running := fun call member => intact.running call (List.mem_of_mem_tail member) }

private theorem Intact.become {call : Call} (intact : machine.Intact)
    (has : ∀ object, call.Names object → machine.Has object) : (machine.become call).Intact :=
  intact.pop.push has

/-- A batch that is given up is delivered. -/
private theorem Intact.discardBatch {batch : RetireBatch} (intact : machine.Intact)
    (has : ∀ object ∈ batch.objects, machine.Has object) :
    (machine.discardBatch batch).Intact := by
  have pushed : (machine.push (.retiring batch.deliver false)).Intact := intact.push has
  exact pushed.of_spares Spares.stays.proceed

private theorem Intact.storeBatch {name : Name} {batch : RetireBatch} (intact : machine.Intact)
    (has : ∀ object ∈ batch.objects, machine.Has object) :
    (machine.storeBatch name batch).Intact := by
  have stored : (machine.withWorld
      { machine.world with batches := machine.world.batches.set name batch }).Intact :=
    { intact with
      batched := fun other member => by
        rcases Table.mem_values_of_set member with rfl | before
        · exact has
        · exact intact.batched other before }
  unfold Machine.storeBatch
  dsimp only
  split
  · next former held =>
    refine (stored.of_spares (.push .stays rfl)).discardBatch ?_
    exact intact.batched former (Table.mem_values_of_get? held)
  · exact stored.of_spares Spares.stays.reply

/-- What a pool that is given up delivers it has named itself. -/
private theorem Intact.discardPool {pool : Pool} (intact : machine.Intact)
    (has : ∀ object, pool.Names object → machine.Has object) :
    (machine.discardPool pool).Intact := by
  have spares : machine.Spares (machine.diagnoseDisposal pool) := Spares.stays.diagnoseAll
  refine ((intact.of_spares spares).push fun object names => ?_).of_spares Spares.stays.proceed
  have named : pool.Names object := by
    refine .of_disposeDepartures (Relocation.Pool.names_iff.mpr (.inl ?_))
    exact (names.resolve_left id).of_drain
  exact spares.has (has object named)

private theorem Intact.release {id : Nat} {ending : Except Panic Answer} (intact : machine.Intact) :
    (machine.release id ending).Intact := by
  have ended : (machine.finish ending).Intact := intact.of_spares Spares.stays.finish
  unfold Machine.release
  split
  · exact ended
  · split
    · exact ended
    · next pool found =>
      refine Intact.discardPool (intact.takePool.of_spares (.push .stays ?_)) ?_
      · cases ending <;> rfl
      · exact intact.pooled pool (Array.mem_of_getElem? (Option.join_eq_some_iff.mp found))

private theorem Intact.giveBack {id : Nat} {pool : Pool} {ending : Except Panic Answer}
    (intact : machine.Intact) (has : ∀ object, pool.Names object → machine.Has object) :
    (machine.giveBack id pool ending).Intact := (intact.keepPool has).release

private theorem Intact.storePlaced {label : String}
    {placed : List (Relocation.PlacementTicket × Entry)} (intact : machine.Intact)
    (has : ∀ pair ∈ placed, ∀ object ∈ pair.2.objects, machine.Has object) :
    (machine.storePlaced label placed).Intact := by
  unfold Machine.storePlaced
  induction placed generalizing machine with
  | nil => exact intact
  | cons pair placed ih =>
    refine ih (intact.storeEntry (has pair List.mem_cons_self)) fun other member => ?_
    exact has other (List.mem_cons_of_mem _ member)

private theorem Has.storePlaced {label : String}
    {placed : List (Relocation.PlacementTicket × Entry)} {object : ObjectId}
    (there : machine.Has object) : (machine.storePlaced label placed).Has object := by
  unfold Machine.storePlaced
  induction placed generalizing machine with
  | nil => exact there
  | cons pair placed ih => exact ih there

/-- Names are resolved to objects that exist, those that are made for it included, and no object is
lost. -/
private theorem Intact.resolveObjects (intact : machine.Intact) (names : List Name) :
    (machine.withWorld (machine.world.resolveObjects names).2).Intact ∧
      (∀ object ∈ (machine.world.resolveObjects names).1,
        (machine.withWorld (machine.world.resolveObjects names).2).Has object) ∧
      ∀ object, machine.Has object →
        (machine.withWorld (machine.world.resolveObjects names).2).Has object := by
  induction names generalizing machine with
  | nil => exact ⟨intact, nofun, fun _ there => there⟩
  | cons name names ih =>
    dsimp only [World.resolveObjects]
    cases held : machine.world.objectNames.get? name with
    | some object =>
      obtain ⟨after, resolved, lasting⟩ := ih intact
      refine ⟨after, fun other member => ?_, lasting⟩
      rcases List.mem_cons.mp member with rfl | later
      · exact lasting _ (intact.named _ (Table.mem_values_of_get? held))
      · exact resolved other later
    | none =>
      let made := machine.world.objects.create (Observer.recording name)
      have inside : (made.2.get? made.1).isSome := Lifecycle.Registry.isSome_get?_create_self ..
      have grown (object : ObjectId) (there : machine.Has object) : (made.2.get? object).isSome :=
        Lifecycle.Registry.isSome_get?_create there _
      have named : ((machine.withWorld { machine.world with objects := made.2 }).nameObject name
          made.1).Intact := (intact.withObjects grown).nameObject inside
      obtain ⟨after, resolved, lasting⟩ := ih named
      refine ⟨after, fun other member => ?_, fun other there => lasting other (grown other there)⟩
      rcases List.mem_cons.mp member with rfl | later
      · exact lasting _ inside
      · exact resolved other later

private theorem Intact.advance {object : ObjectId} {target : Lifecycle.State}
    {refused : Lifecycle.IllegalMove → Machine} {allowed : Machine → Machine}
    (intact : machine.Intact) (refuses : ∀ illegal, (refused illegal).Intact)
    (allows : ∀ moved : Machine, moved.Intact →
      (∀ other, machine.Has other → moved.Has other) → (allowed moved).Intact) :
    (machine.advance object target refused allowed).Intact := by
  unfold Machine.advance
  split
  · exact refuses _
  · next objects legal =>
    have lasting (other : ObjectId) (there : machine.Has other) : (objects.get? other).isSome := by
      rw [Lifecycle.Registry.isSome_get?_advance legal]
      exact there
    exact (allows _ (intact.withObjects lasting) lasting).of_spares Spares.stays.tellState

/-! ### Commands -/

private theorem Intact.answers {answer : Answer} (intact : machine.Intact) :
    (machine.reply answer).Intact := intact.of_spares Spares.stays.reply

section Commands

variable {name : Name} (intact : machine.Intact)
include intact

private theorem Intact.onObject {work : ObjectId → Machine}
    (works : ∀ object, machine.Has object → (work object).Intact) :
    (machine.onObject name work).Intact := by
  unfold Machine.onObject
  split
  · exact intact.answers
  · next object held => exact works object (intact.named object (Table.mem_values_of_get? held))

private theorem Intact.onDispatcher {work : Nat → Dispatcher → Machine}
    (works : ∀ id dispatcher, (∀ object, dispatcher.Names object → machine.Has object) →
      (work id dispatcher).Intact) :
    (machine.onDispatcher name work).Intact := by
  unfold Machine.onDispatcher
  split
  · exact intact.answers
  · split
    · exact intact.answers
    · next dispatcher found =>
      refine works _ dispatcher (intact.recorded dispatcher ?_)
      exact Array.mem_of_getElem? (Option.join_eq_some_iff.mp found)

private theorem Intact.onBatch {work : RetireBatch → Machine}
    (works : ∀ batch, (∀ object ∈ batch.objects, machine.Has object) → (work batch).Intact) :
    (machine.onBatch name work).Intact := by
  unfold Machine.onBatch
  split
  · exact intact.answers
  · next batch held => exact works batch (intact.batched batch (Table.mem_values_of_get? held))

private theorem Intact.onPool {work : Nat → Pool → Machine}
    (works : ∀ id pool, (∀ object, pool.Names object → machine.Has object) →
      (work id pool).Intact) :
    (machine.onPool name work).Intact := by
  unfold Machine.onPool
  split
  · exact intact.answers
  · split
    · exact intact.answers
    · next pool found =>
      refine works _ pool (intact.pooled pool ?_)
      exact Array.mem_of_getElem? (Option.join_eq_some_iff.mp found)

private theorem Intact.onEntry {work : Entry → Machine}
    (works : ∀ entry, (∀ object ∈ entry.objects, machine.Has object) → (work entry).Intact) :
    (machine.onEntry name work).Intact := by
  unfold Machine.onEntry
  split
  · exact intact.answers
  · next entry held => exact works entry (intact.stored entry (Table.mem_values_of_get? held))

private theorem Intact.atPlace {place : Place} {work : Position.Hash → Machine}
    (works : ∀ position, (work position).Intact) : (machine.atPlace place work).Intact :=
  of_eq_true (atPlace_eq (eq_true intact.answers) fun position => eq_true (works position))

private theorem Intact.executeObject (command : ObjectCommand Body) :
    (machine.executeObject command).Intact := by
  cases command with
  | create name reactions =>
    refine .answers (.nameObject (intact.withObjects fun object there => ?_) ?_)
    · exact Lifecycle.Registry.isSome_get?_create there _
    · exact Lifecycle.Registry.isSome_get?_create_self ..
  | share => exact intact.onObject fun _ there => (intact.nameObject there).answers
  | compare =>
    refine intact.onObject fun _ _ => ?_
    split <;> exact intact.answers
  | advance =>
    refine intact.onObject fun _ _ => ?_
    exact intact.advance (fun _ => intact.answers) fun _ moved _ => moved.push fun _ => False.elim
  | poke =>
    refine intact.onObject fun _ _ => ?_
    split
    · exact intact.answers
    · exact intact.of_spares (.tell (.push .stays rfl))
  | describe => exact intact.onObject fun _ _ => intact.answers

private theorem Intact.executeDispatcher (command : DispatcherCommand) :
    (machine.executeDispatcher command).Intact := by
  cases command with
  | create name =>
    refine .answers ⟨intact.named, fun dispatcher member => ?_, intact.batched, intact.pooled,
      intact.stored, intact.running⟩
    rcases Array.mem_push.mp member with before | new
    · exact intact.recorded dispatcher before
    · cases new
      rintro object ⟨event, recorded⟩
      cases event <;> cases recorded
  | record name event objects =>
    refine intact.onDispatcher fun id dispatcher has => ?_
    obtain ⟨after, resolved, lasting⟩ := intact.resolveObjects objects
    refine (after.keepDispatcher fun object names => ?_).answers
    exact names.of_record.elim (fun before => lasting object (has object before)) (resolved object)
  | dispatch name =>
    refine intact.onDispatcher fun id dispatcher has => ?_
    refine (intact.takeDispatcher.push fun object names => ?_).of_spares Spares.stays.proceed
    exact has object (names.resolve_left False.elim).of_drain
  | takeRetirements name batch =>
    refine intact.onDispatcher fun id dispatcher has => ?_
    have kept : (machine.setDispatcher id (some dispatcher.takeRetirements.2)).Intact :=
      intact.keepDispatcher fun object names => has object names.of_takeRetirements
    exact kept.storeBatch fun object member =>
      has object (Dispatcher.names_of_mem_takeRetirements member)
  | describe => exact intact.onDispatcher fun _ _ _ => intact.answers

private theorem Intact.removeBatch : (machine.removeBatch name).Intact :=
  { intact with
    batched := fun batch member => intact.batched batch (Table.mem_values_of_erase member) }

private theorem Intact.executeBatch (command : BatchCommand) :
    (machine.executeBatch command).Intact := by
  have replying {answer : Answer} {source : Name} :
      ((machine.removeBatch source).push (.replying answer)).Intact :=
    intact.removeBatch.of_spares (.push .stays rfl)
  cases command with
  | create => exact intact.storeBatch nofun
  | extend name source =>
    simp only [Machine.executeBatch]
    split
    · exact intact.answers
    · next batch held =>
      have has := intact.batched batch (Table.mem_values_of_get? held)
      unfold mergeBatch
      split
      · exact replying.discardBatch has
      · next target into =>
        have own := intact.removeBatch.batched target (Table.mem_values_of_get? into)
        refine .answers ⟨intact.named, intact.recorded, fun other member => ?_, intact.pooled,
          intact.stored, intact.running⟩
        rcases Table.mem_values_of_set member with rfl | before
        · exact fun object inside => (List.mem_append.mp inside).elim (own object) (has object)
        · exact intact.removeBatch.batched other before
  | dispatch name =>
    refine intact.onBatch fun batch has => ?_
    have pushed : ((machine.removeBatch name).push (.retiring batch.deliver true)).Intact :=
      intact.removeBatch.push has
    exact pushed.of_spares Spares.stays.proceed
  | discard => exact intact.onBatch fun batch has => replying.discardBatch has
  | describe => exact intact.onBatch fun _ _ => intact.answers

private theorem Intact.instantiate {id : Nat} {pool : Pool} {descriptor : DescriptorId}
    {handle : String} {parameter : Int} {position : Position.Hash}
    (has : ∀ object, pool.Names object → machine.Has object) (objects : List Name) :
    (machine.instantiate id pool name descriptor handle parameter position objects).Intact := by
  obtain ⟨after, resolved, lasting⟩ := intact.resolveObjects objects
  unfold Machine.instantiate
  dsimp only
  refine .answers (.storeEntry (.of_spares (.keepPool after fun object names => ?_)
    Spares.stays.diagnose) fun object own => Spares.stays.diagnose.has (resolved object own))
  exact names.of_instantiate.elim (fun before => lasting object (has object before))
    (resolved object)

private theorem Intact.depart {id : Nat} {pool : Pool} {descriptor : Option DescriptorId}
    {entry : Entry} (has : ∀ object, pool.Names object → machine.Has object)
    (own : ∀ object ∈ entry.objects, machine.Has object) :
    (machine.depart id pool name descriptor entry).Intact := by
  have gone : (machine.withWorld
      { machine.world with entries := machine.world.entries.erase name }).Intact :=
    ⟨intact.named, intact.recorded, intact.batched, intact.pooled,
      fun other member => intact.stored other (Table.mem_values_of_erase member), intact.running⟩
  unfold Machine.depart
  dsimp only
  split
  · exact gone.of_spares Spares.stays.control
  · next after reported =>
    refine .answers (.of_spares (.keepPool gone fun object names => ?_) Spares.stays.diagnose)
    exact (names.of_reportDeparture reported).elim (has object) (own object)

private theorem Intact.claim {id : Nat} {pool : Pool} (descriptor : DescriptorId)
    (has : ∀ object, pool.Names object → machine.Has object) :
    (machine.claim id pool descriptor name).Intact := by
  unfold Machine.claim
  split
  · exact intact.answers
  · next entry after claimed =>
    refine .answers (.storeEntry (.of_spares (.keepPool intact fun object names => ?_)
      Spares.stays.diagnose) fun object own => Spares.stays.diagnose.has ?_)
    · exact has object (Relocation.Pool.names_of_claim claimed (.inr names))
    · exact has object (Relocation.Pool.names_of_claim claimed (.inl own))

private theorem Intact.place {id : Nat} {pool : Pool} {descriptor : DescriptorId} {parameter : Int}
    {position : Position.Hash} {described : Bool}
    (has : ∀ object, pool.Names object → machine.Has object) :
    (machine.place id pool descriptor parameter position name described).Intact := by
  have kept : (machine.setPool id
      (some (pool.requestPlacement descriptor parameter position).2)).Intact :=
    intact.keepPool fun object names =>
      has object (Relocation.Pool.names_of_requestPlacement (.inl names))
  unfold Machine.place
  dsimp only
  split
  · next entry moved =>
    refine .answers (.storeEntry (kept.of_spares Spares.stays.diagnose) fun object own =>
      Spares.stays.diagnose.has ?_)
    exact has object (Relocation.Pool.names_of_requestPlacement (.inr ⟨entry, moved, own⟩))
  · exact .answers (kept.of_spares Spares.stays.diagnose)
  · exact .answers (kept.of_spares Spares.stays.diagnose)

private theorem Intact.executePool (command : PoolCommand Body) :
    (machine.executePool command).Intact := by
  cases command with
  | create name config =>
    have created : (machine.withWorld { machine.world with
        pools := machine.world.pools.push (some { config })
        poolNames := machine.world.poolNames.set name machine.world.pools.size }).Intact := by
      refine ⟨intact.named, intact.recorded, intact.batched, fun pool member => ?_, intact.stored,
        intact.running⟩
      rcases Array.mem_push.mp member with before | new
      · exact intact.pooled pool before
      · cases new
        rintro object (⟨recorded⟩ | ⟨waits, -⟩)
        · next event => cases event <;> cases recorded
        · cases waits
    simp only [Machine.executePool, createPool]
    split
    · exact created.answers
    · exact created.release
  | discard name =>
    refine intact.onPool fun id pool has => ?_
    split
    · exact intact.answers
    · exact Intact.release (intact.of_spares (.world .stays rfl))
  | describe | query => exact intact.onPool fun _ _ _ => intact.answers
  | instantiate =>
    exact intact.onPool fun _ _ has => intact.atPlace fun _ => intact.instantiate has _
  | deactivate =>
    refine intact.onPool fun id pool has => intact.onEntry fun entry own => ?_
    have same : ∀ object ∈ (pool.deactivate entry).1.objects, machine.Has object := by
      rw [Relocation.Pool.deactivate_fst]
      exact own
    refine .answers (.storeEntry (intact.keepPool fun object names => ?_) same)
    exact names.of_deactivate.elim (has object) (own object)
  | depart => exact intact.onPool fun _ _ has => intact.onEntry fun _ own => intact.depart has own
  | claim name descriptor => exact intact.onPool fun _ _ has => intact.claim descriptor has
  | place => exact intact.onPool fun _ _ has => intact.atPlace fun _ => intact.place has
  | endPass =>
    refine intact.onPool fun id pool has => ?_
    refine .of_spares (.push (.of_spares intact.takePool Spares.stays.enter)
      fun object names => ?_) Spares.stays.proceed
    exact Spares.stays.enter.has (has object names.of_endPass)
  | dispatch =>
    refine intact.onPool fun id pool has => ?_
    refine .of_spares (intact.takePool.push fun object names => ?_) Spares.stays.proceed
    rcases names with own | recorded
    · exact has object own
    · exact has object (Relocation.Pool.names_iff.mpr (.inl recorded.of_drain))
  | takeRetirements name batch =>
    refine intact.onPool fun id pool has => ?_
    have recorded (object : ObjectId) (names : pool.dispatcher.Names object) :
        machine.Has object := has object (Relocation.Pool.names_iff.mpr (.inl names))
    refine .storeBatch (.push (intact.keepPool fun object names => ?_) fun _ => False.elim)
      fun object member => recorded object (Dispatcher.names_of_mem_takeRetirements member)
    exact names.of_dispatcher.elim (has object) fun named =>
      recorded object named.of_takeRetirements

private theorem Intact.executeEntry (command : EntryCommand) :
    (machine.executeEntry command).Intact := by
  cases command with
  | setHandle =>
    exact intact.onEntry fun _ own => .answers (.storeEntry intact own)
  | takeApart =>
    refine intact.onEntry fun _ _ => .answers ⟨intact.named, intact.recorded, intact.batched,
      intact.pooled, fun other member => ?_, intact.running⟩
    exact intact.stored other (Table.mem_values_of_erase member)
  | describe => exact intact.onEntry fun _ _ => intact.answers

/-- Whatever command is started, nothing that does not exist is referred to after it. -/
private theorem Intact.execute (command : Command) : (machine.execute command).Intact := by
  cases command with
  | object command => exact intact.executeObject command
  | dispatcher command => exact intact.executeDispatcher command
  | batch command => exact intact.executeBatch command
  | pool command => exact intact.executePool command
  | entry command => exact intact.executeEntry command
  | note | inspect | panic | call | iterate | queue | scheduler | clock | handle | hasher | arena =>
    exact intact.of_spares (machine.spares_execute rfl)

end Commands

/-! ### Calls that go on or end -/

section Calls

variable {calls : List Call} (intact : machine.Intact)
include intact

private theorem Intact.continueRetirement {delivery : Retirement} {counted : Bool}
    (has : ∀ object ∈ delivery.rest, machine.Has object) :
    (machine.continueRetirement delivery counted).Intact := by
  unfold Machine.continueRetirement
  split
  · split
    · exact intact.pop.answers
    · exact intact.pop.of_spares Spares.stays.proceed
  · next object next turn =>
    have fewer : ∀ other ∈ next.rest, machine.Has other := by
      intro other member
      unfold Retirement.next? at turn
      split at turn
      · cases turn
      · next split =>
        cases turn
        exact has other (split ▸ List.mem_cons_of_mem _ member)
    refine intact.advance (fun _ => ?_) fun moved still lasting => ?_
    · have became : (machine.become (.retiring next counted)).Intact := intact.become fewer
      exact became.of_spares Spares.stays.diagnose.proceed
    · exact still.become fun other member => lasting other (fewer other member)

private theorem Intact.continueMatching {call : PassCall} {pass : Relocation.Pass String Int}
    (has : ∀ object, pass.Names object → machine.Has object) :
    (machine.continueMatching call pass).Intact := by
  unfold Machine.continueMatching
  split
  · next step =>
    refine .of_spares (.become intact fun object names => ?_) Spares.stays.diagnose.proceed
    exact has object (.of_matched step names)
  · next request next step =>
    have same (object : ObjectId) (names : next.Names object) : machine.Has object := by
      obtain ⟨_, -, -, rfl⟩ := Relocation.Pass.of_step_eq_unmatched step
      exact has object (names.imp_left fun inside => inside.of_eq rfl rfl)
    split
    · refine .of_spares (.become intact fun object names => ?_) Spares.stays.proceed
      exact same object names
    · refine .of_spares (.become intact fun object names => ?_) Spares.stays.callBack
      exact same object names
  · have told : machine.Spares (machine.diagnoseDisposal pass.pool) := Spares.stays.diagnoseAll
    refine .of_spares (.become (intact.of_spares told) fun object names => ?_) Spares.stays.proceed
    have settled : pass.disposeDepartures.Names object := by
      rcases names with own | recorded
      · exact own
      · exact .inl (Relocation.Pool.names_iff.mpr (.inl recorded.of_drain))
    exact told.has (has object settled.of_disposeDepartures)

private theorem Intact.continueInserting {call : PassCall} {pass : Relocation.Pass String Int}
    {request : Relocation.Request Int}
    (has : ∀ object, pass.Names object → machine.Has object) (objects : List Name) :
    (machine.continueInserting call pass request objects).Intact := by
  obtain ⟨after, resolved, lasting⟩ := intact.resolveObjects objects
  unfold Machine.continueInserting
  dsimp only
  refine .of_spares (.become after fun object names => ?_) Spares.stays.diagnose.proceed
  have placed : pass.Names object ∨ object ∈ (machine.world.resolveObjects objects).1 :=
    Relocation.Pass.Names.of_insert names
  exact placed.elim (fun before => lasting object (has object before)) (resolved object)

private theorem Intact.finishPass {call : PassCall} {pass : Relocation.Pass String Int}
    {disposed : List String} {drain : Drain}
    (has : ∀ object, pass.Names object ∨ drain.Names object → machine.Has object) :
    (machine.finishPass call pass disposed drain).Intact := by
  unfold Machine.finishPass
  dsimp only
  have told {diagnostic : Diagnostic} {span : Span} :
      ((machine.diagnose diagnostic).leave span).Intact :=
    intact.of_spares Spares.stays.diagnose.leave
  refine .giveBack (.pop (.storePlaced (told.storePlaced fun pair placed object own => ?_)
    fun pair placed object own => ?_)) fun object names => ?_
  · exact Spares.stays.diagnose.leave.has
      (has object (.inl (.inr ⟨pair, List.mem_append_left _ placed, own⟩)))
  · exact .storePlaced (Spares.stays.diagnose.leave.has
      (has object (.inl (.inr ⟨pair, List.mem_append_right _ placed, own⟩))))
  · refine .storePlaced (.storePlaced (Spares.stays.diagnose.leave.has (has object ?_)))
    rcases Relocation.Pool.Names.of_dispatcher names with inside | recorded
    · exact .inl (.inl (inside.of_eq rfl rfl))
    · exact .inr (.inr recorded)

private theorem Intact.continueDrain {owner : DrainOwner} {drain : Drain}
    (has : ∀ object, (Call.draining owner drain).Names object → machine.Has object) :
    (machine.continueDrain owner drain).Intact := by
  unfold Machine.continueDrain
  split
  · next object target next step =>
    have same (other : ObjectId) (names : (Call.draining owner next).Names other) :
        machine.Has other := has other (names.imp_right (.of_attempt step))
    refine intact.advance (fun _ => ?_) fun moved still lasting => ?_
    · refine .of_spares (.become intact fun other names => ?_) Spares.stays.proceed
      exact same other names
    · exact still.become fun other names => lasting other (same other names)
  · next next step =>
    refine .of_spares (.become intact fun other names => ?_) Spares.stays.proceed
    exact has other (names.imp_right (.of_nextList step))
  · have told : machine.Spares (machine.diagnoseAll drain.report.diagnostics) :=
      Spares.stays.diagnoseAll
    have still := intact.of_spares told
    have stillHas (object : ObjectId) (names : (Call.draining owner drain).Names object) :
        (machine.diagnoseAll drain.report.diagnostics).Has object := told.has (has object names)
    unfold Machine.finishDrain
    dsimp only
    generalize machine.diagnoseAll drain.report.diagnostics = machine at still stillHas
    cases owner with
    | dispatcher =>
      refine .answers (.pop (still.keepDispatcher fun object names => ?_))
      exact stillHas object (.inr (.inr names))
    | pool =>
      refine .giveBack still.pop fun object names => ?_
      rcases Relocation.Pool.Names.of_dispatcher names with own | recorded
      · exact stillHas object (.inl own)
      · exact stillHas object (.inr (.inr recorded))
    | pass => exact still.finishPass stillHas
    | discardedPool =>
      refine .discardBatch still.pop fun object member => ?_
      exact stillHas object (.inr (.inr (Dispatcher.names_of_mem_takeRetirements member)))

/-- Whichever call goes on, nothing that does not exist is referred to after it. -/
private theorem Intact.resume {call : Call} (stack : machine.stack = call :: calls) :
    (machine.resume call).Intact := by
  have innermost : machine.stack.head? = some call := by rw [stack, List.head?_cons]
  have has : ∀ object, call.Names object → machine.Has object :=
    intact.running call (stack ▸ List.mem_cons_self)
  cases call with
  | holding => exact intact.pop.release
  | draining => exact intact.continueDrain has
  | retiring => exact intact.continueRetirement has
  | matching => exact intact.continueMatching has
  | inserting => exact intact.continueInserting has _
  | body | iterating | replying | unwinding | registering | queue | scheduler | clock =>
    exact intact.of_spares (spares_resume innermost rfl)

private theorem Intact.unwindMatching {call : PassCall} {pass : Relocation.Pass String Int}
    {reason : Panic} (has : ∀ object, pass.Names object → machine.Has object) :
    (machine.unwindMatching call pass reason).Intact := by
  refine .giveBack (.pop (.of_spares intact Spares.stays.leave)) fun object names => ?_
  exact Spares.stays.leave.has (has object (.inl names))

private theorem Intact.unwindDrain {owner : DrainOwner} {drain : Drain} {reason : Panic}
    (has : ∀ object, (Call.draining owner drain).Names object → machine.Has object) :
    (machine.unwindDrain owner drain reason).Intact := by
  have recorded (object : ObjectId) (names : drain.dispatcher.Names object) :
      machine.Has object := has object (.inr (.inr names))
  cases owner with
  | dispatcher => exact .pop (intact.keepDispatcher recorded)
  | pool =>
    refine .giveBack intact.pop fun object names => ?_
    exact (Relocation.Pool.Names.of_dispatcher names).elim (fun own => has object (.inl own))
      (recorded object)
  | pass =>
    refine .giveBack (.pop (.of_spares intact Spares.stays.leave)) fun object names => ?_
    refine Spares.stays.leave.has ?_
    exact (Relocation.Pool.Names.of_dispatcher names).elim
      (fun own => has object (.inl (.inl own))) (recorded object)
  | discardedPool => exact intact.pop

/-- Whichever call a panic leaves, nothing that does not exist is referred to after it. -/
private theorem Intact.unwindCall {call : Call} (reason : Panic)
    (stack : machine.stack = call :: calls) : (machine.unwindCall reason call).Intact := by
  have innermost : machine.stack.head? = some call := by rw [stack, List.head?_cons]
  have has : ∀ object, call.Names object → machine.Has object :=
    intact.running call (stack ▸ List.mem_cons_self)
  cases call with
  | holding => exact intact.pop.release
  | draining => exact intact.unwindDrain has
  | retiring => exact intact.pop
  | matching | inserting => exact intact.unwindMatching has
  | body | iterating | replying | unwinding | registering | queue | scheduler | clock =>
    exact intact.of_spares (spares_unwindCall innermost rfl reason)

end Calls

/-! ### Whole sessions -/

private theorem Intact.step (intact : machine.Intact) : machine.step.Intact := by
  rcases machine with ⟨world, listener, log, stack, control⟩
  cases control with
  | execute command => exact intact.execute command
  | answer answer =>
    cases stack with
    | nil => exact intact
    | cons call calls =>
      cases call with
      | body => exact intact.of_spares (.proceed (.report .stays))
      | _ => exact intact.of_spares Spares.stays.proceed
  | proceed =>
    cases stack with
    | nil => exact intact
    | cons call calls => exact intact.resume rfl
  | unwind reason =>
    cases stack with
    | nil => exact intact
    | cons call calls => exact intact.unwindCall reason rfl

private theorem Move.intact (move : machine.Move after) (intact : machine.Intact) :
    after.Intact := by
  cases move with
  | step => exact intact.step
  | @reconsider call other rest innermost _ free =>
    refine { intact with running := fun next member => ?_ }
    rcases List.mem_cons.mp member with rfl | below
    · have has := intact.running call (innermost ▸ List.mem_cons_self)
      cases free with
      | body => exact fun _ => False.elim
      | inserting => exact has
    · exact intact.running next (innermost ▸ List.mem_cons_of_mem _ below)
  | command => exact { intact with running := nofun }

/-- At any moment of a session, inside callbacks as well as outside, everything exists to which
something refers. -/
private theorem Course.intact {passed : List Machine} (course : Course passed machine) :
    machine.Intact := by
  obtain ⟨scripts, listener, command, goes⟩ := course
  induction goes with
  | stays => exact ⟨nofun, nofun, nofun, nofun, nofun, nofun⟩
  | moves _ move ih => exact move.intact ih

theorem Course.intact_of_mem {passed : List Machine} (course : Course passed machine)
    {middle : Machine} (member : middle ∈ passed) : middle.Intact := by
  obtain ⟨before, later, rfl⟩ := List.append_of_mem member
  exact course.before.intact

end Machine

end LiveTree.Session
