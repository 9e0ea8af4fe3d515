import LiveTree.Proofs.Frame.Eagerness
import LiveTree.Proofs.Frame.Hosting
import LiveTree.Proofs.Frame.Wakes

/-! Twins: two machines that do the same, but one of them wakes the host of a scheduler at every
registration. A step of both keeps them twins, unless it calls the hook in one of them only; then
the hook is all that is different, and its deeds are those of the other one, told more often. -/
namespace LiveTree.Session

open Awaiting LiveTree.Frame Settings

/-- A deed, where the host of a scheduler is told of every registration. -/
def Deed.told (id : Nat) : Deed → Deed
  | accepts source ticket handle callback hooked =>
    .accepts source ticket handle callback (hooked || source = .scheduler id)
  | deed => deed

/-- The same control, or two texts as answers. -/
inductive Control.Alike : Control → Control → Prop
  | same (control : Control) : Alike control control
  | text (one other : String) : Alike (.answer (.text one)) (.answer (.text other))

/-- The same event, or two texts as answers. -/
inductive Event.Alike : Event → Event → Prop
  | same (event : Event) : Alike event event
  | text (one other : String) : Alike (.answered (.text one)) (.answered (.text other))

/-- Two logs that are alike, but for the calls of a hook in the second one. Those call nobody
else. -/
inductive Woven : List Event → List Event → Prop
  | nil : Woven [] []
  | both {one other : Event} {log later : List Event} (alike : one.Alike other)
      (woven : Woven log later) : Woven (one :: log) (other :: later)
  | hook {log later : List Event} (name : Name) (news : List Event)
      (quiet : ∀ event ∈ news, event.callsBack = false) (woven : Woven log later) :
      Woven log (news ++ .woken name :: later)

theorem Woven.refl (log : List Event) : Woven log log := by
  induction log with
  | nil => exact .nil
  | cons event log ih => exact .both (.same event) ih

private theorem Woven.append (news : List Event) {log later : List Event}
    (woven : Woven log later) : Woven (news ++ log) (news ++ later) := by
  induction news with
  | nil => exact woven
  | cons event news ih => exact .both (.same event) ih

/-- The world in which a scheduler wakes its host at every registration. -/
def World.always (id : Nat) (world : World) : World :=
  { world with schedulers := world.schedulers.modify id (.under fun _ => .always) }

namespace Machine

/-- A machine that does the same as another one, but a scheduler wakes its host at every
registration. -/
structure Twin (id : Nat) (machine twin : Machine) : Prop where
  world : twin.world = machine.world.always id
  listener : twin.listener = machine.listener
  stack : twin.stack = machine.stack
  control : machine.control.Alike twin.control
  log : Woven machine.log twin.log

/-- After a step that calls the hook in the second run only, the hook is all that is different. -/
structure Parted (id : Nat) (hosting : Hosting) (machine parted : Machine) : Prop where
  world : parted.world = machine.world.always id
  listener : parted.listener = machine.listener
  stack : parted.stack = .body hosting.wake :: machine.stack
  proceeds : machine.control = .proceed
  starts : parted.control = .proceed
  log : ∃ log, parted.log = .woken hosting.name :: log ∧ Woven machine.log log

variable {machine twin after : Machine} {id : Nat} {hosting : Hosting}

/-! ### What the twin does -/

private theorem amid_policy_bare (machine : Machine) (id : Nat) :
    ({ machine with log := [] } : Machine).amid (.policy id (fun policy => policy) machine.log) =
      machine := by
  have same : machine.world.schedulers.modify id (.under fun policy => policy) =
      machine.world.schedulers := by
    refine Array.ext_getElem? fun index => ?_
    rw [Array.getElem?_modify]
    split
    · cases machine.world.schedulers[index]? <;> rfl
    · rfl
  dsimp only [amid, World.amid, Backdrop.policy]
  rw [same]
  rfl

private theorem Twin.step_of_text (twin : Twin id machine after) {one other : String}
    (first : machine.control = .answer (.text one))
    (second : after.control = .answer (.text other)) :
    Twin id machine.step after.step := by
  rcases machine with ⟨world, listener, log, stack, control⟩
  rcases after with ⟨world', listener', log', stack', control'⟩
  cases first
  cases second
  cases twin.stack
  cases stack with
  | nil => exact twin
  | cons call calls =>
    cases call with
    | body => exact ⟨twin.world, twin.listener, rfl, .same _, .both (.text one other) twin.log⟩
    | _ => exact ⟨twin.world, twin.listener, rfl, .same _, twin.log⟩

/-- Whatever machines answer, they are twins if nothing else is different but the policy. -/
private theorem twin_amid {one other : Machine} {log later : List Event}
    (same : other = { one with control := other.control }) (alike : one.control.Alike other.control)
    (woven : Woven log later) :
    Twin id (one.amid (.policy id (fun policy => policy) log))
      (other.amid (.policy id (fun _ => .always) later)) := by
  have world : one.world.amid (.policy id (fun policy => policy) log) = one.world :=
    congrArg Machine.world (amid_policy_bare one id)
  rw [same]
  refine ⟨?_, rfl, rfl, alike, woven.append _⟩
  exact congrArg (World.always id) world.symm

/-- The twin takes the same step, or it calls the hook where the other machine does not. -/
private theorem Twin.step (twins : Twin id machine twin)
    (known : machine.hosting? id = some hosting) :
    Twin id machine.step twin.step ∨
      Parted id hosting machine.step twin.step ∧ machine.wakes id = false ∧
        machine.registers id = true := by
  by_cases alike : machine.control = twin.control
  · obtain ⟨hosted, found, rfl⟩ := Option.map_eq_some_iff.mp known
    have inside : id < machine.world.schedulers.size := (Array.getElem?_eq_some_iff.mp found).1
    let bare : Machine := { machine with log := [] }
    have one : Differs bare id (fun policy => policy) machine.log machine.step := by
      have differs : Differs bare id (fun policy => policy) machine.log _ :=
        differs_step (fun _ => .inl rfl) inside
      rwa [amid_policy_bare] at differs
    have other : Differs bare id (fun _ => .always) twin.log twin.step := by
      have differs : Differs bare id (fun _ => .always) twin.log _ :=
        differs_step (fun _ => .inr rfl) inside
      have same : bare.amid (.policy id (fun _ => .always) twin.log) = twin := by
        rcases twin with ⟨world, listener, log, stack, control⟩
        cases twins.world
        cases twins.listener
        cases twins.stack
        cases alike
        rfl
      rwa [same] at differs
    generalize machine.step = after at one ⊢
    generalize twin.step = later at other ⊢
    cases one with
    | woken _ _ untold told => cases told.symm.trans untold
    | same =>
      cases other with
      | same => exact .inl (twin_amid rfl (.same _) twins.log)
      | text step => exact .inl (twin_amid (step ▸ rfl) (step ▸ .text _ _) twins.log)
      | woken found' done =>
        cases found.symm.trans found'
        have done' : machine.deed? = _ := done
        obtain ⟨-, -, -, -, -, proceeds⟩ := step_of_registers done
        have between : Twin id (bare.step.amid (.policy id (fun policy => policy) machine.log))
            (bare.step.amid (.policy id (fun _ => .always) twin.log)) :=
          twin_amid rfl (.same _) twins.log
        refine .inr ⟨⟨between.world, rfl, rfl, proceeds, rfl, _, rfl, between.log⟩, ?_, ?_⟩
        · rw [wakes, done']
          exact Bool.and_false _
        · rw [registers, done']
          exact decide_eq_true rfl
    | text step =>
      cases other with
      | same => exact .inl (twin_amid (step ▸ rfl) (step ▸ .text _ _) twins.log)
      | text => exact .inl (twin_amid rfl (.text _ _) twins.log)
      | woken _ done =>
        obtain ⟨-, -, -, -, -, proceeds⟩ := step_of_registers done
        rw [step] at proceeds
        cases proceeds
  · have texts : ∃ one other, machine.control = .answer (.text one) ∧
        twin.control = .answer (.text other) := by
      have controls := twins.control
      generalize machine.control = first at alike controls ⊢
      generalize twin.control = second at alike controls ⊢
      cases controls with
      | same => exact absurd rfl alike
      | text one other => exact ⟨one, other, rfl, rfl⟩
    obtain ⟨one, other, first, second⟩ := texts
    exact .inl (twins.step_of_text first second)

/-! ### What the twin has done -/

section Told

variable {stage : Stage} {source : QueueRef}

@[simp]
theorem told_flush? : (stage.flush? source).map (Deed.told id) = stage.flush? source :=
  Option.map_map ..

@[simp]
theorem told_close? (reason : Closed) :
    (stage.close? source reason).map (Deed.told id) = stage.close? source reason :=
  Option.map_map ..

@[simp]
theorem told_complete? (other : Nat) :
    (stage.complete? other).map (Deed.told id) = stage.complete? other := by
  unfold Stage.complete?
  rw [Option.map_map]
  refine Option.map_congr fun queue _ => ?_
  dsimp only [Function.comp]
  split <;> rfl

@[simp]
theorem told_cancel? (handle : HandleId) :
    (stage.cancel? handle).map (Deed.told id) = stage.cancel? handle := by
  unfold Stage.cancel?
  split <;> rfl

@[simp]
theorem told_turn? : (stage.turn? source).map (Deed.told id) = stage.turn? source := by
  unfold Stage.turn?
  split
  · rfl
  · split
    · rfl
    · split <;> rfl

@[simp]
theorem told_giveUp? : (stage.giveUp? source).map (Deed.told id) = stage.giveUp? source := by
  unfold Stage.giveUp?
  split
  · rfl
  · rfl
  · split <;> rfl

@[simp]
theorem told_advance? (object : Lifecycle.ObjectId) (target : Lifecycle.State) :
    (stage.advance? object target).map (Deed.told id) = stage.advance? object target := by
  unfold Stage.advance?
  split
  · rfl
  · split <;> rfl

end Told

theorem awaiting_always (world : World) (id : Nat) :
    (world.always id).awaiting = world.awaiting := by
  funext source
  cases source with
  | queue | clock => rfl
  | scheduler other =>
    dsimp only [World.awaiting, World.always]
    rw [getElem?_under]
    cases world.schedulers[other]? <;> rfl

/-- The twin sees the same stage, but for when the host is woken. -/
private theorem Twin.stage (twins : Twin id machine twin) :
    twin.stage = { machine.stage with phase? := twin.stage.phase? } := by
  have awaiting : twin.world.awaiting = machine.world.awaiting := by
    rw [twins.world, awaiting_always]
  have handles : twin.world.handles = machine.world.handles := by
    rw [twins.world]
    rfl
  have objects : twin.world.objects = machine.world.objects := by
    rw [twins.world]
    rfl
  unfold Machine.stage
  rw [awaiting, handles, objects, twins.stack]

private theorem Twin.accept? (twins : Twin id machine twin) (source : QueueRef)
    (callback : Callback) :
    twin.stage.accept? source callback =
      (machine.stage.accept? source callback).map (Deed.told id) := by
  have awaiting : twin.stage.awaiting = machine.stage.awaiting := by
    rw [twins.stage]
  have handles : twin.stage.handles = machine.stage.handles := by
    rw [twins.stage]
  unfold Stage.accept?
  rw [awaiting, handles]
  cases seen : machine.stage.awaiting source with
  | none => rfl
  | some queue =>
    dsimp only
    split
    · rfl
    · refine congrArg (fun hooked => some (Deed.accepts _ _ _ _ hooked)) ?_
      cases source with
      | queue | clock => exact (Bool.or_false _).symm
      | scheduler other =>
        obtain ⟨hosted, found, -⟩ := Option.map_eq_some_iff.mp seen
        have found' : twin.world.schedulers[other]? =
            some (hosted.under (changeAt id (fun _ => .always) other)) := by
          rw [twins.world, World.always, getElem?_under, found, Option.map_some]
        rw [Stage.hooks, Stage.hooks, phase?_scheduler found, phase?_scheduler found', changeAt]
        by_cases own : other = id
        · subst own
          rw [if_pos rfl]
          exact (Bool.or_true _).symm.trans (congrArg _ (decide_eq_true rfl).symm)
        · rw [if_neg (Ne.symm own)]
          have apart : decide (QueueRef.scheduler other = .scheduler id) = false :=
            decide_eq_false fun same => own (QueueRef.scheduler.inj same)
          rw [apart, Bool.or_false]
          rfl

private theorem bind_told {α : Type} {found : Option α} {one other : α → Option Deed}
    (same : ∀ value, other value = (one value).map (Deed.told id)) :
    found.bind other = (found.bind one).map (Deed.told id) := by
  rw [Option.map_bind]
  exact congrArg _ (funext same)

/-- The twin does the same, and tells the host of every registration. -/
theorem Twin.deed? (twins : Twin id machine twin) :
    twin.deed? = machine.deed?.map (Deed.told id) := by
  have accept := twins.accept?
  have flush (source : QueueRef) :
      twin.stage.flush? source = (machine.stage.flush? source).map (Deed.told id) := by
    rw [told_flush?, twins.stage]
    rfl
  have close (source : QueueRef) (reason : Closed) :
      twin.stage.close? source reason =
        (machine.stage.close? source reason).map (Deed.told id) := by
    rw [told_close?, twins.stage]
    rfl
  have complete (other : Nat) :
      twin.stage.complete? other = (machine.stage.complete? other).map (Deed.told id) := by
    rw [told_complete?, twins.stage]
    rfl
  have cancel (handle : HandleId) :
      twin.stage.cancel? handle = (machine.stage.cancel? handle).map (Deed.told id) := by
    rw [told_cancel?, twins.stage]
    rfl
  have turn (source : QueueRef) :
      twin.stage.turn? source = (machine.stage.turn? source).map (Deed.told id) := by
    rw [told_turn?, twins.stage]
    rfl
  have giveUp (source : QueueRef) :
      twin.stage.giveUp? source = (machine.stage.giveUp? source).map (Deed.told id) := by
    rw [told_giveUp?, twins.stage]
    rfl
  have advance (object : Lifecycle.ObjectId) (target : Lifecycle.State) :
      twin.stage.advance? object target =
        (machine.stage.advance? object target).map (Deed.told id) := by
    rw [told_advance?, twins.stage]
    rfl
  have start (other : Nat) :
      ((twin.stage.phase? other).map fun _ => Deed.startsFrame other) =
        ((machine.stage.phase? other).map fun _ => Deed.startsFrame other).map (Deed.told id) := by
    have phase : twin.stage.phase? other = _ :=
      congrArg (fun world : World => world.phase? other) twins.world
    rw [phase, World.phase?, World.always, getElem?_under]
    simp only [Machine.stage, World.phase?]
    cases machine.world.schedulers[other]? <;> rfl
  rcases machine with ⟨world, listener, log, stack, control⟩
  rcases twin with ⟨world', listener', log', stack', control'⟩
  cases twins.world
  cases twins.listener
  cases twins.stack
  have controls := twins.control
  dsimp only at controls
  cases controls with
  | text => rfl
  | same =>
    cases control with
    | answer => rfl
    | execute command =>
      cases command with
      | queue command =>
        cases command with
        | register => exact bind_told fun _ => accept _ _
        | flush => exact bind_told fun _ => flush _
        | close => exact bind_told fun _ => close _ _
        | _ => rfl
      | scheduler command =>
        cases command with
        | schedulePlain | scheduleInformed => exact bind_told fun _ => accept _ _
        | startFrame => exact bind_told start
        | completeFrame => exact bind_told complete
        | close => exact bind_told fun _ => close _ _
        | _ => rfl
      | clock command =>
        cases command with
        | register => exact bind_told fun _ => accept _ _
        | send => exact bind_told fun _ => flush _
        | close => exact bind_told fun _ => close _ _
        | _ => rfl
      | handle command =>
        cases command with
        | cancel => exact bind_told cancel
        | guard =>
          exact bind_told fun _ => bind_told fun _ => bind_told fun former => cancel former.handle
        | release => exact bind_told fun guard => cancel guard.handle
        | _ => rfl
      | object command =>
        cases command with
        | advance => exact bind_told fun _ => advance _ _
        | _ => rfl
      | _ => rfl
    | proceed =>
      cases stack with
      | nil => rfl
      | cons call calls =>
        cases call with
        | queue | scheduler | clock => exact turn _
        | draining owner drain =>
          simp only [Machine.deed?, continued?]
          cases drain.step with
          | attempt object target => exact advance object target
          | nextList | finished => rfl
        | retiring delivery => exact bind_told fun next => advance next.1 .retired
        | _ => rfl
    | unwind reason =>
      cases stack with
      | nil => rfl
      | cons call calls => exact bind_told giveUp

/-- The twin wakes the host at every registration. -/
theorem Twin.wakes (twins : Twin id machine twin) : twin.wakes id = machine.registers id := by
  unfold Machine.wakes Machine.registers
  rw [twins.deed?, Option.any_map]
  refine congrArg (fun wakes => machine.deed?.any wakes) (funext fun deed => ?_)
  cases deed with
  | accepts source ticket handle callback hooked =>
    simp only [Deed.told, Deed.wakes, Deed.registers]
    by_cases own : source = .scheduler id <;> simp [own]
  | _ => rfl

/-! ### Moves of twins -/

/-- The other machine after a restart: what does not depend on the control stays. -/
private theorem Twin.outcome? (twins : Twin id machine twin) :
    twin.outcome?.isSome = machine.outcome?.isSome := by
  have controls := twins.control
  unfold Machine.outcome?
  rw [twins.stack]
  generalize machine.control = one at controls
  generalize twin.control = other at controls
  cases controls with
  | same => rfl
  | text => cases machine.stack <;> rfl

private theorem Twin.restart (twins : Twin id machine twin) (command : Command) :
    Twin id (start machine.world machine.listener command)
      (start twin.world twin.listener command) :=
  ⟨twins.world, twins.listener, rfl, .same _, .nil⟩

/-- User code decides in both runs alike. -/
private theorem Twin.reconsider (twins : Twin id machine twin) (stack : List Call) :
    Twin id { machine with stack } { twin with stack } :=
  ⟨twins.world, twins.listener, rfl, twins.control, twins.log⟩

private theorem Twin.proceeds_iff (twins : Twin id machine twin) :
    twin.control = .proceed ↔ machine.control = .proceed := by
  have controls := twins.control
  generalize machine.control = one at controls ⊢
  generalize twin.control = other at controls ⊢
  cases controls with
  | same => rfl
  | text => simp

/-- What the first machine does the twin does too, or the twin calls the hook alone. -/
theorem Twin.move (twins : Twin id machine twin) (known : machine.hosting? id = some hosting)
    (move : machine.Move after) :
    (∃ later, twin.Move later ∧ Twin id after later) ∨
      after = machine.step ∧ Parted id hosting machine.step twin.step ∧ machine.wakes id = false ∧
        machine.registers id = true := by
  cases move with
  | step =>
    rcases twins.step known with same | ⟨parted, hook⟩
    · exact .inl ⟨_, .step, same⟩
    · exact .inr ⟨rfl, parted, hook⟩
  | @reconsider call other rest innermost proceeds free =>
    refine .inl ⟨{ twin with stack := other :: rest }, ?_, twins.reconsider _⟩
    exact .reconsider (twins.stack.trans innermost) (twins.proceeds_iff.mpr proceeds) free
  | command done command =>
    have finished : twin.outcome?.isSome := by rw [twins.outcome?, done]; rfl
    obtain ⟨answer, done'⟩ := Option.isSome_iff_exists.mp finished
    exact .inl ⟨_, .command done' command, twins.restart command⟩

/-- What the twin does the first machine does too, or the twin calls the hook alone. -/
theorem Twin.move_back (twins : Twin id machine twin) (known : machine.hosting? id = some hosting)
    (move : twin.Move after) :
    (∃ earlier, machine.Move earlier ∧ Twin id earlier after) ∨
      after = twin.step ∧ Parted id hosting machine.step twin.step ∧ machine.wakes id = false ∧
        machine.registers id = true := by
  cases move with
  | step =>
    rcases twins.step known with same | ⟨parted, hook⟩
    · exact .inl ⟨_, .step, same⟩
    · exact .inr ⟨rfl, parted, hook⟩
  | @reconsider call other rest innermost proceeds free =>
    have first := twins.proceeds_iff.mp proceeds
    refine .inl ⟨{ machine with stack := other :: rest }, ?_, twins.reconsider _⟩
    exact .reconsider (twins.stack.symm.trans innermost) first free
  | command done command =>
    have finished : machine.outcome?.isSome := by rw [← twins.outcome?, done]; rfl
    obtain ⟨answer, done'⟩ := Option.isSome_iff_exists.mp finished
    exact .inl ⟨_, .command done' command, twins.restart command⟩

end Machine

end LiveTree.Session
