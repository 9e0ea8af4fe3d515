import LiveTree.Proofs.Frame.Twins

/-! Two runs side by side. A scheduler is created, once so that it wakes its host when it stops
being idle and once so that it does so at every registration; then the same is done in both runs.
From step to step the second run is the twin of the first one, and where only the second one calls
the hook, it is the twin again as soon as the hook is back. So how often the host is woken is a
matter of speed and not of what is done. -/
namespace LiveTree.Session

open Awaiting LiveTree.Frame Settings

namespace Machine

variable {machine twin after : Machine} {id : Nat} {hosting : Hosting}

/-! ### Calls of the hook -/

/-- Nothing has come of what a machine has done since then, and nobody has been called back. -/
structure Untouched (before machine : Machine) : Prop where
  world : machine.world = before.world
  listener : machine.listener = before.listener
  log : ∃ news, machine.log = news ++ before.log ∧ ∀ event ∈ news, event.callsBack = false

/-- The body that a machine was about to run is still running, and nothing has come of it. -/
structure Dallies (begun machine : Machine) : Prop where
  untouched : Untouched begun machine
  inside : ∃ call calls, machine.stack = call :: calls ++ begun.stack.tail

/-- The body that a machine was about to run has returned normally, and nothing has come of it. -/
structure ComesBack (begun machine : Machine) : Prop where
  untouched : Untouched begun machine
  stack : machine.stack = begun.stack.tail
  proceeds : machine.control = .proceed

private theorem Untouched.refl (machine : Machine) : Untouched machine machine :=
  ⟨rfl, rfl, [], rfl, by simp⟩

/-- Once the hook is back, the machines are twins again. -/
private theorem Parted.back {parted : Machine} (apart : Parted id hosting machine parted)
    (back : ComesBack parted after) : Twin id machine after := by
  obtain ⟨log, logged, woven⟩ := apart.log
  obtain ⟨news, later, quiet⟩ := back.untouched.log
  refine ⟨?_, ?_, ?_, ?_, ?_⟩
  · rw [back.untouched.world, apart.world]
  · rw [back.untouched.listener, apart.listener]
  · rw [back.stack, apart.stack, List.tail_cons]
  · rw [back.proceeds, apart.proceeds]
    exact .same _
  · rw [later, logged]
    exact .hook _ news quiet woven

private theorem Parted.dallies {parted : Machine} (apart : Parted id hosting machine parted) :
    Dallies parted parted :=
  ⟨.refl _, _, [], by rw [apart.stack]; rfl⟩

/-- A body that returns normally whenever it is run, and nothing comes of it. -/
def Harmless (body : Body) : Prop :=
  ∀ begun calls, begun.stack = .body body :: calls → begun.control = .proceed →
    ∃ steps, (∀ middle ∈ trail steps begun, Dallies begun middle) ∧
      ComesBack begun (advanced steps begun)

/-- On its way a machine calls the hook of a scheduler only so that the hook returns normally, if it
returns, and nothing comes of it. -/
def HooksIdle (id : Nat) (passed : List Machine) (machine : Machine) : Prop :=
  ∀ before caller since next later,
    passed ++ [machine] = before ++ caller :: since ++ next :: later → caller.wakes id →
      (∀ middle ∈ since, Dallies caller.step middle) →
      Dallies caller.step next ∨ ComesBack caller.step next

private theorem HooksIdle.before {passed : List Machine}
    (idle : HooksIdle id (passed ++ [machine]) after) : HooksIdle id passed machine := by
  intro before caller since next later split
  refine idle before caller since next (later ++ [after]) ?_
  rw [split]
  simp

/-! ### Two runs -/

/-- Two runs side by side. The machines that the first one passes are each paired with one that the
second one passes; whatever else the second one passes is inside a call of the hook. -/
inductive Alongside (id : Nat) (first second : Machine) :
    List (Machine × Machine) → Machine → List Machine → Machine → Prop
  | starts (twins : Twin id first second) : Alongside id first second [] first [] second
  | both {pairs : List (Machine × Machine)} {machine twin after later : Machine}
      {busy : List Machine} (before : Alongside id first second pairs machine busy twin)
      (move : machine.Move after) (other : twin.Move later) (twins : Twin id after later) :
      Alongside id first second (pairs ++ [(machine, twin)]) after (busy ++ [twin]) later
  | hook {pairs : List (Machine × Machine)} {machine twin returned : Machine}
      {busy trip : List Machine} (before : Alongside id first second pairs machine busy twin)
      (told : twin.wakes id) (goes : twin.step.Goes trip returned)
      (inside : ∀ middle ∈ trip, Dallies twin.step middle) (twins : Twin id machine.step returned) :
      Alongside id first second (pairs ++ [(machine, twin)]) machine.step
        (busy ++ twin :: trip) returned

namespace Alongside

variable {first second : Machine} {pairs : List (Machine × Machine)} {passed busy : List Machine}

private theorem latest (runs : Alongside id first second pairs machine busy after) :
    Twin id machine after := by
  cases runs with
  | starts twins | both _ _ _ twins | hook _ _ _ _ twins => exact twins

private theorem goes_first (runs : Alongside id first second pairs machine busy after) :
    first.Goes (pairs.map Prod.fst) machine := by
  induction runs with
  | starts => exact .stays
  | both _ move _ _ ih =>
    rw [List.map_append]
    exact .moves ih move
  | hook _ _ _ _ _ ih =>
    rw [List.map_append]
    exact .moves ih .step

private theorem goes_second (runs : Alongside id first second pairs machine busy after) :
    second.Goes busy after := by
  induction runs with
  | starts => exact .stays
  | both _ _ move _ ih => exact .moves ih move
  | @hook _ _ twin _ busy trip _ _ goes _ _ ih =>
    have steps : second.Goes (busy ++ [twin]) twin.step := .moves ih .step
    rw [← List.singleton_append, ← List.append_assoc]
    exact steps.trans goes

private theorem twins (runs : Alongside id first second pairs machine busy after) :
    ∀ pair ∈ pairs ++ [(machine, after)], Twin id pair.1 pair.2 := by
  induction runs with
  | starts same =>
    intro pair member
    rw [List.mem_singleton.mp member]
    exact same
  | both _ _ _ same ih | hook _ _ _ _ same ih =>
    intro pair member
    rcases List.mem_append.mp member with former | latest
    · exact ih pair former
    · rw [List.mem_singleton.mp latest]
      exact same

private theorem sublist (runs : Alongside id first second pairs machine busy after) :
    (pairs.map Prod.snd).Sublist busy := by
  induction runs with
  | starts => exact .slnil
  | both _ _ _ _ ih =>
    rw [List.map_append]
    exact ih.append (.refl _)
  | hook _ _ _ _ _ ih =>
    rw [List.map_append]
    exact ih.append (.cons_cons _ (List.nil_sublist _))

/-- Whatever the second run passes is paired or inside a call of the hook. -/
private theorem paired_or_inside (runs : Alongside id first second pairs machine busy after) :
    ∀ middle ∈ busy, middle ∈ pairs.map Prod.snd ∨
      ∃ caller ∈ pairs.map Prod.snd, caller.wakes id ∧ Dallies caller.step middle := by
  have more {pairs : List (Machine × Machine)} {middle : Machine} (pair : Machine × Machine)
      (known : middle ∈ pairs.map Prod.snd ∨
        ∃ caller ∈ pairs.map Prod.snd, caller.wakes id ∧ Dallies caller.step middle) :
      middle ∈ (pairs ++ [pair]).map Prod.snd ∨
        ∃ caller ∈ (pairs ++ [pair]).map Prod.snd,
          caller.wakes id ∧ Dallies caller.step middle := by
    rw [List.map_append]
    rcases known with paired | ⟨caller, member, inside⟩
    · exact .inl (List.mem_append_left _ paired)
    · exact .inr ⟨caller, List.mem_append_left _ member, inside⟩
  induction runs with
  | starts => simp
  | both _ _ _ _ ih =>
    intro middle member
    rcases List.mem_append.mp member with former | latest
    · exact more _ (ih middle former)
    · rw [List.mem_singleton.mp latest]
      exact .inl (by simp)
  | hook _ told _ inside _ ih =>
    intro middle member
    rcases List.mem_append.mp member with former | latest
    · exact more _ (ih middle former)
    · rcases List.mem_cons.mp latest with rfl | within
      · exact .inl (by simp)
      · exact .inr ⟨_, by simp, told, inside middle within⟩

/-- Whatever the first run does, the second one can do too, if the hook is harmless. -/
private theorem follows (twins : Twin id first second) (known : first.hosting? id = some hosting)
    (harmless : Harmless hosting.wake) (goes : first.Goes passed machine) :
    ∃ pairs busy twin, pairs.map Prod.fst = passed ∧
      Alongside id first second pairs machine busy twin := by
  induction goes with
  | stays => exact ⟨[], [], second, rfl, .starts twins⟩
  | @moves passed last after goes move ih =>
    obtain ⟨pairs, busy, twin, rfl, runs⟩ := ih
    rcases runs.latest.move (goes.hosting? known) move with
      ⟨later, other, same⟩ | ⟨rfl, parted, -, registers⟩
    · exact ⟨_, _, later, by simp, .both runs move other same⟩
    · obtain ⟨steps, inside, back⟩ := harmless twin.step _ parted.stack parted.starts
      have told : twin.wakes id := runs.latest.wakes.trans registers
      exact ⟨_, _, _, by simp, .hook runs told (goes_trail ..) inside (parted.back back)⟩

/-- Whatever the second run does, the first one can do too, if the hook only idles. -/
private theorem leads (twins : Twin id first second) (known : first.hosting? id = some hosting)
    (goes : second.Goes busy after) (idle : HooksIdle id busy after) :
    ∃ pairs machine, Alongside id first second pairs machine busy after ∨
      ∃ before caller since, busy = before ++ caller :: since ∧
        Alongside id first second pairs machine before caller ∧ caller.wakes id ∧
        machine.wakes id = false ∧ Parted id hosting machine.step caller.step ∧
        caller.step.Goes since after ∧ ∀ middle ∈ since ++ [after], Dallies caller.step middle := by
  induction goes with
  | stays => exact ⟨[], first, .inl (.starts twins)⟩
  | @moves busy last after goes move ih =>
    obtain ⟨pairs, machine, runs | ⟨before, caller, since, rfl, runs, told, silent, parted, since',
      inside⟩⟩ := ih idle.before
    · rcases runs.latest.move_back (runs.goes_first.hosting? known) move with
        ⟨earlier, other, same⟩ | ⟨rfl, parted, silent, registers⟩
      · exact ⟨_, earlier, .inl (.both runs other move same)⟩
      · refine ⟨pairs, machine, .inr ⟨busy, last, [], rfl, runs, ?_, silent, parted, .stays, ?_⟩⟩
        · exact runs.latest.wakes.trans registers
        · intro middle member
          rw [List.mem_singleton.mp member]
          exact parted.dallies
    · have split : (before ++ caller :: since ++ [last]) ++ [after] =
          before ++ caller :: (since ++ [last]) ++ after :: [] := by simp
      rcases idle before caller (since ++ [last]) after [] split told inside with still | back
      · refine ⟨pairs, machine, .inr ⟨before, caller, since ++ [last], by simp, runs, told, silent,
          parted, .moves since' move, fun middle member => ?_⟩⟩
        rcases List.mem_append.mp member with former | latest
        · exact inside middle former
        · rw [List.mem_singleton.mp latest]
          exact still
      · refine ⟨pairs ++ [(machine, caller)], machine.step, .inl ?_⟩
        have whole : before ++ caller :: since ++ [last] =
            before ++ caller :: (since ++ [last]) := by
          simp
        rw [whole]
        exact .hook runs told (.moves since' move) inside (parted.back back)

end Alongside

/-! ### The hook -/

/-- A scheduler that is to wake its host at every registration does so. -/
private theorem wakes_of_always (known : machine.hosting? id = some hosting)
    (always : hosting.config.notifyPolicy = .always) : machine.wakes id = machine.registers id := by
  obtain ⟨hosted, found, rfl⟩ := Option.map_eq_some_iff.mp known
  cases done : machine.deed? with
  | none => rw [wakes, registers, done]; rfl
  | some deed =>
    rw [wakes, registers, done]
    cases deed with
    | accepts source ticket handle callback hooked =>
      by_cases own : source = .scheduler id
      · subst own
        obtain ⟨-, -, action, -, -, accepted⟩ := schedule_of_registers done
        rw [Stage.accept?, awaiting_scheduler found] at accepted
        dsimp only at accepted
        split at accepted
        · cases accepted
        · obtain ⟨-, -, -, -, told⟩ := Deed.accepts.inj (Option.some.inj accepted)
          have hooks (first : Bool) : machine.stage.hooks (.scheduler id) first = true := by
            rw [Stage.hooks, phase?_scheduler found]
            have policy : hosted.core.phase.policy = .always := always
            dsimp only [Phase.notifies]
            rw [policy]
          rw [← told, hooks]
          exact Bool.and_true _
      · have foreign : decide (source = .scheduler id) = false := decide_eq_false own
        exact (congrArg (· && hooked) foreign).trans foreign.symm
    | _ => rfl

/-- An action that is registered waits. -/
private theorem waiting_of_registers {ticket : Ticket} {handle : HandleId} {callback : Callback}
    {hooked : Bool}
    (done : machine.deed? = some (.accepts (.scheduler id) ticket handle callback hooked)) :
    ticket ∈ machine.step.stage.waiting id := by
  obtain ⟨name, kept, action, named, stepped, accepted⟩ := schedule_of_registers done
  have step : machine.stage.Step _ (machine.schedule name kept action).stage := step_schedule
  rw [named, Option.bind_some, accepted, ← stepped] at step
  generalize machine.step.stage = reached at step
  cases step with
  | accepts found registered =>
    obtain ⟨-, rfl⟩ := Queue.register_eq_ok_iff.mp registered
    simp [Stage.waiting, Stage.issue, Stage.setQueue]

/-! ### The same work -/

/-- What two runs have in common that differ in when a scheduler wakes its host. -/
structure SameWork (id : Nat) (hosting : Hosting) (pairs : List (Machine × Machine))
    (machine : Machine) (busy : List Machine) (twin : Machine) : Prop where
  /-- After every step the worlds are the same but for the policy, the same calls are in progress,
  the same is answered, and the same has been logged but for the hook. -/
  twins : ∀ pair ∈ pairs ++ [(machine, twin)], Twin id pair.1 pair.2
  /-- What can be seen of every component is the same, -/
  views : ∀ pair ∈ pairs ++ [(machine, twin)], ∀ kind name,
    pair.2.world.view kind name = pair.1.world.view kind name
  /-- and so are all queues, with everybody who waits or has waited in them. -/
  queues : ∀ pair ∈ pairs ++ [(machine, twin)], pair.2.world.awaiting = pair.1.world.awaiting
  /-- Everybody is registered, served, withdrawn and refused in both runs alike, but the second one
  tells the host of every registration. -/
  deeds : ∀ pair ∈ pairs ++ [(machine, twin)], pair.2.deed? = pair.1.deed?.map (Deed.told id)
  /-- The second run does this in the order of the first one, -/
  order : (pairs.map Prod.snd).Sublist busy
  /-- and else it only waits for the hook. -/
  hooks : ∀ middle ∈ busy, middle ∈ pairs.map Prod.snd ∨
    ∃ caller ∈ pairs.map Prod.snd, caller.wakes id ∧ Dallies caller.step middle
  /-- The second run wakes the host at each registration that is accepted, -/
  wakes : ∀ middle ∈ busy, middle.wakes id = middle.registers id
  /-- which means that it calls the hook at once, before the handle is given out and when the action
  waits already, in whatever phase. -/
  calls : ∀ middle ∈ busy, ∀ ticket handle callback hooked,
    middle.deed? = some (.accepts (.scheduler id) ticket handle callback hooked) →
      ticket ∈ middle.step.stage.waiting id ∧
        middle.step.log = .woken hosting.name :: middle.log ∧
        (∃ name, middle.step.stack =
          .body hosting.wake :: .registering handle name :: middle.stack) ∧
        middle.step.control = .proceed
  /-- Nothing else calls a hook. -/
  only : ∀ middle ∈ busy, ∀ name, middle.step.calls = .woken name :: middle.calls →
    ∃ id hosted, middle.wakes id ∧ middle.world.schedulers[id]? = some hosted ∧
      hosted.name = name
  /-- The first run wakes the host at some of the registrations at which the second one does. -/
  fewer : ∀ pair ∈ pairs, pair.1.wakes id → pair.2.wakes id

private theorem Alongside.sameWork {first second : Machine} {pairs : List (Machine × Machine)}
    {busy : List Machine} (runs : Alongside id first second pairs machine busy twin)
    (known : second.hosting? id = some hosting) (always : hosting.config.notifyPolicy = .always) :
    SameWork id hosting pairs machine busy twin := by
  have hosts : ∀ middle ∈ busy, middle.hosting? id = some hosting := by
    intro middle member
    obtain ⟨before, later, rfl⟩ := List.append_of_mem member
    exact runs.goes_second.split.1.hosting? known
  have told : ∀ middle ∈ busy, middle.wakes id = middle.registers id :=
    fun middle member => wakes_of_always (hosts middle member) always
  constructor
  case twins => exact runs.twins
  case views =>
    intro pair member kind name
    rw [(runs.twins pair member).world]
    exact @policy_view id (fun _ => .always) [] pair.1.world kind name
  case queues =>
    intro pair member
    rw [(runs.twins pair member).world, awaiting_always]
  case deeds => exact fun pair member => (runs.twins pair member).deed?
  case order => exact runs.sublist
  case hooks => exact runs.paired_or_inside
  case wakes => exact told
  case calls =>
    intro middle member ticket handle callback hooked done
    have hooking : hooked = true := by
      have both := told middle member
      rw [Machine.wakes, Machine.registers, done] at both
      simpa [Deed.wakes, Deed.registers] using both
    subst hooking
    obtain ⟨hosted, name, found, logged, stacked, proceeds⟩ := step_of_registers done
    obtain ⟨other, found', rfl⟩ := Option.map_eq_some_iff.mp (hosts middle member)
    cases found.symm.trans found'
    exact ⟨waiting_of_registers done, logged, ⟨name, stacked⟩, proceeds⟩
  case only => exact fun middle _ name logged => wakes_of_woken logged
  case fewer =>
    intro pair member wakes
    rw [(runs.twins pair (List.mem_append_left _ member)).wakes]
    exact registers_of_wakes wakes

/-- A machine that is about to create a scheduler with a notify policy. -/
def creating (machine : Machine) (name : Name) (config : FrameConfig) (wake : Body)
    (policy : NotifyPolicy) : Machine :=
  { machine with
    control := .execute (.scheduler (.create name { config with notifyPolicy := policy } wake)) }

/-- A scheduler does the same work under either policy. -/
structure SameUnderEither (machine : Machine) (name : Name) (config : FrameConfig) (wake : Body) :
    Prop where
  /-- Whatever is done where the host is woken when the scheduler stops being idle can be done where
  it is woken at every registration, if the hook is harmless. -/
  follows : Harmless wake → ∀ passed reached,
    (machine.creating name config wake .idleTransition).step.Goes passed reached →
      ∃ pairs busy twin, pairs.map Prod.fst = passed ∧
        (machine.creating name config wake .always).step.Goes busy twin ∧
        SameWork machine.world.schedulers.size ⟨name, wake, { config with notifyPolicy := .always }⟩
          pairs reached busy twin
  /-- Whatever is done where the host is woken at every registration can be done where it is woken
  when the scheduler stops being idle, if the calls of the hook come to nothing. At the end the hook
  may still be running. -/
  leads : ∀ busy twin, (machine.creating name config wake .always).step.Goes busy twin →
    HooksIdle machine.world.schedulers.size busy twin →
      ∃ pairs reached,
        (machine.creating name config wake .idleTransition).step.Goes (pairs.map Prod.fst) reached ∧
        (SameWork machine.world.schedulers.size
            ⟨name, wake, { config with notifyPolicy := .always }⟩ pairs reached busy twin ∨
          ∃ before caller since, busy = before ++ caller :: since ∧
            SameWork machine.world.schedulers.size
              ⟨name, wake, { config with notifyPolicy := .always }⟩ pairs reached before caller ∧
            caller.wakes machine.world.schedulers.size ∧
            reached.wakes machine.world.schedulers.size = false ∧
            ∀ middle ∈ since ++ [twin], Dallies caller.step middle)

private theorem creating_hosting? (machine : Machine) (name : Name) (config : FrameConfig)
    (wake : Body) (policy : NotifyPolicy) :
    (machine.creating name config wake policy).step.hosting? machine.world.schedulers.size =
      some ⟨name, wake, { config with notifyPolicy := policy }⟩ := by
  simp [hosting?, World.hosting?, creating, step, execute, executeScheduler, nameScheduler,
    withWorld, reply, HostedScheduler.hosting]

private theorem creating_twins (machine : Machine) (name : Name) (config : FrameConfig)
    (wake : Body) :
    Twin machine.world.schedulers.size (machine.creating name config wake .idleTransition).step
      (machine.creating name config wake .always).step := by
  let hosted (policy : NotifyPolicy) : HostedScheduler :=
    ⟨{ config := { config with notifyPolicy := policy } }, name, wake⟩
  have schedulers : machine.world.schedulers.push (hosted .always) =
      (machine.world.schedulers.push (hosted .idleTransition)).modify machine.world.schedulers.size
        (.under fun _ => .always) := by
    refine Array.ext_getElem? fun index => ?_
    rw [Array.getElem?_modify, Array.getElem?_push, Array.getElem?_push]
    by_cases new : index = machine.world.schedulers.size
    · rw [if_pos new, if_pos new.symm, if_pos new]
      rfl
    · rw [if_neg new, if_neg (Ne.symm new), if_neg new]
  let given (schedulers : Array HostedScheduler) : World :=
    { machine.world with
      schedulers
      schedulerNames := machine.world.schedulerNames.set name machine.world.schedulers.size }
  exact ⟨congrArg given schedulers, rfl, rfl, .same _, .refl _⟩

/-- However often a scheduler wakes its host, the same work is done. -/
theorem notify_policy_changes_no_work (machine : Machine) (name : Name) (config : FrameConfig)
    (wake : Body) : SameUnderEither machine name config wake := by
  have first := creating_hosting? machine name config wake .idleTransition
  have second := creating_hosting? machine name config wake .always
  have twins := creating_twins machine name config wake
  constructor
  case follows =>
    intro harmless passed reached goes
    obtain ⟨pairs, busy, twin, rfl, runs⟩ := Alongside.follows twins first harmless goes
    exact ⟨pairs, busy, twin, rfl, runs.goes_second, runs.sameWork second rfl⟩
  case leads =>
    intro busy twin goes idle
    obtain ⟨pairs, reached, runs | ⟨before, caller, since, split, runs, told, silent, -, -,
      inside⟩⟩ := Alongside.leads twins first goes idle
    · exact ⟨pairs, reached, runs.goes_first, .inl (runs.sameWork second rfl)⟩
    · exact ⟨pairs, reached, runs.goes_first,
        .inr ⟨before, caller, since, split, runs.sameWork second rfl, told, silent, inside⟩⟩

/-- A hook without any commands is harmless. -/
private theorem harmless_nil : Harmless [] := by
  intro begun calls stack proceeds
  have step : begun.step = begun.pop := by
    simp only [step, proceeds, stack]
    rfl
  have dallies : Dallies begun begun := ⟨.refl _, .body [], [], by rw [stack]; rfl⟩
  refine ⟨1, fun middle member => ?_, ?_⟩
  · rw [List.mem_singleton.mp member]
    exact dallies
  · have advanced : advanced 1 begun = begun.pop := step
    rw [advanced]
    exact ⟨⟨rfl, rfl, [], rfl, by simp⟩, rfl, proceeds⟩

/-- A machine that is about to register two actions, one of them during a frame. -/
def aboutToRegister : Machine :=
  let rest : Body :=
    [.scheduler (.schedulePlain "s" "a" none []), .scheduler (.startFrame "s"),
      .scheduler (.schedulePlain "s" "b" none []), .scheduler (.completeFrame "s")]
  { start {} none (.call "main") with stack := [.body rest] }

/-- It registers them with a scheduler that wakes its host when it stops being idle. -/
def registersTwice : Machine := (aboutToRegister.creating "s" {} [] .idleTransition).step

theorem notify_policy_changes_no_work_in_frame :
    (∃ one other, deeds (trail 13 registersTwice) =
      [.accepts (.scheduler 0) 0 0 one true, .startsFrame 0,
        .accepts (.scheduler 0) 1 1 other false]) ∧
      Harmless [] ∧
      ∃ pairs busy twin, pairs.map Prod.fst = trail 13 registersTwice ∧
        (aboutToRegister.creating "s" {} [] .always).step.Goes busy twin ∧
        SameWork 0 ⟨"s", [], { notifyPolicy := .always }⟩ pairs (advanced 13 registersTwice) busy
          twin := by
  have runs := (notify_policy_changes_no_work aboutToRegister "s" {} []).follows harmless_nil
    (trail 13 registersTwice) (advanced 13 registersTwice) (goes_trail 13 registersTwice)
  have size : aboutToRegister.world.schedulers.size = 0 := rfl
  rw [size] at runs
  exact ⟨⟨_, _, by with_unfolding_all rfl⟩, harmless_nil, runs⟩

end Machine

end LiveTree.Session
