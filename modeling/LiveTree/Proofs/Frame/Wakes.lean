import LiveTree.Proofs.Session.Books
import LiveTree.Proofs.Session.Calling

/-! Waking the host. A scheduler that wakes its host when it stops being idle does so once for each
stretch in which actions wait, and not at all for a stretch that begins during a frame; so the host
never sleeps while somebody waits for a frame, and is never woken twice for the same work. -/
namespace LiveTree.Session

open Awaiting LiveTree.Frame

/-- Whether a deed is the registration of an action with a scheduler. -/
def Deed.registers (id : Nat) : Deed → Bool
  | accepts source _ _ _ _ => source = .scheduler id
  | _ => false

/-- Whether a deed is such a registration and the host is told of it. -/
def Deed.wakes (id : Nat) : Deed → Bool
  | accepts source _ _ _ hooked => source = .scheduler id && hooked
  | _ => false

private theorem Deed.registers_of_wakes {id : Nat} {deed : Deed} (told : deed.wakes id) :
    deed.registers id := by
  cases deed with
  | accepts => exact (Bool.and_eq_true_iff.mp told).1
  | _ => cases told

namespace Stage

variable {stage after : Stage} {id : Nat} {deed : Option Deed} {history : List Deed}
  {queue changed : CallbackQueue} {phase : Phase}

/-- The actions that wait for the end of a frame. -/
def waiting (stage : Stage) (id : Nat) : List Ticket :=
  (stage.awaiting (.scheduler id)).elim [] Queue.pending

/-- Whether a frame of a scheduler is in progress. -/
def inFrame (stage : Stage) (id : Nat) : Bool := (stage.phase? id).any Phase.inFrame

/-- When a scheduler wakes its host. -/
def policy? (stage : Stage) (id : Nat) : Option Settings.NotifyPolicy :=
  (stage.phase? id).map Phase.policy

/-- A scheduler keeps the policy it was created with. -/
private theorem Step.policy? (step : stage.Step deed after)
    (found : stage.awaiting (.scheduler id) = some queue) (current : stage.phase? id = some phase) :
    after.policy? id = some phase.policy := by
  obtain ⟨changed, present, phasing⟩ := step.phasing found current
  rw [Stage.policy?, present]
  cases phasing <;> rfl

/-- The host is told of a registration exactly when it finds the scheduler idle with nothing
waiting. -/
private theorem Step.wakes_iff (step : stage.Step deed after)
    (idles : stage.policy? id = some .idleTransition) :
    deed.any (Deed.wakes id) =
      (deed.any (Deed.registers id) && (stage.waiting id).isEmpty && !stage.inFrame id) := by
  cases step with
  | @accepts source queue callback registration found accepted =>
    obtain ⟨-, rfl⟩ := Queue.register_eq_ok_iff.mp accepted
    by_cases own : source = .scheduler id
    · subst own
      obtain ⟨phase, current, policy⟩ := Option.map_eq_some_iff.mp idles
      simp [Deed.wakes, Deed.registers, waiting, inFrame, hooks, found, current, Phase.notifies,
        policy]
    · simp [Deed.wakes, Deed.registers, own]
  | _ => rfl

/-- Nobody comes to wait but by registering. -/
private theorem Change.registers_or_subset
    (change : stage.Change (.scheduler id) queue deed changed) (sound : queue.Sound) :
    deed.any (Deed.registers id) ∨ changed.pending ⊆ queue.pending := by
  cases change with
  | accepts => exact .inl (decide_eq_true rfl)
  | stays | finishes | serves => exact .inr (List.Subset.refl _)
  | flushes | closes => exact .inr (List.nil_subset _)
  | loses _ free => exact absurd rfl (free id)
  | withdraws =>
    right
    rw [Queue.pending_withdraw sound]
    exact List.filter_subset_self _

private theorem Step.registers_of_waiting (step : stage.Step deed after) (life : Life history stage)
    (empty : stage.waiting id = []) (full : after.waiting id ≠ []) :
    deed.any (Deed.registers id) := by
  unfold waiting at empty full
  cases before : stage.awaiting (.scheduler id) with
  | none =>
    rcases step.appears before with absent | ⟨fresh, -⟩
    · rw [absent] at full
      exact absurd rfl full
    · rw [fresh] at full
      exact absurd rfl full
  | some queue =>
    obtain ⟨changed, present, change⟩ := step.change before
    rw [before, Option.elim_some] at empty
    rw [present, Option.elim_some] at full
    refine (change.registers_or_subset (life.sound before)).resolve_right fun fewer => full ?_
    rw [empty] at fewer
    exact List.subset_nil.mp fewer

/-- With a scheduler that does not exist nobody registers. -/
private theorem Step.not_registers (step : stage.Step deed after)
    (absent : stage.awaiting (.scheduler id) = none) : deed.any (Deed.registers id) = false := by
  cases step with
  | @accepts source queue callback registration found =>
    refine decide_eq_false ?_
    rintro rfl
    rw [absent] at found
    cases found
  | _ => rfl

/-- A registration neither begins nor ends a frame. -/
private theorem Step.inFrame_of_registers (step : stage.Step deed after)
    (found : stage.awaiting (.scheduler id) = some queue) (current : stage.phase? id = some phase)
    (registers : deed.any (Deed.registers id)) : after.inFrame id = stage.inFrame id := by
  obtain ⟨changed, present, phasing⟩ := step.phasing found current
  rw [inFrame, inFrame, present, current]
  cases phasing with
  | stays => rfl
  | starts | idles | completes => cases registers

/-- A frame does not end while somebody waits on. -/
private theorem Step.inFrame_of_waiting (step : stage.Step deed after) (life : Life history stage)
    (current : stage.phase? id = some phase) (full : stage.waiting id ≠ [])
    (still : after.waiting id ≠ []) (idle : after.inFrame id = false) :
    stage.inFrame id = false := by
  unfold waiting at full still
  cases before : stage.awaiting (.scheduler id) with
  | none =>
    rw [before] at full
    exact absurd rfl full
  | some queue =>
    obtain ⟨changed, present, change⟩ := step.change before
    obtain ⟨next, reached, phasing⟩ := step.phasing before current
    rw [before, Option.elim_some] at full
    rw [present, Option.elim_some] at still
    rw [inFrame, reached] at idle
    rw [inFrame, current]
    cases phasing with
    | stays => exact idle
    | starts => cases idle
    | idles closed => exact absurd ((life.sound before).shut closed) full
    | completes =>
      cases change with
      | stays foreign => exact absurd rfl (foreign _ rfl)
      | flushes => exact absurd rfl still

end Stage

namespace Machine

variable {passed before since : List Machine} {machine middle first : Machine} {id : Nat}

/-- Whether the next step accepts an action. -/
def registers (id : Nat) (machine : Machine) : Bool := machine.deed?.any (Deed.registers id)

/-- Whether the next step wakes the host. -/
def wakes (id : Nat) (machine : Machine) : Bool := machine.deed?.any (Deed.wakes id)

theorem registers_of_wakes (told : machine.wakes id) : machine.registers id := by
  unfold wakes at told
  unfold registers
  cases done : machine.deed? with
  | none =>
    rw [done] at told
    cases told
  | some deed =>
    rw [done] at told
    exact Deed.registers_of_wakes told

/-- A scheduler has a queue if it has a phase, and otherwise none. -/
private theorem awaiting_of_policy? {policy : Settings.NotifyPolicy}
    (known : machine.stage.policy? id = some policy) :
    ∃ queue phase, machine.stage.awaiting (.scheduler id) = some queue ∧
      machine.stage.phase? id = some phase ∧ phase.policy = policy := by
  cases found : machine.world.schedulers[id]? with
  | none => simp [Stage.policy?, stage, World.phase?, found] at known
  | some hosted =>
    refine ⟨_, _, awaiting_scheduler found, phase?_scheduler found, ?_⟩
    rw [Stage.policy?, phase?_scheduler found] at known
    exact Option.some.inj known

private theorem awaiting_of_policy?_eq_none (unknown : machine.stage.policy? id = none) :
    machine.stage.awaiting (.scheduler id) = none := by
  cases found : machine.world.schedulers[id]? with
  | none => simp [stage, World.awaiting, found]
  | some hosted =>
    rw [Stage.policy?, phase?_scheduler found] at unknown
    cases unknown

private theorem policy?_of_waiting (full : machine.stage.waiting id ≠ []) :
    ∃ policy, machine.stage.policy? id = some policy := by
  refine Option.ne_none_iff_exists'.mp fun unknown => full ?_
  rw [Stage.waiting, awaiting_of_policy?_eq_none unknown, Option.elim_none]

/-- A scheduler keeps the policy it was created with. -/
private theorem Course.policy? {later : List Machine} {policy : Settings.NotifyPolicy}
    (course : Course (before ++ middle :: later) machine)
    (known : middle.stage.policy? id = some policy) : machine.stage.policy? id = some policy := by
  induction later using List.reverseRecOn generalizing machine with
  | nil =>
    obtain ⟨early, move⟩ := course.latest
    obtain ⟨queue, phase, found, current, rfl⟩ := awaiting_of_policy? known
    exact (move.stage_step early.life.attended).policy? found current
  | append_singleton later last ih =>
    rw [← List.cons_append, ← List.append_assoc] at course
    obtain ⟨early, move⟩ := course.latest
    obtain ⟨queue, phase, found, current, rfl⟩ := awaiting_of_policy? (ih early)
    exact (move.stage_step early.life.attended).policy? found current

/-- In a course, the host is woken exactly where a registration finds the scheduler idle with
nothing waiting. -/
private theorem Course.wakes_eq {later : List Machine}
    (course : Course (before ++ middle :: later) machine)
    (idles : machine.stage.policy? id = some .idleTransition) :
    middle.wakes id =
      (middle.registers id && (middle.stage.waiting id).isEmpty && !middle.stage.inFrame id) := by
  have step := stage_step course.before.life.attended
  cases known : middle.stage.policy? id with
  | none =>
    have nobody : middle.registers id = false :=
      step.not_registers (awaiting_of_policy?_eq_none known)
    rw [nobody, Bool.false_and, Bool.false_and]
    refine Bool.eq_false_iff.mpr fun told => ?_
    rw [registers_of_wakes told] at nobody
    cases nobody
  | some policy =>
    cases idles.symm.trans (course.policy? known)
    exact step.wakes_iff known

/-- A stretch of a course in which somebody waits without a gap, from the first one's registration
on. -/
structure Stretch (id : Nat) (first : Machine) (since : List Machine) (machine : Machine) :
    Prop where
  /-- The first one finds nobody waiting. -/
  empty : first.stage.waiting id = []
  /-- From then on somebody waits. -/
  full : ∀ middle ∈ since ++ [machine], middle.stage.waiting id ≠ []

/-- If somebody waits, there is a stretch in which somebody does. -/
private theorem Course.stretch (course : Course passed machine)
    (full : machine.stage.waiting id ≠ []) :
    ∃ before first since, passed = before ++ first :: since ∧ Stretch id first since machine := by
  obtain ⟨scripts, listener, command, goes⟩ := course
  induction goes with
  | stays =>
    rw [stage_start] at full
    exact absurd rfl full
  | @moves passed last machine goes move ih =>
    by_cases empty : last.stage.waiting id = []
    · refine ⟨passed, last, [], rfl, empty, fun middle member => ?_⟩
      obtain rfl := List.mem_singleton.mp member
      exact full
    · obtain ⟨before, first, since, rfl, stretch⟩ := ih empty
      refine ⟨before, first, since ++ [last], by simp, stretch.empty, fun middle member => ?_⟩
      rcases List.mem_append.mp member with former | latter
      · exact stretch.full middle former
      · obtain rfl := List.mem_singleton.mp latter
        exact full

/-- A stretch that began while the scheduler was idle wakes the host once, in its first step, and
one that began during a frame does not wake it. While no frame is in progress, it is one of the
former. -/
private theorem Course.wakes_stretch (course : Course (before ++ first :: since) machine)
    (idles : machine.stage.policy? id = some .idleTransition)
    (stretch : Stretch id first since machine) :
    (first :: since).countP (wakes id) = (if first.stage.inFrame id then 0 else 1) ∧
      (machine.stage.inFrame id = false → first.stage.inFrame id = false) := by
  induction since using List.reverseRecOn generalizing machine with
  | nil =>
    obtain ⟨early, move⟩ := course.latest
    have step := move.stage_step early.life.attended
    have full := stretch.full machine List.mem_cons_self
    have registers : first.registers id := step.registers_of_waiting early.life stretch.empty full
    have told : first.wakes id = !first.stage.inFrame id := by
      rw [course.wakes_eq idles, registers, stretch.empty]
      rfl
    have same : machine.stage.inFrame id = first.stage.inFrame id := by
      cases known : first.stage.policy? id with
      | none =>
        have nobody := step.not_registers (awaiting_of_policy?_eq_none known)
        exact absurd registers (Bool.eq_false_iff.mp nobody)
      | some policy =>
        obtain ⟨queue, phase, found, current, -⟩ := awaiting_of_policy? known
        exact step.inFrame_of_registers found current registers
    refine ⟨?_, fun idle => same ▸ idle⟩
    rw [List.countP_singleton, told]
    cases first.stage.inFrame id <;> rfl
  | append_singleton since last ih =>
    have latest := course
    rw [← List.cons_append, ← List.append_assoc] at latest
    obtain ⟨early, move⟩ := latest.latest
    have step := move.stage_step early.life.attended
    have full := stretch.full last (by simp)
    have still := stretch.full machine (by simp)
    obtain ⟨policy, known⟩ := policy?_of_waiting full
    cases idles.symm.trans (latest.policy? known)
    obtain ⟨queue, phase, found, current, -⟩ := awaiting_of_policy? known
    obtain ⟨count, idle⟩ := ih early known
      ⟨stretch.empty, fun middle member => stretch.full middle (List.mem_append_left _ member)⟩
    have silent : last.wakes id = false := by
      rw [latest.wakes_eq idles, List.isEmpty_eq_false_iff.mpr full, Bool.and_false, Bool.false_and]
    refine ⟨?_, fun now => idle (step.inFrame_of_waiting early.life current full still now)⟩
    rw [← List.cons_append, List.countP_append, count, List.countP_singleton, silent]
    rfl

/-! ### The hook -/

/-- A registration with a scheduler comes from a command that schedules an action. -/
theorem schedule_of_registers {ticket : Ticket} {handle : HandleId} {callback : Callback}
    {hooked : Bool}
    (done : machine.deed? = some (.accepts (.scheduler id) ticket handle callback hooked)) :
    ∃ name kept action, machine.world.schedulerNames.get? name = some id ∧
      machine.step = machine.schedule name kept action ∧
      machine.stage.accept? (.scheduler id) (.action action) =
        some (.accepts (.scheduler id) ticket handle callback hooked) := by
  cases doing_of_deed done with
  | starts control starting =>
    cases starting with
    | registers accepted scheduled =>
      obtain ⟨name, kept, action, rfl, named, executed⟩ := scheduled id rfl
      refine ⟨name, kept, action, named, ?_, accepted⟩
      rw [← executed]
      simp only [step, control]

/-- A registration with a scheduler calls the hook if the host is told of it, before its handle is
given out, and otherwise does not call it. -/
theorem step_of_registers {ticket : Ticket} {handle : HandleId} {callback : Callback}
    {hooked : Bool}
    (done : machine.deed? = some (.accepts (.scheduler id) ticket handle callback hooked)) :
    ∃ hosted name, machine.world.schedulers[id]? = some hosted ∧
      machine.step.log =
        (if hooked then [Event.woken hosted.name] else []) ++ machine.log ∧
      machine.step.stack =
        (if hooked then [Call.body hosted.wake] else []) ++ .registering handle name ::
          machine.stack ∧
      machine.step.control = .proceed := by
  obtain ⟨name, kept, action, named, stepped, accepted⟩ := schedule_of_registers done
  rw [stepped]
  cases found : machine.world.schedulers[id]? with
  | none => simp [Stage.accept?, stage, World.awaiting, found] at accepted
  | some hosted =>
    rw [Stage.accept?, awaiting_scheduler found] at accepted
    dsimp only at accepted
    split at accepted
    · cases accepted
    · next opened =>
      obtain ⟨-, -, rfl, -, told⟩ := Deed.accepts.inj (Option.some.inj accepted)
      have unclosed : hosted.core.queue.closed = none := by
        rw [Queue.isClosed_map] at opened
        exact Option.not_isSome_iff_eq_none.mp opened
      have notifies : hosted.core.notifies hosted.core.queue.pending.isEmpty = hooked := by
        rw [← told, Stage.hooks, phase?_scheduler found]
        rfl
      refine ⟨hosted, kept, rfl, ?_⟩
      simp only [schedule, onScheduler, named, found, Scheduler.schedule,
        Queue.register_eq_ok_iff.mpr ⟨unclosed, rfl⟩, notifies]
      cases hooked
      · exact ⟨rfl, rfl, rfl⟩
      · exact ⟨rfl, rfl, rfl⟩

/-- Nothing else calls the hook of a scheduler. -/
theorem wakes_of_woken {name : Name} (logged : machine.step.calls = .woken name :: machine.calls) :
    ∃ id hosted, machine.wakes id ∧ machine.world.schedulers[id]? = some hosted ∧
      hosted.name = name := by
  rcases machine.accounted with same | ⟨event, shows, shown⟩
  · rw [same] at logged
    exact absurd logged.symm (List.cons_ne_self _ _)
  · obtain rfl : event = .woken name := (List.cons.inj (shown.symm.trans logged)).1
    cases shows with
    | deed shown =>
      generalize done : machine.deed? = deed at shown
      cases shown with
      | @hook source ticket handle callback _ shown =>
        cases source with
        | queue => cases callback <;> cases shown
        | clock id =>
          cases callback with
          | action => cases shown
          | waiter =>
            obtain ⟨hosted, -, other⟩ := Option.map_eq_some_iff.mp shown
            cases other
        | scheduler id =>
          cases callback with
          | waiter => cases shown
          | action =>
            obtain ⟨hosted, found, same⟩ := Option.map_eq_some_iff.mp shown
            refine ⟨id, hosted, ?_, found, Event.woken.inj same⟩
            rw [wakes, done]
            exact Bool.and_eq_true_iff.mpr ⟨decide_eq_true rfl, rfl⟩
      | turn shown => cases shown

/-- What is sure of the hook of a scheduler that wakes its host when it stops being idle. -/
structure WakesOnce (passed : List Machine) (machine : Machine) (id : Nat) : Prop where
  /-- If somebody waits, there is a stretch in which somebody has been waiting without a gap. -/
  stretch : machine.stage.waiting id ≠ [] →
    ∃ before first since, passed = before ++ first :: since ∧ Stretch id first since machine
  /-- While somebody waits and no frame is in progress, the host has been woken once in that
  stretch. -/
  awake : machine.stage.inFrame id = false → ∀ before first since,
    passed = before ++ first :: since → Stretch id first since machine →
      (first :: since).countP (wakes id) = 1
  /-- Whatever is in progress, the host has been woken once in a stretch that began while the
  scheduler was idle, and not in one that began during a frame. -/
  once : ∀ before first since, passed = before ++ first :: since → Stretch id first since machine →
    (first :: since).countP (wakes id) = if first.stage.inFrame id then 0 else 1
  /-- The host has been woken as often as a registration that was accepted has found the scheduler
  idle with nobody waiting. -/
  total : passed.countP (wakes id) = passed.countP fun middle =>
    middle.registers id && (middle.stage.waiting id).isEmpty && !middle.stage.inFrame id
  /-- To wake the host is to call the hook, at once and before the handle is given out; a
  registration that does not wake the host does not call it. -/
  hook : ∀ middle ∈ passed, ∀ ticket handle callback hooked,
    middle.deed? = some (.accepts (.scheduler id) ticket handle callback hooked) →
      ∃ hosted name, middle.world.schedulers[id]? = some hosted ∧
        middle.step.log =
          (if hooked then [Event.woken hosted.name] else []) ++ middle.log ∧
        middle.step.stack =
          (if hooked then [Call.body hosted.wake] else []) ++ .registering handle name ::
            middle.stack ∧
        middle.step.control = .proceed
  /-- Nothing else calls a hook. -/
  only : ∀ middle ∈ passed, ∀ name, middle.step.calls = .woken name :: middle.calls →
    ∃ id hosted, middle.wakes id ∧ middle.world.schedulers[id]? = some hosted ∧
      hosted.name = name

/-- In every course, the hook of a scheduler that wakes its host when it stops being idle is called
once for each stretch of waiting that began while it was idle, and never else. -/
theorem wakes_once_per_stretch (course : Course passed machine) (id : Nat)
    (idles : machine.stage.policy? id = some .idleTransition) : WakesOnce passed machine id := by
  constructor
  case stretch => exact course.stretch
  case awake =>
    rintro idle before first since rfl stretch
    obtain ⟨count, began⟩ := course.wakes_stretch idles stretch
    rw [count, began idle]
    rfl
  case once =>
    rintro before first since rfl stretch
    exact (course.wakes_stretch idles stretch).1
  case total =>
    refine List.countP_congr fun middle member => ?_
    obtain ⟨before, later, rfl⟩ := List.append_of_mem member
    rw [course.wakes_eq idles]
  case hook =>
    intro middle _ ticket handle callback hooked done
    exact step_of_registers done
  case only =>
    intro middle _ name logged
    exact wakes_of_woken logged

/-- One action comes to wait while the scheduler is idle, a frame begins, and another one comes. -/
def waitsIntoFrame : Machine :=
  let body : Body :=
    [.scheduler (.create "s" {} []), .scheduler (.schedulePlain "s" "a" none []),
      .scheduler (.startFrame "s"), .scheduler (.schedulePlain "s" "b" none [])]
  start { scripts := ⟨[("main", body)]⟩ } none (.call "main")

theorem wakes_once_per_stretch_into_frame :
    (advanced 18 waitsIntoFrame).stage.policy? 0 = some .idleTransition ∧
      (advanced 18 waitsIntoFrame).stage.waiting 0 = [0, 1] ∧
      WakesOnce (trail 18 waitsIntoFrame) (advanced 18 waitsIntoFrame) 0 := by
  have course : Course (trail 18 waitsIntoFrame) (advanced 18 waitsIntoFrame) :=
    ⟨_, _, _, goes_trail 18 waitsIntoFrame⟩
  have idles : (advanced 18 waitsIntoFrame).stage.policy? 0 = some .idleTransition := by
    with_unfolding_all rfl
  exact ⟨idles, by with_unfolding_all rfl, wakes_once_per_stretch course 0 idles⟩

end Machine

end LiveTree.Session
