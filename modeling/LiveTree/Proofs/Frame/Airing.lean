import LiveTree.Proofs.Session.Bystanders
import LiveTree.Proofs.Session.Course

/-! What is on the air. Each call of a clock in progress broadcasts one tick: the time it was sent
with, or the reason for which the clock is closed. What callbacks are told comes from there; and
what a call broadcasts stays the same until the call is over, whatever begins and ends inside it. -/
namespace LiveTree.Session

open Awaiting LiveTree.Frame

namespace Machine

variable {machine after : Machine} {id other : Nat} {hosted : HostedClock}

/-- What the calls of a clock in progress broadcast, the innermost first. -/
def airing (id : Nat) (machine : Machine) : List Tick :=
  (machine.world.clocks[id]?).elim [] fun hosted => hosted.core.awaiters.running.map Batch.purpose

private theorem airing_of_clocks_eq (same : after.world.clocks = machine.world.clocks) (id : Nat) :
    after.airing id = machine.airing id := by
  rw [airing, same, airing]

theorem airing_of_clock (found : machine.world.clocks[id]? = some hosted) :
    machine.airing id = hosted.core.awaiters.running.map Batch.purpose := by
  rw [airing, found, Option.elim_some]

private theorem airing_setClock (found : machine.world.clocks[other]? = some hosted)
    (core : Clock Waiter) :
    (machine.setClock other core).airing id =
      if id = other then core.awaiters.running.map Batch.purpose else machine.airing id := by
  simp only [airing, setClock, withWorld, Array.getElem?_modify]
  by_cases same : id = other
  · subst same
    simp [found]
  · simp [same, Ne.symm same]

/-- What the stage shows of the ticks on the air. -/
private theorem map_airing (machine : Machine) (id : Nat) :
    (machine.airing id).map Tick.delivery =
      (machine.stage.awaiting (.clock id)).elim [] fun queue =>
        queue.running.map Batch.purpose := by
  simp only [airing, stage, World.awaiting]
  cases machine.world.clocks[id]? with
  | none => rfl
  | some hosted => simp [Queue.map, Batch.map, Function.comp_def]

/-- As many ticks are on the air as calls are in progress. -/
theorem length_airing (attended : machine.stage.Attended) (id : Nat) :
    (machine.airing id).length = machine.stage.serving.count (.clock id) := by
  have shown := congrArg List.length (map_airing machine id)
  rw [List.length_map] at shown
  rw [shown, ← attended (.clock id)]
  cases machine.stage.awaiting (.clock id) <;> simp

/-- What a step may do to what is on the air: put a tick on the air that is sent, or one that tells
of the closing, or take the innermost one off. -/
inductive Airs (machine : Machine) (id : Nat) : List Tick → Prop
  | stays : Airs machine id (machine.airing id)
  | ends {tick : Tick} {outer : List Tick} (front : machine.airing id = tick :: outer) :
      Airs machine id outer
  | sends {name : Name} {time : Nat}
      (control : machine.control = .execute (.clock (.send name time))) :
      Airs machine id (.frame time :: machine.airing id)
  | closes {name : Name} {reason : String} {queue : CallbackQueue}
      (control : machine.control = .execute (.clock (.close name reason)))
      (found : machine.stage.awaiting (.clock id) = some queue) :
      Airs machine id (.closed (queue.closed.getD ⟨reason⟩) :: machine.airing id)

private theorem Airs.of_eq {ticks : List Tick} (same : ticks = machine.airing id) :
    machine.Airs id ticks := same ▸ .stays

/-- Where one clock changes, only the calls of that clock can begin or end. -/
private theorem Airs.setClock (found : machine.world.clocks[other]? = some hosted)
    {core : Clock Waiter} (same : after.world.clocks = (machine.setClock other core).world.clocks)
    (own : machine.Airs other (core.awaiters.running.map Batch.purpose)) :
    machine.Airs id (after.airing id) := by
  rw [airing_of_clocks_eq same, airing_setClock found]
  split
  · next here =>
    subst here
    exact own
  · exact .stays

/-! ### What leaves the air alone -/

private theorem airing_diagnose (machine : Machine) (diagnostic : Diagnostic) :
    (machine.diagnose diagnostic).airing id = machine.airing id :=
  airing_of_clocks_eq (congrArg World.clocks (world_diagnose machine diagnostic)) id

private theorem airing_schedule (name : Name) (handle : Option Name) (action : Action) :
    (machine.schedule name handle action).airing id = machine.airing id := by
  refine onScheduler_eq rfl fun _ hosted => ?_
  split
  · rfl
  · dsimp only
    split <;> rfl

private theorem airing_executeScheduler (command : SchedulerCommand Body) :
    (machine.executeScheduler command).airing id = machine.airing id := by
  cases command with
  | create => rfl
  | schedulePlain | scheduleInformed => exact airing_schedule ..
  | share | describe | startFrame | close => exact onScheduler_eq rfl fun _ _ => rfl
  | completeFrame =>
    refine onScheduler_eq rfl fun _ hosted => ?_
    split
    · rfl
    · simp only [enter]
      split <;> rfl

private theorem airing_continueScheduler (scheduler : Nat) :
    (machine.continueScheduler scheduler).airing id = machine.airing id := by
  have logged (machine : Machine) (diagnostics : List Diagnostic) :
      (machine.diagnoseAll diagnostics).airing id = machine.airing id := by
    unfold diagnoseAll
    induction diagnostics generalizing machine with
    | nil => rfl
    | cons diagnostic diagnostics ih => rw [List.foldl_cons, ih, airing_diagnose]
  have left (machine : Machine) (span : Span) :
      (machine.leave span).airing id = machine.airing id := by
    unfold leave
    split <;> rfl
  unfold continueScheduler
  cases machine.world.schedulers[scheduler]? with
  | none => rfl
  | some hosted =>
    dsimp only
    split
    · unfold deliver
      split <;> split <;> rfl
    · next report core _ =>
      exact (left _ _).trans (logged (machine.setScheduler scheduler core) _)
    · next served core _ => exact airing_diagnose (machine.setScheduler scheduler core) _
    · rfl

private theorem airing_catchInScheduler (scheduler : Nat) (reason : Panic) :
    (machine.catchInScheduler scheduler reason).airing id = machine.airing id := by
  unfold catchInScheduler
  split
  · rfl
  · next hosted _ =>
    unfold diagnoseRefusedAction
    split
    · rfl
    · split
      · exact airing_diagnose (machine.setScheduler scheduler _) _
      · rfl

private theorem airing_cancel (handle : HandleId) :
    (machine.cancel handle).airing id = machine.airing id := by
  unfold cancel act
  dsimp only
  split
  · rfl
  · rfl
  · next source ticket _ =>
    cases source with
    | queue | scheduler => rfl
    | clock other =>
      simp only [airing, proceed, withWorld, World.withdraw, Array.getElem?_modify]
      by_cases same : other = id
      · subst same
        cases machine.world.clocks[other]? with
        | none => simp
        | some hosted => simp [Queue.running_withdraw]
      · simp [same]

private theorem airing_executeHandle (command : HandleCommand Body) :
    (machine.executeHandle command).airing id = machine.airing id := by
  have done := machine.handled command
  generalize machine.executeHandle command = after at done ⊢
  cases done with
  | cancels | replaces | releases => exact airing_cancel _
  | _ => rfl

/-! ### What changes it -/

private theorem airs_executeClock {command : ClockCommand Body}
    (control : machine.control = .execute (.clock command)) :
    machine.Airs id ((machine.executeClock command).airing id) := by
  cases command with
  | create name wake =>
    refine .of_eq ?_
    simp only [executeClock, nameClock, reply, withWorld, airing, Array.getElem?_push]
    split
    · next same =>
      subst same
      simp
    · rfl
  | share | describe => exact .of_eq (onClock_eq rfl fun _ _ => rfl)
  | register name item handle ticked refused =>
    simp only [executeClock, onClock]
    split
    · exact .stays
    · split
      · exact .stays
      · next other _ hosted found =>
        have own := airing_of_clock found
        split
        · exact .stays
        · next registration accepted =>
          obtain ⟨-, rfl⟩ := Queue.register_eq_ok_iff.mp accepted
          split <;> exact .setClock found rfl (.of_eq own.symm)
  | send name time =>
    simp only [executeClock, onClock]
    split
    · exact .stays
    · split
      · exact .stays
      · next other _ hosted found =>
        have own := airing_of_clock found
        exact .setClock found rfl (by
          simpa [Clock.send, Queue.flush, ← own] using Airs.sends control)
  | close name reason =>
    simp only [executeClock, onClock]
    split
    · exact .stays
    · split
      · exact .stays
      · next other _ hosted found =>
        have own := airing_of_clock found
        have seen := awaiting_clock found
        exact .setClock found rfl (by
          simpa [Clock.close, Queue.close, Queue.flush, ← own] using Airs.closes control seen)

private theorem airs_continueClock (other : Nat) :
    machine.Airs id ((machine.continueClock other).airing id) := by
  unfold continueClock
  cases found : machine.world.clocks[other]? with
  | none => exact .stays
  | some hosted =>
    have own := airing_of_clock found
    simp only [Clock.turn]
    cases running : hosted.core.awaiters.running with
    | nil =>
      simp only [Queue.turn, running]
      exact .stays
    | cons batch outer =>
      rw [running, List.map_cons] at own
      rcases Queue.turn_cases running with
        ⟨skipped, ticket, item, rest, -, -, -, -, turn⟩ | ⟨-, -, turn⟩
      · rw [turn]
        dsimp only
        have same : machine.Airs other
            ((hosted.core.awaiters.handOver ticket batch rest outer).running.map Batch.purpose) :=
          .of_eq own.symm
        cases batch.purpose <;> exact .setClock found rfl same
      · rw [turn]
        let popped : Clock Waiter := ⟨{ hosted.core.awaiters with running := outer }⟩
        have same : machine.Airs other (popped.awaiters.running.map Batch.purpose) := .ends own
        cases batch.purpose <;>
          exact .setClock found (congrArg World.clocks (world_diagnose ..)) same

private theorem airs_unwindClock (other : Nat) :
    machine.Airs id ((machine.unwindClock other).airing id) := by
  unfold unwindClock
  cases found : machine.world.clocks[other]? with
  | none => exact .stays
  | some hosted =>
    have own := airing_of_clock found
    refine .setClock found rfl ?_
    cases running : hosted.core.awaiters.running with
    | nil =>
      rw [running] at own
      simp only [Clock.abandon, Queue.abandon, running]
      exact .of_eq own.symm
    | cons batch outer =>
      rw [running, List.map_cons] at own
      simp only [Clock.abandon, Queue.abandon, running]
      exact .ends own

/-- What is on the air changes in these ways only. -/
private theorem airs_step (machine : Machine) (id : Nat) :
    machine.Airs id (machine.step.airing id) := by
  by_cases bystands : machine.Bystands
  · exact .of_eq (airing_of_clocks_eq (clocks_step bystands) id)
  · rcases machine with ⟨world, listener, log, stack, control⟩
    cases control with
    | execute command =>
      cases command with
      | inspect => exact .stays
      | scheduler => exact .of_eq (airing_executeScheduler _)
      | clock => exact airs_executeClock rfl
      | handle => exact .of_eq (airing_executeHandle _)
      | _ => exact absurd trivial bystands
    | answer => cases stack <;> exact absurd trivial bystands
    | proceed =>
      cases stack with
      | nil => exact absurd trivial bystands
      | cons call calls =>
        cases call with
        | scheduler => exact .of_eq (airing_continueScheduler _)
        | clock => exact airs_continueClock _
        | _ => exact absurd trivial bystands
    | unwind reason =>
      cases stack with
      | nil => exact absurd trivial bystands
      | cons call calls =>
        cases call with
        | scheduler => exact .of_eq (airing_catchInScheduler _ _)
        | clock => exact airs_unwindClock _
        | _ => exact absurd trivial bystands

private theorem Move.airs (move : machine.Move after) (id : Nat) :
    machine.Airs id (after.airing id) := by
  cases move with
  | step => exact airs_step machine id
  | reconsider | command => exact .stays

/-! ### The tick of a call -/

/-- A call of a clock begins by a command to send a frame or to close the clock, and puts what the
command tells on the air. -/
theorem airing_of_begins {delivery : Delivery} (attended : machine.stage.Attended)
    (began : machine.deed? = some (.begins (.clock id) delivery)) :
    ∃ tick, machine.step.airing id = tick :: machine.airing id ∧ tick.delivery = delivery ∧
      ((∃ name time, machine.control = .execute (.clock (.send name time)) ∧ tick = .frame time) ∨
        ∃ name reason queue, machine.control = .execute (.clock (.close name reason)) ∧
          machine.stage.awaiting (.clock id) = some queue ∧
          tick = .closed (queue.closed.getD ⟨reason⟩)) := by
  have step := stage_step attended
  rw [began] at step
  have shown := map_airing machine.step id
  have former := map_airing machine id
  have grown : (machine.step.airing id).map Tick.delivery =
      delivery :: (machine.airing id).map Tick.delivery := by
    obtain ⟨queue, found⟩ := step.exists_of_begins
    obtain ⟨changed, present, change⟩ := step.change found
    rw [shown, former, found, present]
    cases change with
    | stays foreign => exact absurd rfl (foreign _ rfl)
    | flushes | closes => rfl
  have longer := congrArg List.length grown
  have airs := airs_step machine id
  generalize machine.step.airing id = ticks at grown longer airs ⊢
  cases airs with
  | stays => simp at longer
  | ends front =>
    rw [front] at longer
    simp at longer
    omega
  | sends control => exact ⟨_, rfl, (List.cons.inj grown).1, .inl ⟨_, _, control, rfl⟩⟩
  | closes control found =>
    exact ⟨_, rfl, (List.cons.inj grown).1, .inr ⟨_, _, _, control, found, rfl⟩⟩

/-- While a call is in progress, its tick stays on the air. -/
private theorem Airs.suffix {tick : Tick} {outer ticks : List Tick} (airs : machine.Airs id ticks)
    (suffix : tick :: outer <:+ machine.airing id) (longer : outer.length < ticks.length) :
    tick :: outer <:+ ticks := by
  cases airs with
  | stays => exact suffix
  | sends | closes => exact suffix.trans (List.suffix_cons ..)
  | ends front =>
    rw [front] at suffix
    rcases List.suffix_cons_iff.mp suffix with whole | inner
    · obtain ⟨-, rfl⟩ := List.cons.inj whole
      exact absurd longer (Nat.lt_irrefl _)
    · exact inner

/-- As long as a call is in progress, what it put on the air is there. -/
theorem Course.airing_suffix {earlier later : List Machine} {ending : Machine} {tick : Tick}
    (course : Course (earlier ++ ending :: later) machine)
    (began : ending.step.airing id = tick :: ending.airing id)
    (done : ending.deed?.isSome)
    (within : ∀ middle ∈ later ++ [machine],
      .clock id :: ending.stage.serving <:+ middle.stage.serving) :
    tick :: ending.airing id <:+ machine.airing id := by
  have depth := length_airing course.before.life.attended id
  induction later using List.reverseRecOn generalizing machine with
  | nil =>
    obtain ⟨-, move⟩ := course.latest
    obtain ⟨deed, some⟩ := Option.isSome_iff_exists.mp done
    have same : tick :: ending.airing id = machine.airing id := by rw [move.eq_step some, began]
    exact same ▸ List.suffix_rfl
  | append_singleton later last ih =>
    rw [← List.cons_append, ← List.append_assoc] at course
    obtain ⟨early, move⟩ := course.latest
    have suffix := ih early fun middle member => within middle (List.mem_append_left _ member)
    have inside := within machine (List.mem_append_right _ List.mem_cons_self)
    refine (move.airs id).suffix suffix ?_
    rw [depth, length_airing course.life.attended]
    have sublist := inside.sublist.count_le (.clock id)
    rw [List.count_cons_self] at sublist
    omega

end Machine

end LiveTree.Session
