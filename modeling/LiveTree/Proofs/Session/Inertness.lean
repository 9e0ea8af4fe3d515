import Mathlib.Data.List.Forall2
import LiveTree.Proofs.Session.Course
import LiveTree.Proofs.Session.MutedSteps

/-! Two runs between which diagnostics are switched. In both the same is done, but in one somebody
listens and in the other nobody does, or some schedulers warn of panics in one run and keep silent
in the other. Step by step the machines stay side by side: they are the same once they are muted.
So whatever is switched is heard in diagnostics and nowhere else, but for the text of a scheduler,
which shows its policy. -/
namespace LiveTree.Session

open LiveTree.Frame

/-- The same answer, or the texts of two schedulers that are the same but for failure policies. -/
inductive Answer.Agrees : Answer → Answer → Prop
  | same (answer : Answer) : Agrees answer answer
  | described {one other : Scheduler Action} (alike : other.muted = one.muted) :
      Agrees (.text one.describe) (.text other.describe)

/-- The same event, or answers that agree. -/
inductive Event.Agrees : Event → Event → Prop
  | same (event : Event) : Agrees event event
  | answered {one other : Answer} (agrees : one.Agrees other) :
      Agrees (.answered one) (.answered other)

/-- The same is done next, but for failure policies of schedulers that are created. -/
inductive Control.Agrees : Control → Control → Prop
  | same {one other : Control} (alike : other.muted = one.muted) : Agrees one other
  | answer {one other : Answer} (agrees : one.Agrees other) : Agrees (.answer one) (.answer other)

private theorem Answer.Agrees.symm {one other : Answer} (agrees : one.Agrees other) :
    other.Agrees one := by
  cases agrees with
  | same => exact .same _
  | described alike => exact .described alike.symm

private theorem Event.Agrees.symm {one other : Event} (agrees : one.Agrees other) :
    other.Agrees one := by
  cases agrees with
  | same => exact .same _
  | answered agrees => exact .answered agrees.symm

private theorem Control.Agrees.symm {one other : Control} (agrees : one.Agrees other) :
    other.Agrees one := by
  cases agrees with
  | same alike => exact .same alike.symm
  | answer agrees => exact .answer agrees.symm

/-! ### Muted calls -/

/-- Whether a call is a body, to which answers are given. -/
def Call.isBody : Call → Bool
  | body _ => true
  | _ => false

private theorem Call.isBody_muted (call : Call) : call.muted.isBody = call.isBody := by
  cases call <;> rfl

private theorem Call.eq_body_of_muted {call : Call} {rest : Body}
    (alike : call.muted = .body rest) : ∃ own, call = .body own := by
  cases call with
  | body own => exact ⟨own, rfl⟩
  | _ => cases alike

private theorem Call.eq_inserting_of_muted {call : Call} {pass : PassCall}
    {settled : Relocation.Pass String Int} {request : Relocation.Request Int}
    {objects : List Name} (alike : call.muted = .inserting pass settled request objects) :
    ∃ own, own.muted = pass ∧ call = .inserting own settled request objects := by
  cases call with
  | inserting own =>
    cases alike
    exact ⟨own, rfl, rfl⟩
  | _ => cases alike

/-- User code that is the same when muted can decide alike. -/
private theorem Call.Reconsiders.alike {call decided other : Call} (free : call.Reconsiders decided)
    (alike : other.muted = call.muted) :
    ∃ later, other.Reconsiders later ∧ later.muted = decided.muted := by
  cases free with
  | body rest later =>
    obtain ⟨own, rfl⟩ := Call.eq_body_of_muted alike
    exact ⟨_, .body own later, rfl⟩
  | inserting pass settled request objects later =>
    obtain ⟨own, same, rfl⟩ := Call.eq_inserting_of_muted alike
    exact ⟨_, .inserting own settled request objects later, by rw [muted, muted, same]⟩

private theorem Control.eq_of_muted {control other : Control} (alike : other.muted = control.muted)
    (quiet : ∀ command, control ≠ .execute command) : other = control := by
  cases control with
  | execute command => exact absurd rfl (quiet command)
  | _ =>
    cases other with
    | execute => cases alike
    | _ => exact alike

private theorem Command.showsPolicy_muted (command : Command) :
    command.muted.ShowsPolicy ↔ command.ShowsPolicy := by
  cases command with
  | scheduler command => cases command <;> rfl
  | _ => rfl

private theorem Command.eq_describe_of_muted {command : Command} {name : Name}
    (alike : command.muted = .scheduler (.describe name)) :
    command = .scheduler (.describe name) := by
  cases command with
  | scheduler command =>
    cases command with
    | describe => exact alike
    | _ => cases alike
  | _ => cases alike

private theorem Control.eq_execute_of_muted {control : Control} {command : Command}
    (alike : control.muted = .execute command) :
    ∃ own, own.muted = command ∧ control = .execute own := by
  cases control with
  | execute own =>
    cases alike
    exact ⟨own, rfl, rfl⟩
  | _ => cases alike

namespace Machine

variable {switch : Switch} {machine other after later : Machine}

/-- Two machines that are the same once they are muted, after logs that agree in what has nothing
to do with what is switched. -/
structure Beside (switch : Switch) (machine other : Machine) : Prop where
  world : other.world.muted = machine.world.muted
  listener : switch.listener other.listener = switch.listener machine.listener
  stack : other.stack.map Call.muted = machine.stack.map Call.muted
  control : machine.control.Agrees other.control
  log : List.Forall₂ Event.Agrees (switch.kept machine.log) (switch.kept other.log)

private theorem Beside.symm (beside : Beside switch machine other) :
    Beside switch other machine where
  world := beside.world.symm
  listener := beside.listener.symm
  stack := beside.stack.symm
  control := beside.control.symm
  log := (beside.log.imp fun _ _ agrees => agrees.symm).flip

/-- The innermost calls are the same once they are muted. -/
private theorem Beside.innermost {call : Call} {calls : List Call}
    (beside : Beside switch machine other) (stack : machine.stack = call :: calls) :
    ∃ own owned, other.stack = own :: owned ∧ own.muted = call.muted ∧
      owned.map Call.muted = calls.map Call.muted := by
  have same := beside.stack
  rw [stack, List.map_cons] at same
  obtain ⟨own, owned, split, alike, rest⟩ := List.map_eq_cons_iff.mp same
  exact ⟨own, owned, split, alike, rest⟩

private theorem Beside.stack_eq_nil (beside : Beside switch machine other)
    (stack : machine.stack = []) : other.stack = [] := by
  have same := beside.stack
  rw [stack, List.map_nil] at same
  exact List.map_eq_nil_iff.mp same

/-! ### Steps -/

/-- Muted, a step from an empty log and the events before it are the step. -/
private theorem muted_step_bare (switch : Switch)
    (hides : ∀ command, machine.control = .execute command → ¬ command.ShowsPolicy) :
    machine.step.muted switch [] =
      ({ machine with log := [] } : Machine).step.muted switch (switch.kept machine.log) := by
  let bare : Machine := { machine with log := [] }
  have same : bare.muted switch (switch.kept machine.log) = machine.muted switch [] := by
    simp [bare, muted, Switch.kept]
  have bareHides : ∀ command, bare.control = .execute command → ¬ command.ShowsPolicy := hides
  calc machine.step.muted switch []
    _ = (machine.muted switch []).step := (muted_step hides).symm
    _ = (bare.muted switch (switch.kept machine.log)).step := by rw [same]
    _ = bare.step.muted switch (switch.kept machine.log) := muted_step bareHides

/-- The events that a step logs, apart from what is switched. -/
def news (switch : Switch) (machine : Machine) : List Event :=
  switch.kept ({ machine with log := [] } : Machine).step.log

private theorem kept_log_step
    (hides : ∀ command, machine.control = .execute command → ¬ command.ShowsPolicy) :
    switch.kept machine.step.log = machine.news switch ++ switch.kept machine.log := by
  have same := congrArg Machine.log (muted_step_bare switch hides)
  simpa [muted, news] using same

/-- What is about to be done by both machines is the same step, once it is muted. -/
private theorem Beside.step_of_alike (beside : Beside switch machine other)
    (alike : other.control.muted = machine.control.muted)
    (hides : ∀ command, machine.control = .execute command → ¬ command.ShowsPolicy) :
    Beside switch machine.step other.step := by
  have otherHides : ∀ command, other.control = .execute command → ¬ command.ShowsPolicy := by
    intro command control shows
    rw [control] at alike
    obtain ⟨own, same, executed⟩ := Control.eq_execute_of_muted alike.symm
    refine hides own executed ?_
    rwa [← own.showsPolicy_muted, same, command.showsPolicy_muted]
  let bare : Machine := { machine with log := [] }
  let bareOther : Machine := { other with log := [] }
  have same : bareOther.muted switch [] = bare.muted switch [] := by
    simp only [bare, bareOther, muted, beside.world, beside.listener, beside.stack, alike]
  have bareHides : ∀ command, bare.control = .execute command → ¬ command.ShowsPolicy := hides
  have otherBareHides : ∀ command, bareOther.control = .execute command → ¬ command.ShowsPolicy :=
    otherHides
  have steps : bareOther.step.muted switch [] = bare.step.muted switch [] :=
    calc bareOther.step.muted switch []
      _ = (bareOther.muted switch []).step := (muted_step otherBareHides).symm
      _ = (bare.muted switch []).step := by rw [same]
      _ = bare.step.muted switch [] := muted_step bareHides
  have first := muted_step_bare switch hides
  have second := muted_step_bare switch otherHides
  have told : other.news switch = machine.news switch := by
    simpa [muted, news] using congrArg Machine.log steps
  have agree {α : Type} (seen : Machine → α)
      (deaf : ∀ (one : Machine) (earlier : List Event),
        seen (one.muted switch earlier) = seen (one.muted switch [])) :
      seen (other.step.muted switch []) = seen (machine.step.muted switch []) := by
    rw [first, second, deaf bare.step, deaf bareOther.step, steps]
  refine ⟨agree Machine.world fun _ _ => rfl, agree Machine.listener fun _ _ => rfl,
    agree Machine.stack fun _ _ => rfl, .same (agree Machine.control fun _ _ => rfl), ?_⟩
  rw [kept_log_step hides, kept_log_step otherHides, told]
  exact List.rel_append (List.forall₂_same.mpr fun event _ => .same event) beside.log

private theorem Beside.reply {one two : Answer} (beside : Beside switch machine other)
    (agrees : one.Agrees two) : Beside switch (machine.reply one) (other.reply two) :=
  ⟨beside.world, beside.listener, beside.stack, .answer agrees, beside.log⟩

/-- The text of a scheduler is all that shows its policy. -/
private theorem Beside.step_of_describe {name : Name} (beside : Beside switch machine other)
    (control : machine.control = .execute (.scheduler (.describe name)))
    (otherControl : other.control = .execute (.scheduler (.describe name))) :
    Beside switch machine.step other.step := by
  have named : other.world.schedulerNames = machine.world.schedulerNames := by
    have same := congrArg World.schedulerNames beside.world
    exact same
  have found (id : Nat) : (other.world.schedulers[id]?).map HostedScheduler.muted =
      (machine.world.schedulers[id]?).map .muted := by
    have same := congrArg (fun world : World => world.schedulers[id]?) beside.world
    simpa only [World.muted, Array.getElem?_map] using same
  rw [step_of_execute control, step_of_execute otherControl]
  simp only [execute, executeScheduler, onScheduler, named]
  cases machine.world.schedulerNames.get? name with
  | none => exact beside.reply (.same _)
  | some id =>
    have here := found id
    dsimp only
    cases one : machine.world.schedulers[id]? with
    | none =>
      rw [one, Option.map_none, Option.map_eq_none_iff] at here
      rw [here]
      exact beside.reply (.same _)
    | some hosted =>
      rw [one, Option.map_some, Option.map_eq_some_iff] at here
      obtain ⟨otherHosted, two, alike⟩ := here
      rw [two]
      exact beside.reply (.described (congrArg HostedScheduler.core alike))

private theorem step_of_answer {answer : Answer} {call : Call} {calls : List Call}
    (control : machine.control = .answer answer) (stack : machine.stack = call :: calls) :
    machine.step =
      if call.isBody then (machine.report (.answered answer)).proceed else machine.proceed := by
  simp only [step, control, stack]
  cases call <;> rfl

private theorem Beside.step_of_answers {one two : Answer} (beside : Beside switch machine other)
    (agrees : one.Agrees two) (control : machine.control = .answer one)
    (otherControl : other.control = .answer two) : Beside switch machine.step other.step := by
  cases stack : machine.stack with
  | nil =>
    have first : machine.step = machine := by simp only [step, control, stack]
    have second : other.step = other := by simp only [step, otherControl, beside.stack_eq_nil stack]
    rwa [first, second]
  | cons call calls =>
    obtain ⟨own, owned, otherStack, alike, -⟩ := beside.innermost stack
    have body : own.isBody = call.isBody := by rw [← own.isBody_muted, alike, call.isBody_muted]
    rw [step_of_answer control stack, step_of_answer otherControl otherStack, body]
    split
    · refine ⟨beside.world, beside.listener, beside.stack, .same rfl, ?_⟩
      have kept (answer : Answer) : switch.keeps (.answered answer) := rfl
      simp only [proceed, report, Switch.kept, List.filter_cons_of_pos (kept _)]
      exact .cons (.answered agrees) beside.log
    · exact ⟨beside.world, beside.listener, beside.stack, .same rfl, beside.log⟩

/-- Machines that are side by side stay side by side in a step. -/
private theorem Beside.step (beside : Beside switch machine other) :
    Beside switch machine.step other.step := by
  by_cases shown : ∃ name, machine.control = .execute (.scheduler (.describe name))
  · obtain ⟨name, control⟩ := shown
    refine beside.step_of_describe control ?_
    have agrees := beside.control
    rw [control] at agrees
    generalize other.control = next at agrees ⊢
    cases agrees with
    | same alike =>
      obtain ⟨own, same, rfl⟩ := Control.eq_execute_of_muted alike
      rw [Command.eq_describe_of_muted same]
  · have hides : ∀ command, machine.control = .execute command → ¬ command.ShowsPolicy := by
      intro command control shows
      cases command with
      | scheduler command =>
        cases command with
        | describe name => exact shown ⟨name, control⟩
        | _ => exact shows
      | _ => exact shows
    have agrees := beside.control
    generalize control : machine.control = first at agrees
    generalize otherControl : other.control = second at agrees
    cases agrees with
    | same alike =>
      rw [← control, ← otherControl] at alike
      exact beside.step_of_alike alike hides
    | answer agrees => exact beside.step_of_answers agrees control otherControl

/-! ### Runs -/

/-- A move of two machines. They step together; and where user code decides what it does, it decides
the same in both, but for failure policies. -/
inductive Moves (machine other : Machine) : Machine → Machine → Prop
  | step : Moves machine other machine.step other.step
  | reconsider {call decided own ownDecided : Call} {calls owned : List Call}
      (innermost : machine.stack = call :: calls) (proceeds : machine.control = .proceed)
      (free : call.Reconsiders decided) (otherInnermost : other.stack = own :: owned)
      (otherProceeds : other.control = .proceed) (otherFree : own.Reconsiders ownDecided)
      (alike : ownDecided.muted = decided.muted) :
      Moves machine other { machine with stack := decided :: calls }
        { other with stack := ownDecided :: owned }
  | command {answer otherAnswer : Answer} (done : machine.outcome? = some answer)
      (otherDone : other.outcome? = some otherAnswer) {command otherCommand : Command}
      (alike : otherCommand.muted = command.muted) :
      Moves machine other (start machine.world machine.listener command)
        (start other.world other.listener otherCommand)

private theorem Moves.first (moves : Moves machine other after later) : machine.Move after := by
  cases moves with
  | step => exact .step
  | reconsider innermost proceeds free => exact .reconsider innermost proceeds free
  | command done => exact .command done _

private theorem Moves.symm (moves : Moves machine other after later) :
    Moves other machine later after := by
  cases moves with
  | step => exact .step
  | reconsider innermost proceeds free otherInnermost otherProceeds otherFree alike =>
    exact .reconsider otherInnermost otherProceeds otherFree innermost proceeds free alike.symm
  | command done otherDone alike => exact .command otherDone done alike.symm

/-- Machines that are side by side stay side by side in a move. -/
private theorem Beside.moves (beside : Beside switch machine other)
    (moves : Moves machine other after later) : Beside switch after later := by
  cases moves with
  | step => exact beside.step
  | reconsider innermost _ _ otherInnermost _ _ alike =>
    obtain ⟨own, owned, stack, -, rest⟩ := beside.innermost innermost
    obtain ⟨-, rfl⟩ := List.cons.inj (otherInnermost.symm.trans stack)
    exact ⟨beside.world, beside.listener, congrArg₂ List.cons alike rest, beside.control,
      beside.log⟩
  | command _ _ alike =>
    exact ⟨beside.world, beside.listener, rfl, .same (congrArg Control.execute alike), .nil⟩

private theorem Beside.outcome? (beside : Beside switch machine other) :
    Option.Rel Answer.Agrees machine.outcome? other.outcome? := by
  have agrees := beside.control
  unfold Machine.outcome?
  cases stack : machine.stack with
  | nil =>
    rw [beside.stack_eq_nil stack]
    generalize machine.control = first at agrees ⊢
    generalize other.control = second at agrees ⊢
    cases agrees with
    | answer agrees => exact .some agrees
    | same alike =>
      cases first with
      | execute =>
        obtain ⟨own, -, rfl⟩ := Control.eq_execute_of_muted alike
        exact .none
      | _ =>
        rw [Control.eq_of_muted alike nofun]
        exact .some (.same _)
  | cons call calls =>
    obtain ⟨own, owned, otherStack, -⟩ := beside.innermost stack
    rw [otherStack]
    exact .none

private theorem Beside.proceeds (beside : Beside switch machine other)
    (proceeds : machine.control = .proceed) : other.control = .proceed := by
  have agrees := beside.control
  rw [proceeds] at agrees
  generalize other.control = second at agrees ⊢
  cases agrees with
  | same alike => exact Control.eq_of_muted alike nofun

/-- What the first machine does the second one can do too. -/
private theorem Beside.follows (beside : Beside switch machine other) (move : machine.Move after) :
    ∃ later, Moves machine other after later := by
  cases move with
  | step => exact ⟨_, .step⟩
  | reconsider innermost proceeds free =>
    obtain ⟨own, owned, stack, alike, -⟩ := beside.innermost innermost
    obtain ⟨decided, otherFree, same⟩ := free.alike alike
    exact ⟨_, .reconsider innermost proceeds free stack (beside.proceeds proceeds) otherFree same⟩
  | command done command =>
    have outcomes := beside.outcome?
    rw [done] at outcomes
    generalize otherDone : other.outcome? = outcome at outcomes
    cases outcomes with
    | some agrees => exact ⟨_, .command done otherDone rfl⟩

/-- Two runs side by side, with the machines that they pass. They start in the same way, but for
what is switched: who listens, or the failure policies alone. -/
inductive Paired (switch : Switch) : List (Machine × Machine) → Machine → Machine → Prop
  | starts {scripts otherScripts : Names Body} {listener otherListener : Option Severity}
      {command otherCommand : Command}
      (sameScripts : otherScripts.map mutedBody = scripts.map mutedBody)
      (sameListener : switch.listener otherListener = switch.listener listener)
      (sameCommand : otherCommand.muted = command.muted) :
      Paired switch [] (start { scripts } listener command)
        (start { scripts := otherScripts } otherListener otherCommand)
  | moves {pairs : List (Machine × Machine)} {machine other after later : Machine}
      (paired : Paired switch pairs machine other) (moves : Moves machine other after later) :
      Paired switch (pairs ++ [(machine, other)]) after later

variable {pairs : List (Machine × Machine)}

private theorem Paired.beside (paired : Paired switch pairs machine other) :
    Beside switch machine other := by
  induction paired with
  | @starts scripts otherScripts _ _ _ _ sameScripts sameListener sameCommand =>
    refine ⟨?_, sameListener, rfl, .same (congrArg Control.execute sameCommand), .nil⟩
    exact congrArg (fun scripts => { ({} : World).muted with scripts }) sameScripts
  | moves _ moves ih => exact ih.moves moves

private theorem Paired.symm (paired : Paired switch pairs machine other) :
    Paired switch (pairs.map Prod.swap) other machine := by
  induction paired with
  | starts sameScripts sameListener sameCommand =>
    exact .starts sameScripts.symm sameListener.symm sameCommand.symm
  | moves _ moves ih =>
    rw [List.map_append]
    exact .moves ih moves.symm

private theorem Paired.course (paired : Paired switch pairs machine other) :
    Course (pairs.map Prod.fst) machine := by
  induction paired with
  | @starts scripts _ listener _ command => exact ⟨scripts, listener, command, .stays⟩
  | moves _ moves ih =>
    rw [List.map_append]
    exact ih.then (.moves .stays moves.first)

/-- What is sure of two runs between which only diagnostics are switched. -/
structure Inert (switch : Switch) (pairs : List (Machine × Machine)) (machine other : Machine) :
    Prop where
  /-- Both are courses that a session can take. -/
  courses : Course (pairs.map Prod.fst) machine ∧ Course (pairs.map Prod.snd) other
  /-- No move of one run is kept from the other one, so neither ends or hangs before the other. -/
  follows : ∀ after, machine.Move after → ∃ later, Moves machine other after later
  leads : ∀ later, other.Move later → ∃ after, Moves machine other after later
  /-- The same is called back and answered, in the same order and with the same arguments; only
  the texts of schedulers show their policies. If the policies alone are switched, all diagnostics
  are the same too, but for the warnings of panics at the end of a frame. -/
  events : List.Forall₂ Event.Agrees (switch.kept machine.log) (switch.kept other.log)
  /-- If the outermost command of one run is done, so is that of the other, with the same answer. -/
  outcome : Option.Rel Answer.Agrees machine.outcome? other.outcome?
  /-- No view of a component is different. -/
  views : ∀ components, other.world.views components = machine.world.views components
  /-- The components are the same, but for failure policies. -/
  world : other.world.muted = machine.world.muted
  /-- What is in progress is the same, but for failure policies. -/
  stack : other.stack.map Call.muted = machine.stack.map Call.muted
  control : machine.control.Agrees other.control

/-- Diagnostics are inert: whoever listens, and whatever the failure policies are, the same
happens. -/
theorem diagnostics_are_inert (paired : Paired switch pairs machine other) :
    Inert switch pairs machine other := by
  have beside := paired.beside
  constructor
  case courses =>
    have second := paired.symm.course
    rw [List.map_map] at second
    exact ⟨paired.course, second⟩
  case follows => exact fun after move => beside.follows move
  case leads =>
    intro later move
    obtain ⟨after, moves⟩ := beside.symm.follows move
    exact ⟨after, moves.symm⟩
  case events => exact beside.log
  case outcome => exact beside.outcome?
  case views =>
    intro components
    rw [← other.world.views_muted, beside.world, machine.world.views_muted]
  case world => exact beside.world
  case stack => exact beside.stack
  case control => exact beside.control

private theorem Paired.advance (paired : Paired switch pairs machine other) (steps : Nat) :
    Paired switch (pairs ++ (trail steps machine).zip (trail steps other)) (advanced steps machine)
      (advanced steps other) := by
  induction steps generalizing pairs machine other with
  | zero => rwa [trail, trail, List.zip_nil_left, List.append_nil]
  | succ steps ih =>
    have next := ih (paired.moves .step)
    rwa [List.append_assoc] at next

/-- A callback of a queue creates a scheduler with some policy, and completes a frame in which an
action panics. -/
def panicsAtEndOfFrame (policy : Settings.FailurePolicy) (listener : Option Severity) : Machine :=
  let callback : Body :=
    [.scheduler (.create "s" { failurePolicy := policy } []),
      .scheduler (.schedulePlain "s" "a" none [.panic (.message "boom")]),
      .scheduler (.completeFrame "s"), .scheduler (.describe "s")]
  let body : Body :=
    [.queue (.create "q"), .queue (.register "q" "w" none callback [] []), .queue (.flush "q")]
  start { scripts := ⟨[("main", body)]⟩ } listener (.call "main")

theorem diagnostics_are_inert_at_panic :
    (∃ pairs, Inert .listening pairs
      (advanced 37 (panicsAtEndOfFrame .logAndContinue (some .trace)))
      (advanced 37 (panicsAtEndOfFrame .silent none))) ∧
    (∃ pairs, Inert .policies pairs
      (advanced 37 (panicsAtEndOfFrame .logAndContinue (some .trace)))
      (advanced 37 (panicsAtEndOfFrame .silent (some .trace)))) ∧
    (advanced 37 (panicsAtEndOfFrame .logAndContinue (some .trace))).log.length = 15 ∧
    (advanced 37 (panicsAtEndOfFrame .silent (some .trace))).log.length = 14 ∧
    (advanced 37 (panicsAtEndOfFrame .silent none)).log.length = 11 := by
  have listening : Paired .listening [] (panicsAtEndOfFrame .logAndContinue (some .trace))
      (panicsAtEndOfFrame .silent none) := .starts rfl rfl rfl
  have policies : Paired .policies [] (panicsAtEndOfFrame .logAndContinue (some .trace))
      (panicsAtEndOfFrame .silent (some .trace)) := .starts rfl rfl rfl
  exact ⟨⟨_, diagnostics_are_inert (listening.advance 37)⟩,
    ⟨_, diagnostics_are_inert (policies.advance 37)⟩, by with_unfolding_all rfl,
    by with_unfolding_all rfl, by with_unfolding_all rfl⟩

end Machine

end LiveTree.Session
