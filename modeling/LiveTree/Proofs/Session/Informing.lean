import LiveTree.Proofs.Lifecycle.Retirements
import LiveTree.Proofs.Session.Delivering

/-! Calls that do nothing but inform objects: deliveries of notifications, deliveries of
retirements, the giving up of a pool, where one follows the other, and the end of a pass for which
no request waits. What such a call has still to attempt is known from the call. So at every moment
what it has attempted and what is still due make up what was due when it began, whatever the
observers do that it calls back; and it comes to its end if they come back to it. -/
namespace LiveTree.Session

open Lifecycle (ObjectId Dispatcher Drain Retirement)

/-- What follows a delivery of notifications in the same call. -/
def DrainOwner.afterwards (owner : DrainOwner) (dispatcher : Dispatcher) :
    List (ObjectId × Lifecycle.State) :=
  match owner with
  | .discardedPool => dispatcher.retiring.map (·, .retired)
  | _ => []

/-- What is known to become of a call when it has informed everybody. -/
inductive Closing where
  /-- It returns and says nothing. -/
  | returns
  /-- It gives back a pool after its pass. -/
  | passes (id : Nat) (pool : Pool)
  /-- It answers a command. -/
  | answers

namespace Call

/-- What a call that informs objects has still to attempt. -/
def due : Call → List (ObjectId × Lifecycle.State)
  | matching _ pass => pass.disposeDepartures.pool.dispatcher.notices
  | draining owner drain => drain.left ++ owner.afterwards drain.dispatcher
  | retiring delivery _ => delivery.rest.map (·, .retired)
  | _ => []

/-- The attempt that such a call makes when it gets control. -/
def next? : Call → Option (ObjectId × Lifecycle.State)
  | draining _ drain =>
    match drain.step with
    | .attempt object target _ => some (object, target)
    | _ => none
  | retiring delivery _ => delivery.rest.head?.map (·, .retired)
  | _ => none

/-- More than the number of times that such a call is still to get control. -/
def rounds (call : Call) : Nat :=
  call.due.length + match call with
    | matching _ _ => 4
    | draining _ drain => drain.phase.listsLeft + 1
    | _ => 0

def closing : Call → Closing
  | matching call pass => .passes call.pool
    { pass.disposeDepartures.closedPool with
      dispatcher := pass.disposeDepartures.pool.dispatcher.drained }
  | draining (.pass call pass _) drain =>
    .passes call.pool { pass.closedPool with dispatcher := drain.dispatcher.drained }
  | draining .discardedPool _ => .returns
  | retiring _ false => .returns
  | _ => .answers

/-- A call that does nothing but inform objects. -/
inductive Informs : Call → Prop
  | matching {call : PassCall} {pass : Relocation.Pass String Int} (none : pass.requests = []) :
      Informs (.matching call pass)
  | draining {owner : DrainOwner} {drain : Drain} (begun : drain.Begun) :
      Informs (.draining owner drain)
  | retiring {delivery : Retirement} {counted : Bool} : Informs (.retiring delivery counted)

/-- Such a call has informed everybody and ends when it gets control. -/
inductive Done : Call → Prop
  | draining {owner : DrainOwner} {drain : Drain} (kept : owner ≠ .discardedPool)
      (finished : drain.step = .finished) : Done (.draining owner drain)
  | retiring {retired : Nat} {counted : Bool} : Done (.retiring ⟨[], retired⟩ counted)

/-- What becomes of such a call when it gets control and is not done: it is one attempt or one list
further. -/
structure GoesOn (call next : Call) : Prop where
  informs : next.Informs
  due : call.due = call.next?.toList ++ next.due
  fewer : next.rounds < call.rounds
  closing : next.closing = call.closing

variable {call next : Call} {owner : DrainOwner} {drain later : Drain} {object : ObjectId}
  {target : Lifecycle.State} {rest : List ObjectId}

private theorem Done.due_eq_nil (done : call.Done) : call.due = [] := by
  cases done with
  | @draining owner drain kept finished =>
    rw [due, Drain.left_of_finished finished]
    cases owner with
    | discardedPool => exact absurd rfl kept
    | _ => rfl
  | retiring => rfl

namespace GoesOn

/-- A pass without requests disposes what is left over and informs the objects. -/
private theorem settles (passCall : PassCall) (pass : Relocation.Pass String Int)
    (disposed : List String) :
    (matching passCall pass).GoesOn (draining (.pass passCall pass.disposeDepartures disposed)
      pass.disposeDepartures.pool.dispatcher.drain) where
  informs := .draining (.start _)
  due := (List.append_nil _).symm
  fewer := by
    have same : (draining (.pass passCall pass.disposeDepartures disposed)
        pass.disposeDepartures.pool.dispatcher.drain).due =
          (matching passCall pass).due := List.append_nil _
    have lists : pass.disposeDepartures.pool.dispatcher.drain.phase.listsLeft = 2 := rfl
    simp only [rounds, same, lists]
    omega
  closing := rfl

/-- An attempt takes its notice off, whatever becomes of it. -/
private theorem attempts (owner : DrainOwner) (begun : drain.Begun)
    (step : drain.step = .attempt object target later) (report : Lifecycle.Report) :
    (draining owner drain).GoesOn (draining owner { later with report }) := by
  have left := Drain.left_of_attempt step
  obtain ⟨rest, -, -, same⟩ := Drain.step_eq_attempt_iff.mp step
  have kept : later.dispatcher = drain.dispatcher := by rw [same]
  have phase : later.phase = drain.phase := by rw [same]
  have due : (draining owner drain).due =
      (object, target) :: (draining owner { later with report }).due := by
    change drain.left ++ owner.afterwards drain.dispatcher =
      (object, target) :: (later.left ++ owner.afterwards later.dispatcher)
    rw [left, kept, List.cons_append]
  constructor
  case informs =>
    obtain ⟨exits, retentions, entries⟩ := begun.attempt step
    exact .draining ⟨exits, retentions, entries⟩
  case due =>
    rw [due, next?, step]
    rfl
  case fewer =>
    simp only [rounds, due, phase, List.length_cons]
    omega
  case closing =>
    cases owner <;> simp only [Call.closing, kept]

private theorem nextList (owner : DrainOwner) (begun : drain.Begun)
    (step : drain.step = .nextList later) :
    (draining owner drain).GoesOn (draining owner later) := by
  have left := Drain.left_of_nextList step
  have onward := begun.nextList step
  obtain ⟨phase, -, next, same⟩ := Drain.step_eq_nextList_iff.mp step
  have retiring : later.dispatcher.retiring = drain.dispatcher.retiring := by
    rw [same]
    cases phase <;> rfl
  have lists : phase.listsLeft < drain.phase.listsLeft := by
    cases begun : drain.phase <;> rw [begun] at next <;> cases next <;> decide
  have fewer : later.phase.listsLeft < drain.phase.listsLeft := by rwa [same]
  have due : (draining owner later).due = (draining owner drain).due := by
    rw [Call.due, Call.due, left]
    cases owner <;> simp only [DrainOwner.afterwards, retiring]
  constructor
  case informs => exact .draining onward
  case due =>
    rw [due, next?, step]
    rfl
  case fewer =>
    simp only [rounds, due]
    omega
  case closing =>
    cases owner <;> simp only [Call.closing, Dispatcher.drained, retiring]

/-- When the notifications of a pool that is given up are delivered, its retirements are. -/
private theorem retires (finished : drain.step = .finished) :
    (draining .discardedPool drain).GoesOn (retiring ⟨drain.dispatcher.retiring, 0⟩ false) := by
  have due : (draining .discardedPool drain).due =
      (retiring ⟨drain.dispatcher.retiring, 0⟩ false).due := by
    rw [Call.due, Drain.left_of_finished finished]
    rfl
  constructor
  case informs => exact .retiring
  case due =>
    rw [due, next?, finished]
    rfl
  case fewer =>
    simp only [rounds, due]
    omega
  case closing => rfl

/-- One retirement is attempted. -/
private theorem retired (retired told : Nat) (counted : Bool) :
    (retiring ⟨object :: rest, retired⟩ counted).GoesOn (retiring ⟨rest, told⟩ counted) where
  informs := .retiring
  due := rfl
  fewer := by simp [rounds, Call.due]
  closing := by cases counted <;> rfl

end GoesOn

end Call

namespace Machine

variable {machine after last first : Machine} {call : Call} {base : List Call}
  {during : List Machine} {notices : List (ObjectId × Lifecycle.State)} {closing : Closing}
  {attempt : Lifecycle.Attempt}

/-- The attempt that the call over some calls makes in the next step, if it informs objects. -/
def informs? (base : List Call) (machine : Machine) : Option Lifecycle.Attempt :=
  match machine.control, machine.stack with
  | .proceed, call :: calls =>
    if calls.length = base.length then
      call.next?.map fun notice => ⟨notice.1, machine.world.objects.state notice.1, notice.2⟩
    else none
  | _, _ => none

/-- The attempts of a call over some calls, in order. -/
def informed (base : List Call) (during : List Machine) : List Lifecycle.Attempt :=
  during.filterMap (informs? base)

/-- A call over some calls ends that informs objects: all are informed, or a panic leaves it. -/
def EndsInforming (machine : Machine) (base : List Call) : Prop :=
  ∃ call : Call, machine.stack = call :: base ∧
    (machine.control = .proceed ∧ call.Done ∨
      call.Informs ∧ ∃ reason, machine.control = .unwind reason)

/-- Whether a call that informs objects ends here, over whichever calls. -/
def endsInforming (machine : Machine) : Bool :=
  match machine.control, machine.stack with
  | .proceed, .draining .discardedPool _ :: _ => false
  | .proceed, .draining _ drain :: _ => drain.rest.isEmpty && drain.phase == .entries
  | .proceed, .retiring delivery _ :: _ => delivery.rest.isEmpty
  | .unwind _, _ => true
  | _, _ => false

/-- A call in progress that informs objects: what it has attempted and what is still due are what
was due when it began. -/
structure Informing (notices : List (ObjectId × Lifecycle.State)) (closing : Closing)
    (base : List Call) (during : List Machine) (machine : Machine) (call : Call) : Prop where
  above : Over (call :: base) machine
  informs : call.Informs
  whole : (informed base during).map Lifecycle.Attempt.notice ++ call.due = notices
  closes : call.closing = closing

/-- No such call ends on the way, if that can be told from every machine by itself. -/
theorem not_endsInforming_of_all
    (none : (during.all fun middle => !middle.endsInforming) = true) :
    ∀ middle ∈ during, ¬ middle.EndsInforming base := by
  intro middle member ends
  have quiet := List.all_eq_true.mp none middle member
  obtain ⟨call, stack, ⟨proceeds, done⟩ | ⟨-, reason, panics⟩⟩ := ends
  · cases done with
    | @draining owner drain kept finished =>
      obtain ⟨rest, phase⟩ := Drain.step_eq_finished_iff.mp finished
      cases owner with
      | discardedPool => exact kept rfl
      | _ => simp [endsInforming, stack, proceeds, rest, phase] at quiet
    | retiring => simp [endsInforming, stack, proceeds] at quiet
  · simp [endsInforming, panics] at quiet

private theorem informed_concat (base : List Call) (during : List Machine) (last : Machine) :
    informed base (during ++ [last]) = informed base during ++ (last.informs? base).toList := by
  unfold informed
  cases informs : last.informs? base <;> simp [informs]

private theorem informs?_of_stack (stack : machine.stack = call :: base)
    (proceeds : machine.control = .proceed) :
    (machine.informs? base).map Lifecycle.Attempt.notice = call.next? := by
  simp only [informs?, stack, proceeds, if_true, Option.map_map]
  exact Option.map_id_fun' ▸ rfl

/-- Something over some calls makes an attempt only when it has control. -/
private theorem Over.proceeds_of_informs? (above : Over (call :: base) machine)
    (made : machine.informs? base = some attempt) :
    machine.stack = call :: base ∧ machine.control = .proceed := by
  unfold informs? at made
  split at made
  · next top calls proceeds stack =>
    split at made
    · next low =>
      refine ⟨above.stack_eq_of_length ?_, proceeds⟩
      rw [stack, List.length_cons, low]
    · cases made
  · cases made

/-- A call that informs objects and is not done goes on when it gets control. -/
private theorem exists_goesOn (stack : machine.stack = call :: base)
    (proceeds : machine.control = .proceed) (informs : call.Informs) (lasts : ¬ call.Done) :
    ∃ next, call.GoesOn next ∧ Over (next :: base) machine.step := by
  have stepped := step_of_proceed proceeds stack
  cases informs with
  | @matching passCall pass none =>
    have settled : pass.step = .settled := by
      unfold Relocation.Pass.step
      rw [none]
    refine ⟨_, .settles passCall pass (pass.pool.leftovers.map (·.handle)), .of_stack ?_⟩
    have held : (machine.diagnoseDisposal pass.pool).stack = .matching passCall pass :: base :=
      (machine.stack_diagnoseAll (pass.pool.leftovers.map Relocation.Entry.disposal)).trans stack
    rw [stepped]
    simp only [resume, continueMatching, settled, proceed, become, held, List.tail_cons]
  | @draining owner drain begun =>
    have atDelivery : machine.AtDelivery owner drain base := ⟨stack, proceeds⟩
    cases step : drain.step with
    | attempt object target later =>
      cases legal : (machine.world.objects.state object).canBecome target with
      | true => exact ⟨_, .attempts owner begun step _, atDelivery.step_of_allowed step legal⟩
      | false =>
        let illegal : Lifecycle.IllegalMove :=
          ⟨object.number, machine.world.objects.state object, target⟩
        refine ⟨.draining owner (later.refused illegal),
          .attempts owner begun step (later.report.refuse illegal), .of_stack ?_⟩
        rw [atDelivery.step_of_refused step legal]
        simp only [proceed, become, stack, List.tail_cons]
        rfl
    | nextList later =>
      refine ⟨_, .nextList owner begun step, .of_stack ?_⟩
      rw [atDelivery.step_of_nextList step]
      simp only [proceed, become, stack, List.tail_cons]
    | finished =>
      by_cases dropped : owner = .discardedPool
      · subst dropped
        refine ⟨_, .retires step, .of_stack ?_⟩
        have held := (machine.stack_diagnoseAll drain.report.diagnostics).trans stack
        rw [atDelivery.step_eq]
        simp only [continueDrain, step, finishDrain, discardBatch, push, proceed, pop, held,
          List.tail_cons]
        rfl
      · exact absurd (.draining dropped step) lasts
  | @retiring delivery counted =>
    obtain ⟨_ | ⟨object, rest⟩, retired⟩ := delivery
    · exact absurd .retiring lasts
    · cases legal : (machine.world.objects.state object).canBecome .retired with
      | true =>
        refine ⟨_, .retired retired (retired + 1) counted, ?_⟩
        rw [stepped]
        simp only [resume, continueRetirement, Retirement.next?, advance,
          Lifecycle.Registry.advance, legal, if_true]
        have told {moved : Machine} : Over moved.stack (moved.tellState object .retired) :=
          (Leads.start.tellState).atop.2 rfl
        refine List.IsSuffix.trans ?_ told
        simp [become, withWorld, stack, Retirement.delivered]
      | false =>
        refine ⟨_, .retired retired retired counted, .of_stack ?_⟩
        exact (skips_of_illegal proceeds stack rfl legal).stack

namespace Informing

theorem begins (stack : machine.stack = call :: base) (informs : call.Informs) :
    Informing call.due call.closing base [] machine call :=
  ⟨.of_stack stack, informs, rfl, rfl⟩

/-- While something else has control, nothing becomes of it. -/
private theorem idles (informing : Informing notices closing base during last call)
    (still : Over (call :: base) after)
    (elsewhere : ¬ (last.stack = call :: base ∧ last.control = .proceed)) :
    Informing notices closing base (during ++ [last]) after call := by
  have none : last.informs? base = none := by
    by_contra made
    obtain ⟨attempt, made⟩ := Option.ne_none_iff_exists'.mp made
    exact elsewhere (informing.above.proceeds_of_informs? made)
  refine ⟨still, informing.informs, ?_, informing.closes⟩
  rw [informed_concat, none]
  exact (congrArg (· ++ call.due) (congrArg _ (List.append_nil _))).trans informing.whole

private theorem goesOn (informing : Informing notices closing base during last call)
    (stack : last.stack = call :: base) (proceeds : last.control = .proceed)
    (lasts : ¬ call.Done) :
    ∃ next : Call, next.rounds < call.rounds ∧
      Informing notices closing base (during ++ [last]) last.step next := by
  obtain ⟨next, goesOn, above⟩ := exists_goesOn stack proceeds informing.informs lasts
  refine ⟨next, goesOn.fewer, above, goesOn.informs, ?_, goesOn.closing.trans informing.closes⟩
  have made : ((last.informs? base).toList).map Lifecycle.Attempt.notice = call.next?.toList := by
    rw [← informs?_of_stack stack proceeds]
    cases last.informs? base <;> rfl
  rw [informed_concat, List.map_append, made, List.append_assoc, ← goesOn.due]
  exact informing.whole

/-- Control is not given away to user code where such a call stands on top. -/
private theorem move_eq_step (informing : Informing notices closing base during last call)
    (stack : last.stack = call :: base) (move : last.Move after) : after = last.step := by
  cases move with
  | step => rfl
  | reconsider innermost _ free =>
    rw [stack] at innermost
    cases innermost
    cases free <;> cases informing.informs
  | command finished =>
    rw [outcome?_of_stack stack] at finished
    cases finished

/-- It goes on with every move until it ends. -/
private theorem move (informing : Informing notices closing base during last call)
    (move : last.Move after) (lasts : ¬ last.EndsInforming base) :
    ∃ next, Informing notices closing base (during ++ [last]) after next := by
  by_cases inControl : last.stack = call :: base ∧ last.control = .proceed
  · obtain ⟨stack, proceeds⟩ := inControl
    have unfinished : ¬ call.Done := fun done => lasts ⟨call, stack, .inl ⟨proceeds, done⟩⟩
    rw [informing.move_eq_step stack move]
    obtain ⟨next, -, later⟩ := informing.goesOn stack proceeds unfinished
    exact ⟨next, later⟩
  · rcases move.atop informing.above with still | ⟨stack, proceeds | panics⟩
    · exact ⟨call, informing.idles still inControl⟩
    · exact absurd ⟨stack, proceeds⟩ inControl
    · exact absurd ⟨call, stack, .inr ⟨informing.informs, panics⟩⟩ lasts

/-- What such a call has attempted so far is the first part of what was due. -/
theorem informed_prefix (informing : Informing notices closing base during machine call) :
    (informed base during).map Lifecycle.Attempt.notice <+: notices :=
  ⟨call.due, informing.whole⟩

/-- Unless a panic leaves it, such a call has attempted all that was due when it ends. -/
theorem ends (informing : Informing notices closing base during machine call)
    (ends : machine.EndsInforming base) (calm : ∀ reason, machine.control ≠ .unwind reason) :
    machine.stack = call :: base ∧ machine.control = .proceed ∧ call.Done ∧
      (informed base during).map Lifecycle.Attempt.notice = notices := by
  obtain ⟨other, stack, ⟨proceeds, done⟩ | ⟨-, reason, panics⟩⟩ := ends
  · have same : machine.stack = call :: base := by
      refine informing.above.stack_eq_of_length (Nat.le_of_eq ?_)
      rw [stack, List.length_cons]
    obtain ⟨rfl, -⟩ := List.cons.inj (stack.symm.trans same)
    have whole := informing.whole
    rw [done.due_eq_nil, List.append_nil] at whole
    exact ⟨stack, proceeds, done, whole⟩
  · exact absurd panics (calm reason)

end Informing

/-- A call that informs objects is in progress until it ends. -/
theorem Goes.informing (goes : first.Goes during machine) (stack : first.stack = call :: base)
    (informs : call.Informs) (lasts : ∀ middle ∈ during, ¬ middle.EndsInforming base) :
    ∃ next, Informing call.due call.closing base during machine next := by
  induction goes with
  | stays => exact ⟨call, .begins stack informs⟩
  | moves goes move ih =>
    obtain ⟨next, informing⟩ := ih fun middle member =>
      lasts middle (List.mem_append_left _ member)
    exact informing.move move (lasts _ List.mem_concat_self)

/-! ### Calls that come to their end -/

/-- The observers that a call over some calls calls back come back to it, without a panic. -/
structure ObserversReturn (first : Machine) (base : List Call) : Prop where
  comesBack : ∀ steps, (∀ middle ∈ trail steps first, ¬ middle.EndsInforming base) →
    ∃ more call, (advanced (steps + more) first).stack = call :: base ∧
      (advanced (steps + more) first).control = .proceed
  calm : ∀ steps, (∀ middle ∈ trail steps first, ¬ middle.EndsInforming base) →
    ∀ reason call, (advanced steps first).stack = call :: base →
      (advanced steps first).control ≠ .unwind reason

/-- A call that informs objects is in progress after a number of steps. -/
structure StillInforms (notices : List (ObjectId × Lifecycle.State)) (closing : Closing)
    (base : List Call) (first : Machine) (steps : Nat) (call : Call) : Prop where
  informing : Informing notices closing base (trail steps first) (advanced steps first) call
  lasts : ∀ middle ∈ trail steps first, ¬ middle.EndsInforming base

namespace StillInforms

variable {steps : Nat} {next : Call}

private theorem succ (still : StillInforms notices closing base first steps call)
    (later : Informing notices closing base (trail steps first ++ [advanced steps first])
      (advanced steps first).step next)
    (lasts : ¬ (advanced steps first).EndsInforming base) :
    StillInforms notices closing base first (steps + 1) next := by
  refine ⟨?_, forall_trail_succ still.lasts lasts⟩
  rw [trail_succ, advanced_succ]
  exact later

/-- It ends only when it is done. -/
private theorem done_of_ends (still : StillInforms notices closing base first steps call)
    (returns : ObserversReturn first base) (ends : (advanced steps first).EndsInforming base) :
    (advanced steps first).stack = call :: base ∧ (advanced steps first).control = .proceed ∧
      call.Done := by
  obtain ⟨other, stack, -⟩ := id ends
  have calm := fun reason => returns.calm steps still.lasts reason other stack
  obtain ⟨own, proceeds, done, -⟩ := still.informing.ends ends calm
  exact ⟨own, proceeds, done⟩

/-- Without control it lasts as it stands. -/
private theorem idles (still : StillInforms notices closing base first steps call)
    (returns : ObserversReturn first base)
    (elsewhere : ¬ ((advanced steps first).stack = call :: base ∧
      (advanced steps first).control = .proceed)) :
    StillInforms notices closing base first (steps + 1) call := by
  have lasts : ¬ (advanced steps first).EndsInforming base := by
    intro ends
    obtain ⟨stack, control, -⟩ := still.done_of_ends returns ends
    exact elsewhere ⟨stack, control⟩
  have stays : Over (call :: base) (advanced steps first).step := by
    rcases still.informing.above.step with stays | ⟨stack, control | ⟨reason, panics⟩⟩
    · exact stays
    · exact absurd ⟨stack, control⟩ elsewhere
    · exact absurd panics (returns.calm steps still.lasts reason call stack)
  exact still.succ (still.informing.idles stays elsewhere) lasts

/-- Control comes back to it, as it stands. -/
private theorem exists_inControl (still : StillInforms notices closing base first steps call)
    (returns : ObserversReturn first base) :
    ∃ later, StillInforms notices closing base first later call ∧
      (advanced later first).stack = call :: base ∧
      (advanced later first).control = .proceed := by
  have goesOn : ∀ now, StillInforms notices closing base first now call →
      (¬ ∃ other, (advanced now first).stack = other :: base ∧
        (advanced now first).control = .proceed) →
        StillInforms notices closing base first (now + 1) call := by
    intro now lasting away
    exact lasting.idles returns fun here => away ⟨call, here⟩
  obtain ⟨more, comes⟩ := returns.comesBack steps still.lasts
  obtain ⟨later, lasting, other, back, proceeds⟩ := exists_later goesOn still comes
  have low : (advanced later first).stack.length ≤ base.length + 1 :=
    Nat.le_of_eq (congrArg List.length back)
  exact ⟨later, lasting, lasting.informing.above.stack_eq_of_length low, proceeds⟩

/-- If its observers come back, a call that informs objects is done after some steps. -/
theorem exists_done (still : StillInforms notices closing base first steps call)
    (returns : ObserversReturn first base) :
    ∃ later, (∀ middle ∈ trail later first, ¬ middle.EndsInforming base) ∧
      (advanced later first).EndsInforming base ∧
      ∀ reason, (advanced later first).control ≠ .unwind reason := by
  induction left : call.rounds using Nat.strongRecOn generalizing call steps with
  | ind left ih =>
    obtain ⟨later, lasting, stack, proceeds⟩ := still.exists_inControl returns
    by_cases done : call.Done
    · refine ⟨later, lasting.lasts, ⟨call, stack, .inl ⟨proceeds, done⟩⟩, ?_⟩
      exact fun reason => returns.calm later lasting.lasts reason call stack
    · have lasts : ¬ (advanced later first).EndsInforming base := by
        intro ends
        exact done (lasting.done_of_ends returns ends).2.2
      obtain ⟨next, fewer, goesOn⟩ := lasting.informing.goesOn stack proceeds done
      exact ih next.rounds (left ▸ fewer) (lasting.succ goesOn lasts) rfl

end StillInforms

end Machine

end LiveTree.Session
