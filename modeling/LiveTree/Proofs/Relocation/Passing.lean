import LiveTree.Proofs.Relocation.Stocktaking
import LiveTree.Proofs.Session.Cancelling
import LiveTree.Proofs.Session.Delivering

/-! Passes of a session, from the command that ends one to its outcome. The matching of the deferred
requests, the making of new content and the delivery of notifications follow each other over the
same calls, and whatever runs on top of them, in user code that makes content or in observers, can
neither take the pass away nor change it. -/
namespace LiveTree.Session.Machine

open Lifecycle (ObjectId Dispatcher Drain)
open Relocation (Departure Filling Pass)

variable {machine after last : Machine} {base : List Call} {during : List Machine}
  {first call : PassCall} {pool : Pool}

/-- A command starts that ends the pass of a pool. -/
def StartsPass (machine : Machine) (call : PassCall) (pool : Pool) : Prop :=
  ∃ name, machine.control =
      .execute (.pool (.endPass name call.insertions call.label call.described)) ∧
    machine.poolAt? name = some (call.pool, pool) ∧ call.number = pool.passNumber

/-- A pass ends over some calls: its notifications have been delivered, or a panic leaves it. -/
def EndsPass (machine : Machine) (base : List Call) : Prop :=
  machine.EndsDelivery base ∨ ∃ call pass request objects reason,
    machine.stack = .inserting call pass request objects :: base ∧ machine.control = .unwind reason

/-- Whether a pass ends here, over whichever calls. -/
def endsPass (machine : Machine) : Bool :=
  machine.endsDelivery || match machine.control, machine.stack with
  | .unwind _, .inserting _ _ _ _ :: _ => true
  | _, _ => false

/-- No pass ends on the way, if that can be told from every machine by itself. -/
theorem not_endsPass_of_all (none : (during.all fun middle => !middle.endsPass) = true) :
    ∀ middle ∈ during, ¬ middle.EndsPass base := by
  intro middle member ends
  have quiet := List.all_eq_true.mp none middle member
  obtain ends | ⟨call, pass, request, objects, reason, stack, panics⟩ := ends
  · simp [endsPass, ends.endsDelivery] at quiet
  · simp [endsPass, stack, panics] at quiet

/-- The same pass, with the insertions that are left. -/
structure Continues (first call : PassCall) : Prop where
  pool : call.pool = first.pool
  number : call.number = first.number
  filling : call.filling = first.filling

/-- A pass over some calls still matches requests or makes content for one. -/
def Matches (base : List Call) (machine : Machine) : Prop :=
  ∃ call pass, Over (.matching call pass :: base) machine ∨
    ∃ request objects, Over (.inserting call pass request objects :: base) machine

/-- How far a pass has come that is being ended. -/
inductive InPass (first : PassCall) (pool : Pool) (base : List Call) :
    List Machine → Machine → Prop
  | matching {during : List Machine} {machine : Machine} {call : PassCall}
      {pass : Pass String Int} {handedOut : List (Departure String Int)}
      (same : Continues first call) (stack : machine.stack = .matching call pass :: base)
      (proceeds : machine.control = .proceed)
      (advances : pool.endPass.Advances first.filling handedOut pass)
      (silent : ∀ turn ∈ during, turn.Matches base) : InPass first pool base during machine
  | inserting {during : List Machine} {machine : Machine} {call : PassCall}
      {previous pass : Pass String Int} {request : Relocation.Request Int} {objects : List Name}
      {handedOut : List (Departure String Int)} (same : Continues first call)
      (fills : first.filling = .inserts)
      (above : Over (.inserting call pass request objects :: base) machine)
      (advances : pool.endPass.Advances .inserts handedOut previous)
      (step : previous.step = .unmatched request pass)
      (silent : ∀ turn ∈ during, turn.Matches base) :
      InPass first pool base during machine
  | closing {before running : List Machine} {machine : Machine} {call : PassCall}
      {pass : Pass String Int} {drain : Drain} {handedOut : List (Departure String Int)}
      (same : Continues first call) (advances : pool.endPass.Advances first.filling handedOut pass)
      (complete : pass.step = .settled) (silent : ∀ turn ∈ before, turn.Matches base)
      (delivery : InDelivery
        (.pass call pass.disposeDepartures (pass.pool.leftovers.map (·.handle)))
        pass.disposeDepartures.pool.dispatcher base running machine drain) :
      InPass first pool base (before ++ running) machine

theorem StartsPass.executes (starts : machine.StartsPass call pool) :
    ∃ command, machine.control = .execute command := by
  obtain ⟨name, control, -⟩ := starts
  exact ⟨_, control⟩

/-- The pass begins with the matching of all that was deferred. -/
theorem StartsPass.step_eq (starts : machine.StartsPass call pool) :
    machine.step = (((machine.setPool call.pool none).enter (.pass call.number)).push
      (.matching call pool.endPass)).proceed := by
  obtain ⟨name, control, present, number⟩ := starts
  rw [step_of_execute control]
  change machine.onPool name _ = _
  rcases machine.onPool_cases name _ with ⟨absent, -⟩ | ⟨_, _, found, -, works⟩
  · rw [absent] at present
    cases present
  · rw [works]
    cases found.symm.trans present
    obtain ⟨_, _, _, _, _⟩ := call
    cases number
    rfl

theorem stack_enter (machine : Machine) (span : Span) :
    (machine.enter span).stack = machine.stack := by
  unfold enter
  split <;> rfl

theorem attempts_append (base : List Call) (before later : List Machine) :
    attempts base (before ++ later) = attempts base before ++ attempts base later :=
  List.filterMap_append

/-- Where something else than a delivery stands over some calls, no attempt is made there. -/
private theorem attempt?_of_over {call : Call} (other : ∀ owner drain, call ≠ .draining owner drain)
    (above : Over (call :: base) machine) : machine.attempt? base = none := by
  by_contra made
  obtain ⟨attempt, made⟩ := Option.ne_none_iff_exists'.mp made
  obtain ⟨owner, drain, _, calls, atDelivery, low, -⟩ := exists_atDelivery made
  have stack : machine.stack = call :: base := by
    refine above.stack_eq_of_length (Nat.le_of_eq ?_)
    rw [atDelivery.stack, List.length_cons, low]
  rw [atDelivery.stack] at stack
  exact other owner drain (List.cons.inj stack).1.symm

/-- While a pass matches requests, it makes no attempt. -/
theorem attempts_of_matches (silent : ∀ turn ∈ during, turn.Matches base) :
    attempts base during = [] := by
  refine List.filterMap_eq_nil_iff.mpr fun turn member => ?_
  obtain ⟨call, pass, above | ⟨request, objects, above⟩⟩ := silent turn member
  · exact attempt?_of_over (by simp) above
  · exact attempt?_of_over (by simp) above

private theorem matches_concat (silent : ∀ turn ∈ during, turn.Matches base)
    (latest : last.Matches base) : ∀ turn ∈ during ++ [last], turn.Matches base := by
  intro turn member
  rcases List.mem_append.mp member with former | same
  · exact silent turn former
  · rwa [List.mem_singleton.mp same]

namespace InPass

/-- The matching goes on by itself. -/
private theorem continues {call : PassCall} {pass : Pass String Int}
    {handedOut : List (Departure String Int)} (same : Continues first call)
    (stack : last.stack = .matching call pass :: base) (proceeds : last.control = .proceed)
    (advances : pool.endPass.Advances first.filling handedOut pass)
    (silent : ∀ turn ∈ during, turn.Matches base) :
    InPass first pool base (during ++ [last]) last.step := by
  have still := matches_concat silent ⟨call, pass, .inl (Over.of_stack stack)⟩
  have stepped := step_of_proceed proceeds stack
  cases going : pass.step with
  | matched request claimed later =>
    obtain ⟨departure, front, own, -⟩ := Pass.Advances.first_of_matched going
    subst own
    have became : last.step = ((last.become (.matching call later)).diagnose
        departure.entry.claim).proceed := by
      simp only [stepped, resume, continueMatching, going]
    refine .matching same ?_ ?_ (advances.matches_next going front) still
    · rw [became]
      exact (stack_diagnose _ _).trans (by simp [become, stack])
    · rw [became, proceed]
  | unmatched request later =>
    cases kept : call.insertions with
    | none =>
      have returns : first.filling = .handsBack := by
        rw [← same.filling, PassCall.filling, kept]
      have became : last.step =
          (last.become (.matching call (later.handBack request))).proceed := by
        simp only [stepped, resume, continueMatching, going, kept]
      refine .matching same ?_ ?_ (advances.handsBack_next returns going) still
      · rw [became]
        simp [become, proceed, stack]
      · rw [became, proceed]
    | some insertions =>
      have fills : first.filling = .inserts := by
        rw [← same.filling, PassCall.filling, kept]
      let rest : PassCall := { call with insertions := some insertions.tail }
      let insertion : Insertion Body := insertions.head?.getD ⟨[], []⟩
      have became : last.step = (last.become
          (.inserting rest later request insertion.objects)).callBack (.inserting request)
            insertion.body := by
        simp only [stepped, resume, continueMatching, going, kept]
        rfl
      rw [fills] at advances
      have above : Over (.inserting rest later request insertion.objects :: base) last.step := by
        have stays : (last.become (.inserting rest later request insertion.objects)).stack =
            .inserting rest later request insertion.objects :: base := by simp [become, stack]
        rw [became]
        exact ⟨[.body insertion.body], congrArg _ stays.symm⟩
      have onward : Continues first rest := ⟨same.pool, same.number, fills.symm⟩
      exact .inserting onward fills above advances going still
  | settled =>
    let closing : DrainOwner :=
      .pass call pass.disposeDepartures (pass.pool.leftovers.map (·.handle))
    have became : last.step = ((last.diagnoseDisposal pass.pool).become
        (.draining closing pass.disposeDepartures.pool.dispatcher.drain)).proceed := by
      simp only [stepped, resume, continueMatching, going]
      rfl
    have held : (last.diagnoseDisposal pass.pool).stack = .matching call pass :: base :=
      (last.stack_diagnoseAll (pass.pool.leftovers.map Relocation.Entry.disposal)).trans stack
    have closes : InDelivery closing pass.disposeDepartures.pool.dispatcher base [] last.step
        pass.disposeDepartures.pool.dispatcher.drain := by
      refine .begins ?_ ?_
      · rw [became]
        simp only [proceed, become, held, List.tail_cons]
      · rw [became, proceed]
    have inPass := InPass.closing same advances going still closes
    rwa [List.append_nil] at inPass

/-- A pass goes on with every move until it ends. -/
private theorem move (inPass : InPass first pool base during last) (move : last.Move after)
    (lasts : ¬ last.EndsPass base) : InPass first pool base (during ++ [last]) after := by
  cases inPass with
  | matching same stack proceeds advances silent =>
    have own : after = last.step := by
      cases move with
      | step => rfl
      | reconsider innermost _ free =>
        rw [stack] at innermost
        cases innermost
        cases free
      | command finished =>
        rw [outcome?_of_stack stack] at finished
        cases finished
    rw [own]
    exact continues same stack proceeds advances silent
  | @inserting _ _ call previous pass request objects handedOut same fills above advances step
      silent =>
    have still := matches_concat silent ⟨call, pass, .inr ⟨request, objects, above⟩⟩
    rcases move.atop above with above | ⟨stack, proceeds | ⟨reason, panics⟩⟩
    · exact .inserting same fills above advances step still
    · cases move with
      | step =>
        let ids := (last.world.resolveObjects objects).1
        let handle := "new" ++ toString request.ticket
        let next : Call := .matching call (pass.insert request handle ids)
        have filled := advances.inserts_next rfl step handle ids
        have held : (last.withWorld (last.world.resolveObjects objects).2).stack =
            .inserting call pass request objects :: base := stack
        rw [← fills] at filled
        have stays : ((last.withWorld (last.world.resolveObjects objects).2).become next).stack =
            next :: base := by simp [become, held]
        rw [step_of_proceed proceeds stack]
        exact .matching same ((stack_diagnose _ _).trans stays) rfl filled still
      | @reconsider _ other rest innermost _ free =>
        rw [stack] at innermost
        cases innermost
        cases free with
        | inserting _ _ _ _ other =>
          have above : Over (.inserting call pass request other :: base)
            { last with stack := .inserting call pass request other :: base } := List.suffix_rfl
          exact .inserting same fills above advances step still
      | command finished =>
        rw [outcome?_of_stack stack] at finished
        cases finished
    · exact absurd (.inr ⟨call, pass, request, objects, reason, stack, panics⟩) lasts
  | closing same advances complete silent delivery =>
    obtain ⟨drain, goesOn⟩ := delivery.move move fun ends => lasts (.inl ends)
    rw [List.append_assoc]
    exact .closing same advances complete silent goesOn

end InPass

/-- A pass that begins is in progress until it ends. -/
theorem Goes.inPass {beginning : Machine} (starts : beginning.StartsPass first pool)
    (goes : beginning.step.Goes during machine)
    (lasts : ∀ middle ∈ during, ¬ middle.EndsPass beginning.stack) :
    InPass first pool beginning.stack during machine := by
  induction goes with
  | stays =>
    refine .matching ⟨rfl, rfl, rfl⟩ ?_ ?_ (.refl _) (List.forall_mem_nil _)
    · rw [starts.step_eq]
      exact congrArg _ ((beginning.setPool first.pool none).stack_enter (.pass first.number))
    · rw [starts.step_eq, proceed]
  | moves goes move ih =>
    have inPass := ih fun middle member => lasts middle (List.mem_append_left _ member)
    exact inPass.move move (lasts _ List.mem_concat_self)

end LiveTree.Session.Machine
