import LiveTree.Proofs.Relocation.Conservation
import LiveTree.Proofs.Relocation.Returning

/-! What the end of a pass disposes, and in which order. Nobody can tell how the waiting departures
are kept: those that no request took are disposed in the order of their reports, and all exits are
told in the reverse of that, before anything is retained or enters. The retirements are kept for
later. -/
namespace LiveTree.Relocation

open Lifecycle (ObjectId)
open scoped List

variable {η π : Type}

/-- The departures that were reported and that nobody got, in the order of the reports, when a pass
has handed some out. -/
def unclaimed (transfers : List (Transfer η π)) (handedOut : List (Departure η π)) :
    List (Departure η π) :=
  (reported transfers).filter fun departure =>
    departure.sequence ∉ (gone transfers ++ handedOut).map Departure.sequence

/-- The objects of some departures, in the structural order of each. -/
def objectsOf (departures : List (Departure η π)) : List ObjectId :=
  departures.flatMap (·.entry.objects)

/-- In whichever order the queues of an index are enumerated, what waits comes out the same when it
is put into the order of the reports. -/
theorem Departures.WellKept.eq_inReportOrder {departures : Departures η π} {bound : Nat}
    (kept : departures.WellKept bound) {queues : List (List (Departure η π))}
    {listed : List (Departure η π)} (enumerated : queues ~ departures.queues.values)
    (content : listed ~ queues.flatten)
    (sorted : listed.Pairwise fun first second => first.sequence ≤ second.sequence) :
    listed = departures.inReportOrder := by
  have whole : listed ~ departures.all := content.trans enumerated.flatten
  have ordered := whole.trans departures.inReportOrder_perm.symm
  refine List.Perm.eq_of_pairwise ?_ sorted departures.inReportOrder_sorted ordered
  intro first second found waits earlier later
  exact kept.eq_of_sequence_eq (whole.mem_iff.mp found)
    (departures.inReportOrder_perm.mem_iff.mp waits) (Nat.le_antisymm earlier later)

section Run

variable {config : Settings.RelocationConfig} {transfers : List (Transfer η π)} {pool : Pool η π}
  {filling : Filling}

/-- Reports are numbered in their order. -/
private theorem Pool.Run.reported_ascending (run : Run config transfers pool) :
    (reported transfers).Pairwise fun first second => first.sequence < second.sequence := by
  have ascending : ((reported transfers).map Departure.sequence).Pairwise (· < ·) := by
    rw [run.turnover.numbers]
    exact List.pairwise_lt_range'
  exact List.pairwise_map.mp ascending

/-- The departures that are left over at the end of a pass are those that nobody got. -/
private theorem Pool.Run.unclaimed_perm (run : Run config transfers pool)
    (ending : Ending filling pool) :
    unclaimed transfers ending.handedOut ~ ending.settled.pool.departures.all := by
  let out := gone transfers ++ ending.handedOut
  obtain ⟨-, left⟩ := ending.matching.takes run.turnover.kept
  have content : reported transfers ~ ending.settled.pool.departures.all ++ out := by
    have all : reported transfers ~ pool.departures.all ++ gone transfers := run.turnover.content
    calc reported transfers
      _ ~ pool.departures.all ++ gone transfers := all
      _ ~ (ending.handedOut ++ ending.settled.pool.departures.all) ++ gone transfers :=
        left.append_right _
      _ ~ ending.settled.pool.departures.all ++ ending.handedOut ++ gone transfers :=
        List.perm_append_comm.append_right _
      _ ~ ending.settled.pool.departures.all ++ out := by
        rw [List.append_assoc]
        exact List.perm_append_comm.append_left _
  have apart := (content.map Departure.sequence).nodup_iff.mp run.reported_apart
  rw [List.map_append, List.nodup_append'] at apart
  obtain ⟨-, -, disjoint⟩ := apart
  have stays : ending.settled.pool.departures.all.filter
      (fun departure => departure.sequence ∉ out.map Departure.sequence) =
        ending.settled.pool.departures.all :=
    List.filter_eq_self.mpr fun departure member =>
      decide_eq_true (disjoint (List.mem_map_of_mem member))
  have goes : out.filter (fun departure => departure.sequence ∉ out.map Departure.sequence) = [] :=
    List.filter_eq_nil_iff.mpr fun departure member kept =>
      of_decide_eq_true kept (List.mem_map_of_mem member)
  have filtered := content.filter fun departure =>
    departure.sequence ∉ out.map Departure.sequence
  rw [List.filter_append, stays, goes, List.append_nil] at filtered
  exact filtered

/-- So they are disposed in the order of the reports. -/
private theorem Pool.Run.disposed_eq_unclaimed (run : Run config transfers pool)
    (ending : Ending filling pool) : ending.disposed = unclaimed transfers ending.handedOut := by
  obtain ⟨kept, -⟩ := ending.matching.takes run.turnover.kept
  have sorted := (run.reported_ascending.filter fun departure =>
    departure.sequence ∉ (gone transfers ++ ending.handedOut).map Departure.sequence).imp
      Nat.le_of_lt
  exact (kept.eq_inReportOrder (.refl _) (run.unclaimed_perm ending) sorted).symm

end Run

namespace Ending

variable {filling : Filling} {pool : Pool η π}

/-- What is to exit at the end of a pass: what was to exit before, and the disposed content that was
active. -/
private theorem exiting_eq (ending : Ending filling pool) :
    ending.settled.disposeDepartures.pool.dispatcher.exiting =
      pool.dispatcher.exiting ++ objectsOf (ending.disposed.filter (·.entry.active)) := by
  simp only [Pass.disposeDepartures, Pool.dispatcher_disposeDepartures]
  rw [ending.matching.exiting_eq]
  rfl

/-- What is to retire after it: what was to retire before, and all disposed content. -/
private theorem retiring_after (ending : Ending filling pool) :
    ending.after.dispatcher.retiring = pool.dispatcher.retiring ++ objectsOf ending.disposed := by
  rw [ending.after_eq]
  simp only [Lifecycle.Dispatcher.drained, Pass.disposeDepartures,
    Pool.dispatcher_disposeDepartures]
  rw [ending.matching.retiring_eq]
  rfl

end Ending

end LiveTree.Relocation

namespace LiveTree.Session.Machine

open Lifecycle (ObjectId Dispatcher Drain)
open Relocation (Departure Ending Filling objectsOf transfersOf exitsOf unclaimed)
open scoped List

variable {machine beginning : Machine} {base : List Call} {earlier during : List Machine}
  {owner : DrainOwner} {drain : Drain} {first call : PassCall} {pool : Pool}

/-- The order in which a pass over some calls disposes what is left over of a pool and tells its
objects, given what was done with the pool before. -/
structure Clears (machine : Machine) (base : List Call) (during : List Machine) (call : PassCall)
    (pool : Pool) (history : List Dealing) (ending : Ending call.filling pool) : Prop where
  closes : machine.Closes base during call pool ending
  handles : ending.outcome.disposed = ending.disposed.map (·.entry.handle)
  /-- What is disposed are the departures that nobody got, in the order of the reports. -/
  disposed : ending.disposed = unclaimed (transfersOf history) ending.handedOut
  /-- It does not matter in which order the queues of the descriptors are enumerated. -/
  enumerated : ∀ queues, queues ~ ending.settled.pool.departures.queues.values →
    ∀ listed, listed ~ queues.flatten →
      (listed.Pairwise fun first second => first.sequence ≤ second.sequence) →
        listed = ending.disposed
  /-- The exits come first, in reverse: what was deactivated since the last delivery, and then the
  disposed content that was active. -/
  attempted : (attempts base during).map Lifecycle.Attempt.notice =
    (exitsOf history ++ objectsOf (ending.disposed.filter (·.entry.active))).reverse.map
        (·, .exited) ++
      (ending.settled.pool.dispatcher.retaining.map (·, .retained) ++
        ending.settled.pool.dispatcher.entering.map (·, .entered))
  retiring : ending.after.dispatcher.retiring =
    pool.dispatcher.retiring ++ objectsOf ending.disposed
  /-- The pass itself retires nothing. -/
  retiresNothing : ∀ turn ∈ during, turn.stack.length = base.length + 1 →
    turn.control = .proceed → ∀ object, ¬ turn.Attempting object .retired

/-- No delivery of notifications attempts a retirement. -/
private theorem not_retires_of_drain {object : ObjectId} {next : Drain} :
    drain.step ≠ .attempt object .retired next := by
  intro step
  obtain ⟨_, -, target, -⟩ := Drain.step_eq_attempt_iff.mp step
  cases phase : drain.phase <;> rw [phase] at target <;> cases target

/-- Wherever a pass has control, it does not attempt a retirement. -/
private theorem InPass.retires_nothing {object : ObjectId}
    (inPass : InPass first pool base during machine) (low : machine.stack.length = base.length + 1)
    (proceeds : machine.control = .proceed) : ¬ machine.Attempting object .retired := by
  cases inPass with
  | @matching _ _ call pass _ _ stack =>
    have matching : machine.Matches base := ⟨call, pass, .inl (.of_stack stack)⟩
    exact matching.not_attempting low proceeds
  | @inserting _ _ call _ pass request objects _ _ _ above =>
    have matching : machine.Matches base := ⟨call, pass, .inr ⟨request, objects, above⟩⟩
    exact matching.not_attempting low proceeds
  | closing _ _ _ _ delivery =>
    have stack := delivery.inProgress.stack_eq_of_length (Nat.le_of_eq low)
    intro attempting
    cases attempting with
    | advances control =>
      rw [proceeds] at control
      cases control
    | drains _ _ step => exact not_retires_of_drain step
    | retires _ innermost =>
      rw [stack] at innermost
      cases innermost

/-- A pass that returns disposes the departures that nobody got, in the order of their reports and
whatever way they were kept; it attempts the exits in exactly the reverse order, those of content
that was deactivated before last, and only then what is to be retained and to enter; and it leaves
the retirements of what it disposed, in order. -/
theorem pass_disposes_in_report_order
    (course : Course (earlier ++ beginning :: during) machine)
    (starts : beginning.StartsPass call pool)
    (lasts : ∀ middle ∈ during, ¬ middle.EndsPass beginning.stack)
    (atDelivery : machine.AtDelivery owner drain beginning.stack)
    (finished : drain.step = .finished) :
    ∃ ending, machine.Clears beginning.stack during call pool
      (dealingsAt call.pool (dealings earlier)) ending := by
  obtain ⟨⟨config, run⟩, exits⟩ := course.before.lived starts
  obtain ⟨ending, closes⟩ := (course.inPass starts lasts).closes course atDelivery finished
  obtain ⟨kept, -⟩ := ending.matching.takes run.turnover.kept
  refine ⟨ending, ?_⟩
  constructor
  case closes => exact closes
  case handles => exact ending.outcome_eq.2.2.2
  case disposed => exact run.disposed_eq_unclaimed ending
  case enumerated => exact fun queues enumerated listed content sorted =>
    kept.eq_inReportOrder enumerated content sorted
  case attempted =>
    have others := ending.settled.pool.dispatcher_disposeDepartures
    rw [closes.attempted, Dispatcher.notices, ending.exiting_eq, exits]
    simp only [Relocation.Pass.disposeDepartures, others]
  case retiring => exact ending.retiring_after
  case retiresNothing =>
    intro turn member low proceeds object
    obtain ⟨before, after, rfl⟩ := List.append_of_mem member
    have soFar : Course (earlier ++ beginning :: before) turn := by
      rw [← List.cons_append, ← List.append_assoc] at course
      exact course.before
    have inPass := soFar.inPass starts fun middle former =>
      lasts middle (List.mem_append_left _ former)
    exact inPass.retires_nothing low proceeds

/-- A session in which three departures are left over at the end of a pass. The first and the last
are of the same descriptor, and the last was deactivated before. -/
def leavesThree : Machine :=
  let body : Body :=
    [.pool (.create "p" {}),
      .pool (.instantiate "p" "a" ⟨2⟩ "a" 0 (.fixed ⟨0⟩) ["o"]),
      .pool (.instantiate "p" "b" ⟨1⟩ "b" 0 (.fixed ⟨0⟩) ["q", "r"]),
      .pool (.instantiate "p" "c" ⟨2⟩ "c" 0 (.fixed ⟨0⟩) ["s"]),
      .pool (.deactivate "p" "c"),
      .pool (.depart "p" "a" none),
      .pool (.depart "p" "b" none),
      .pool (.depart "p" "c" none),
      .pool (.endPass "p" none "" false)]
  start { scripts := ⟨[("main", body)]⟩ } none (.call "main")

/-- The end of its pass begins. -/
def leavesThreePass : Machine := advanced 26 leavesThree

/-- The pool by then. -/
def leavesThreePool : Pool where
  departures :=
    ((({} : Relocation.Departures String Int).add ⟨0, ⟨⟨2⟩, "a", 0, ⟨0⟩, [⟨0⟩], true⟩⟩).add
      ⟨1, ⟨⟨1⟩, "b", 0, ⟨0⟩, [⟨1⟩, ⟨2⟩], true⟩⟩).add ⟨2, ⟨⟨2⟩, "c", 0, ⟨0⟩, [⟨3⟩], false⟩⟩
  everDeparted := [⟨1⟩, ⟨2⟩]
  dispatcher := ⟨[⟨0⟩, ⟨1⟩, ⟨2⟩, ⟨3⟩], [⟨0⟩, ⟨1⟩, ⟨2⟩, ⟨3⟩], [⟨3⟩], []⟩
  nextDeparture := 3
  stats := { departures := 3 }

/-- The delivery at its end begins. -/
def leavesThreeClosing : Machine :=
  let dispatcher : Dispatcher :=
    ⟨[⟨0⟩, ⟨1⟩, ⟨2⟩, ⟨3⟩], [⟨0⟩, ⟨1⟩, ⟨2⟩, ⟨3⟩], [⟨3⟩, ⟨0⟩, ⟨1⟩, ⟨2⟩], [⟨0⟩, ⟨1⟩, ⟨2⟩, ⟨3⟩]⟩
  let pool : Pool := { leavesThreePool with
    departures := {}
    dispatcher
    stats := { departures := 3, disposed := 3 } }
  { leavesThreePass.step with
    stack := .draining (.pass ⟨0, 1, none, "", false⟩ ⟨pool, [], [], [], []⟩ ["a", "b", "c"])
      dispatcher.drain :: leavesThreePass.stack }

private theorem leftovers_leavesThreePool :
    leavesThreePool.leftovers = [⟨⟨2⟩, "a", 0, ⟨0⟩, [⟨0⟩], true⟩,
      ⟨⟨1⟩, "b", 0, ⟨0⟩, [⟨1⟩, ⟨2⟩], true⟩, ⟨⟨2⟩, "c", 0, ⟨0⟩, [⟨3⟩], false⟩] := by
  have kept : leavesThreePool.departures.WellKept 3 :=
    (((Relocation.Departures.WellKept.empty 0).add _).add _).add _
  have sorted : [(⟨0, ⟨⟨2⟩, "a", 0, ⟨0⟩, [⟨0⟩], true⟩⟩ : Departure String Int),
      ⟨1, ⟨⟨1⟩, "b", 0, ⟨0⟩, [⟨1⟩, ⟨2⟩], true⟩⟩, ⟨2, ⟨⟨2⟩, "c", 0, ⟨0⟩, [⟨3⟩], false⟩⟩] =
        leavesThreePool.departures.inReportOrder := by
    refine kept.eq_inReportOrder (.refl _) ?_ (by decide)
    exact .cons _ (.swap _ _ _)
  rw [Relocation.Pool.leftovers, ← sorted]
  rfl

private theorem step_leavesThreePass : leavesThreePass.step.step = leavesThreeClosing := by
  have stack : leavesThreePass.step.stack =
      .matching ⟨0, 1, none, "", false⟩ ⟨leavesThreePool, [], [], [], []⟩ ::
        leavesThreePass.stack := by with_unfolding_all rfl
  have proceeds : leavesThreePass.step.control = .proceed := by with_unfolding_all rfl
  rw [step_of_proceed proceeds stack]
  change ((leavesThreePass.step.diagnoseAll
    (leavesThreePool.leftovers.map Relocation.Entry.disposal)).become (.draining
      (.pass ⟨0, 1, none, "", false⟩ ⟨leavesThreePool.disposeDepartures, [], [], [], []⟩
        (leavesThreePool.leftovers.map (·.handle)))
      leavesThreePool.disposeDepartures.dispatcher.drain)).proceed = _
  rw [Relocation.Pool.disposeDepartures_eq, leftovers_leavesThreePool]
  with_unfolding_all rfl

/-- The delivery is about to end. -/
def leavesThreeEnd : Machine := advanced 22 leavesThreeClosing

theorem pass_disposes_three_in_report_order :
    ∃ ending, leavesThreeEnd.Clears leavesThreePass.stack
        (leavesThreePass.step :: trail 22 leavesThreeClosing) ⟨0, 1, none, "", false⟩
        leavesThreePool (dealingsAt 0 (dealings (trail 26 leavesThree))) ending ∧
      ending.outcome.disposed = ["a", "b", "c"] ∧
      ((attempts leavesThreePass.stack (leavesThreePass.step :: trail 22 leavesThreeClosing)).map
          Lifecycle.Attempt.notice).take 4 =
        [(⟨2⟩, .exited), (⟨1⟩, .exited), (⟨0⟩, .exited), (⟨3⟩, .exited)] := by
  have starts : leavesThreePass.StartsPass ⟨0, 1, none, "", false⟩ leavesThreePool :=
    ⟨"p", by with_unfolding_all rfl, by with_unfolding_all rfl, by with_unfolding_all rfl⟩
  have early : leavesThreePass.Goes [leavesThreePass, leavesThreePass.step]
      leavesThreeClosing := by
    rw [← step_leavesThreePass]
    exact goes_trail 2 leavesThreePass
  have course : Course (trail 26 leavesThree ++
      leavesThreePass :: leavesThreePass.step :: trail 22 leavesThreeClosing) leavesThreeEnd :=
    ⟨_, _, _, (goes_trail 26 leavesThree).trans (early.trans (goes_trail 22 leavesThreeClosing))⟩
  have lasts : ((leavesThreePass.step :: trail 22 leavesThreeClosing).all fun middle =>
      !middle.endsPass) = true := by with_unfolding_all rfl
  have proceeds : leavesThreeEnd.control = .proceed := by with_unfolding_all rfl
  obtain ⟨ending, clears⟩ := pass_disposes_in_report_order course starts (not_endsPass_of_all lasts)
    ⟨by with_unfolding_all rfl, proceeds⟩ (by with_unfolding_all rfl)
  have kept : ending.handedOut = [] := ending.served.departures
  have handles : (unclaimed (transfersOf (dealingsAt 0 (dealings (trail 26 leavesThree)))) []).map
      (·.entry.handle) = ["a", "b", "c"] := by with_unfolding_all rfl
  refine ⟨ending, clears, ?_, by with_unfolding_all rfl⟩
  rw [clears.handles, clears.disposed, kept]
  exact handles

end LiveTree.Session.Machine
