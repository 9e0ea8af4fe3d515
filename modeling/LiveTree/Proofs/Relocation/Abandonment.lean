import LiveTree.Proofs.Relocation.Returning
import LiveTree.Proofs.Lifecycle.Words

/-! Passes that are abandoned. User code that makes content for a place can panic, and the pass is
left as it stands: the requests that were answered before keep their departures, all others are
forgotten, and what nobody took still waits. Nothing has been disposed or delivered by then, so the
pool can be used as if the answered requests had been the only ones. -/
namespace LiveTree.Relocation

open Lifecycle (ObjectId)

variable {η π : Type}

namespace Pass.Advances

variable {filling : Filling} {pass last : Pass η π} {handedOut : List (Departure η π)}

/-- What the matching records: new content is to be retained and to enter, and content that was
inactive is to enter again, each behind what was recorded before. -/
private theorem records (advances : pass.Advances filling handedOut last) :
    ∃ (made : List (PlacementTicket × Entry η π)) (arrivals : List (List ObjectId)),
      last.inserted = pass.inserted ++ made ∧
      last.pool.dispatcher.retaining =
        pass.pool.dispatcher.retaining ++ made.flatMap (·.2.objects) ∧
      last.pool.dispatcher.entering = pass.pool.dispatcher.entering ++ arrivals.flatten ∧
      (∀ departure ∈ handedOut, departure.entry.active = false →
        departure.entry.objects ∈ arrivals) ∧
      ∀ placed ∈ made, placed.2.objects ∈ arrivals := by
  induction advances with
  | refl => exact ⟨[], [], by simp⟩
  | @matched pass next last request departure handedOut step _ _ ih =>
    obtain ⟨_, found, _, -, -, same, rfl⟩ := of_step_eq_matched step
    obtain ⟨made, arrivals, inserted, retaining, entering, moved, new⟩ := ih
    cases active : found.entry.active with
    | true =>
      simp only [Pool.welcome, active, if_true] at retaining entering
      refine ⟨made, arrivals, inserted, retaining, entering, fun other member idle => ?_, new⟩
      rcases List.mem_cons.mp member with rfl | later
      · rw [same, active] at idle
        cases idle
      · exact moved other later idle
    | false =>
      simp only [Pool.welcome, active, Bool.false_eq_true, if_false] at retaining entering
      refine ⟨made, departure.entry.objects :: arrivals, inserted, retaining, ?_,
        fun other member idle => ?_,
        fun placed member => List.mem_cons_of_mem _ (new placed member)⟩
      · rw [entering, same]
        simp [Lifecycle.Dispatcher.record]
      · rcases List.mem_cons.mp member with rfl | later
        · exact List.mem_cons_self
        · exact List.mem_cons_of_mem _ (moved other later idle)
  | handedBack _ step _ ih =>
    obtain ⟨_, -, -, rfl⟩ := of_step_eq_unmatched step
    exact ih
  | @inserted pass next last request handedOut handle objects _ step _ ih =>
    obtain ⟨_, -, -, rfl⟩ := of_step_eq_unmatched step
    obtain ⟨made, arrivals, inserted, retaining, entering, moved, new⟩ := ih
    let entry : Entry η π :=
      ⟨request.descriptor, handle, request.parameter, request.position, objects, true⟩
    refine ⟨(request.ticket, entry) :: made, objects :: arrivals, ?_, ?_, ?_,
      fun other member idle => List.mem_cons_of_mem _ (moved other member idle),
      List.forall_mem_cons.mpr ⟨List.mem_cons_self, fun placed member =>
        List.mem_cons_of_mem _ (new placed member)⟩⟩
    · rw [inserted, List.append_cons]
      rfl
    · rw [retaining]
      simp [insert, Pool.instantiate_snd, Lifecycle.Dispatcher.record, entry]
    · rw [entering]
      simp [insert, Pool.instantiate_snd, Lifecycle.Dispatcher.record]

end Pass.Advances

/-- The end of a pass that disposes everything that waits, once each and in the order of the
reports. -/
structure Ending.DisposesAll {filling : Filling} {pool : Pool η π} (ending : Ending filling pool) :
    Prop where
  handedOut : ending.handedOut = []
  handles : ending.outcome.disposed = ending.disposed.map (·.entry.handle)
  inOrder : ending.disposed.Pairwise fun first second => first.sequence < second.sequence
  all : ∀ departure, departure ∈ ending.disposed ↔
    ∃ id, departure ∈ pool.departures.waiting id

/-- If nothing was deferred, then nothing is handed out and everything is disposed. -/
private theorem Ending.disposesAll {filling : Filling} {pool : Pool η π} {bound : Nat}
    (ending : Ending filling pool) (kept : pool.departures.WellKept bound)
    (none : pool.deferred = []) : ending.DisposesAll := by
  obtain ⟨keptLast, -⟩ := ending.matching.takes kept
  have served := ending.served
  rw [none] at served
  have waiting : ending.settled.pool.departures.waiting = pool.departures.waiting := served.waiting
  constructor
  case handedOut => exact served.departures
  case handles => exact ending.outcome_eq.2.2.2
  case inOrder => exact keptLast.inReportOrder_ascending
  case all =>
    intro departure
    rw [disposed, ending.settled.pool.departures.inReportOrder_perm.mem_iff,
      Departures.mem_all_iff keptLast.distinct, waiting]

/-- What becomes of a pool whose pass is abandoned at a request, with the departures that were
handed out before. -/
structure Pool.Abandoned (before : Pool η π) (handedOut : List (Departure η π))
    (request : Request π) (pass : Pass η π) : Prop where
  /-- No request waits any more. -/
  undeferred : pass.pool.deferred = [] ∧ ∀ id, pass.pool.isAwaited id = false
  /-- The requests before this one have got theirs, first come, first served, and the other
  departures wait as they did. -/
  waiting : ∃ preceding rest, before.deferred = preceding ++ request :: rest ∧
    handedOut = (allot before.departures.waiting preceding).filterMap Prod.snd ∧
    ∀ id, pass.pool.departures.waiting id =
      (before.departures.waiting id).drop (requestsFor preceding id).length
  passes : pass.pool.stats.passes = before.stats.passes
  disposed : pass.pool.stats.disposed = before.stats.disposed
  exiting : pass.pool.dispatcher.exiting = before.dispatcher.exiting
  retiring : pass.pool.dispatcher.retiring = before.dispatcher.retiring
  /-- What was recorded before is still to be told, and so is what the new content records and the
  content that moved. -/
  retaining : pass.pool.dispatcher.retaining =
    before.dispatcher.retaining ++ pass.inserted.flatMap (·.2.objects)
  entering : ∃ arrivals : List (List ObjectId),
    pass.pool.dispatcher.entering = before.dispatcher.entering ++ arrivals.flatten ∧
    (∀ departure ∈ handedOut, departure.entry.active = false →
      departure.entry.objects ∈ arrivals) ∧
    ∀ placed ∈ pass.inserted, placed.2.objects ∈ arrivals
  /-- Whoever ends a pass next, without anything between, disposes what still waits. -/
  next : ∀ filling (ending : Ending filling pass.pool), ending.DisposesAll

/-- A pass can be abandoned wherever new content is made. -/
private theorem Pass.Advances.abandoned {filling : Filling} {pool : Pool η π}
    {previous pass : Pass η π} {handedOut : List (Departure η π)} {request : Request π}
    {bound : Nat} (kept : pool.departures.WellKept bound)
    (advances : pool.endPass.Advances filling handedOut previous)
    (step : previous.step = .unmatched request pass) : pool.Abandoned handedOut request pass := by
  obtain ⟨preceding, served⟩ := advances.served
  obtain ⟨keptLast, -⟩ := advances.takes kept
  obtain ⟨made, arrivals, inserted, retaining, entering, moved, new⟩ := advances.records
  have exiting := advances.exiting_eq
  have retiring := advances.retiring_eq
  obtain ⟨rest, split, -, rfl⟩ := of_step_eq_unmatched step
  have whole : previous.inserted = made := inserted
  have emptied : previous.pool.deferred = [] ∧ previous.pool.deferredDescriptors = [] := by
    rw [served.pool]
    exact ⟨rfl, rfl⟩
  constructor
  case undeferred =>
    refine ⟨emptied.1, fun id => ?_⟩
    simp [Pool.isAwaited, emptied.2]
  case waiting =>
    refine ⟨preceding, rest, ?_, served.departures, fun id => ?_⟩
    · rw [← split]
      exact served.requests
    · rw [← unallotted_eq_drop]
      exact congrFun served.waiting id
  case passes =>
    change previous.pool.stats.passes = _
    rw [served.pool]
    rfl
  case disposed =>
    change previous.pool.stats.disposed = _
    rw [served.pool]
    rfl
  case exiting => exact exiting
  case retiring => exact retiring
  case retaining =>
    rw [← whole] at retaining
    exact retaining
  case entering =>
    rw [← whole] at new
    exact ⟨arrivals, entering, moved, new⟩
  case next => exact fun filling ending => ending.disposesAll keptLast emptied.1

end LiveTree.Relocation

namespace LiveTree.Session.Machine

open Lifecycle (ObjectId Dispatcher Drain)
open Relocation (Departure Ending Filling)

variable {machine turn : Machine} {base : List Call} {earlier during : List Machine}
  {call current : PassCall} {pool : Pool} {pass : Relocation.Pass String Int}
  {request : Relocation.Request Int} {reason : Panic}

/-- While a pass matches requests, its steps tell no object anything. -/
private theorem Matches.tellsNobody (matching : turn.Matches base)
    (low : turn.stack.length = base.length + 1) (proceeds : turn.control = .proceed) (name : Name)
    (event : Lifecycle.Event) : turn.step.calls ≠ .told name event :: turn.calls := by
  intro told
  obtain ⟨object, kept, -, -, ⟨target, done, -⟩ | ⟨called, -, control⟩⟩ := moves_of_told told
  · exact matching.not_attempting low proceeds (attempting_of_moves done).1
  · rw [proceeds] at control
    cases control

/-- What is sure of a pass that a panic leaves while new content is made for a request: the pool
comes back with the departures that nobody got, nothing was told on the way, and the next pass ends
as if the requests that were answered had been the only ones. -/
structure Abandons (machine : Machine) (base : List Call) (during : List Machine) (call : PassCall)
    (pool : Pool) (request : Relocation.Request Int) (pass : Relocation.Pass String Int)
    (reason : Panic) : Prop where
  pool : ∃ handedOut, pool.Abandoned handedOut request pass
  back : machine.BringsBack base call.pool pass.pool (.error reason)
  silent : attempts base during = []
  tellsNobody : ∀ turn ∈ during, turn.stack.length = base.length + 1 → turn.control = .proceed →
    ∀ name event, turn.step.calls ≠ .told name event :: turn.calls
  next : ∀ (passed later : List Machine) (again last : Machine) (other : PassCall)
    (owner : DrainOwner) (drain : Drain), Course (passed ++ again :: later) last →
    again.StartsPass other pass.pool → (∀ middle ∈ later, ¬ middle.EndsPass again.stack) →
    last.AtDelivery owner drain again.stack → drain.step = .finished →
    ∃ ending, last.Closes again.stack later other pass.pool ending ∧ ending.DisposesAll

/-- A panic that leaves the making of new content leaves a pool that can be used: of the deferred
requests those before the panicking one have got their departures, first come, first served, all
others are forgotten, the other departures wait as before, what was recorded is still to be told,
and nobody has been told anything. -/
theorem panicking_insert_leaves_pool_usable {beginning : Machine} {objects : List Name}
    (course : Course (earlier ++ beginning :: during) machine)
    (starts : beginning.StartsPass call pool)
    (lasts : ∀ middle ∈ during, ¬ middle.EndsPass beginning.stack)
    (stack : machine.stack = .inserting current pass request objects :: beginning.stack)
    (panics : machine.control = .unwind reason) :
    machine.Abandons beginning.stack during call pool request pass reason := by
  have low : machine.stack.length ≤ beginning.stack.length + 1 :=
    Nat.le_of_eq (congrArg List.length stack)
  cases course.inPass starts lasts with
  | matching _ matching =>
    rw [stack] at matching
    cases matching
  | closing _ _ _ _ delivery =>
    have closing := delivery.inProgress.stack_eq_of_length low
    rw [stack] at closing
    cases closing
  | inserting same fills above advances step silent =>
    have inserting := above.stack_eq_of_length low
    rw [stack] at inserting
    cases inserting
    obtain ⟨⟨config, run⟩, -⟩ := course.before.lived starts
    have inside : current.pool < machine.world.pools.size := course.inside stack rfl
    have back := brings_back_of_inserting stack panics inside
    rw [same.pool] at back
    have abandoned := advances.abandoned run.turnover.kept step
    constructor
    case pool => exact ⟨_, abandoned⟩
    case back => exact back
    case silent => exact attempts_of_matches silent
    case tellsNobody =>
      exact fun turn member low proceeds => (silent turn member).tellsNobody low proceeds
    case next =>
      intro passed later again last other owner drain course starts lasts atDelivery finished
      obtain ⟨ending, closes⟩ := (course.inPass starts lasts).closes course atDelivery finished
      exact ⟨ending, closes, abandoned.next _ ending⟩

/-- A session in which the making of new content panics. Of two requests the first gets the
departure that came behind it, and the panic comes with the second. -/
def losesInsertion : Machine :=
  let body : Body :=
    [.pool (.create "p" ⟨false⟩),
      .object (.create "o" ⟨false, [], [], [], []⟩),
      .pool (.place "p" ⟨1⟩ 0 (.fixed ⟨0⟩) "e" false),
      .pool (.instantiate "p" "a" ⟨1⟩ "a" 0 (.fixed ⟨0⟩) ["o"]),
      .pool (.instantiate "p" "b" ⟨2⟩ "b" 0 (.fixed ⟨0⟩) []),
      .pool (.depart "p" "a" none),
      .pool (.depart "p" "b" none),
      .pool (.place "p" ⟨3⟩ 0 (.fixed ⟨0⟩) "e" false),
      .pool (.endPass "p" (some [⟨[.panic .wordless], []⟩]) "" false)]
  start { scripts := ⟨[("main", body)]⟩ } none (.call "main")

/-- The end of its pass begins. -/
def losesInsertionPass : Machine := advanced 26 losesInsertion

/-- The pool by then. -/
def losesInsertionPool : Pool where
  config := ⟨false⟩
  departures :=
    (({} : Relocation.Departures String Int).add ⟨0, ⟨⟨1⟩, "a", 0, ⟨0⟩, [⟨0⟩], true⟩⟩).add
      ⟨1, ⟨⟨2⟩, "b", 0, ⟨0⟩, [], true⟩⟩
  deferred := [⟨0, ⟨1⟩, 0, ⟨0⟩⟩, ⟨1, ⟨3⟩, 0, ⟨0⟩⟩]
  deferredDescriptors := [⟨3⟩, ⟨1⟩]
  everDeparted := [⟨2⟩, ⟨1⟩]
  dispatcher := ⟨[⟨0⟩], [⟨0⟩], [], []⟩
  nextTicket := 2
  nextDeparture := 2
  stats := { departures := 2 }

theorem panicking_insert_leaves_one_departure :
    losesInsertionPass.StartsPass ⟨0, 1, some [⟨[.panic .wordless], []⟩], "", false⟩
        losesInsertionPool ∧
      ∃ pass, (advanced 5 losesInsertionPass.step).Abandons losesInsertionPass.stack
        (trail 5 losesInsertionPass.step) ⟨0, 1, some [⟨[.panic .wordless], []⟩], "", false⟩
        losesInsertionPool ⟨1, ⟨3⟩, 0, ⟨0⟩⟩ pass .wordless ∧ pass.pool.pendingDepartures = 1 := by
  have starts : losesInsertionPass.StartsPass
      ⟨0, 1, some [⟨[.panic .wordless], []⟩], "", false⟩ losesInsertionPool :=
    ⟨"p", by with_unfolding_all rfl, by with_unfolding_all rfl, by with_unfolding_all rfl⟩
  have course : Course
      (trail 26 losesInsertion ++ losesInsertionPass :: trail 5 losesInsertionPass.step)
      (advanced 5 losesInsertionPass.step) :=
    ⟨_, _, _, (goes_trail 26 losesInsertion).trans (goes_trail 6 losesInsertionPass)⟩
  have lasts : ((trail 5 losesInsertionPass.step).all fun middle => !middle.endsPass) = true := by
    with_unfolding_all rfl
  have panics : (advanced 5 losesInsertionPass.step).control = .unwind .wordless := by
    with_unfolding_all rfl
  have abandons := panicking_insert_leaves_pool_usable course starts (not_endsPass_of_all lasts)
    (by with_unfolding_all rfl) panics
  exact ⟨starts, _, abandons, by with_unfolding_all rfl⟩

end LiveTree.Session.Machine
