import LiveTree.Proofs.Lifecycle.Attempts
import LiveTree.Proofs.Relocation.Exchange
import LiveTree.Proofs.Relocation.Stock

/-! What calls do with pools. A call works on a pool at its place and puts it back at once, or it
takes the pool away and brings it back when it is done or when a panic leaves it. Whichever it is,
the pools of a session live the lives that are described for pools by themselves; and what a life
has been, with the departures that came and went and the exits that were recorded, can be told from
what was done with the pool. -/
namespace LiveTree.Relocation

open Lifecycle (ObjectId Drain State)

variable {η π : Type}

/-- What is done with a pool, as far as departures and recorded exits are concerned. -/
inductive Dealing (η π : Type) where
  /-- Content becomes inactive, and its objects are to exit. -/
  | deactivates (objects : List ObjectId)
  /-- A departure comes in. -/
  | reports (departure : Departure η π)
  /-- A departure goes out to a place. -/
  | gives (way : Way) (departure : Departure η π)
  /-- At the end of a pass the departures that are left over go out, and all that was recorded is
  delivered. -/
  | settles (disposed : List (Departure η π))
  /-- All that was recorded is delivered. -/
  | dispatches

namespace Dealing

/-- The departures that come and go. -/
def transfers : Dealing η π → List (Transfer η π)
  | reports departure => [.reported departure]
  | gives way departure => [.left way departure]
  | settles disposed => disposed.map (.left .disposed)
  | deactivates _ | dispatches => []

/-- The objects that are to exit, given those that were to exit before. -/
def exits (recorded : List ObjectId) : Dealing η π → List ObjectId
  | deactivates objects => recorded ++ objects
  | settles _ | dispatches => []
  | reports _ | gives _ _ => recorded

end Dealing

/-- The departures that have come and gone in some dealings. -/
def transfersOf (history : List (Dealing η π)) : List (Transfer η π) :=
  history.flatMap Dealing.transfers

/-- The objects that have been deactivated in some dealings since the last delivery. -/
def exitsOf (history : List (Dealing η π)) : List ObjectId := history.foldl Dealing.exits []

section History

variable (history later : List (Dealing η π)) (departures : List (Departure η π))

private theorem transfersOf_append :
    transfersOf (history ++ later) = transfersOf history ++ transfersOf later :=
  List.flatMap_append

private theorem transfersOf_gives (way : Way) :
    transfersOf (departures.map (.gives way)) = departures.map (.left way) := by
  induction departures with
  | nil => rfl
  | cons departure departures ih => exact congrArg _ ih

/-- What comes and goes when a pass ends. -/
private theorem transfersOf_pass (handedOut disposed : List (Departure η π)) :
    transfersOf (history ++ handedOut.map (.gives .resolved) ++ [.settles disposed]) =
      transfersOf history ++
        (handedOut.map (.left .resolved) ++ disposed.map (.left .disposed)) := by
  have settles : transfersOf [Dealing.settles disposed] = disposed.map (.left .disposed) :=
    List.append_nil _
  rw [List.append_assoc, transfersOf_append, transfersOf_append, transfersOf_gives, settles]

private theorem exitsOf_append_settles (disposed : List (Departure η π)) :
    exitsOf (history ++ [.settles disposed]) = [] := by
  rw [exitsOf, List.foldl_append]
  rfl

private theorem exitsOf_append_gives (way : Way) :
    exitsOf (history ++ departures.map (.gives way)) = exitsOf history := by
  rw [exitsOf, List.foldl_append, ← exitsOf]
  induction departures with
  | nil => rfl
  | cons departure departures ih => exact ih

end History

namespace Pool

/-- One call on a pool, with the dealing that it is. -/
structure Deals (pool : Pool η π) (dealing : Option (Dealing η π)) (after : Pool η π) : Prop where
  exchange : pool.Exchange (transfersOf dealing.toList) after
  exits : after.dispatcher.exiting = dealing.toList.foldl Dealing.exits pool.dispatcher.exiting

/-- A pool that has come about through some dealings. -/
structure Lived (history : List (Dealing η π)) (pool : Pool η π) : Prop where
  run : ∃ config, Run config (transfersOf history) pool
  exits : pool.dispatcher.exiting = exitsOf history

variable {pool after : Pool η π} {history : List (Dealing η π)} {dealing : Option (Dealing η π)}

private theorem Lived.new (config : Settings.RelocationConfig) :
    Lived (π := π) (η := η) [] { config } :=
  ⟨⟨config, .created⟩, rfl⟩

private theorem Lived.deals (lived : Lived history pool) (deals : pool.Deals dealing after) :
    Lived (history ++ dealing.toList) after := by
  obtain ⟨⟨config, run⟩, exits⟩ := lived
  refine ⟨⟨config, ?_⟩, ?_⟩
  · rw [transfersOf_append]
    exact run.next deals.exchange
  · rw [deals.exits, exits, exitsOf, exitsOf, List.foldl_append]

end Pool

namespace Pass.Advances

variable {filling : Filling} {pass next last : Pass η π} {handedOut : List (Departure η π)}
  {request : Request π}

/-- The matching deactivates nothing. -/
theorem exiting_eq (advances : pass.Advances filling handedOut last) :
    last.pool.dispatcher.exiting = pass.pool.dispatcher.exiting := by
  induction advances with
  | refl => rfl
  | matched step _ _ ih =>
    obtain ⟨_, departure, _, -, -, -, rfl⟩ := of_step_eq_matched step
    rw [ih]
    simp only [Pool.welcome]
    split <;> rfl
  | handedBack _ step _ ih | inserted _ _ _ step _ ih =>
    obtain ⟨_, -, -, rfl⟩ := of_step_eq_unmatched step
    exact ih

/-- The matching leaves the retirements alone. -/
theorem retiring_eq (advances : pass.Advances filling handedOut last) :
    last.pool.dispatcher.retiring = pass.pool.dispatcher.retiring := by
  induction advances with
  | refl => rfl
  | matched step _ _ ih =>
    obtain ⟨_, departure, _, -, -, -, rfl⟩ := of_step_eq_matched step
    rw [ih]
    simp only [Pool.welcome]
    split <;> rfl
  | handedBack _ step _ ih | inserted _ _ _ step _ ih =>
    obtain ⟨_, -, -, rfl⟩ := of_step_eq_unmatched step
    exact ih

theorem matches_next {departure : Departure η π} (advances : pass.Advances filling handedOut last)
    (step : last.step = .matched request departure.entry next)
    (first : last.pool.first? request.descriptor = some departure) :
    pass.Advances filling (handedOut ++ [departure]) next := by
  induction advances with
  | refl => exact .matched step first (.refl _)
  | matched own front _ ih => exact .matched own front (ih step first)
  | handedBack allowed own _ ih => exact .handedBack allowed own (ih step first)
  | inserted handle objects allowed own _ ih =>
    exact .inserted handle objects allowed own (ih step first)

theorem handsBack_next (advances : pass.Advances filling handedOut last)
    (allowed : filling = .handsBack) (step : last.step = .unmatched request next) :
    pass.Advances filling handedOut (next.handBack request) := by
  induction advances with
  | refl => exact .handedBack allowed step (.refl _)
  | matched own front _ ih => exact .matched own front (ih step)
  | handedBack allowed own _ ih => exact .handedBack allowed own (ih step)
  | inserted handle objects allowed own _ ih => exact .inserted handle objects allowed own (ih step)

theorem inserts_next (advances : pass.Advances filling handedOut last)
    (allowed : filling = .inserts) (step : last.step = .unmatched request next) (handle : η)
    (objects : List ObjectId) :
    pass.Advances filling handedOut (next.insert request handle objects) := by
  induction advances with
  | refl => exact .inserted handle objects allowed step (.refl _)
  | matched own front _ ih => exact .matched own front (ih step)
  | handedBack allowed own _ ih => exact .handedBack allowed own (ih step)
  | inserted handle objects allowed own _ ih => exact .inserted handle objects allowed own (ih step)

end Pass.Advances

end LiveTree.Relocation

namespace LiveTree.Session

open Lifecycle (ObjectId Drain)
open Relocation (Filling Departure)

/-- What is done with a pool of a session. -/
abbrev Dealing := Relocation.Dealing String Int

/-- What becomes of places that no departure serves. -/
def PassCall.filling (call : PassCall) : Filling :=
  match call.insertions with
  | none => .handsBack
  | some _ => .inserts

/-! ### How the call goes on that has taken a pool away -/

/-- A delivery goes on, and it may have control after that. It does not if an observer has. -/
inductive DrainTurn (drain : Drain) : Drain → Bool → Prop
  | told {next : Drain} {object : ObjectId} {target : Lifecycle.State}
      (step : drain.step = .attempt object target next) (working : Bool) :
      DrainTurn drain next.delivered working
  | refused {next : Drain} {object : ObjectId} {target : Lifecycle.State}
      (step : drain.step = .attempt object target next) (illegal : Lifecycle.IllegalMove) :
      DrainTurn drain (next.refused illegal) true
  | nextList {next : Drain} (step : drain.step = .nextList next) : DrainTurn drain next true

namespace Job

/-- How the call goes on, with the dealing, and whether it keeps control. -/
inductive Goes : Job → Option Dealing → Job → Bool → Prop
  | dispatching {id : Nat} {pool : Pool} {drain later : Drain} {working : Bool}
      (turns : DrainTurn drain later working) :
      Goes (.dispatching id pool drain) none (.dispatching id pool later) working
  | closing {call : PassCall} {pass : Relocation.Pass String Int} {disposed : List String}
      {drain later : Drain} {working : Bool} (turns : DrainTurn drain later working) :
      Goes (.closing call pass disposed drain) none (.closing call pass disposed later) working
  | matched {call : PassCall} {pass next : Relocation.Pass String Int}
      {request : Relocation.Request Int} {departure : Departure String Int}
      (step : pass.step = .matched request departure.entry next)
      (first : pass.pool.first? request.descriptor = some departure) :
      Goes (.matching call pass) (some (.gives .resolved departure)) (.matching call next) true
  | handsBack {call : PassCall} {pass next : Relocation.Pass String Int}
      {request : Relocation.Request Int} (kept : call.insertions = none)
      (step : pass.step = .unmatched request next) :
      Goes (.matching call pass) none (.matching call (next.handBack request)) true
  | asks {call : PassCall} {pass next : Relocation.Pass String Int}
      {request : Relocation.Request Int} {insertions : List (Insertion Body)}
      (kept : call.insertions = some insertions) (step : pass.step = .unmatched request next)
      (working : Bool) :
      Goes (.matching call pass) none
        (.inserting { call with insertions := some insertions.tail } next request) working
  | inserts {call : PassCall} {pass : Relocation.Pass String Int}
      {request : Relocation.Request Int} (handle : String) (objects : List ObjectId) :
      Goes (.inserting call pass request) none
        (.matching call (pass.insert request handle objects)) true
  | settles {call : PassCall} {pass : Relocation.Pass String Int} (step : pass.step = .settled) :
      Goes (.matching call pass) (some (.settles pass.pool.departures.inReportOrder))
        (.closing call pass.disposeDepartures (pass.pool.leftovers.map (·.handle))
          pass.disposeDepartures.pool.dispatcher.drain) true

/-- How the call brings its pool back, with control or without it when a panic leaves it. -/
inductive Leaves : Job → Bool → Pool → Prop
  | dispatched {id : Nat} {pool : Pool} {drain : Drain} (finished : drain.step = .finished) :
      Leaves (.dispatching id pool drain) true { pool with dispatcher := drain.dispatcher }
  | dispatchPanics {id : Nat} {pool : Pool} {drain : Drain} :
      Leaves (.dispatching id pool drain) false { pool with dispatcher := drain.dispatcher }
  | closed {call : PassCall} {pass : Relocation.Pass String Int} {disposed : List String}
      {drain : Drain} (finished : drain.step = .finished) :
      Leaves (.closing call pass disposed drain) true
        { pass.closedPool with dispatcher := drain.dispatcher }
  | closingPanics {call : PassCall} {pass : Relocation.Pass String Int} {disposed : List String}
      {drain : Drain} :
      Leaves (.closing call pass disposed drain) false
        { pass.pool with dispatcher := drain.dispatcher }
  | matchingPanics {call : PassCall} {pass : Relocation.Pass String Int} :
      Leaves (.matching call pass) false pass.pool
  | insertPanics {call : PassCall} {pass : Relocation.Pass String Int}
      {request : Relocation.Request Int} : Leaves (.inserting call pass request) false pass.pool

end Job

/-- A delivery that has come this far; one that waits for an observer has just made an attempt. -/
structure Delivers (start drain : Drain) (working : Bool) : Prop where
  proceeds : start.Proceeds drain
  waits : working = false → ∃ last object target next, start.Proceeds last ∧
    last.step = .attempt object target next ∧ drain.dispatcher = next.dispatcher

/-- What is sure of a pool that was taken away. -/
inductive Job.Sound (working : Bool) : List Dealing → Job → Prop
  | dispatching {earlier : List Dealing} {id : Nat} {pool : Pool} {drain : Drain}
      (lived : Relocation.Pool.Lived earlier pool)
      (delivers : Delivers pool.dispatcher.drain drain working) :
      Sound working (earlier ++ [.dispatches]) (.dispatching id pool drain)
  | matching {earlier : List Dealing} {before : Pool} {call : PassCall}
      {pass : Relocation.Pass String Int} {handedOut : List (Departure String Int)}
      (lived : Relocation.Pool.Lived earlier before)
      (advances : before.endPass.Advances call.filling handedOut pass) (works : working = true) :
      Sound working (earlier ++ handedOut.map (.gives .resolved)) (.matching call pass)
  | inserting {earlier : List Dealing} {before : Pool} {call : PassCall}
      {previous pass : Relocation.Pass String Int} {request : Relocation.Request Int}
      {handedOut : List (Departure String Int)} (lived : Relocation.Pool.Lived earlier before)
      (fills : call.filling = .inserts)
      (advances : before.endPass.Advances .inserts handedOut previous)
      (step : previous.step = .unmatched request pass) :
      Sound working (earlier ++ handedOut.map (.gives .resolved)) (.inserting call pass request)
  | closing {earlier : List Dealing} {before : Pool} {call : PassCall}
      {pass : Relocation.Pass String Int} {handedOut : List (Departure String Int)} {drain : Drain}
      (lived : Relocation.Pool.Lived earlier before)
      (advances : before.endPass.Advances call.filling handedOut pass)
      (complete : pass.step = .settled)
      (delivers : Delivers pass.disposeDepartures.pool.dispatcher.drain drain working) :
      Sound working
        (earlier ++ handedOut.map (.gives .resolved) ++
          [.settles pass.pool.departures.inReportOrder])
        (.closing call pass.disposeDepartures (pass.pool.leftovers.map (·.handle)) drain)

section Jobs

variable {start drain later : Drain} {working goesOn : Bool} {job next : Job}
  {history : List Dealing} {dealing : Option Dealing} {pool : Pool}

private theorem Delivers.begins (start : Drain) : Delivers start start true := ⟨.refl start, nofun⟩

private theorem Delivers.turns (delivers : Delivers start drain true)
    (turns : DrainTurn drain later goesOn) : Delivers start later goesOn := by
  obtain ⟨proceeds, -⟩ := delivers
  cases turns with
  | told step =>
    exact ⟨proceeds.trans (.delivered step (.refl _)),
      fun _ => ⟨_, _, _, _, proceeds, step, rfl⟩⟩
  | refused step => exact ⟨proceeds.trans (.refused step (.refl _)), nofun⟩
  | nextList step => exact ⟨proceeds.trans (.nextList step (.refl _)), nofun⟩

/-- What is sure of a call that waits is sure of it when it has control. -/
private theorem Job.Sound.weaken (sound : job.Sound false history) : job.Sound working history := by
  cases sound with
  | dispatching lived delivers =>
    exact .dispatching lived ⟨delivers.proceeds, fun _ => delivers.waits rfl⟩
  | matching _ _ works => cases works
  | inserting lived fills advances step => exact .inserting lived fills advances step
  | closing lived advances complete delivers =>
    exact .closing lived advances complete ⟨delivers.proceeds, fun _ => delivers.waits rfl⟩

private theorem Job.Goes.id_eq (goes : job.Goes dealing next goesOn) : next.id = job.id := by
  cases goes <;> rfl

/-- A call that goes on keeps what is sure of its pool. -/
private theorem Job.Goes.sound (goes : job.Goes dealing next goesOn)
    (sound : job.Sound true history) : next.Sound goesOn (history ++ dealing.toList) := by
  cases goes with
  | dispatching turns =>
    cases sound with
    | dispatching lived delivers =>
      rw [Option.toList_none, List.append_nil]
      exact .dispatching lived (delivers.turns turns)
  | closing turns =>
    cases sound with
    | closing lived advances complete delivers =>
      rw [Option.toList_none, List.append_nil]
      exact .closing lived advances complete (delivers.turns turns)
  | @matched call pass next request departure step first =>
    cases sound with
    | @matching earlier before _ _ handedOut lived advances =>
      have longer : earlier ++ handedOut.map (.gives .resolved) ++ [.gives .resolved departure] =
          earlier ++ (handedOut ++ [departure]).map (Relocation.Dealing.gives .resolved) := by simp
      rw [Option.toList_some, longer]
      exact .matching lived (advances.matches_next step first) rfl
  | handsBack kept step =>
    cases sound with
    | matching lived advances =>
      rw [Option.toList_none, List.append_nil]
      refine .matching lived (advances.handsBack_next ?_ step) rfl
      simp only [PassCall.filling, kept]
  | @asks call _ _ _ _ kept step =>
    cases sound with
    | matching lived advances =>
      have fills : call.filling = .inserts := by simp only [PassCall.filling, kept]
      rw [fills] at advances
      rw [Option.toList_none, List.append_nil]
      exact .inserting lived rfl advances step
  | inserts handle objects =>
    cases sound with
    | inserting lived fills advances step =>
      rw [Option.toList_none, List.append_nil]
      refine .matching lived ?_ rfl
      rw [fills]
      exact advances.inserts_next rfl step handle objects
  | settles step =>
    cases sound with
    | matching lived advances => exact .closing lived advances step (.begins _)

/-- No exits are left recorded once a delivery has begun. -/
private theorem Delivers.exiting_eq {dispatcher : Lifecycle.Dispatcher}
    (delivers : Delivers dispatcher.drain drain working) : drain.dispatcher.exiting = [] :=
  (delivers.proceeds.begun (.start dispatcher)).exits

/-- A pool that is brought back has lived through what was done with it. -/
private theorem Job.Leaves.lived (leaves : job.Leaves working pool)
    (sound : job.Sound working history) : Relocation.Pool.Lived history pool := by
  cases leaves with
  | @dispatched id pool drain finished =>
    cases sound with
    | dispatching lived delivers =>
      have deals : pool.Deals (some .dispatches) { pool with dispatcher := drain.dispatcher } :=
        ⟨.dispatch delivers.proceeds finished, delivers.exiting_eq⟩
      exact lived.deals deals
  | @dispatchPanics id pool drain =>
    cases sound with
    | dispatching lived delivers =>
      obtain ⟨last, object, target, next, proceeds, step, same⟩ := delivers.waits rfl
      have deals : pool.Deals (some .dispatches) { pool with dispatcher := drain.dispatcher } :=
        ⟨same ▸ .observerPanics proceeds step, delivers.exiting_eq⟩
      exact lived.deals deals
  | @closed call _ _ drain finished =>
    cases sound with
    | @closing earlier before _ pass handedOut _ lived advances complete delivers =>
      obtain ⟨⟨config, run⟩, -⟩ := lived
      let ending : Relocation.Ending call.filling before :=
        ⟨pass, handedOut, drain, advances, complete, delivers.proceeds, finished⟩
      refine ⟨⟨config, ?_⟩, ?_⟩
      · rw [Relocation.transfersOf_pass]
        exact run.next (.endPass ending)
      · rw [Relocation.exitsOf_append_settles]
        exact delivers.exiting_eq
  | closingPanics =>
    cases sound with
    | closing lived advances complete delivers =>
      have none := delivers.exiting_eq
      obtain ⟨⟨config, run⟩, -⟩ := lived
      obtain ⟨last, object, target, next, proceeds, step, same⟩ := delivers.waits rfl
      rw [same] at none ⊢
      refine ⟨⟨config, ?_⟩, ?_⟩
      · rw [Relocation.transfersOf_pass]
        exact run.next (.observerPanicsInPass advances complete proceeds step)
      · rw [Relocation.exitsOf_append_settles]
        exact none
  | matchingPanics =>
    cases sound with
    | matching _ _ works => cases works
  | insertPanics =>
    cases sound with
    | inserting lived fills advances step =>
      obtain ⟨⟨config, run⟩, exits⟩ := lived
      refine ⟨⟨config, ?_⟩, ?_⟩
      · rw [Relocation.transfersOf_append, Relocation.transfersOf_gives]
        exact run.next (.insertPanics advances step)
      · have kept := advances.exiting_eq
        obtain ⟨_, -, -, rfl⟩ := Relocation.Pass.of_step_eq_unmatched step
        rw [Relocation.exitsOf_append_gives, ← exits]
        exact kept

end Jobs

/-- What was done with the pool at a place. -/
def dealingsAt (id : Nat) (history : List (Nat × Dealing)) : List Dealing :=
  history.filterMap fun done => if done.1 = id then some done.2 else none

private theorem dealingsAt_append_self (id : Nat) (history : List (Nat × Dealing))
    (dealing : Option Dealing) :
    dealingsAt id (history ++ (dealing.map (id, ·)).toList) =
      dealingsAt id history ++ dealing.toList := by
  cases dealing <;> simp [dealingsAt]

private theorem dealingsAt_append_of_ne {id other : Nat} (different : other ≠ id)
    (history : List (Nat × Dealing)) (dealing : Option Dealing) :
    dealingsAt other (history ++ (dealing.map (id, ·)).toList) = dealingsAt other history := by
  cases dealing <;> simp [dealingsAt, Ne.symm different]

namespace Stock

/-- One step with the pools of a session, with what is done, and whether the innermost of the calls
that have taken a pool away has control before it and after it. -/
inductive Step (stock : Stock) (working : Bool) :
    Option (Nat × Dealing) → Stock → Bool → Prop
  | rests (idle : working = false) (later : Bool) : Step stock working none stock later
  | waits : Step stock working none stock working
  | founds (idle : working = false) (config : Settings.RelocationConfig) (later : Bool) :
      Step stock working none { stock with pools := stock.pools.push (some { config }) } later
  | deals (idle : working = false) {id : Nat} {pool after : Pool} {dealing : Option Dealing}
      (found : stock.pools[id]? = some (some pool)) (deals : pool.Deals dealing after)
      (later : Bool) :
      Step stock working (dealing.map (id, ·))
        { stock with pools := stock.pools.setIfInBounds id (some after) } later
  | lendsForDispatch (idle : working = false) {id : Nat} {pool : Pool}
      (found : stock.pools[id]? = some (some pool)) :
      Step stock working (some (id, .dispatches))
        { pools := stock.pools.setIfInBounds id none
          jobs := .dispatching id pool pool.dispatcher.drain :: stock.jobs } true
  | lendsForPass (idle : working = false) {pool : Pool} {call : PassCall}
      (found : stock.pools[call.pool]? = some (some pool)) :
      Step stock working none
        { pools := stock.pools.setIfInBounds call.pool none
          jobs := .matching call pool.endPass :: stock.jobs } true
  | goesOn {job next : Job} {jobs : List Job} {dealing : Option Dealing} {later : Bool}
      (front : stock.jobs = job :: jobs) (works : working = true)
      (goes : job.Goes dealing next later) :
      Step stock working (dealing.map (job.id, ·)) { stock with jobs := next :: jobs } later
  | returns {job : Job} {jobs : List Job} {pool : Pool} (front : stock.jobs = job :: jobs)
      (leaves : job.Leaves working pool) (later : Bool) :
      Step stock working none
        { pools := stock.pools.setIfInBounds job.id (some pool)
          jobs } later
  | drops {label : Option (Nat × Dealing)} {after : Stock} {later : Bool}
      (step : Step stock working label after later) (id : Nat) :
      Step stock working label { after with pools := after.pools.setIfInBounds id none } later

/-- Every pool is at its place or was taken away by one call, or it has been given up; and it has
lived through what was done with it. -/
structure Sound (stock : Stock) (working : Bool) (history : List (Nat × Dealing)) : Prop where
  away : ∀ job ∈ stock.jobs, stock.pools[job.id]? = some none
  apart : (stock.jobs.map Job.id).Nodup
  lived : ∀ id pool, stock.pools[id]? = some (some pool) →
    Relocation.Pool.Lived (dealingsAt id history) pool
  innermost : ∀ job ∈ stock.jobs.head?, job.Sound working (dealingsAt job.id history)
  outer : ∀ job ∈ stock.jobs.tail, job.Sound false (dealingsAt job.id history)
  fresh : ∀ id, stock.pools.size ≤ id → dealingsAt id history = []

variable {stock after : Stock} {working later : Bool} {history : List (Nat × Dealing)}
  {label : Option (Nat × Dealing)} {id : Nat} {pool : Pool} {job : Job} {jobs : List Job}

private theorem Sound.notMem (sound : stock.Sound working history)
    (found : stock.pools[id]? = some (some pool)) : id ∉ stock.jobs.map Job.id := by
  intro member
  obtain ⟨job, taken, rfl⟩ := List.mem_map.mp member
  rw [sound.away job taken] at found
  cases found

/-- While no call with a pool has control, they all wait. -/
private theorem Sound.waits (sound : stock.Sound false history) :
    ∀ job ∈ stock.jobs, job.Sound false (dealingsAt job.id history) := by
  intro job member
  rcases listed : stock.jobs with _ | ⟨first, others⟩
  · rw [listed] at member
    cases member
  · rw [listed] at member
    rcases List.mem_cons.mp member with rfl | other
    · exact sound.innermost job (by rw [listed]; rfl)
    · exact sound.outer job (by rw [listed]; exact other)

/-- Calls with other pools do not notice what is done with one. -/
private theorem unnoticed (dealing : Option Dealing) (apart : id ∉ jobs.map Job.id)
    (sound : ∀ job ∈ jobs, job.Sound working (dealingsAt job.id history)) :
    ∀ job ∈ jobs,
      job.Sound working (dealingsAt job.id (history ++ (dealing.map (id, ·)).toList)) := by
  intro job member
  have different : job.id ≠ id := fun same => apart (same ▸ List.mem_map_of_mem member)
  rw [dealingsAt_append_of_ne different]
  exact sound job member

private theorem away_setIfInBounds {state : Option Pool} (apart : id ∉ jobs.map Job.id)
    (away : ∀ job ∈ jobs, stock.pools[job.id]? = some none) :
    ∀ job ∈ jobs, (stock.pools.setIfInBounds id state)[job.id]? = some none := by
  intro job member
  have different : id ≠ job.id := fun same => apart (same ▸ List.mem_map_of_mem member)
  rw [Array.getElem?_setIfInBounds_ne different]
  exact away job member

/-- What is done with one pool leaves the others as they are. -/
private theorem lived_setIfInBounds {state : Option Pool} (dealing : Option Dealing)
    (lived : ∀ id pool, stock.pools[id]? = some (some pool) →
      Relocation.Pool.Lived (dealingsAt id history) pool)
    (own : ∀ pool, state = some pool →
      Relocation.Pool.Lived (dealingsAt id history ++ dealing.toList) pool) :
    ∀ other pool, (stock.pools.setIfInBounds id state)[other]? = some (some pool) →
      Relocation.Pool.Lived (dealingsAt other (history ++ (dealing.map (id, ·)).toList)) pool := by
  intro other pool found
  by_cases same : id = other
  · subst same
    rw [Array.getElem?_setIfInBounds_self] at found
    split at found
    · rw [dealingsAt_append_self]
      exact own pool (Option.some.inj found)
    · cases found
  · rw [Array.getElem?_setIfInBounds_ne same] at found
    rw [dealingsAt_append_of_ne (Ne.symm same)]
    exact lived other pool found

private theorem fresh_append {dealing : Option Dealing} (inside : id < stock.pools.size)
    (fresh : ∀ other, stock.pools.size ≤ other → dealingsAt other history = []) :
    ∀ other, stock.pools.size ≤ other →
      dealingsAt other (history ++ (dealing.map (id, ·)).toList) = [] := by
  intro other outside
  rw [dealingsAt_append_of_ne (by omega)]
  exact fresh other outside

/-- A call takes a pool away. -/
private theorem Sound.lends (sound : stock.Sound false history) (job : Job)
    (dealing : Option Dealing) (found : stock.pools[job.id]? = some (some pool))
    (own : job.Sound true (dealingsAt job.id history ++ dealing.toList)) :
    Sound ⟨stock.pools.setIfInBounds job.id none, job :: stock.jobs⟩ true
      (history ++ (dealing.map (job.id, ·)).toList) := by
  have inside := (Array.getElem?_eq_some_iff.mp found).1
  have unheld := sound.notMem found
  constructor
  case away =>
    intro other member
    rcases List.mem_cons.mp member with rfl | former
    · exact Array.getElem?_setIfInBounds_self_of_lt inside
    · exact away_setIfInBounds unheld sound.away other former
  case apart => exact List.nodup_cons.mpr ⟨unheld, sound.apart⟩
  case lived => exact lived_setIfInBounds dealing sound.lived nofun
  case innermost =>
    intro other member
    cases Option.mem_some_iff.mp member
    rw [dealingsAt_append_self]
    exact own
  case outer => exact unnoticed dealing unheld sound.waits
  case fresh =>
    rw [Array.size_setIfInBounds]
    exact fresh_append inside sound.fresh

/-- A step leaves every pool with a life of its own. -/
theorem Step.sound (step : stock.Step working label after later)
    (sound : stock.Sound working history) : after.Sound later (history ++ label.toList) := by
  induction step with
  | rests idle later =>
    subst idle
    rw [Option.toList_none, List.append_nil]
    refine ⟨sound.away, sound.apart, sound.lived, fun job member => ?_, sound.outer, sound.fresh⟩
    exact (sound.innermost job member).weaken
  | waits =>
    rw [Option.toList_none, List.append_nil]
    exact sound
  | founds idle config later =>
    subst idle
    rw [Option.toList_none, List.append_nil]
    constructor
    case away =>
      intro job member
      have away := sound.away job member
      rw [Array.getElem?_push_lt (Array.getElem?_eq_some_iff.mp away).1]
      rwa [Array.getElem?_eq_getElem] at away
    case apart => exact sound.apart
    case lived =>
      intro id pool found
      rw [Array.getElem?_push] at found
      split at found
      · next new =>
        subst new
        rw [sound.fresh _ (Nat.le_refl _)]
        cases found
        exact .new config
      · exact sound.lived id pool found
    case innermost => exact fun job member => (sound.innermost job member).weaken
    case outer => exact sound.outer
    case fresh =>
      intro id outside
      rw [Array.size_push] at outside
      exact sound.fresh id (by omega)
  | @deals idle id pool changed dealing found deals later =>
    subst idle
    have inside := (Array.getElem?_eq_some_iff.mp found).1
    have unheld := sound.notMem found
    have waiting := unnoticed dealing unheld sound.waits
    constructor
    case away => exact away_setIfInBounds unheld sound.away
    case apart => exact sound.apart
    case lived =>
      refine lived_setIfInBounds dealing sound.lived fun after same => ?_
      cases same
      exact (sound.lived id pool found).deals deals
    case innermost => exact fun job member => (waiting job (List.mem_of_mem_head? member)).weaken
    case outer => exact fun job member => waiting job (List.mem_of_mem_tail member)
    case fresh =>
      rw [Array.size_setIfInBounds]
      exact fresh_append inside sound.fresh
  | @lendsForDispatch idle id pool found =>
    subst idle
    have lived := sound.lived id pool found
    exact sound.lends (.dispatching id pool pool.dispatcher.drain) (some .dispatches) found
      (.dispatching lived (.begins _))
  | @lendsForPass idle pool call found =>
    subst idle
    have lived := sound.lived call.pool pool found
    have own : Job.Sound true (dealingsAt call.pool history ++ (none : Option Dealing).toList)
        (.matching call pool.endPass) := .matching lived (.refl _) rfl
    exact sound.lends (.matching call pool.endPass) none found own
  | @goesOn job next jobs dealing later front works goes =>
    subst works
    obtain ⟨away, apart, lived, innermost, outer, fresh⟩ := sound
    rw [front] at away apart innermost outer
    have inside := (Array.getElem?_eq_some_iff.mp (away job List.mem_cons_self)).1
    obtain ⟨unheld, apart⟩ := List.nodup_cons.mp apart
    have same := goes.id_eq
    constructor
    case away =>
      intro other member
      rcases List.mem_cons.mp member with rfl | former
      · rw [same]
        exact away job List.mem_cons_self
      · exact away other (List.mem_cons_of_mem _ former)
    case apart =>
      rw [List.map_cons, same]
      exact List.nodup_cons.mpr ⟨unheld, apart⟩
    case lived =>
      intro other pool found
      have different : other ≠ job.id := by
        rintro rfl
        rw [away job List.mem_cons_self] at found
        cases found
      rw [dealingsAt_append_of_ne different]
      exact lived other pool found
    case innermost =>
      intro other member
      cases Option.mem_some_iff.mp member
      rw [same, dealingsAt_append_self]
      exact goes.sound (innermost job rfl)
    case outer => exact unnoticed dealing unheld outer
    case fresh => exact fresh_append inside fresh
  | @returns job jobs pool front leaves later =>
    obtain ⟨away, apart, lived, innermost, outer, fresh⟩ := sound
    rw [front] at away apart innermost outer
    obtain ⟨unheld, apart⟩ := List.nodup_cons.mp apart
    constructor
    case away =>
      exact away_setIfInBounds unheld fun other member => away other (List.mem_cons_of_mem _ member)
    case apart => exact apart
    case lived =>
      refine lived_setIfInBounds none lived fun after same => ?_
      cases same
      rw [Option.toList_none, List.append_nil]
      exact leaves.lived (innermost job rfl)
    case innermost =>
      rw [Option.toList_none, List.append_nil]
      exact fun other member => (outer other (List.mem_of_mem_head? member)).weaken
    case outer =>
      rw [Option.toList_none, List.append_nil]
      exact fun other member => outer other (List.mem_of_mem_tail member)
    case fresh =>
      rw [Option.toList_none, List.append_nil, Array.size_setIfInBounds]
      exact fresh
  | drops step id ih =>
    obtain ⟨away, apart, lived, innermost, outer, fresh⟩ := ih
    refine ⟨fun job member => ?_, apart, fun other pool found => ?_, innermost, outer, ?_⟩
    · have gone := away job member
      by_cases same : id = job.id
      · rw [same]
        exact Array.getElem?_setIfInBounds_self_of_lt (Array.getElem?_eq_some_iff.mp gone).1
      · rwa [Array.getElem?_setIfInBounds_ne same]
    · by_cases same : id = other
      · subst same
        rw [Array.getElem?_setIfInBounds_self] at found
        split at found <;> cases found
      · rw [Array.getElem?_setIfInBounds_ne same] at found
        exact lived other pool found
    · rw [Array.size_setIfInBounds]
      exact fresh

end Stock

end LiveTree.Session
