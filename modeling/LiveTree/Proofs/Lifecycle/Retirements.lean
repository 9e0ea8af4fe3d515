import LiveTree.Proofs.Lifecycle.Reckoning
import LiveTree.Proofs.Session.Calling

/-! Retirements are delivered once. In every course of a session each retirement that was recorded
is in one place: with its dispatcher, in a batch, still to be attempted by a delivery, attempted by
it, or lost with it because a panic left it. What the operations do is said of the account, step by
step: a dispatcher hands over all it holds, a merged batch comes behind the one it is merged into, a
delivery begins with a whole batch and attempts it in order, and a panic loses the rest of one
delivery and nothing else. What has once been attempted or lost stays so. -/
namespace LiveTree.Lifecycle

private theorem State.canBecome_retired_iff {state : State} :
    state.canBecome .retired = true ↔ state = .retained ∨ state = .exited := by
  cases state <;> simp [State.canBecome]

end LiveTree.Lifecycle

namespace LiveTree.Session

open Lifecycle (ObjectId Dispatcher RetireBatch Retirement)

namespace Ledger

/-- All slips at a place go to the end of another, and no others move. -/
structure Pours (ledger after : Ledger) (source target : Spot) : Prop where
  goes : after.slips target = ledger.slips target ++ ledger.slips source
  empties : after.slips source = []
  others : ∀ spot, spot ≠ source → spot ≠ target → after.slips spot = ledger.slips spot

/-- A delivery begins inside those in progress, with all slips at a place. -/
structure Begins (ledger after : Ledger) (source : Spot) (asker : Option (List Call)) : Prop where
  rounds : after.rounds = ledger.rounds ++ [⟨ledger.slips source, asker⟩]
  running : after.running = ledger.rounds.length :: ledger.running
  due : after.slips (.due ledger.rounds.length) = ledger.slips source

/-- A delivery attempts the first of the slips that it has still to attempt. -/
structure Attempts (ledger after : Ledger) (round serial : Nat) : Prop where
  innermost : ledger.running.head? = some round
  running : after.running = ledger.running
  due : ledger.slips (.due round) = serial :: after.slips (.due round)
  attempted : after.slips (.attempted round) = ledger.slips (.attempted round) ++ [serial]
  others : ∀ spot, spot ≠ .due round → spot ≠ .attempted round →
    after.slips spot = ledger.slips spot

/-- What is over stays over. -/
structure Lasts (ledger later : Ledger) : Prop where
  recorded : ledger.recorded <+: later.recorded
  rounds : ledger.rounds <+: later.rounds
  told : ledger.told <+: later.told
  /-- A delivery attempts nothing twice and takes no attempt back. -/
  attempted : ∀ round, ledger.slips (.attempted round) <+: later.slips (.attempted round)
  /-- A delivery that is over is not resumed: what it has attempted and lost is final. -/
  final : ∀ round < ledger.rounds.length, round ∉ ledger.running → round ∉ later.running ∧
    later.slips (.attempted round) = ledger.slips (.attempted round) ∧
    later.slips (.lost round) = ledger.slips (.lost round)

variable {ledger later : Ledger} {source target spot : Spot}

private theorem pours_pour (different : source ≠ target) :
    ledger.Pours (ledger.pour source target) source target where
  goes := by rw [slips_pour, if_neg different.symm, if_pos rfl]
  empties := by rw [slips_pour, if_pos rfl, if_neg different, List.append_nil]
  others spot first second := ledger.slips_pour_of_ne spot source target first second

private theorem begins_start (balanced : ledger.Balanced) (waits : source.Waits)
    (asker : Option (List Call)) : ledger.Begins (ledger.start source asker) source asker where
  rounds := rfl
  running := rfl
  due := by
    have apart : Spot.due ledger.rounds.length ≠ source := waits.ne id
    rw [slips_start, if_neg apart, if_pos rfl, (balanced.fresh (Nat.le_refl _)).2.1,
      List.nil_append]

/-- What else the step does is none of the delivery's business: retirements come to a waiting
place, -/
private theorem Begins.enter {asker : Option (List Call)}
    (begins : ledger.Begins later source asker) (waits : spot.Waits) (objects : List ObjectId) :
    ledger.Begins (later.enter spot objects) source asker where
  rounds := begins.rounds
  running := begins.running
  due := by
    rw [slips_enter_of_ne _ _ _ _ (waits.ne id), begins.due]

/-- or go from one to another. -/
private theorem Begins.pour {asker : Option (List Call)} (begins : ledger.Begins later source asker)
    (fetches : spot.Waits) (brings : target.Waits) :
    ledger.Begins (later.pour spot target) source asker where
  rounds := begins.rounds
  running := begins.running
  due := by
    rw [slips_pour_of_ne _ _ _ _ (fetches.ne id) (brings.ne id), begins.due]

namespace Lasts

private theorem refl (ledger : Ledger) : ledger.Lasts ledger :=
  ⟨List.prefix_refl _, List.prefix_refl _, List.prefix_refl _, fun _ => List.prefix_refl _,
    fun _ _ ended => ⟨ended, rfl, rfl⟩⟩

private theorem trans {last : Ledger} (early : ledger.Lasts later) (late : later.Lasts last) :
    ledger.Lasts last where
  recorded := early.recorded.trans late.recorded
  rounds := early.rounds.trans late.rounds
  told := early.told.trans late.told
  attempted round := (early.attempted round).trans (late.attempted round)
  final := by
    intro round begun ended
    obtain ⟨stillEnded, attempted, lost⟩ := early.final round begun ended
    have stillBegun := Nat.lt_of_lt_of_le begun early.rounds.length_le
    obtain ⟨ends, attemptedLater, lostLater⟩ := late.final round stillBegun stillEnded
    exact ⟨ends, attemptedLater.trans attempted, lostLater.trans lost⟩

/-- What a slip stands for does not change. -/
private theorem recorded_eq_some (lasts : ledger.Lasts later) {serial : Nat} {object : ObjectId}
    (recorded : ledger.recorded[serial]? = some object) :
    later.recorded[serial]? = some object := by
  obtain ⟨more, grown⟩ := lasts.recorded
  have within := (List.getElem?_eq_some_iff.mp recorded).1
  rw [← grown, List.getElem?_append_left within, recorded]

/-- What moves slips only between waiting places changes nothing about the deliveries. -/
private theorem of_waiting (recorded : ledger.recorded <+: later.recorded)
    (rounds : later.rounds = ledger.rounds) (running : later.running = ledger.running)
    (told : later.told = ledger.told)
    (kept : ∀ spot, ¬ spot.Waits → later.slips spot = ledger.slips spot) : ledger.Lasts later where
  recorded := recorded
  rounds := rounds ▸ List.prefix_rfl
  told := told ▸ List.prefix_rfl
  attempted round := kept (.attempted round) id ▸ List.prefix_rfl
  final := by
    intro round _ ended
    rw [running]
    exact ⟨ended, kept (.attempted round) id, kept (.lost round) id⟩

private theorem attempt (ledger : Ledger) (told : Bool) : ledger.Lasts (ledger.attempt told) := by
  cases running : ledger.running with
  | nil => exact (ledger.attempt_of_running_eq_nil running told).symm ▸ refl ledger
  | cons current outer =>
    have attempted := attempted_attempt running told
    constructor
    case recorded => exact (ledger.recorded_attempt told).symm ▸ List.prefix_rfl
    case rounds => exact (ledger.rounds_attempt told).symm ▸ List.prefix_rfl
    case told =>
      rw [told_attempt running]
      split
      · exact List.prefix_append _ _
      · exact List.prefix_rfl
    case attempted => exact fun round => ⟨_, (attempted round).symm⟩
    case final =>
      intro round _ ended
      have other : round ≠ current := by
        rintro rfl
        exact ended (running ▸ List.mem_cons_self)
      refine ⟨(ledger.running_attempt told).symm ▸ ended, ?_, ledger.lost_attempt told round⟩
      rw [attempted, if_neg other, List.append_nil]

private theorem finish (ledger : Ledger) : ledger.Lasts ledger.finish := by
  cases running : ledger.running with
  | nil => exact (ledger.finish_of_running_eq_nil running).symm ▸ refl ledger
  | cons current outer =>
    constructor
    case recorded => exact ledger.recorded_finish.symm ▸ List.prefix_rfl
    case rounds => exact ledger.rounds_finish.symm ▸ List.prefix_rfl
    case told => exact ledger.told_finish.symm ▸ List.prefix_rfl
    case attempted => exact fun round => (ledger.attempted_finish round).symm ▸ List.prefix_rfl
    case final =>
      intro round _ ended
      rw [running] at ended
      obtain ⟨other, outside⟩ := List.ne_and_not_mem_of_not_mem_cons ended
      refine ⟨?_, ledger.attempted_finish round, ?_⟩
      · rwa [running_finish, running]
      · rw [lost_finish running, if_neg other, List.append_nil]

private theorem after {errand : Errand} (regular : errand.Regular) :
    ledger.Lasts (ledger.after errand) := by
  cases errand with
  | enters spot objects =>
    have waits : spot.Waits := regular
    exact of_waiting (List.prefix_append _ _) rfl rfl rfl fun other delivers =>
      ledger.slips_enter_of_ne spot other objects (waits.ne delivers)
  | pours source target =>
    obtain ⟨waits, name, rfl⟩ := regular
    have batched : (Spot.batch name).Waits := trivial
    exact of_waiting (List.prefix_refl _) rfl rfl rfl fun other delivers =>
      ledger.slips_pour_of_ne other source (.batch name) (waits.ne delivers) (batched.ne delivers)
  | begins source asker =>
    have attempted := ledger.attempted_start regular asker
    have lost := ledger.lost_start regular asker
    refine ⟨List.prefix_rfl, List.prefix_append _ _, List.prefix_rfl,
      fun round => attempted round ▸ List.prefix_rfl, fun round begun ended => ?_⟩
    refine ⟨fun member => ?_, attempted round, lost round⟩
    rcases List.mem_cons.mp member with rfl | before
    · omega
    · exact ended before
  | attempts told => exact attempt ledger told
  | ends => exact finish ledger

private theorem afterAll {errands : List Errand} (regular : ∀ errand ∈ errands, errand.Regular) :
    ledger.Lasts (ledger.afterAll errands) := by
  induction errands generalizing ledger with
  | nil => exact .refl ledger
  | cons errand errands ih =>
    exact (Lasts.after (regular errand List.mem_cons_self)).trans
      (ih fun other member => regular other (List.mem_cons_of_mem _ member))

end Lasts

/-- What every single errand keeps is kept by all of them. -/
private theorem kept_afterAll {β : Type} (seen : Ledger → β) {errands : List Errand}
    (kept : ∀ errand ∈ errands, ∀ ledger : Ledger, seen (ledger.after errand) = seen ledger)
    (ledger : Ledger) : seen (ledger.afterAll errands) = seen ledger := by
  induction errands generalizing ledger with
  | nil => rfl
  | cons errand errands ih =>
    have later := ih (fun other member => kept other (List.mem_cons_of_mem _ member))
    exact (later _).trans (kept errand List.mem_cons_self ledger)

/-- What is told changes only with an attempt, -/
private theorem told_after {errand : Errand} (rests : ∀ told, errand ≠ .attempts told)
    (ledger : Ledger) : (ledger.after errand).told = ledger.told := by
  cases errand with
  | enters | pours | begins => rfl
  | attempts told => exact absurd rfl (rests told)
  | ends => exact ledger.told_finish

/-- and so does what has been attempted. -/
private theorem attempted_after {errand : Errand} (regular : errand.Regular)
    (rests : ∀ told, errand ≠ .attempts told) (round : Nat) (ledger : Ledger) :
    (ledger.after errand).slips (.attempted round) = ledger.slips (.attempted round) := by
  cases errand with
  | enters spot objects =>
    have waits : spot.Waits := regular
    exact ledger.slips_enter_of_ne _ _ objects (waits.ne id)
  | pours source target =>
    obtain ⟨waits, name, rfl⟩ := regular
    exact ledger.slips_pour_of_ne _ _ _ (waits.ne id) nofun
  | begins source asker => exact ledger.attempted_start regular asker round
  | attempts told => exact absurd rfl (rests told)
  | ends => exact ledger.attempted_finish round

/-- What is lost changes only when a delivery ends. -/
private theorem lost_after {errand : Errand} (regular : errand.Regular) (goesOn : errand ≠ .ends)
    (round : Nat) (ledger : Ledger) :
    (ledger.after errand).slips (.lost round) = ledger.slips (.lost round) := by
  cases errand with
  | enters spot objects =>
    have waits : spot.Waits := regular
    exact ledger.slips_enter_of_ne _ _ objects (waits.ne id)
  | pours source target =>
    obtain ⟨waits, name, rfl⟩ := regular
    exact ledger.slips_pour_of_ne _ _ _ (waits.ne id) nofun
  | begins source asker => exact ledger.lost_start regular asker round
  | attempts told => exact ledger.lost_attempt told round
  | ends => exact absurd rfl goesOn

end Ledger

namespace Machine

/-- A batch is given up: it is dropped, it is to be merged where there is no batch, or another batch
gets its name. -/
inductive GivesUp (machine : Machine) (name : Name) : Prop
  | discards (control : machine.control = .execute (.batch (.discard name)))
  | merges {target : Name} (control : machine.control = .execute (.batch (.extend target name)))
      (absent : (machine.world.batches.erase name).get? target = none)
  | creates (control : machine.control = .execute (.batch (.create name)))
  | takes {dispatcher : Name}
      (control : machine.control = .execute (.dispatcher (.takeRetirements dispatcher name)))
      (present : (machine.dispatcher? dispatcher).isSome)
  | takesFromPool {pool : Name}
      (control : machine.control = .execute (.pool (.takeRetirements pool name)))
      (present : (machine.pool? pool).isSome)

/-- An attempt that finds its object retained or exited retires it and calls it back, unless it is
silent. -/
structure Tells (machine : Machine) (object : ObjectId) (later : List Call) : Prop where
  found : machine.world.objects.state object = .retained ∨
    machine.world.objects.state object = .exited
  retired : machine.step.world.objects.state object = .retired
  callsBack : ∃ observer,
    (machine.world.objects.get? object).map Lifecycle.Retained.observer = some observer ∧
      if observer.reactions.silent then
        machine.step.calls = machine.calls ∧ machine.step.stack = later
      else
        machine.step.calls = .told observer.name .retired :: machine.calls ∧
          machine.step.stack = .body observer.reactions.retired :: later

/-- Any other attempt changes nothing and calls nobody back. -/
structure Skips (machine : Machine) (object : ObjectId) (later : List Call) : Prop where
  found : machine.world.objects.state object ≠ .retained ∧
    machine.world.objects.state object ≠ .exited
  world : machine.step.world = machine.world
  calls : machine.step.calls = machine.calls
  stack : machine.step.stack = later
  proceeds : machine.step.control = .proceed

/-- Retirements are delivered once: what holds of the account so far, of the account after the next
step, and of all accounts in between. -/
structure DeliversOnce (passed : List Machine) (machine : Machine) : Prop where
  /-- The account is that of the machine: where retirements wait, the slips are those of the objects
  that are there, in the same order, and so it is with the deliveries in progress. -/
  agrees : (ledger passed).Agrees machine.desk.held machine.desk.deliveries
  /-- A retirement that was recorded is in exactly one place. A dispatcher holds its retirements in
  the recorded order, and a delivery has attempted, has still to attempt, or has lost all that it
  began with, in this order. -/
  balanced : (ledger passed).Balanced
  /-- What is recorded comes behind everything that the dispatcher holds. -/
  records : ∀ name objects id dispatcher,
    machine.control = .execute (.dispatcher (.record name .retired objects)) →
    machine.dispatcher? name = some (id, dispatcher) →
    ledger (passed ++ [machine]) =
      (ledger passed).enter (.queue id) (machine.world.resolveObjects objects).1
  /-- A batch that is taken is all that the dispatcher holds. -/
  takes : ∀ name batch id dispatcher,
    machine.control = .execute (.dispatcher (.takeRetirements name batch)) →
    machine.dispatcher? name = some (id, dispatcher) →
    (ledger (passed ++ [machine])).slips (.batch batch) = (ledger passed).slips (.queue id) ∧
      (ledger (passed ++ [machine])).slips (.queue id) = [] ∧
      ∀ spot, spot.Waits → spot ≠ .batch batch → spot ≠ .queue id →
        (ledger (passed ++ [machine])).slips spot = (ledger passed).slips spot
  /-- A batch that is merged into another comes behind it, and it is gone. -/
  merges : ∀ name source batch other,
    machine.control = .execute (.batch (.extend name source)) →
    machine.world.batches.get? source = some other →
    (machine.world.batches.erase source).get? name = some batch →
    (ledger passed).Pours (ledger (passed ++ [machine])) (.batch source) (.batch name) ∧
      machine.step.world.batches.get? source = none
  /-- A batch that is dispatched becomes a delivery, whose count is the answer to the command, and
  it is gone. -/
  dispatches : ∀ name batch,
    machine.control = .execute (.batch (.dispatch name)) →
    machine.world.batches.get? name = some batch →
    (ledger passed).Begins (ledger (passed ++ [machine])) (.batch name) (some machine.stack) ∧
      (ledger passed).Pours (ledger (passed ++ [machine])) (.batch name)
        (.due (ledger passed).rounds.length) ∧
      machine.step.world.batches.get? name = none
  /-- A batch that is given up becomes a delivery as well, and nobody waits for its count. No other
  batch is concerned. -/
  drops : ∀ name batch, machine.GivesUp name → machine.world.batches.get? name = some batch →
    (ledger passed).Begins (ledger (passed ++ [machine])) (.batch name) none ∧
      ∀ other, other ≠ name →
        (ledger (passed ++ [machine])).slips (.batch other) = (ledger passed).slips (.batch other)
  /-- A delivery attempts one retirement after another, and tells the object or skips it. -/
  attempts : ∀ delivery counted calls object next,
    machine.control = .proceed → machine.stack = .retiring delivery counted :: calls →
    delivery.next? = some (object, next) →
    ∃ round serial, (ledger passed).recorded[serial]? = some object ∧
      (ledger passed).Attempts (ledger (passed ++ [machine])) round serial ∧
      ((ledger (passed ++ [machine])).told = (ledger passed).told ++ [serial] ∧
          machine.Tells object (.retiring next.delivered counted :: calls) ∨
        (ledger (passed ++ [machine])).told = (ledger passed).told ∧
          machine.Skips object (.retiring next counted :: calls))
  /-- What has been attempted was attempted once, and it was told if its object was retained or
  exited then. -/
  attempted : ∀ round serial, serial ∈ (ledger passed).slips (.attempted round) →
    ∃ before middle later object, passed = before ++ middle :: later ∧
      (ledger before).Attempts (ledger (before ++ [middle])) round serial ∧
      (ledger passed).recorded[serial]? = some object ∧
      (serial ∈ (ledger passed).told ↔ middle.world.objects.state object = .retained ∨
        middle.world.objects.state object = .exited) ∧
      ∀ earlier other since another, passed = earlier ++ other :: since →
        (ledger earlier).Attempts (ledger (earlier ++ [other])) another serial → earlier = before
  /-- When it has attempted the whole batch it ends, and the answer to a dispatch is the number of
  the retirements that it has told. -/
  finishes : ∀ delivery counted calls,
    machine.control = .proceed → machine.stack = .retiring delivery counted :: calls →
    delivery.next? = none →
    ∃ round begun, (ledger passed).running.head? = some round ∧
      (ledger passed).rounds[round]? = some begun ∧
      (ledger passed).slips (.attempted round) = begun.whole ∧
      (ledger (passed ++ [machine])).slips = (ledger passed).slips ∧
      (ledger (passed ++ [machine])).running = (ledger passed).running.tail ∧
      begun.asker = (if counted then some calls else none) ∧
      machine.step.stack = calls ∧
      machine.step.control =
        if counted then .answer (.count (begun.whole.countP fun serial =>
          serial ∈ (ledger passed).told))
        else .proceed
  /-- A panic that leaves a delivery loses the rest of it and nothing else. -/
  panics : ∀ reason delivery counted calls,
    machine.control = .unwind reason → machine.stack = .retiring delivery counted :: calls →
    ∃ round, (ledger passed).running.head? = some round ∧
      (ledger passed).Pours (ledger (passed ++ [machine])) (.due round) (.lost round) ∧
      (ledger (passed ++ [machine])).running = (ledger passed).running.tail ∧
      machine.step.stack = calls ∧ machine.step.control = .unwind reason
  /-- Nothing is lost in another way. -/
  lost : ∀ round, (ledger passed).slips (.lost round) ≠ [] →
    ∃ before middle later reason delivery counted calls,
      passed = before ++ middle :: later ∧ middle.control = .unwind reason ∧
      middle.stack = .retiring delivery counted :: calls ∧
      (ledger before).running.head? = some round ∧
      (ledger before).slips (.due round) = (ledger passed).slips (.lost round)
  /-- What has been attempted or lost stays so, and a delivery that is over is not resumed. -/
  lasts : ∀ before later, passed = before ++ later → (ledger before).Lasts (ledger passed)

variable {machine : Machine} {passed : List Machine} {calls : List Call}

private theorem errands_of_execute {command : Command}
    (control : machine.control = .execute command) :
    machine.errands = machine.startedErrands command := by
  unfold errands
  rw [control]

private theorem errands_of_proceed {call : Call} (control : machine.control = .proceed)
    (stack : machine.stack = call :: calls) :
    machine.errands = machine.continuedErrands call := by
  unfold errands
  rw [control, stack]

private theorem errands_of_unwind {reason : Panic} {delivery : Retirement} {counted : Bool}
    (control : machine.control = .unwind reason)
    (stack : machine.stack = .retiring delivery counted :: calls) : machine.errands = [.ends] := by
  unfold errands
  rw [control, stack]

/-- After a batch has been ousted its name stands for nothing, and nothing else is concerned that
waits. -/
private theorem Reckoned.ousts {ledger : Ledger} {desk : Desk} (reckoned : Reckoned ledger desk)
    (name : Name) :
    (ledger.afterAll (desk.ousts name)).slips (.batch name) = [] ∧
      ∀ spot, spot.Waits → spot ≠ .batch name →
        (ledger.afterAll (desk.ousts name)).slips spot = ledger.slips spot := by
  unfold Desk.ousts
  split
  · next former found =>
    change (ledger.start (.batch name) none).slips _ = [] ∧
      ∀ spot, _ → _ → (ledger.start (.batch name) none).slips spot = _
    refine ⟨by simp [Ledger.slips_start], fun spot waits different => ?_⟩
    exact ledger.slips_pour_of_ne _ _ _ different (waits.ne id).symm
  · next absent =>
    refine ⟨reckoned.agrees.waits_nothing trivial ?_, fun _ _ _ => rfl⟩
    simp [Desk.held, Desk.batch, absent]

private theorem Course.takes (course : Course passed machine) {name batch : Name} {id : Nat}
    {dispatcher : Dispatcher}
    (control : machine.control = .execute (.dispatcher (.takeRetirements name batch)))
    (present : machine.dispatcher? name = some (id, dispatcher)) :
    (ledger (passed ++ [machine])).slips (.batch batch) = (ledger passed).slips (.queue id) ∧
      (ledger (passed ++ [machine])).slips (.queue id) = [] ∧
      ∀ spot, spot.Waits → spot ≠ .batch batch → spot ≠ .queue id →
        (ledger (passed ++ [machine])).slips spot = (ledger passed).slips spot := by
  obtain ⟨cleared, kept⟩ := course.reckoned.ousts batch
  have queued : (Spot.queue id).Waits := trivial
  have apart : Spot.queue id ≠ .batch batch := nofun
  obtain ⟨goes, empties, others⟩ :=
    @Ledger.pours_pour ((ledger passed).afterAll (machine.desk.ousts batch)) _ _ apart
  rw [ledger_append, errands_of_execute control]
  simp only [startedErrands, present]
  rw [Ledger.afterAll_append]
  rw [cleared, kept _ queued apart, List.nil_append] at goes
  refine ⟨goes, empties, fun spot waits batched other => ?_⟩
  exact (others spot other batched).trans (kept spot waits batched)

private theorem Course.merges {name source : Name} {batch other : RetireBatch}
    (control : machine.control = .execute (.batch (.extend name source)))
    (found : machine.world.batches.get? source = some other)
    (into : (machine.world.batches.erase source).get? name = some batch) :
    (ledger passed).Pours (ledger (passed ++ [machine])) (.batch source) (.batch name) ∧
      machine.step.world.batches.get? source = none := by
  have apart : source ≠ name := by
    rintro rfl
    rw [Table.get?_erase_self] at into
    cases into
  constructor
  · rw [ledger_append, errands_of_execute control]
    simp only [startedErrands, found, into]
    exact Ledger.pours_pour fun same => apart (Spot.batch.inj same)
  · have after : machine.step = machine.executeBatch (.extend name source) :=
      step_of_execute control
    rw [after]
    simp only [executeBatch, found, mergeBatch, removeBatch, withWorld, into, reply]
    rw [Table.get?_set_of_ne _ _ apart, Table.get?_erase_self]

private theorem Course.dispatches (course : Course passed machine) {name : Name}
    {batch : RetireBatch} (control : machine.control = .execute (.batch (.dispatch name)))
    (found : machine.world.batches.get? name = some batch) :
    (ledger passed).Begins (ledger (passed ++ [machine])) (.batch name) (some machine.stack) ∧
      (ledger passed).Pours (ledger (passed ++ [machine])) (.batch name)
        (.due (ledger passed).rounds.length) ∧
      machine.step.world.batches.get? name = none := by
  have begins : ledger (passed ++ [machine]) =
      (ledger passed).start (.batch name) (some machine.stack) := by
    rw [ledger_append, errands_of_execute control]
    simp only [startedErrands, found]
    rfl
  rw [begins]
  have waits : (Spot.batch name).Waits := trivial
  have apart : Spot.batch name ≠ .due (ledger passed).rounds.length := (waits.ne id).symm
  obtain ⟨goes, empties, others⟩ := @Ledger.pours_pour (ledger passed) _ _ apart
  refine ⟨Ledger.begins_start course.reckoned.balanced waits _, ⟨goes, empties, others⟩, ?_⟩
  have after : machine.step = machine.executeBatch (.dispatch name) := step_of_execute control
  rw [after]
  simp [executeBatch, onBatch, found, removeBatch, withWorld, push, proceed]

private theorem Course.drops (course : Course passed machine) {name : Name} {batch : RetireBatch}
    (givesUp : machine.GivesUp name) (found : machine.world.batches.get? name = some batch) :
    (ledger passed).Begins (ledger (passed ++ [machine])) (.batch name) none ∧
      ∀ other, other ≠ name →
        (ledger (passed ++ [machine])).slips (.batch other) =
          (ledger passed).slips (.batch other) := by
  have waits : (Spot.batch name).Waits := trivial
  have begins := Ledger.begins_start course.reckoned.balanced waits none
  have apart {other : Name} (different : other ≠ name) : Spot.batch other ≠ .batch name :=
    fun same => different (Spot.batch.inj same)
  have others (other : Name) (different : other ≠ name) :
      ((ledger passed).start (.batch name) none).slips (.batch other) =
        (ledger passed).slips (.batch other) := by
    have otherWaits : (Spot.batch other).Waits := trivial
    have undelivered : Spot.batch other ≠ .due (ledger passed).rounds.length :=
      (otherWaits.ne id).symm
    exact Ledger.slips_pour_of_ne _ _ _ _ (apart different) undelivered
  have ousts : machine.desk.ousts name = [.begins (.batch name) none] := by
    simp [Desk.ousts, desk, found]
  rw [ledger_append]
  cases givesUp with
  | discards control =>
    rw [errands_of_execute control]
    simp only [startedErrands, ousts]
    exact ⟨begins, others⟩
  | merges control absent =>
    rw [errands_of_execute control]
    simp only [startedErrands, found, absent]
    exact ⟨begins, others⟩
  | creates control =>
    rw [errands_of_execute control]
    simp only [startedErrands, ousts]
    refine ⟨begins.enter waits [], fun other different => ?_⟩
    exact (Ledger.slips_enter_of_ne _ _ _ [] (apart different)).trans (others other different)
  | takes control present =>
    obtain ⟨⟨id, dispatcher⟩, present⟩ := Option.isSome_iff_exists.mp present
    have queued : (Spot.queue id).Waits := trivial
    rw [errands_of_execute control]
    simp only [startedErrands, present, ousts]
    refine ⟨begins.pour queued waits, fun other different => ?_⟩
    have kept := Ledger.slips_pour_of_ne ((ledger passed).start (.batch name) none) (.batch other)
      (.queue id) (.batch name) (by simp) (apart different)
    exact kept.trans (others other different)
  | takesFromPool control present =>
    obtain ⟨pool, present⟩ := Option.isSome_iff_exists.mp present
    rw [errands_of_execute control]
    simp only [startedErrands, present, ousts]
    refine ⟨begins.enter waits pool.dispatcher.retiring, fun other different => ?_⟩
    exact (Ledger.slips_enter_of_ne _ _ _ _ (apart different)).trans (others other different)

/-- The innermost delivery is the one of the innermost call. -/
private theorem Course.carries {delivery : Retirement} {counted : Bool}
    (course : Course passed machine) (stack : machine.stack = .retiring delivery counted :: calls) :
    ∃ round outer, (ledger passed).running = round :: outer ∧
      (ledger passed).Carries round (delivery, if counted then some calls else none) := by
  have inProgress := course.reckoned.agrees.inProgress
  rw [Desk.deliveries_of_front (duties_of_stack stack rfl)] at inProgress
  obtain ⟨round, outer, carries, -, running⟩ := List.forall₂_cons_right_iff.mp inProgress
  exact ⟨round, outer, running, carries⟩

private theorem Course.panics {reason : Panic} {delivery : Retirement} {counted : Bool}
    (course : Course passed machine) (control : machine.control = .unwind reason)
    (stack : machine.stack = .retiring delivery counted :: calls) :
    ∃ round, (ledger passed).running.head? = some round ∧
      (ledger passed).Pours (ledger (passed ++ [machine])) (.due round) (.lost round) ∧
      (ledger (passed ++ [machine])).running = (ledger passed).running.tail ∧
      machine.step.stack = calls ∧ machine.step.control = .unwind reason := by
  obtain ⟨round, outer, running, -⟩ := course.carries stack
  have ended : ledger (passed ++ [machine]) = (ledger passed).finish := by
    rw [ledger_append, errands_of_unwind control stack]
    rfl
  have slips : (ledger passed).finish.slips =
      ((ledger passed).pour (.due round) (.lost round)).slips := by
    funext spot
    rw [Ledger.slips_finish running, Ledger.slips_pour]
  have after : machine.step = machine.pop := step_of_unwind control stack
  have apart : Spot.due round ≠ .lost round := nofun
  obtain ⟨goes, empties, others⟩ := @Ledger.pours_pour (ledger passed) _ _ apart
  rw [ended, after]
  refine ⟨round, by rw [running]; rfl, ⟨?_, ?_, ?_⟩, Ledger.running_finish _, ?_, control⟩
  · rw [slips, goes]
  · rw [slips, empties]
  · rw [slips]
    exact others
  · rw [pop, stack]
    rfl

private theorem step_of_retiring {delivery : Retirement} {counted : Bool}
    (control : machine.control = .proceed)
    (stack : machine.stack = .retiring delivery counted :: calls) :
    machine.step = machine.continueRetirement delivery counted :=
  step_of_proceed control stack

private theorem Course.finishes {delivery : Retirement} {counted : Bool}
    (course : Course passed machine) (control : machine.control = .proceed)
    (stack : machine.stack = .retiring delivery counted :: calls)
    (turn : delivery.next? = none) :
    ∃ round begun, (ledger passed).running.head? = some round ∧
      (ledger passed).rounds[round]? = some begun ∧
      (ledger passed).slips (.attempted round) = begun.whole ∧
      (ledger (passed ++ [machine])).slips = (ledger passed).slips ∧
      (ledger (passed ++ [machine])).running = (ledger passed).running.tail ∧
      begun.asker = (if counted then some calls else none) ∧
      machine.step.stack = calls ∧
      machine.step.control =
        if counted then .answer (.count (begun.whole.countP fun serial =>
          serial ∈ (ledger passed).told))
        else .proceed := by
  obtain ⟨round, outer, running, carries⟩ := course.carries stack
  have balanced := course.reckoned.balanced
  have ended : ledger (passed ++ [machine]) = (ledger passed).finish := by
    rw [ledger_append, errands_of_proceed control stack]
    simp only [continuedErrands, turn]
    rfl
  have nothing : (ledger passed).slips (.due round) = [] := by
    have reads := carries.due
    obtain ⟨objects, retired⟩ := delivery
    cases objects with
    | nil => simpa [Ledger.Reads] using reads
    | cons => cases turn
  obtain ⟨begun, found, asker⟩ := Option.map_eq_some_iff.mp carries.asker
  have whole := balanced.whole round
  rw [nothing, balanced.goesOn round (running ▸ List.mem_cons_self), found, List.append_nil,
    List.append_nil] at whole
  have after := step_of_retiring control stack
  refine ⟨round, begun, by rw [running]; rfl, found, whole, ?_, ?_, asker, ?_, ?_⟩
  · rw [ended]
    funext spot
    rw [Ledger.slips_finish running, nothing]
    split <;> simp_all
  · rw [ended, Ledger.running_finish]
  · rw [after]
    simp only [continueRetirement, turn]
    split <;> simp [pop, reply, proceed, stack]
  · rw [after]
    have count := carries.count
    rw [whole] at count
    simp only [continueRetirement, turn]
    cases counted with
    | false => rfl
    | true => exact congrArg (Control.answer ∘ Answer.count) count

theorem skips_of_illegal {delivery next : Retirement} {counted : Bool} {object : ObjectId}
    (control : machine.control = .proceed)
    (stack : machine.stack = .retiring delivery counted :: calls)
    (turn : delivery.next? = some (object, next))
    (illegal : (machine.world.objects.state object).canBecome .retired = false) :
    machine.Skips object (.retiring next counted :: calls) := by
  have refused := Lifecycle.Registry.advance_eq_error_iff.mpr ⟨illegal, rfl⟩
  have after := step_of_retiring control stack
  simp only [continueRetirement, turn, advance, refused] at after
  constructor
  case found =>
    rw [← not_or, ← Lifecycle.State.canBecome_retired_iff, illegal]
    exact Bool.false_ne_true
  case world => rw [after, proceed, world_diagnose, become]
  case calls =>
    rw [after]
    exact calls_diagnose ..
  case stack => simp [after, proceed, become, stack]
  case proceeds => rw [after, proceed]

private theorem tells_of_legal {delivery next : Retirement} {counted : Bool} {object : ObjectId}
    (control : machine.control = .proceed)
    (stack : machine.stack = .retiring delivery counted :: calls)
    (turn : delivery.next? = some (object, next))
    (legal : (machine.world.objects.state object).canBecome .retired = true) :
    machine.Tells object (.retiring next.delivered counted :: calls) := by
  have after := step_of_retiring control stack
  cases attempt : machine.world.objects.advance object .retired with
  | error illegal =>
    rw [(Lifecycle.Registry.advance_eq_error_iff.mp attempt).1] at legal
    cases legal
  | ok objects =>
    have present : (machine.world.objects.get? object).isSome := by
      refine Option.isSome_iff_ne_none.mpr fun absent => ?_
      rw [Lifecycle.Registry.state, absent] at legal
      cases legal
    have still := present
    rw [← Lifecycle.Registry.isSome_get?_advance attempt] at still
    obtain ⟨moved, found⟩ := Option.isSome_iff_exists.mp still
    have observer : (objects.get? object).map Lifecycle.Retained.observer =
        (machine.world.objects.get? object).map Lifecycle.Retained.observer :=
      observer_advance attempt
    rw [found, Option.map_some] at observer
    have retired := Lifecycle.Registry.state_advance_self attempt present
    simp only [continueRetirement, turn, advance, attempt, tellState, Lifecycle.State.event?, tell,
      become, withWorld, found, stack, List.tail_cons] at after
    refine ⟨Lifecycle.State.canBecome_retired_iff.mp legal, ?_, moved.observer, observer.symm, ?_⟩
    · rw [after]
      split <;> exact retired
    · rw [after]
      split
      · exact ⟨rfl, rfl⟩
      · exact ⟨rfl, rfl⟩

private theorem Course.attempts {delivery next : Retirement} {counted : Bool} {object : ObjectId}
    (course : Course passed machine) (control : machine.control = .proceed)
    (stack : machine.stack = .retiring delivery counted :: calls)
    (turn : delivery.next? = some (object, next)) :
    ∃ round serial, (ledger passed).recorded[serial]? = some object ∧
      (ledger passed).Attempts (ledger (passed ++ [machine])) round serial ∧
      ((ledger (passed ++ [machine])).told = (ledger passed).told ++ [serial] ∧
          machine.Tells object (.retiring next.delivered counted :: calls) ∨
        (ledger (passed ++ [machine])).told = (ledger passed).told ∧
          machine.Skips object (.retiring next counted :: calls)) := by
  obtain ⟨round, outer, running, carries⟩ := course.carries stack
  obtain ⟨serial, rest, split, recorded, -, -⟩ := carries.next turn
  have attempted : ledger (passed ++ [machine]) = (ledger passed).attempt
      ((machine.world.objects.state object).canBecome .retired) := by
    rw [ledger_append, errands_of_proceed control stack]
    simp only [continuedErrands, turn]
    rfl
  have attempts (told : Bool) :
      (ledger passed).Attempts ((ledger passed).attempt told) round serial :=
    ⟨by rw [running]; rfl, Ledger.running_attempt _ _, by simp [Ledger.due_attempt running, split],
      by simp [Ledger.attempted_attempt running, split],
      fun spot due attempted => by
        rw [Ledger.slips_attempt running, if_neg due, if_neg attempted, List.append_nil]⟩
  rw [attempted]
  refine ⟨round, serial, recorded, attempts _, ?_⟩
  rw [Ledger.told_attempt running, split]
  cases legal : (machine.world.objects.state object).canBecome .retired with
  | false => exact .inr ⟨rfl, skips_of_illegal control stack turn legal⟩
  | true => exact .inl ⟨rfl, tells_of_legal control stack turn legal⟩

/-- No command goes on with a delivery or ends one. -/
private theorem opens_of_mem_startedErrands {command : Command} {errand : Errand}
    (member : errand ∈ machine.startedErrands command) :
    errand ≠ .ends ∧ ∀ told, errand ≠ .attempts told := by
  have ousts {name : Name} (ousted : errand ∈ machine.desk.ousts name) :
      errand ≠ .ends ∧ ∀ told, errand ≠ .attempts told := by
    unfold Desk.ousts at ousted
    split at ousted
    · rw [List.mem_singleton.mp ousted]
      exact ⟨nofun, nofun⟩
    · cases ousted
  unfold startedErrands at member
  repeat' split at member
  all_goals first
    | exact ousts member
    | exact absurd member List.not_mem_nil
    | exact List.mem_singleton.mp member ▸ ⟨nofun, nofun⟩
    | exact (List.mem_append.mp member).elim ousts fun other =>
        List.mem_singleton.mp other ▸ ⟨nofun, nofun⟩

/-- An errand of a delivery is done by the innermost call. -/
private theorem retiring_of_mem_errands {errand : Errand} (member : errand ∈ machine.errands)
    (delivers : errand = .ends ∨ ∃ told, errand = .attempts told) :
    ∃ delivery counted calls, machine.stack = .retiring delivery counted :: calls ∧
      (machine.control = .proceed ∧
          errand ∈ machine.continuedErrands (.retiring delivery counted) ∨
        errand = .ends ∧ ∃ reason, machine.control = .unwind reason) := by
  rcases machine with ⟨world, listener, log, stack, control⟩
  cases control with
  | execute command =>
    obtain ⟨goesOn, rests⟩ := opens_of_mem_startedErrands member
    exact delivers.elim (absurd · goesOn) fun ⟨told, attempts⟩ => absurd attempts (rests told)
  | answer => cases member
  | proceed =>
    cases stack with
    | nil => cases member
    | cons call calls =>
      cases call with
      | retiring delivery counted => exact ⟨delivery, counted, calls, rfl, .inl ⟨rfl, member⟩⟩
      | draining owner drain =>
        cases owner with
        | discardedPool =>
          simp only [errands, continuedErrands] at member
          rcases delivers with rfl | ⟨told, rfl⟩ <;> split at member <;> simp at member
        | _ => cases member
      | _ => cases member
  | unwind reason =>
    cases stack with
    | nil => cases member
    | cons call calls =>
      cases call with
      | retiring delivery counted =>
        exact ⟨delivery, counted, calls, rfl, .inr ⟨List.mem_singleton.mp member, reason, rfl⟩⟩
      | _ => cases member

/-- A delivery ends when it has attempted everything, or when a panic leaves it. -/
private theorem retiring_of_ends (ends : .ends ∈ machine.errands) :
    ∃ delivery counted calls, machine.stack = .retiring delivery counted :: calls ∧
      (machine.control = .proceed ∧ delivery.next? = none ∨
        ∃ reason, machine.control = .unwind reason) := by
  obtain ⟨delivery, counted, calls, stack, ⟨control, member⟩ | ⟨-, unwinds⟩⟩ :=
    retiring_of_mem_errands ends (.inl rfl)
  · refine ⟨delivery, counted, calls, stack, .inl ⟨control, ?_⟩⟩
    cases turn : delivery.next? with
    | none => rfl
    | some next => simp [continuedErrands, turn] at member
  · exact ⟨delivery, counted, calls, stack, .inr unwinds⟩

/-- An attempt is made by a delivery that has something to attempt. -/
private theorem retiring_of_attempts {told : Bool} (attempts : .attempts told ∈ machine.errands) :
    ∃ delivery counted calls object next, machine.control = .proceed ∧
      machine.stack = .retiring delivery counted :: calls ∧
      delivery.next? = some (object, next) := by
  obtain ⟨delivery, counted, calls, stack, ⟨control, member⟩ | ⟨ends, -⟩⟩ :=
    retiring_of_mem_errands attempts (.inr ⟨told, rfl⟩)
  · cases turn : delivery.next? with
    | none => simp [continuedErrands, turn] at member
    | some next => exact ⟨delivery, counted, calls, next.1, next.2, control, stack, turn⟩
  · cases ends

private theorem Course.lasts (course : Course passed machine) {before later : List Machine}
    (split : passed = before ++ later) : (ledger before).Lasts (ledger passed) := by
  subst split
  induction later using List.reverseRecOn generalizing machine with
  | nil =>
    rw [List.append_nil]
    exact .refl _
  | append_singleton later last ih =>
    rw [← List.append_assoc] at course ⊢
    obtain ⟨early, -⟩ := course.latest
    rw [ledger_append]
    exact (ih early).trans (.afterAll last.desk_step.regular)

/-- A slip that has been attempted is not attempted later. -/
private theorem Course.not_attempts_again {before between : List Machine} {middle other : Machine}
    {round another serial : Nat} (course : Course (before ++ middle :: between) other)
    (attempts : (ledger before).Attempts (ledger (before ++ [middle])) round serial)
    (again : (ledger (before ++ middle :: between)).Attempts
      (ledger (before ++ middle :: between ++ [other])) another serial) : False := by
  -- To be attempted again it would have to be due, and what has been attempted is never due again.
  have split : before ++ middle :: between = (before ++ [middle]) ++ between := by simp
  have lasts := course.lasts split
  have member : serial ∈ (ledger (before ++ [middle])).slips (.attempted round) := by
    rw [attempts.attempted]
    exact List.mem_append_right _ List.mem_cons_self
  have due : serial ∈ (ledger (before ++ middle :: between)).slips (.due another) := by
    rw [again.due]
    exact List.mem_cons_self
  exact course.reckoned.balanced.filed.unattempted due round
    ((lasts.attempted round).subset member)

private theorem Course.attempts_once (course : Course passed machine) {round another serial : Nat}
    {before later earlier since : List Machine} {middle other : Machine}
    (first : passed = before ++ middle :: later)
    (attempts : (ledger before).Attempts (ledger (before ++ [middle])) round serial)
    (second : passed = earlier ++ other :: since)
    (again : (ledger earlier).Attempts (ledger (earlier ++ [other])) another serial) :
    earlier = before := by
  have early : Course before middle := (first ▸ course).before
  have late : Course earlier other := (second ▸ course).before
  rcases List.append_eq_append_iff.mp (first.symm.trans second) with
    ⟨between, longer, rest⟩ | ⟨between, longer, rest⟩
  · cases between with
    | nil => simpa using longer
    | cons next between =>
      cases rest
      subst longer
      exact (late.not_attempts_again attempts again).elim
  · cases between with
    | nil => simpa using longer.symm
    | cons next between =>
      cases rest
      subst longer
      exact (early.not_attempts_again again attempts).elim

private theorem Course.attempted (course : Course passed machine) {round serial : Nat}
    (member : serial ∈ (ledger passed).slips (.attempted round)) :
    ∃ before middle later object, passed = before ++ middle :: later ∧
      (ledger before).Attempts (ledger (before ++ [middle])) round serial ∧
      (ledger passed).recorded[serial]? = some object ∧
      (serial ∈ (ledger passed).told ↔ middle.world.objects.state object = .retained ∨
        middle.world.objects.state object = .exited) := by
  induction passed using List.reverseRecOn generalizing machine with
  | nil => cases member
  | append_singleton passed last ih =>
    -- Either the slip was attempted before, and the account of that attempt still holds, or the
    -- last step attempts it.
    obtain ⟨early, -⟩ := course.latest
    have lasts := course.lasts rfl
    have earlier (old : serial ∈ (ledger passed).slips (.attempted round))
        (same : serial ∈ (ledger (passed ++ [last])).told ↔ serial ∈ (ledger passed).told) :
        ∃ before middle later object, passed ++ [last] = before ++ middle :: later ∧
          (ledger before).Attempts (ledger (before ++ [middle])) round serial ∧
          (ledger (passed ++ [last])).recorded[serial]? = some object ∧
          (serial ∈ (ledger (passed ++ [last])).told ↔
            middle.world.objects.state object = .retained ∨
              middle.world.objects.state object = .exited) := by
      obtain ⟨before, middle, later, object, rfl, attempts, recorded, told⟩ := ih early old
      exact ⟨before, middle, later ++ [last], object, by simp, attempts,
        lasts.recorded_eq_some recorded, same.trans told⟩
    by_cases attempting : ∃ told, .attempts told ∈ last.errands
    · obtain ⟨told, attempting⟩ := attempting
      obtain ⟨delivery, counted, calls, object, next, control, stack, turn⟩ :=
        retiring_of_attempts attempting
      obtain ⟨current, new, recorded, attempts, outcome⟩ := early.attempts control stack turn
      have due : new ∈ (ledger passed).slips (.due current) := by
        rw [attempts.due]
        exact List.mem_cons_self
      have balanced := early.reckoned.balanced
      by_cases old : serial ∈ (ledger passed).slips (.attempted round)
      · have different : serial ≠ new := by
          rintro rfl
          exact balanced.filed.unattempted due round old
        refine earlier old ?_
        rcases outcome with ⟨told, -⟩ | ⟨told, -⟩
        · simp [told, different]
        · rw [told]
      · -- It is the one that is attempted now.
        have own : round = current := by
          by_contra other
          rw [attempts.others (.attempted round) nofun fun same => other (Spot.attempted.inj same)]
            at member
          exact old member
        subst own
        rw [attempts.attempted] at member
        obtain rfl := List.mem_singleton.mp ((List.mem_append.mp member).resolve_left old)
        refine ⟨passed, last, [], object, rfl, attempts, lasts.recorded_eq_some recorded, ?_⟩
        rcases outcome with ⟨told, tells⟩ | ⟨told, skips⟩
        · exact ⟨fun _ => tells.found, fun _ => told ▸ List.mem_append_right _ List.mem_cons_self⟩
        · rw [told]
          exact ⟨fun present => absurd present (balanced.untold due),
            fun found => absurd found (not_or.mpr skips.found)⟩
    · have regular := last.desk_step.regular
      have rests : ∀ errand ∈ last.errands, ∀ told, errand ≠ .attempts told :=
        fun errand done told same => attempting ⟨told, same ▸ done⟩
      have told := Ledger.kept_afterAll Ledger.told
        (fun errand done => Ledger.told_after (rests errand done)) (ledger passed)
      have attempted := Ledger.kept_afterAll (fun ledger => ledger.slips (.attempted round))
        (fun errand done => Ledger.attempted_after (regular errand done) (rests errand done) round)
        (ledger passed)
      rw [← ledger_append] at told attempted
      exact earlier (attempted ▸ member) (by rw [told])

/-- Only a panic loses anything. -/
private theorem Course.lost (course : Course passed machine) {round : Nat}
    (full : (ledger passed).slips (.lost round) ≠ []) :
    ∃ before middle later reason delivery counted calls,
      passed = before ++ middle :: later ∧ middle.control = .unwind reason ∧
      middle.stack = .retiring delivery counted :: calls ∧
      (ledger before).running.head? = some round ∧
      (ledger before).slips (.due round) = (ledger passed).slips (.lost round) := by
  induction passed using List.reverseRecOn generalizing machine with
  | nil => exact absurd rfl full
  | append_singleton passed last ih =>
    obtain ⟨early, -⟩ := course.latest
    have earlier (same : (ledger (passed ++ [last])).slips (.lost round) =
        (ledger passed).slips (.lost round)) :
        ∃ before middle later reason delivery counted calls,
          passed ++ [last] = before ++ middle :: later ∧ middle.control = .unwind reason ∧
          middle.stack = .retiring delivery counted :: calls ∧
          (ledger before).running.head? = some round ∧
          (ledger before).slips (.due round) = (ledger (passed ++ [last])).slips (.lost round) := by
      rw [same] at full ⊢
      obtain ⟨before, middle, later, reason, delivery, counted, calls, rfl, rest⟩ := ih early full
      exact ⟨before, middle, later ++ [last], reason, delivery, counted, calls, by simp, rest⟩
    by_cases ends : .ends ∈ last.errands
    · obtain ⟨delivery, counted, calls, stack, ⟨control, turn⟩ | ⟨reason, control⟩⟩ :=
        retiring_of_ends ends
      · obtain ⟨-, -, -, -, -, same, -⟩ := early.finishes control stack turn
        exact earlier (congrFun same _)
      · obtain ⟨current, innermost, ⟨goes, -, others⟩, -⟩ := early.panics control stack
        by_cases own : round = current
        · subst own
          -- It had lost nothing before, so what it was still to attempt is all that it loses.
          have none := early.reckoned.balanced.goesOn round (List.mem_of_head? innermost)
          rw [none, List.nil_append] at goes
          exact ⟨passed, last, [], reason, delivery, counted, calls, rfl, control, stack, innermost,
            goes.symm⟩
        · exact earlier (others _ nofun fun same => own (Spot.lost.inj same))
    · refine earlier ?_
      have lost := Ledger.kept_afterAll (fun ledger => ledger.slips (.lost round))
        (fun errand done => Ledger.lost_after (last.desk_step.regular errand done)
          (fun same => ends (same ▸ done)) round) (ledger passed)
      rw [← ledger_append] at lost
      exact lost

/-- Retirements are delivered exactly once, whatever the callbacks do. -/
theorem retirements_are_delivered_once (course : Course passed machine) :
    DeliversOnce passed machine where
  agrees := course.reckoned.agrees
  balanced := course.reckoned.balanced
  records _ _ id dispatcher control present := by
    rw [ledger_append, errands_of_execute control]
    simp only [startedErrands, present]
    rfl
  takes _ _ _ _ control present := course.takes control present
  merges _ _ _ _ control found into := Course.merges control found into
  dispatches _ _ control found := course.dispatches control found
  drops _ _ givesUp found := course.drops givesUp found
  attempts _ _ _ _ _ control stack turn := course.attempts control stack turn
  attempted round serial member := by
    obtain ⟨before, middle, later, object, split, attempts, recorded, told⟩ :=
      course.attempted member
    exact ⟨before, middle, later, object, split, attempts, recorded, told,
      fun _ _ _ _ again repeated => course.attempts_once split attempts again repeated⟩
  finishes _ _ _ control stack turn := course.finishes control stack turn
  panics _ _ _ _ control stack := course.panics control stack
  lost _ full := course.lost full
  lasts _ _ split := course.lasts split

/-- A session that retires an object that records another retirement when it is told, and one that
panics. Each of them is recorded twice or more, in two batches that are merged. -/
def retiresPastPanic : Machine :=
  let reacting (retired : Body) : Reactions Body := ⟨false, [], [], [], retired⟩
  let body : Body :=
    [.dispatcher (.create "d"),
      .object (.create "a" (reacting [.dispatcher (.record "d" .retired ["b"])])),
      .object (.create "b" (reacting [.panic (.message "b")])),
      .object (.advance "a" .retained), .object (.advance "b" .retained),
      .dispatcher (.record "d" .retired ["a", "a"]), .dispatcher (.takeRetirements "d" "x"),
      .dispatcher (.record "d" .retired ["b", "a"]), .dispatcher (.takeRetirements "d" "y"),
      .batch (.extend "x" "y"), .batch (.dispatch "x")]
  start { scripts := ⟨[("main", body)]⟩ } none (.call "main")

theorem retirements_are_delivered_once_past_panic :
    ((ledger (trail 48 retiresPastPanic)).slips (.queue 0) = [4] ∧
      (ledger (trail 48 retiresPastPanic)).slips (.attempted 0) = [0, 1, 2] ∧
      (ledger (trail 48 retiresPastPanic)).slips (.lost 0) = [3] ∧
      (ledger (trail 48 retiresPastPanic)).told = [0, 2]) ∧
    Course (trail 48 retiresPastPanic) (advanced 48 retiresPastPanic) ∧
    DeliversOnce (trail 48 retiresPastPanic) (advanced 48 retiresPastPanic) := by
  have course : Course (trail 48 retiresPastPanic) (advanced 48 retiresPastPanic) :=
    ⟨_, _, _, goes_trail 48 _⟩
  refine ⟨⟨?_, ?_, ?_, ?_⟩, course, retirements_are_delivered_once course⟩ <;>
    with_unfolding_all rfl

end Machine

end LiveTree.Session
