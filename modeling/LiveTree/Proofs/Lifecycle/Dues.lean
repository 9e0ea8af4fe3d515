import Mathlib.Data.List.Nodup
import LiveTree.Proofs.Lifecycle.Telling

/-! What objects are due. Lists that wait for delivery hold, for each object, a sequence of moves
that it is to make. An object meets what it is due if each move is legal by the time it is made.
Where all objects meet what they are due, a delivery attempts nothing illegal and leaves every
object where its moves lead. -/
namespace LiveTree.Lifecycle

variable {ω : Type}

/-- Moves that lead legally from one state to another. -/
inductive State.Leads : State → List State → State → Prop
  | stays (state : State) : Leads state [] state
  | moves {state next last : State} {moves : List State} (legal : state.canBecome next = true)
      (rest : Leads next moves last) : Leads state (next :: moves) last

namespace State.Leads

variable {state middle next last : State} {moves more : List State}

private theorem append (leads : Leads state moves middle) (onward : Leads middle more last) :
    Leads state (moves ++ more) last := by
  induction leads with
  | stays => exact onward
  | moves legal _ ih => exact .moves legal (ih onward)

/-- One more legal move leads on. -/
theorem snoc (leads : Leads state moves middle) (legal : middle.canBecome next = true) :
    Leads state (moves ++ [next]) next :=
  leads.append (.moves legal (.stays next))

/-- The first of the moves is legal, and the others lead on from it. -/
private theorem of_cons (leads : Leads state (next :: moves) last) :
    state.canBecome next = true ∧ Leads next moves last := by
  cases leads with
  | moves legal rest => exact ⟨legal, rest⟩

theorem eq_of_nil (leads : Leads state [] last) : state = last := by
  cases leads
  rfl

end State.Leads

/-- The moves that lists hold for an object, in the order of the lists. -/
def dues (agenda : List (State × List ObjectId)) (object : ObjectId) : List State :=
  agenda.flatMap fun listed => List.replicate (listed.2.count object) listed.1

section dues

variable {object other : ObjectId} {objects : List ObjectId} {target : State}
  {agenda : List (State × List ObjectId)}

private theorem dues_cons_self (target : State) (object : ObjectId) (objects : List ObjectId)
    (agenda : List (State × List ObjectId)) :
    dues ((target, object :: objects) :: agenda) object =
      target :: dues ((target, objects) :: agenda) object := by
  simp [dues, List.replicate_succ]

private theorem dues_cons_of_ne (target : State) (objects : List ObjectId)
    (agenda : List (State × List ObjectId)) (different : other ≠ object) :
    dues ((target, object :: objects) :: agenda) other =
      dues ((target, objects) :: agenda) other := by
  simp [dues, List.count_cons_of_ne (Ne.symm different)]

/-- An object that is due something is in one of the lists. -/
theorem exists_mem_of_dues_ne_nil (due : dues agenda object ≠ []) :
    ∃ listed ∈ agenda, object ∈ listed.2 := by
  simpa [dues, List.flatMap_eq_nil_iff, List.count_eq_zero] using due

end dues

/-- Whether every object that is due something exists and can make its moves. -/
def Registry.Meets (registry : Registry ω) (due : ObjectId → List State) : Prop :=
  ∀ object, due object ≠ [] → (registry.get? object).isSome = true ∧
    ∃ last, State.Leads (registry.state object) (due object) last

/-- The first attempt succeeds, and afterwards every object leads where it led before. -/
private theorem Registry.Meets.advance {registry : Registry ω} {target : State} {object : ObjectId}
    {objects : List ObjectId} {agenda : List (State × List ObjectId)}
    (meets : registry.Meets (dues ((target, object :: objects) :: agenda))) :
    ∃ moved, registry.advance object target = .ok moved ∧
      moved.Meets (dues ((target, objects) :: agenda)) ∧
      ∀ other last,
        State.Leads (registry.state other) (dues ((target, object :: objects) :: agenda) other)
          last →
        State.Leads (moved.state other) (dues ((target, objects) :: agenda) other) last := by
  have due := dues_cons_self target object objects agenda
  obtain ⟨present, last, leads⟩ := meets object (by simp [due])
  rw [due] at leads
  cases attempt : registry.advance object target with
  | error illegal =>
    obtain ⟨forbidden, -⟩ := advance_eq_error_iff.mp attempt
    rw [leads.of_cons.1] at forbidden
    cases forbidden
  | ok moved =>
    have onward : ∀ other last,
        State.Leads (registry.state other) (dues ((target, object :: objects) :: agenda) other)
          last →
        State.Leads (moved.state other) (dues ((target, objects) :: agenda) other) last := by
      intro other last leads
      by_cases same : other = object
      · subst same
        rw [due] at leads
        rw [state_advance_self attempt present]
        exact leads.of_cons.2
      · rw [dues_cons_of_ne target objects agenda same] at leads
        rw [state_advance_of_ne attempt same]
        exact leads
    refine ⟨moved, rfl, ?_, onward⟩
    intro other stillDue
    have wasDue : dues ((target, object :: objects) :: agenda) other ≠ [] := by
      by_cases same : other = object
      · simp [same, due]
      · rwa [dues_cons_of_ne target objects agenda same]
    obtain ⟨existed, last, leads⟩ := meets other wasDue
    exact ⟨by rwa [isSome_get?_advance attempt], last, onward other last leads⟩

/-- What a dispatcher holds for an object. -/
def Dispatcher.due (dispatcher : Dispatcher) : ObjectId → List State :=
  dues dispatcher.drain.agenda

namespace Dispatcher

variable {dispatcher : Dispatcher} {object : ObjectId} {objects : List ObjectId}

private theorem due_eq (dispatcher : Dispatcher) (object : ObjectId) :
    dispatcher.due object =
      List.replicate (dispatcher.exiting.count object) .exited ++
        (List.replicate (dispatcher.retaining.count object) .retained ++
          List.replicate (dispatcher.entering.count object) .entered) := by
  simp [due, dues, Drain.agenda, drain, take, Phase.target]

@[simp]
theorem due_drained (dispatcher : Dispatcher) (object : ObjectId) :
    dispatcher.drained.due object = [] := by
  simp [due_eq, drained]

@[simp]
theorem due_record_retired (dispatcher : Dispatcher) (objects : List ObjectId) :
    (dispatcher.record .retired objects).due = dispatcher.due := rfl

/-- What is recorded for others changes nothing for an object. -/
theorem due_record_of_notMem (event : Event) (absent : object ∉ objects) :
    (dispatcher.record event objects).due object = dispatcher.due object := by
  have none := List.count_eq_zero.mpr absent
  cases event <;> simp [due_eq, record, none]

/-- Entries come last. -/
theorem due_record_entered (single : objects.Nodup) (member : object ∈ objects) :
    (dispatcher.record .entered objects).due object = dispatcher.due object ++ [.entered] := by
  have once := List.count_eq_one_of_mem single member
  simp [due_eq, record, once, List.replicate_succ']

/-- Exits come last for an object that is neither to be retained nor to enter. -/
theorem due_record_exited (single : objects.Nodup) (member : object ∈ objects)
    (retentions : object ∉ dispatcher.retaining) (entries : object ∉ dispatcher.entering) :
    (dispatcher.record .exited objects).due object = dispatcher.due object ++ [.exited] := by
  have once := List.count_eq_one_of_mem single member
  have noRetention := List.count_eq_zero.mpr retentions
  have noEntry := List.count_eq_zero.mpr entries
  simp [due_eq, record, once, noRetention, noEntry, List.replicate_succ']

/-- An object that no list names is due nothing. -/
theorem due_eq_nil (unlisted : ∀ event, object ∉ dispatcher.recorded event) :
    dispatcher.due object = [] := by
  have exits := List.count_eq_zero.mpr (unlisted .exited)
  have retentions := List.count_eq_zero.mpr (unlisted .retained)
  have entries := List.count_eq_zero.mpr (unlisted .entered)
  simp only [recorded] at exits retentions entries
  simp [due_eq, exits, retentions, entries]

/-- A new object is to be retained and then to enter. -/
theorem due_new (unlisted : ∀ event, object ∉ dispatcher.recorded event) (single : objects.Nodup)
    (member : object ∈ objects) :
    ((dispatcher.record .retained objects).record .entered objects).due object =
      [.retained, .entered] := by
  have once := List.count_eq_one_of_mem single member
  have exits := List.count_eq_zero.mpr (unlisted .exited)
  have retentions := List.count_eq_zero.mpr (unlisted .retained)
  have entries := List.count_eq_zero.mpr (unlisted .entered)
  simp only [recorded] at exits retentions entries
  simp [due_eq, record, once, exits, retentions, entries]

end Dispatcher

/-- The next list is taken up when the last is done. -/
private theorem Drain.dues_nextList {drain next : Drain} (step : drain.step = .nextList next) :
    dues next.agenda = dues drain.agenda := by
  obtain ⟨phase, done, later, rfl⟩ := step_eq_nextList_iff.mp step
  funext object
  cases begun : drain.phase with
  | exits | retentions =>
    rw [begun] at later
    cases later
    simp [dues, agenda, begun, done, Dispatcher.take, Phase.target]
  | entries =>
    rw [begun] at later
    cases later

/-- Where all objects meet what they are due, nothing illegal is attempted, and every object ends
where its moves lead. -/
private theorem Drain.Delivers.of_meets {registry final : Registry ω} {drain last : Drain}
    {told : List (ObjectId × State)} (delivers : Drain.Delivers registry drain told final last)
    (meets : registry.Meets (dues drain.agenda)) :
    last.report.errors = drain.report.errors ∧
      ∀ object goal, State.Leads (registry.state object) (dues drain.agenda object) goal →
        final.state object = goal := by
  induction delivers with
  | @finished registry drain step =>
    obtain ⟨rest, phase⟩ := step_eq_finished_iff.mp step
    refine ⟨rfl, fun object goal leads => State.Leads.eq_of_nil ?_⟩
    simpa [dues, agenda, rest, phase] using leads
  | delivered step legal _ ih =>
    obtain ⟨rest, split, rfl, rfl⟩ := step_eq_attempt_iff.mp step
    simp only [agenda, split] at meets ⊢
    obtain ⟨moved, attempt, meets, onward⟩ := meets.advance
    cases legal.symm.trans attempt
    obtain ⟨errors, states⟩ := ih meets
    refine ⟨errors.trans ?_, fun object goal leads => states object goal (onward _ _ leads)⟩
    simp only [Drain.delivered, Report.count]
    split <;> rfl
  | refused step refusal _ _ =>
    obtain ⟨rest, split, rfl, rfl⟩ := step_eq_attempt_iff.mp step
    simp only [agenda, split] at meets
    obtain ⟨moved, attempt, -⟩ := meets.advance
    cases refusal.symm.trans attempt
  | nextList step _ ih =>
    have same := dues_nextList step
    obtain ⟨_, -, -, rfl⟩ := step_eq_nextList_iff.mp step
    rw [same] at ih
    exact ih meets

theorem Drain.Delivers.settles {registry final : Registry ω} {dispatcher : Dispatcher}
    {last : Drain} {told : List (ObjectId × State)}
    (delivers : Drain.Delivers registry dispatcher.drain told final last)
    (meets : registry.Meets dispatcher.due) :
    last.report.errors = [] ∧
      ∀ object goal, State.Leads (registry.state object) (dispatcher.due object) goal →
        final.state object = goal :=
  delivers.of_meets meets

/-- A delivery of retirements to observers that only listen, with what it comes to. -/
inductive Retirement.Finishes :
    Registry ω → Retirement → List (ObjectId × State) → Registry ω → Retirement → Prop
  | finished {registry : Registry ω} {delivery : Retirement} (step : delivery.next? = none) :
      Finishes registry delivery [] registry delivery
  | delivered {registry moved final : Registry ω} {delivery next last : Retirement}
      {object : ObjectId} {told : List (ObjectId × State)}
      (step : delivery.next? = some (object, next))
      (legal : registry.advance object .retired = .ok moved)
      (rest : Finishes moved next.delivered told final last) :
      Finishes registry delivery ((object, .retired) :: told) final last
  | refused {registry final : Registry ω} {delivery next last : Retirement} {object : ObjectId}
      {told : List (ObjectId × State)} {illegal : IllegalMove}
      (step : delivery.next? = some (object, next))
      (refusal : registry.advance object .retired = .error illegal)
      (rest : Finishes registry next told final last) : Finishes registry delivery told final last

namespace Retirement

variable {registry final : Registry ω} {delivery last : Retirement}
  {told : List (ObjectId × State)}

theorem Finishes.delivers (finishes : Finishes registry delivery told final last) :
    Delivers registry delivery told final := by
  induction finishes with
  | finished step => exact .finished step
  | delivered step legal _ ih => exact .delivered step legal ih
  | refused step refusal _ ih => exact .refused step refusal ih

/-- Where all objects can retire, all are counted. -/
theorem Finishes.retired_of_meets (finishes : Finishes registry delivery told final last)
    (meets : registry.Meets (dues [(.retired, delivery.rest)])) :
    last.retired = delivery.retired + delivery.rest.length := by
  induction finishes with
  | @finished _ delivery step =>
    cases rest : delivery.rest with
    | nil => rfl
    | cons object rest => simp [next?, rest] at step
  | delivered step legal _ ih =>
    obtain ⟨rest, split, rfl⟩ := next?_eq_some_iff.mp step
    rw [split] at meets
    obtain ⟨moved, attempt, meets, -⟩ := meets.advance
    cases legal.symm.trans attempt
    rw [ih meets, split, List.length_cons, Retirement.delivered]
    exact Nat.add_right_comm ..
  | refused step refusal _ _ =>
    obtain ⟨rest, split, rfl⟩ := next?_eq_some_iff.mp step
    rw [split] at meets
    obtain ⟨moved, attempt, -⟩ := meets.advance
    cases refusal.symm.trans attempt

end Retirement

end LiveTree.Lifecycle
