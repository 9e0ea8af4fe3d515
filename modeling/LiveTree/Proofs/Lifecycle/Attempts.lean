import Mathlib.Data.List.Induction
import LiveTree.Proofs.Lifecycle.Delivery

/-! The attempts of a delivery. Every notification that was recorded is attempted once, the exits in
reverse, and at every moment what has been attempted and what is left make up all that was recorded.
What a delivery reports is a function of its attempts, each of which is told or refused by the state
in which it finds its object. -/
namespace LiveTree.Lifecycle

/-- An attempt to move an object and tell it, with the state in which the object was found. -/
structure Attempt where
  object : ObjectId
  found : State
  target : State
deriving DecidableEq, Repr

namespace Attempt

/-- The notification that is attempted. -/
def notice (attempt : Attempt) : ObjectId × State := (attempt.object, attempt.target)

/-- Whether the object may move. -/
def allowed (attempt : Attempt) : Bool := attempt.found.canBecome attempt.target

/-- What is reported if it may not. -/
def illegal (attempt : Attempt) : IllegalMove :=
  ⟨attempt.object.number, attempt.found, attempt.target⟩

end Attempt

namespace Report

/-- How many of some attempts told their objects of a state. -/
def told (target : State) (attempts : List Attempt) : Nat :=
  attempts.countP fun attempt => attempt.allowed && attempt.target == target

/-- What some attempts amount to. -/
def of (attempts : List Attempt) : Report where
  exited := told .exited attempts
  retained := told .retained attempts
  entered := told .entered attempts
  errors := (attempts.filter fun attempt => !attempt.allowed).map Attempt.illegal

/-- How many attempts a report accounts for. -/
def total (report : Report) : Nat :=
  report.exited + report.retained + report.entered + report.errors.length

variable {made : List Attempt} {attempt : Attempt} {phase : Phase}

/-- One more object was told. -/
theorem of_concat_allowed (allowed : attempt.allowed = true)
    (target : attempt.target = phase.target) :
    of (made ++ [attempt]) = (of made).count phase := by
  cases phase <;> simp [of, told, count, allowed, target, Phase.target]

/-- One more move was illegal. -/
theorem of_concat_refused (refused : attempt.allowed = false) :
    of (made ++ [attempt]) = (of made).refuse attempt.illegal := by
  simp [of, told, refuse, refused]

/-- Every attempt is counted once, as told or as illegal. -/
theorem total_of (listed : ∀ attempt ∈ made, ∃ phase : Phase, attempt.target = phase.target) :
    (of made).total = made.length := by
  induction made using List.reverseRecOn with
  | nil => rfl
  | append_singleton made attempt ih =>
    have counted := ih fun other member => listed other (List.mem_append_left _ member)
    obtain ⟨phase, target⟩ := listed attempt List.mem_concat_self
    rw [List.length_append, List.length_singleton, ← counted]
    cases allowed : attempt.allowed with
    | false =>
      rw [of_concat_refused allowed]
      simp only [total, refuse, List.length_append, List.length_singleton]
      omega
    | true =>
      rw [of_concat_allowed allowed target]
      cases phase <;> simp only [total, count] <;> omega

end Report

/-- What a delivery is to attempt, in order: the exits in reverse, then the retentions, then the
entries. -/
def Dispatcher.notices (dispatcher : Dispatcher) : List (ObjectId × State) :=
  dispatcher.exiting.reverse.map (·, .exited) ++
    (dispatcher.retaining.map (·, .retained) ++ dispatcher.entering.map (·, .entered))

/-- What is left in a dispatcher when the delivery of a list has begun: the later lists and the
retirements. -/
def Dispatcher.beyond (dispatcher : Dispatcher) : Phase → Dispatcher
  | .exits => { dispatcher with exiting := [] }
  | .retentions => { dispatcher with exiting := [], retaining := [] }
  | .entries => dispatcher.drained

theorem Dispatcher.length_notices (dispatcher : Dispatcher) :
    dispatcher.notices.length =
      dispatcher.exiting.length + dispatcher.retaining.length + dispatcher.entering.length := by
  simp [notices, Nat.add_assoc]

theorem Dispatcher.retiring_beyond (dispatcher : Dispatcher) (phase : Phase) :
    (dispatcher.beyond phase).retiring = dispatcher.retiring := by
  cases phase <;> rfl

/-- To take the next list out is to go one list further. -/
private theorem Dispatcher.beyond_next {dispatcher : Dispatcher} {phase later : Phase}
    (next : phase.next? = some later) :
    ((dispatcher.beyond phase).take later).2 = dispatcher.beyond later := by
  cases phase <;> cases next <;> rfl

namespace Drain

variable {drain next last : Drain} {object : ObjectId} {target : State}

/-- What a delivery is still to attempt. -/
def left (drain : Drain) : List (ObjectId × State) :=
  drain.rest.map (·, drain.phase.target) ++
    match drain.phase with
    | .exits =>
      drain.dispatcher.retaining.map (·, .retained) ++ drain.dispatcher.entering.map (·, .entered)
    | .retentions => drain.dispatcher.entering.map (·, .entered)
    | .entries => []

private theorem left_drain (dispatcher : Dispatcher) :
    dispatcher.drain.left = dispatcher.notices := rfl

theorem left_of_attempt (step : drain.step = .attempt object target next) :
    drain.left = (object, target) :: next.left := by
  obtain ⟨rest, split, rfl, rfl⟩ := step_eq_attempt_iff.mp step
  simp only [left, split, List.map_cons, List.cons_append]

theorem left_of_nextList (step : drain.step = .nextList next) : drain.left = next.left := by
  obtain ⟨phase, empty, later, rfl⟩ := step_eq_nextList_iff.mp step
  cases begun : drain.phase <;> rw [begun] at later <;> cases later <;>
    simp [left, empty, begun, Dispatcher.take, Phase.target]

theorem left_of_finished (step : drain.step = .finished) : drain.left = [] := by
  obtain ⟨empty, phase⟩ := step_eq_finished_iff.mp step
  simp [left, empty, phase]

/-- How many steps a delivery is still to take. -/
def due (drain : Drain) : Nat := drain.left.length + drain.phase.listsLeft

/-- An attempt is one step less to take, whatever becomes of it. -/
theorem due_of_attempt (step : drain.step = .attempt object target next) (report : Report) :
    ({ next with report } : Drain).due < drain.due := by
  have fewer := congrArg List.length (left_of_attempt step)
  obtain ⟨rest, -, -, rfl⟩ := step_eq_attempt_iff.mp step
  rw [List.length_cons] at fewer
  change ({ drain with rest } : Drain).left.length + drain.phase.listsLeft < drain.due
  unfold due
  omega

theorem due_of_nextList (step : drain.step = .nextList next) : next.due < drain.due := by
  have same := left_of_nextList step
  obtain ⟨phase, -, later, rfl⟩ := step_eq_nextList_iff.mp step
  have fewer : phase.listsLeft < drain.phase.listsLeft := by
    cases begun : drain.phase <;> rw [begun] at later <;> cases later <;> decide
  unfold due
  rw [same]
  exact Nat.add_lt_add_left fewer _

/-- A delivery goes on and attempts these notifications, whatever becomes of them. -/
inductive Visits (drain : Drain) : List (ObjectId × State) → Drain → Prop
  | begins : Visits drain [] drain
  | delivered {visited : List (ObjectId × State)} {last next : Drain} {object : ObjectId}
      {target : State} (before : Visits drain visited last)
      (step : last.step = .attempt object target next) :
      Visits drain (visited ++ [(object, target)]) next.delivered
  | refused {visited : List (ObjectId × State)} {last next : Drain} {object : ObjectId}
      {target : State} (illegal : IllegalMove) (before : Visits drain visited last)
      (step : last.step = .attempt object target next) :
      Visits drain (visited ++ [(object, target)]) (next.refused illegal)
  | nextList {visited : List (ObjectId × State)} {last next : Drain}
      (before : Visits drain visited last) (step : last.step = .nextList next) :
      Visits drain visited next

variable {visited : List (ObjectId × State)}

theorem Proceeds.trans {middle : Drain} (early : drain.Proceeds middle)
    (late : middle.Proceeds last) : drain.Proceeds last := by
  induction early with
  | refl => exact late
  | delivered step _ ih => exact .delivered step (ih late)
  | refused step _ ih => exact .refused step (ih late)
  | nextList step _ ih => exact .nextList step (ih late)

theorem Visits.proceeds (visits : drain.Visits visited last) : drain.Proceeds last := by
  induction visits with
  | begins => exact .refl drain
  | delivered _ step ih => exact ih.trans (.delivered step (.refl _))
  | refused _ _ step ih => exact ih.trans (.refused step (.refl _))
  | nextList _ step ih => exact ih.trans (.nextList step (.refl _))

/-- What has been attempted and what is left are what there was. -/
theorem Visits.append_left (visits : drain.Visits visited last) :
    visited ++ last.left = drain.left := by
  induction visits with
  | begins => rfl
  | delivered _ step ih =>
    rw [left_of_attempt step] at ih
    rw [← ih, List.append_assoc]
    rfl
  | refused _ _ step ih =>
    rw [left_of_attempt step] at ih
    rw [← ih, List.append_assoc]
    rfl
  | nextList _ step ih => rw [← left_of_nextList step, ih]

/-- A finished delivery has attempted every recorded notification once, and no other. -/
theorem Visits.eq_notices {dispatcher : Dispatcher} (visits : dispatcher.drain.Visits visited last)
    (finished : last.step = .finished) : visited = dispatcher.notices := by
  have whole := visits.append_left
  rwa [left_of_finished finished, List.append_nil, left_drain] at whole

/-- The lists that a delivery has not begun are in the dispatcher as they were recorded. -/
theorem Visits.dispatcher_eq {dispatcher : Dispatcher}
    (visits : dispatcher.drain.Visits visited last) :
    last.dispatcher = dispatcher.beyond last.phase := by
  induction visits with
  | begins => rfl
  | delivered _ step ih | refused _ _ step ih =>
    obtain ⟨rest, -, -, rfl⟩ := step_eq_attempt_iff.mp step
    exact ih
  | nextList _ step ih =>
    obtain ⟨phase, -, later, rfl⟩ := step_eq_nextList_iff.mp step
    simp only [ih]
    exact Dispatcher.beyond_next later

/-- What is attempted was recorded. -/
theorem Visits.prefix_notices {dispatcher : Dispatcher}
    (visits : dispatcher.drain.Visits visited last) : visited <+: dispatcher.notices :=
  ⟨last.left, visits.append_left⟩

/-- Everything that is attempted is of one of the three lists. -/
theorem Visits.exists_phase {dispatcher : Dispatcher}
    (visits : dispatcher.drain.Visits visited last) :
    ∀ notice ∈ visited, ∃ phase : Phase, notice.2 = phase.target := by
  intro notice member
  have listed : notice ∈ dispatcher.notices := visits.prefix_notices.subset member
  simp only [Dispatcher.notices, List.mem_append, List.mem_map] at listed
  rcases listed with ⟨object, -, rfl⟩ | ⟨object, -, rfl⟩ | ⟨object, -, rfl⟩
  · exact ⟨.exits, rfl⟩
  · exact ⟨.retentions, rfl⟩
  · exact ⟨.entries, rfl⟩

end Drain

end LiveTree.Lifecycle
