import LiveTree.Lifecycle.Dispatcher

/-! The delivery of recorded notifications. Between two attempts anything can have happened, since
observers run then; so a delivery is first described for any outcome of its attempts. -/
namespace LiveTree.Lifecycle

/-- What is left of a dispatcher when everything but the retirements has been delivered. -/
def Dispatcher.drained (dispatcher : Dispatcher) : Dispatcher :=
  { retiring := dispatcher.retiring }

/-- How many lists are delivered after this one. -/
def Phase.listsLeft : Phase → Nat
  | exits => 2
  | retentions => 1
  | entries => 0

namespace Drain

variable {drain next last : Drain}

/-- A delivery goes on, whatever becomes of its attempts. -/
inductive Proceeds : Drain → Drain → Prop
  | refl (drain : Drain) : Proceeds drain drain
  | delivered {drain next last : Drain} {object : ObjectId} {target : State}
      (step : drain.step = .attempt object target next) (rest : Proceeds next.delivered last) :
      Proceeds drain last
  | refused {drain next last : Drain} {object : ObjectId} {target : State} {illegal : IllegalMove}
      (step : drain.step = .attempt object target next)
      (rest : Proceeds (next.refused illegal) last) : Proceeds drain last
  | nextList {drain next last : Drain} (step : drain.step = .nextList next)
      (rest : Proceeds next last) : Proceeds drain last

/-- An attempt takes its object off the list and changes nothing else. -/
theorem step_eq_attempt_iff {object : ObjectId} {target : State} :
    drain.step = .attempt object target next ↔
      ∃ rest, drain.rest = object :: rest ∧ target = drain.phase.target ∧
        next = { drain with rest } := by
  unfold step
  cases drain.rest with
  | nil => cases drain.phase.next? <;> simp
  | cons first rest =>
    simp only [DrainStep.attempt.injEq, List.cons.injEq]
    constructor
    · rintro ⟨rfl, rfl, rfl⟩
      exact ⟨rest, ⟨rfl, rfl⟩, rfl, rfl⟩
    · rintro ⟨_, ⟨rfl, rfl⟩, rfl, rfl⟩
      exact ⟨rfl, rfl, rfl⟩

theorem step_eq_nextList_iff :
    drain.step = .nextList next ↔
      ∃ phase, drain.rest = [] ∧ drain.phase.next? = some phase ∧
        next = { drain with
          dispatcher := (drain.dispatcher.take phase).2
          phase
          rest := (drain.dispatcher.take phase).1 } := by
  unfold step
  cases rest : drain.rest with
  | cons first rest => simp
  | nil => cases later : drain.phase.next? <;> simp [eq_comm]

theorem step_eq_finished_iff :
    drain.step = .finished ↔ drain.rest = [] ∧ drain.phase = .entries := by
  unfold step
  cases drain.rest with
  | cons first rest => simp
  | nil => cases phase : drain.phase <;> simp [Phase.next?]

/-- The lists that a delivery has begun are no longer in the dispatcher. -/
structure Begun (drain : Drain) : Prop where
  exits : drain.dispatcher.exiting = []
  retentions : drain.phase ≠ .exits → drain.dispatcher.retaining = []
  entries : drain.phase = .entries → drain.dispatcher.entering = []

theorem Begun.start (dispatcher : Dispatcher) : dispatcher.drain.Begun :=
  ⟨rfl, fun later => absurd rfl later, nofun⟩

theorem Begun.nextList (begun : drain.Begun) (step : drain.step = .nextList next) :
    next.Begun := by
  obtain ⟨phase, -, later, rfl⟩ := step_eq_nextList_iff.mp step
  obtain ⟨exits, retentions, -⟩ := begun
  cases drained : drain.phase with
  | exits =>
    rw [drained] at later
    cases later
    exact ⟨exits, fun _ => rfl, nofun⟩
  | retentions =>
    rw [drained] at later
    cases later
    exact ⟨exits, fun _ => retentions (by simp [drained]), fun _ => rfl⟩
  | entries =>
    rw [drained] at later
    cases later

theorem Begun.attempt (begun : drain.Begun) {object : ObjectId} {target : State}
    (step : drain.step = .attempt object target next) : next.Begun := by
  obtain ⟨rest, -, -, rfl⟩ := step_eq_attempt_iff.mp step
  exact ⟨begun.exits, begun.retentions, begun.entries⟩

theorem Proceeds.begun (proceeds : drain.Proceeds last) (begun : drain.Begun) : last.Begun := by
  induction proceeds with
  | refl => exact begun
  | delivered step _ ih | refused step _ ih =>
    obtain ⟨exits, retentions, entries⟩ := begun.attempt step
    exact ih ⟨exits, retentions, entries⟩
  | nextList step _ ih => exact ih (begun.nextList step)

/-- No delivery of notifications touches the retirements. -/
private theorem Proceeds.retiring_eq (proceeds : drain.Proceeds last) :
    last.dispatcher.retiring = drain.dispatcher.retiring := by
  induction proceeds with
  | refl => rfl
  | delivered step _ ih | refused step _ ih =>
    obtain ⟨rest, -, -, rfl⟩ := step_eq_attempt_iff.mp step
    exact ih
  | nextList step _ ih =>
    obtain ⟨phase, -, -, rfl⟩ := step_eq_nextList_iff.mp step
    rw [ih]
    cases phase <;> rfl

/-- A delivery adds to no list: each is as it was, or has been taken out. -/
theorem Proceeds.recorded_cases (proceeds : drain.Proceeds last) (event : Event) :
    last.dispatcher.recorded event = drain.dispatcher.recorded event ∨
      last.dispatcher.recorded event = [] := by
  induction proceeds with
  | refl => exact .inl rfl
  | delivered step _ ih | refused step _ ih =>
    obtain ⟨rest, -, -, rfl⟩ := step_eq_attempt_iff.mp step
    exact ih
  | nextList step _ ih =>
    obtain ⟨phase, -, -, rfl⟩ := step_eq_nextList_iff.mp step
    rcases ih with same | empty
    · rw [same]
      cases phase <;> cases event <;> simp [Dispatcher.take, Dispatcher.recorded]
    · exact .inr empty

/-- A finished delivery has nothing but the retirements left. -/
theorem Begun.eq_drained (begun : drain.Begun) (finished : drain.step = .finished) :
    drain.dispatcher = drain.dispatcher.drained := by
  obtain ⟨-, phase⟩ := step_eq_finished_iff.mp finished
  obtain ⟨exits, retentions, entries⟩ := begun
  obtain ⟨⟨retaining, entering, exiting, retired⟩, _, _, _⟩ := drain
  simp_all [Dispatcher.drained]

/-- It leaves the retirements of the dispatcher with which it began. -/
theorem Proceeds.dispatcher_eq {dispatcher : Dispatcher}
    (proceeds : dispatcher.drain.Proceeds last) (finished : last.step = .finished) :
    last.dispatcher = dispatcher.drained := by
  have begun := proceeds.begun (.start dispatcher)
  rw [begun.eq_drained finished, Dispatcher.drained, proceeds.retiring_eq]
  rfl

/-- Every delivery has an end, so what holds at the end and before each step holds throughout. -/
theorem stepInduction {motive : Drain → Prop}
    (attempt : ∀ drain object target next, drain.step = .attempt object target next →
      (∀ report, motive { next with report }) → motive drain)
    (nextList : ∀ drain next, drain.step = .nextList next → motive next → motive drain)
    (finished : ∀ drain, drain.step = .finished → motive drain) (drain : Drain) : motive drain :=
  match taken : drain.step with
  | .attempt _ _ next =>
    attempt _ _ _ _ taken fun report =>
      stepInduction attempt nextList finished { next with report }
  | .nextList next => nextList _ _ taken (stepInduction attempt nextList finished next)
  | .finished => finished _ taken
termination_by (drain.phase.listsLeft, drain.rest.length)
decreasing_by
  · obtain ⟨rest, split, -, same⟩ := step_eq_attempt_iff.mp taken
    simp [same, split, Prod.lex_def]
  · obtain ⟨phase, -, later, same⟩ := step_eq_nextList_iff.mp taken
    have fewer : phase.listsLeft < drain.phase.listsLeft := by
      cases begun : drain.phase <;> rw [begun] at later <;> cases later <;> decide
    rw [same]
    exact Prod.Lex.left _ _ fewer

/-- A delivery comes to its end. -/
theorem exists_finished (drain : Drain) : ∃ last, drain.Proceeds last ∧ last.step = .finished := by
  induction drain using stepInduction with
  | attempt _ _ _ _ step ih =>
    obtain ⟨last, rest, finished⟩ := ih _
    exact ⟨last, .delivered step rest, finished⟩
  | nextList _ _ step ih =>
    obtain ⟨last, rest, finished⟩ := ih
    exact ⟨last, .nextList step rest, finished⟩
  | finished drain step => exact ⟨drain, .refl drain, step⟩

end Drain

end LiveTree.Lifecycle
