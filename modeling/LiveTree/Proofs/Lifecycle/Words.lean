import LiveTree.Proofs.Session.Books
import LiveTree.Proofs.Session.Calling

/-! The words that observers hear. Whoever moves an object, a command, a dispatcher, a pool or a
batch of retirements, and however deep in callbacks that is done, what the object is told over its
life always spells a retention, some rounds of entering and exiting, and at most one retirement
after an exit; and its state is always the one that the word ends in. -/
namespace LiveTree.Lifecycle

/-- Some rounds of entering and exiting. -/
def rounds (count : Nat) : List Event := (List.replicate count [Event.entered, .exited]).flatten

private theorem rounds_succ (count : Nat) :
    rounds (count + 1) = rounds count ++ [.entered, .exited] := by
  simp [rounds, List.replicate_succ']

private theorem retired_notMem_rounds (count : Nat) : .retired ∉ rounds count := by
  simp [rounds]

/-- The words that an observer can have heard, each with the state of its object. -/
inductive State.Spells : List Event → State → Prop
  | nothing : Spells [] .unretained
  | retained : Spells [.retained] .retained
  | entered (count : Nat) : Spells (.retained :: (rounds count ++ [.entered])) .entered
  | exited (count : Nat) : Spells (.retained :: rounds (count + 1)) .exited
  | retired (count : Nat) : Spells (.retained :: (rounds count ++ [.retired])) .retired

namespace State.Spells

variable {word : List Event} {state next : State} {event : Event}

/-- A legal move spells on. -/
private theorem moves (spells : Spells word state) (legal : state.canBecome next = true)
    (told : next.event? = some event) : Spells (word ++ [event]) next := by
  cases spells with
  | nothing =>
    cases next <;> cases legal
    cases told
    exact .retained
  | retained =>
    cases next <;> cases legal <;> cases told
    · exact .entered 0
    · exact .retired 0
  | entered count =>
    cases next <;> cases legal
    cases told
    have word : Event.retained :: (rounds count ++ [.entered]) ++ [.exited] =
        .retained :: rounds (count + 1) := by
      rw [rounds_succ]
      simp
    rw [word]
    exact .exited count
  | exited count =>
    cases next <;> cases legal <;> cases told
    · exact .entered (count + 1)
    · exact .retired (count + 1)
  | retired => rw [canBecome_retired] at legal; cases legal

private theorem retired_notMem (spells : Spells word state) (alive : state ≠ .retired) :
    .retired ∉ word := by
  cases spells with
  | nothing => exact List.not_mem_nil
  | retained => decide
  | entered count => simp [retired_notMem_rounds]
  | exited count => simp [retired_notMem_rounds]
  | retired => exact absurd rfl alive

/-- A retirement is heard last, and after something else. -/
private theorem exists_of_retired (spells : Spells word .retired) :
    ∃ count, word = (.retained :: rounds count) ++ [.retired] ∧
      .retired ∉ Event.retained :: rounds count := by
  cases spells with
  | retired count => exact ⟨count, rfl, by simp [retired_notMem_rounds]⟩

/-- Nothing follows a retirement. -/
private theorem retired_last (spells : Spells word state) {before after : List Event}
    (split : word = before ++ .retired :: after) : after = [] := by
  have member : .retired ∈ word := split ▸ List.mem_append_right _ List.mem_cons_self
  obtain rfl : state = .retired := by_contra fun alive => spells.retired_notMem alive member
  obtain ⟨count, rfl, unheard⟩ := spells.exists_of_retired
  rcases List.eq_nil_or_concat after with rfl | ⟨between, last, rfl⟩
  · rfl
  · rw [List.concat_eq_append, ← List.cons_append, ← List.append_assoc] at split
    obtain ⟨same, -⟩ := List.append_singleton_inj.mp split
    rw [same] at unheard
    exact absurd (List.mem_append_right _ List.mem_cons_self) unheard

/-- An object is retired once at most. -/
private theorem count_retired_le (spells : Spells word state) : word.count .retired ≤ 1 := by
  by_cases alive : state = .retired
  · subst alive
    obtain ⟨count, rfl, unheard⟩ := spells.exists_of_retired
    rw [List.count_append, List.count_eq_zero_of_not_mem unheard]
    exact Nat.le_refl 1
  · rw [List.count_eq_zero_of_not_mem (spells.retired_notMem alive)]
    exact Nat.zero_le 1

/-- No retirement follows an entry directly. -/
private theorem ne_entered_retired (spells : Spells word state) (before after : List Event) :
    word ≠ before ++ .entered :: .retired :: after := by
  intro split
  have regrouped : word = (before ++ [.entered]) ++ .retired :: after := by simp [split]
  obtain rfl := spells.retired_last regrouped
  have member : .retired ∈ word := regrouped ▸ List.mem_append_right _ List.mem_cons_self
  obtain rfl : state = .retired := by_contra fun alive => spells.retired_notMem alive member
  obtain ⟨count, rfl, -⟩ := spells.exists_of_retired
  obtain ⟨same, -⟩ := List.append_singleton_inj.mp regrouped
  cases count with
  | zero =>
    have ends : [] ++ [Event.retained] = before ++ [.entered] := same
    obtain ⟨-, other⟩ := List.append_singleton_inj.mp ends
    cases other
  | succ count =>
    have ends : Event.retained :: rounds (count + 1) =
        (.retained :: (rounds count ++ [.entered])) ++ [.exited] := by
      rw [rounds_succ]
      simp
    obtain ⟨-, other⟩ := List.append_singleton_inj.mp (ends.symm.trans same)
    cases other

end State.Spells

/-- What an object hears in its life spells a word. -/
private theorem State.Lives.spells {story : List State} {state : State}
    (lives : State.Lives story state) : State.Spells (story.filterMap State.event?) state := by
  induction lives with
  | new => exact .nothing
  | @moves story state next _ legal ih =>
    obtain ⟨event, told⟩ := Option.isSome_iff_exists.mp (State.isSome_event?_of_canBecome legal)
    rw [List.filterMap_append, List.filterMap_cons, told]
    exact ih.moves legal told

end LiveTree.Lifecycle

namespace LiveTree.Session

open Awaiting LiveTree.Frame
open Lifecycle (ObjectId Registry storyOf)

/-- The move of an object that a deed is. -/
def Deed.move? : Deed → Option (ObjectId × Lifecycle.State)
  | moves object state => some (object, state)
  | _ => none

/-- What an object has been told. -/
def Deed.word (object : ObjectId) (history : List Deed) : List Lifecycle.Event :=
  (storyOf (history.filterMap Deed.move?) object).filterMap Lifecycle.State.event?

namespace Stage

variable {stage after : Stage} {deed : Option Deed} {history : List Deed}

/-- How the objects change in a step: one moves, or none does. -/
inductive Moving (objects : Registry Observer) : Option Deed → Registry Observer → Prop
  | stays {deed : Option Deed} {grown : Registry Observer}
      (quiet : ∀ done ∈ deed, done.move? = none) (state : ∀ id, grown.state id = objects.state id) :
      Moving objects deed grown
  | moves {object : ObjectId} {target : Lifecycle.State} {moved : Registry Observer}
      (present : (objects.get? object).isSome) (legal : objects.advance object target = .ok moved) :
      Moving objects (some (.moves object target)) moved

private theorem Step.moving (step : stage.Step deed after) :
    Moving stage.objects deed after.objects := by
  cases step with
  | rests grown => exact .stays nofun grown.state
  | moves present legal => exact .moves present legal
  | cancels =>
    rw [objects_cancel]
    exact .stays (by simp [Deed.move?]) fun _ => rfl
  | _ => exact .stays (by simp [Deed.move?]) fun _ => rfl

/-- What an object has been told is its life up to its state. -/
private theorem Life.lives (life : Life history stage) (object : ObjectId) :
    Lifecycle.State.Lives (storyOf (history.filterMap Deed.move?) object)
      (stage.objects.state object) := by
  induction life with
  | bare => exact .new
  | @next history stage after deed life step ih =>
    have moving := step.moving
    rw [List.filterMap_append, Lifecycle.storyOf_append]
    generalize after.objects = objects at moving ⊢
    cases moving with
    | stays quiet state =>
      have silent : deed.toList.filterMap Deed.move? = [] := by
        cases deed with
        | none => rfl
        | some done => simp [quiet done rfl]
      rw [silent, Lifecycle.storyOf_nil, List.append_nil, state]
      exact ih
    | @moves moved target _ present legal =>
      have told : (some (Deed.moves moved target)).toList.filterMap Deed.move? =
          [(moved, target)] := rfl
      rw [told]
      by_cases same : moved = object
      · subst same
        rw [Lifecycle.storyOf_cons_self, Lifecycle.storyOf_nil,
          Registry.state_advance_self legal present]
        exact ih.moves (Registry.canBecome_of_advance legal)
      · rw [Lifecycle.storyOf_cons_of_ne same, Lifecycle.storyOf_nil, List.append_nil,
          Registry.state_advance_of_ne legal (Ne.symm same)]
        exact ih

end Stage

namespace Machine

variable {machine : Machine} {deed : Deed} {object : ObjectId} {target : Lifecycle.State}
  {passed : List Machine}

/-! ### Attempts to move an object -/

/-- How a step attempts to move an object: if the move is refused, it goes on without a trace, and
if it is allowed, something waits for the object to be told. -/
structure Attempts (machine : Machine) (object : ObjectId) (target : Lifecycle.State)
    (refused : Lifecycle.IllegalMove → Machine) (allowed : Machine → Machine) : Prop where
  step : machine.step = machine.advance object target refused allowed
  world : ∀ illegal, (refused illegal).world = machine.world
  silent : ∀ illegal, (refused illegal).calls = machine.calls
  depth : ∀ illegal, (refused illegal).stack.length = machine.stack.length
  kept : ∀ moved : Machine, (allowed moved).world = moved.world ∧ (allowed moved).log = moved.log

private theorem Attempting.attempts (attempting : machine.Attempting object target) :
    ∃ refused allowed, machine.Attempts object target refused allowed := by
  cases attempting with
  | @advances name _ _ control named =>
    refine ⟨fun illegal => machine.reply (.illegal illegal), (·.push (.replying .ok)),
      ?_, fun _ => rfl, fun _ => rfl, fun _ => rfl, fun _ => ⟨rfl, rfl⟩⟩
    simp only [step, control, execute, executeObject, onObject, named]
  | @drains owner drain next calls _ _ proceeds stack turn =>
    refine ⟨fun illegal => (machine.become (.draining owner (next.refused illegal))).proceed,
      (·.become (.draining owner next.delivered)), ?_, fun _ => rfl, fun _ => rfl, fun _ => ?_,
      fun _ => ⟨rfl, rfl⟩⟩
    · simp only [step, proceeds, stack, resume, continueDrain, turn]
    · simp [proceed, become, stack]
  | @retires delivery later counted calls _ proceeds stack turn =>
    refine ⟨fun illegal => ((machine.become (.retiring later counted)).diagnose
        (.retirementSkipped illegal)).proceed, (·.become (.retiring later.delivered counted)),
      ?_, fun _ => ?_, fun _ => calls_diagnose _ _, fun _ => ?_, fun _ => ⟨rfl, rfl⟩⟩
    · simp only [step, proceeds, stack, resume, continueRetirement, turn]
    · exact world_diagnose _ _
    · simp [proceed, become, stack]

private theorem Attempting.deed? (attempting : machine.Attempting object target) :
    machine.deed? = machine.stage.advance? object target := by
  cases attempting with
  | advances control named => simp [Machine.deed?, control, started?, named]
  | drains proceeds stack turn => simp [Machine.deed?, proceeds, stack, continued?, turn]
  | retires proceeds stack turn => simp [Machine.deed?, proceeds, stack, continued?, turn]

/-- To move an object is to tell it, unless it is silent. -/
theorem Attempting.tells (attempting : machine.Attempting object target)
    {kept : Lifecycle.Retained Observer} {moved : Registry Observer}
    (found : machine.world.objects.get? object = some kept)
    (legal : machine.world.objects.advance object target = .ok moved) :
    machine.deed? = some (.moves object target) ∧ machine.step.world.objects = moved ∧
      ∃ event, target.event? = some event ∧ machine.step.control = .proceed ∧
        (kept.observer.reactions.silent = false →
          machine.step.log = .told kept.observer.name event :: machine.log ∧
            ∃ calls, machine.step.stack = .body (kept.observer.reactions.to event) :: calls) := by
  have allows := Registry.canBecome_of_advance legal
  constructor
  · have present : machine.stage.objects.get? object = some kept := found
    have allowed : (machine.stage.objects.state object).canBecome target = true := allows
    rw [attempting.deed?, Stage.advance?, present, allowed]
    rfl
  · obtain ⟨event, told⟩ :=
      Option.isSome_iff_exists.mp (Lifecycle.State.isSome_event?_of_canBecome allows)
    obtain ⟨refused, allowed, attempts⟩ := attempting.attempts
    have same : (moved.get? object).map _ = _ := observer_advance legal
    rw [found] at same
    obtain ⟨after, present, observer⟩ := Option.map_eq_some_iff.mp same
    obtain ⟨world, log⟩ := attempts.kept (machine.withWorld { machine.world with objects := moved })
    have objects : (allowed
        (machine.withWorld { machine.world with objects := moved })).world.objects = moved := by
      rw [world]
      rfl
    rw [← observer, attempts.step, advance, legal]
    simp only [tellState, told, tell, objects, present]
    split
    · next silent =>
      exact ⟨objects, event, rfl, rfl, fun loud => absurd silent (Bool.eq_false_iff.mp loud)⟩
    · exact ⟨objects, event, rfl, rfl, fun _ => ⟨congrArg (_ :: ·) log, _, rfl⟩⟩

/-- A refused move changes nothing and calls nobody back. -/
theorem Attempting.refused (attempting : machine.Attempting object target)
    {illegal : Lifecycle.IllegalMove}
    (refusal : machine.world.objects.advance object target = .error illegal) :
    machine.step.world = machine.world ∧ machine.step.calls = machine.calls ∧
      machine.step.stack.length = machine.stack.length := by
  obtain ⟨refused, allowed, attempts⟩ := attempting.attempts
  rw [attempts.step, advance, refusal]
  exact ⟨attempts.world _, attempts.silent _, attempts.depth _⟩

/-- An object only moves where that is attempted. -/
theorem attempting_of_moves (done : machine.deed? = some (.moves object target)) :
    machine.Attempting object target ∧
      ∃ moved, machine.world.objects.advance object target = .ok moved := by
  cases doing_of_deed done with
  | starts _ starting => cases starting
  | moves attempting _ legal => exact ⟨attempting, _, if_pos legal⟩

/-- Observers are told by moves, or by user code itself. -/
theorem moves_of_told {name : Name} {event : Lifecycle.Event}
    (logged : machine.step.calls = .told name event :: machine.calls) :
    ∃ object kept, machine.world.objects.get? object = some kept ∧ kept.observer.name = name ∧
      ((∃ target, machine.deed? = some (.moves object target) ∧ target.event? = some event) ∨
        ∃ called, machine.world.objectNames.get? called = some object ∧
          machine.control = .execute (.object (.poke called (some event)))) := by
  rcases machine.accounted with same | ⟨shown, shows, logs⟩
  · rw [same] at logged
    exact absurd logged.symm (List.cons_ne_self _ _)
  · obtain rfl : shown = .told name event := (List.cons.inj (logs.symm.trans logged)).1
    cases shows with
    | deed shown =>
      generalize done : machine.deed? = deed at shown
      cases shown with
      | @hook source _ _ callback _ shown =>
        exfalso
        cases source <;> cases callback <;> simp [World.hook?] at shown
      | turn shown => cases shown
      | @told object target _ kept found state =>
        exact ⟨object, kept, found, rfl, .inl ⟨target, rfl, state⟩⟩
    | @poke called object kept _ control named found =>
      exact ⟨object, kept, found, rfl, .inr ⟨called, named, control⟩⟩

/-- What is sure of what an object is told. -/
structure LegalWord (passed : List Machine) (machine : Machine) (object : ObjectId) : Prop where
  /-- It spells a word that ends in the state of the object. -/
  word : Lifecycle.State.Spells (Deed.word object (deeds passed))
    (machine.stage.objects.state object)
  /-- A retirement is heard once at most, nothing is heard after it, and an entry is not heard just
  before it. -/
  once : (Deed.word object (deeds passed)).count .retired ≤ 1
  last : ∀ before after, Deed.word object (deeds passed) = before ++ .retired :: after → after = []
  apart : ∀ before after,
    Deed.word object (deeds passed) ≠ before ++ .entered :: .retired :: after

/-- What is sure of the attempts to move objects in a course. -/
structure Telling (passed : List Machine) : Prop where
  /-- A refused attempt changes nothing and calls nobody back. -/
  refused : ∀ middle ∈ passed, ∀ object target illegal, middle.Attempting object target →
    middle.world.objects.advance object target = .error illegal →
      middle.step.world = middle.world ∧ middle.step.calls = middle.calls ∧
        middle.step.stack.length = middle.stack.length
  /-- Any other attempt moves the object and calls its observer back, unless that is silent. -/
  tells : ∀ middle ∈ passed, ∀ object target kept moved, middle.Attempting object target →
    middle.world.objects.get? object = some kept →
    middle.world.objects.advance object target = .ok moved →
      middle.deed? = some (.moves object target) ∧ middle.step.world.objects = moved ∧
        ∃ event, target.event? = some event ∧ middle.step.control = .proceed ∧
          (kept.observer.reactions.silent = false →
            middle.step.log = .told kept.observer.name event :: middle.log ∧
              ∃ calls, middle.step.stack = .body (kept.observer.reactions.to event) :: calls)
  /-- An object only moves where that is attempted. -/
  attempted : ∀ middle ∈ passed, ∀ object target, middle.deed? = some (.moves object target) →
    middle.Attempting object target ∧
      ∃ moved, middle.world.objects.advance object target = .ok moved
  /-- Nothing else tells an object anything, but user code by itself. -/
  only : ∀ middle ∈ passed, ∀ name event, middle.step.calls = .told name event :: middle.calls →
    ∃ object kept, middle.world.objects.get? object = some kept ∧ kept.observer.name = name ∧
      ((∃ target, middle.deed? = some (.moves object target) ∧ target.event? = some event) ∨
        ∃ called, middle.world.objectNames.get? called = some object ∧
          middle.control = .execute (.object (.poke called (some event))))

/-- In every course, what an object is told by its moves is a legal word that ends in its state. -/
theorem observers_hear_legal_words (course : Course passed machine) :
    (∀ object, LegalWord passed machine object) ∧ Telling passed := by
  constructor
  · intro object
    have spells : Lifecycle.State.Spells (Deed.word object (deeds passed))
        (machine.stage.objects.state object) := (course.life.lives object).spells
    exact ⟨spells, spells.count_retired_le, fun _ _ split => spells.retired_last split,
      spells.ne_entered_retired⟩
  · constructor
    case refused =>
      intro middle _ object target illegal attempting refusal
      exact attempting.refused refusal
    case tells =>
      intro middle _ object target kept moved attempting found legal
      exact attempting.tells found legal
    case attempted =>
      intro middle _ object target done
      exact attempting_of_moves done
    case only =>
      intro middle _ name event logged
      exact moves_of_told logged

/-- An object is retained, and panics when it is told that it has entered. -/
def panicsOnEntry : Machine :=
  let body : Body :=
    [.object (.create "o" ⟨false, [], [.panic .wordless], [], []⟩),
      .object (.advance "o" .retained), .object (.advance "o" .entered)]
  start { scripts := ⟨[("main", body)]⟩ } none (.call "main")

theorem observers_hear_legal_words_despite_panic :
    Deed.word ⟨0⟩ (deeds (trail 14 panicsOnEntry)) = [.retained, .entered] ∧
      (advanced 14 panicsOnEntry).stage.objects.state ⟨0⟩ = .entered ∧
      (∃ reason, (advanced 14 panicsOnEntry).control = .unwind reason) ∧
      LegalWord (trail 14 panicsOnEntry) (advanced 14 panicsOnEntry) ⟨0⟩ := by
  have course : Course (trail 14 panicsOnEntry) (advanced 14 panicsOnEntry) :=
    ⟨_, _, _, goes_trail 14 panicsOnEntry⟩
  refine ⟨?_, ?_, ⟨.wordless, ?_⟩, (observers_hear_legal_words course).1 ⟨0⟩⟩
  · with_unfolding_all rfl
  · with_unfolding_all rfl
  · with_unfolding_all rfl

end Machine

end LiveTree.Session
