import LiveTree.Proofs.Lifecycle.Delivery

/-! Delivery to observers that only listen. Then nothing happens between two attempts, so what
becomes of an object depends on its own state and on the lists that name it: it leaves if it can,
is retained if it can, and enters if it can. What an object is told over its whole life is a story
that its state is the end of. -/
namespace LiveTree.Lifecycle

variable {ω : Type}

/-- What one object was told, in order, out of all that was told. -/
def storyOf (told : List (ObjectId × State)) (object : ObjectId) : List State :=
  told.filterMap fun notice => if notice.1 = object then some notice.2 else none

@[simp]
theorem storyOf_nil (object : ObjectId) : storyOf [] object = [] := rfl

@[simp]
theorem storyOf_append (first second : List (ObjectId × State)) (object : ObjectId) :
    storyOf (first ++ second) object = storyOf first object ++ storyOf second object :=
  List.filterMap_append ..

theorem storyOf_cons_self (object : ObjectId) (state : State) (told : List (ObjectId × State)) :
    storyOf ((object, state) :: told) object = state :: storyOf told object := by
  simp [storyOf]

theorem storyOf_cons_of_ne {object other : ObjectId} (different : other ≠ object) (state : State)
    (told : List (ObjectId × State)) :
    storyOf ((other, state) :: told) object = storyOf told object := by
  simp [storyOf, different]

theorem mem_storyOf_iff {told : List (ObjectId × State)} {object : ObjectId} {state : State} :
    state ∈ storyOf told object ↔ (object, state) ∈ told := by
  simp [storyOf]

/-- A story that the law of states allows, and the state that it leads to. -/
inductive State.Lives : List State → State → Prop
  | new : Lives [] .unretained
  | moves {story : List State} {state next : State} (lives : Lives story state)
      (legal : state.canBecome next = true) : Lives (story ++ [next]) next

namespace State.Lives

variable {story : List State} {state : State}

/-- Every story begins with a retention. -/
theorem retained_mem (lives : Lives story state) (begun : state ≠ .unretained) :
    .retained ∈ story := by
  induction lives with
  | new => exact absurd rfl begun
  | @moves story state next _ legal ih =>
    by_cases first : state = .unretained
    · subst first
      cases next <;> simp_all [canBecome]
    · exact List.mem_append_left _ (ih first)

private theorem eq_nil (lives : Lives story .unretained) : story = [] := by
  cases lives with
  | new => rfl
  | @moves _ state _ _ legal => cases state <;> cases legal

/-- An object that entered and is retired has left just before. -/
theorem exited_before_retired (lives : Lives story .retired) (entered : .entered ∈ story) :
    [.exited, .retired] <:+ story := by
  cases lives with
  | @moves early state _ lives legal =>
    cases state with
    | unretained | entered | retired => cases legal
    | exited =>
      cases lives with
      | moves => exact ⟨_, (List.append_assoc _ [exited] [retired]).symm⟩
    | retained =>
      -- Retired without ever entering.
      cases lives with
      | @moves _ first _ lives legal =>
        cases first with
        | retained | entered | exited | retired => cases legal
        | unretained =>
          rw [lives.eq_nil] at entered
          simp at entered

end State.Lives

namespace Registry

variable {registry moved : Registry ω} {object other : ObjectId} {target : State}

theorem isSome_get?_advance (legal : registry.advance object target = .ok moved) :
    (moved.get? other).isSome = (registry.get? other).isSome := by
  unfold advance at legal
  split at legal
  · cases legal
    simp [get?, Array.getElem?_modify]
    split <;> simp
  · cases legal

/-- Moves several objects in turn and tells them; an illegal move is left out. -/
def moveAll (target : State) :
    Registry ω → List ObjectId → List (ObjectId × State) × Registry ω
  | registry, [] => ([], registry)
  | registry, object :: objects =>
    match registry.advance object target with
    | .ok moved =>
      ((object, target) :: (moveAll target moved objects).1, (moveAll target moved objects).2)
    | .error _ => moveAll target registry objects

theorem isSome_get?_moveAll (target : State) (registry : Registry ω) (objects : List ObjectId) :
    ((registry.moveAll target objects).2.get? other).isSome = (registry.get? other).isSome := by
  induction objects generalizing registry with
  | nil => rfl
  | cons object objects ih =>
    simp only [moveAll]
    split
    · next moved legal => rw [ih, isSome_get?_advance legal]
    · exact ih registry

end Registry

/-- What an object in a state is told by a list that moves to another state. -/
def State.heard (state target : State) (listed : Bool) : List State :=
  if listed && state.canBecome target then [target] else []

/-- Where such a list leaves the object. -/
def State.after (state target : State) (listed : Bool) : State :=
  if listed && state.canBecome target then target else state

/-- What an object hears from several lists, one after another. -/
def State.hears (state : State) (object : ObjectId) : List (State × List ObjectId) → List State
  | [] => []
  | (target, objects) :: agenda =>
    state.heard target (objects.contains object) ++
      (state.after target (objects.contains object)).hears object agenda

namespace Registry

variable {registry moved : Registry ω} {object other : ObjectId} {target : State}

theorem canBecome_of_advance (legal : registry.advance object target = .ok moved) :
    (registry.state object).canBecome target = true := by
  unfold advance at legal
  split at legal
  · next allowed => exact allowed
  · cases legal

/-- A list moves an object once, if it names the object and the move is legal. -/
theorem moveAll_spec (target : State) (registry : Registry ω) (objects : List ObjectId)
    (present : (registry.get? object).isSome) :
    (registry.moveAll target objects).2.state object =
        (registry.state object).after target (objects.contains object) ∧
      storyOf (registry.moveAll target objects).1 object =
        (registry.state object).heard target (objects.contains object) := by
  have stays : target.canBecome target = false := by cases target <;> rfl
  induction objects generalizing registry with
  | nil => exact ⟨rfl, rfl⟩
  | cons first objects ih =>
    simp only [moveAll, List.contains_cons]
    cases attempt : registry.advance first target with
    | ok moved =>
      obtain ⟨later, laterStory⟩ := ih moved (by rw [isSome_get?_advance attempt]; exact present)
      by_cases same : object = first
      · subst same
        have legal := canBecome_of_advance attempt
        rw [state_advance_self attempt present] at later laterStory
        simp only [storyOf_cons_self, later, laterStory]
        simp [State.after, State.heard, stays, legal]
      · rw [state_advance_of_ne attempt same] at later laterStory
        have apart : (object == first) = false := beq_eq_false_iff_ne.mpr same
        rw [storyOf_cons_of_ne (Ne.symm same), apart, Bool.false_or]
        exact ⟨later, laterStory⟩
    | error illegal =>
      obtain ⟨later, laterStory⟩ := ih registry present
      by_cases same : object = first
      · subst same
        obtain ⟨forbidden, -⟩ := advance_eq_error_iff.mp attempt
        simp only [later, laterStory]
        simp [State.after, State.heard, forbidden]
      · have apart : (object == first) = false := beq_eq_false_iff_ne.mpr same
        rw [apart, Bool.false_or]
        exact ⟨later, laterStory⟩

/-- An object that a list does not name hears nothing of it. -/
private theorem storyOf_moveAll_of_notMem (target : State) (registry : Registry ω)
    {objects : List ObjectId} (absent : object ∉ objects) :
    storyOf (registry.moveAll target objects).1 object = [] := by
  induction objects generalizing registry with
  | nil => rfl
  | cons first objects ih =>
    obtain ⟨different, absent⟩ := not_or.mp (mt List.mem_cons.mpr absent)
    simp only [moveAll]
    split
    · rw [storyOf_cons_of_ne (Ne.symm different)]
      exact ih _ absent
    · exact ih _ absent

/-- What an object hears continues its story. -/
private theorem moveAll_lives {story : List State} (objects : List ObjectId)
    (present : (registry.get? object).isSome) (lives : State.Lives story (registry.state object)) :
    State.Lives (story ++ storyOf (registry.moveAll target objects).1 object)
      ((registry.moveAll target objects).2.state object) := by
  obtain ⟨state, heard⟩ := moveAll_spec target registry objects present
  rw [state, heard]
  unfold State.after State.heard
  split
  · next legal => exact lives.moves (Bool.and_eq_true_iff.mp legal).2
  · rw [List.append_nil]
    exact lives

/-- Several lists, one after another, each with the state to which it moves its objects. -/
def carryOut : Registry ω → List (State × List ObjectId) → List (ObjectId × State) × Registry ω
  | registry, [] => ([], registry)
  | registry, (target, objects) :: agenda =>
    ((registry.moveAll target objects).1 ++
      ((registry.moveAll target objects).2.carryOut agenda).1,
      ((registry.moveAll target objects).2.carryOut agenda).2)

private theorem isSome_get?_carryOut (registry : Registry ω)
    (agenda : List (State × List ObjectId)) :
    ((registry.carryOut agenda).2.get? object).isSome = (registry.get? object).isSome := by
  induction agenda generalizing registry with
  | nil => rfl
  | cons entry agenda ih => rw [carryOut, ih, isSome_get?_moveAll]

/-- Where several lists leave an object, and what it hears from them. -/
private theorem carryOut_spec (registry : Registry ω) (agenda : List (State × List ObjectId))
    (present : (registry.get? object).isSome) :
    (registry.carryOut agenda).2.state object =
        agenda.foldl (fun state entry => state.after entry.1 (entry.2.contains object))
          (registry.state object) ∧
      storyOf (registry.carryOut agenda).1 object =
        (registry.state object).hears object agenda := by
  induction agenda generalizing registry with
  | nil => exact ⟨rfl, rfl⟩
  | cons entry agenda ih =>
    obtain ⟨now, nowStory⟩ := moveAll_spec entry.1 registry entry.2 present
    obtain ⟨later, laterStory⟩ := ih (registry.moveAll entry.1 entry.2).2
      (by rw [isSome_get?_moveAll]; exact present)
    rw [now] at later laterStory
    rw [carryOut, storyOf_append, nowStory, laterStory]
    exact ⟨later, rfl⟩

private theorem storyOf_carryOut_of_notMem (registry : Registry ω)
    {agenda : List (State × List ObjectId)} (absent : ∀ entry ∈ agenda, object ∉ entry.2) :
    storyOf (registry.carryOut agenda).1 object = [] := by
  induction agenda generalizing registry with
  | nil => rfl
  | cons entry agenda ih =>
    obtain ⟨here, later⟩ := List.forall_mem_cons.mp absent
    rw [carryOut, storyOf_append, storyOf_moveAll_of_notMem _ _ here, ih _ later]
    rfl

private theorem carryOut_lives {story : List State} (agenda : List (State × List ObjectId))
    (present : (registry.get? object).isSome) (lives : State.Lives story (registry.state object)) :
    State.Lives (story ++ storyOf (registry.carryOut agenda).1 object)
      ((registry.carryOut agenda).2.state object) := by
  induction agenda generalizing registry story with
  | nil => simpa [carryOut] using lives
  | cons entry agenda ih =>
    rw [carryOut, storyOf_append, ← List.append_assoc]
    exact ih (by rw [isSome_get?_moveAll]; exact present) (moveAll_lives entry.2 present lives)

end Registry

/-- Where the lists of a dispatcher leave an object. -/
def Dispatcher.leaves (dispatcher : Dispatcher) (object : ObjectId) (state : State) : State :=
  ((state.after .exited (dispatcher.exiting.contains object)).after .retained
    (dispatcher.retaining.contains object)).after .entered (dispatcher.entering.contains object)

/-- What an object hears from the lists of a dispatcher. -/
def Dispatcher.tells (dispatcher : Dispatcher) (object : ObjectId) (state : State) : List State :=
  let left := state.after .exited (dispatcher.exiting.contains object)
  let kept := left.after .retained (dispatcher.retaining.contains object)
  state.heard .exited (dispatcher.exiting.contains object) ++
    (left.heard .retained (dispatcher.retaining.contains object) ++
      kept.heard .entered (dispatcher.entering.contains object))

/-- An object that is to enter whenever it is to be retained does not stay in between. -/
theorem Dispatcher.leaves_settled {dispatcher : Dispatcher} {object : ObjectId} {state : State}
    (enters : object ∈ dispatcher.retaining → object ∈ dispatcher.entering)
    (settled : state ≠ .retained)
    (awaits : state = .unretained → object ∈ dispatcher.retaining) :
    dispatcher.leaves object state ≠ .retained ∧ dispatcher.leaves object state ≠ .unretained := by
  by_cases exits : object ∈ dispatcher.exiting <;>
    by_cases retains : object ∈ dispatcher.retaining <;>
    by_cases entries : object ∈ dispatcher.entering <;> cases state <;>
    simp_all [leaves, State.after, State.canBecome]

/-- Nothing but a retirement retires an object. -/
theorem Dispatcher.leaves_ne_retired {dispatcher : Dispatcher} {object : ObjectId} {state : State}
    (alive : state ≠ .retired) : dispatcher.leaves object state ≠ .retired := by
  by_cases exits : object ∈ dispatcher.exiting <;>
    by_cases retains : object ∈ dispatcher.retaining <;>
    by_cases entries : object ∈ dispatcher.entering <;> cases state <;>
    simp_all [leaves, State.after, State.canBecome]

/-- An object that no list names stays as it is. -/
theorem Dispatcher.leaves_of_unlisted {dispatcher : Dispatcher} {object : ObjectId} {state : State}
    (exits : object ∉ dispatcher.exiting) (retentions : object ∉ dispatcher.retaining)
    (entries : object ∉ dispatcher.entering) : dispatcher.leaves object state = state := by
  simp [leaves, State.after, exits, retentions, entries]

/-- An object that is not to enter does not enter. -/
theorem Dispatcher.entered_notMem_tells {dispatcher : Dispatcher} {object : ObjectId}
    {state : State} (entries : object ∉ dispatcher.entering) :
    .entered ∉ dispatcher.tells object state := by
  have unlisted : dispatcher.entering.contains object = false := by simpa using entries
  simp only [tells, State.heard, unlisted, Bool.false_and]
  split <;> split <;> simp

/-- A new object that is to be retained and to enter hears both, even if it is to exit as well. -/
theorem Dispatcher.tells_new {dispatcher : Dispatcher} {object : ObjectId}
    (retains : object ∈ dispatcher.retaining) (enters : object ∈ dispatcher.entering) :
    dispatcher.tells object .unretained = [.retained, .entered] := by
  simp [tells, State.heard, State.after, State.canBecome, retains, enters]

/-- An object that is to enter is entered in the end, whatever else it is to be told. -/
theorem Dispatcher.leaves_entered {dispatcher : Dispatcher} {object : ObjectId} {state : State}
    (enters : object ∈ dispatcher.entering) (settled : state ≠ .retained)
    (awaits : state = .unretained → object ∈ dispatcher.retaining) (alive : state ≠ .retired) :
    dispatcher.leaves object state = .entered := by
  by_cases exits : object ∈ dispatcher.exiting <;>
    by_cases retains : object ∈ dispatcher.retaining <;> cases state <;>
    simp_all [leaves, State.after, State.canBecome]

/-- An object that entered and is not to exit stays entered. -/
theorem Dispatcher.leaves_entered_of_stays {dispatcher : Dispatcher} {object : ObjectId}
    (exits : object ∉ dispatcher.exiting) : dispatcher.leaves object .entered = .entered := by
  simp [leaves, State.after, State.canBecome, exits]

/-- An object that is not to enter is exited in the end, if what entered is to exit. -/
theorem Dispatcher.leaves_exited {dispatcher : Dispatcher} {object : ObjectId} {state : State}
    (entries : object ∉ dispatcher.entering)
    (begun : state = .entered ∨ state = .exited)
    (exits : state = .entered → object ∈ dispatcher.exiting) :
    dispatcher.leaves object state = .exited := by
  rcases begun with rfl | rfl
  · simp [leaves, State.after, State.canBecome, entries, exits rfl]
  · simp [leaves, State.after, State.canBecome, entries]

/-- The lists that a delivery still has to go through. -/
def Drain.agenda (drain : Drain) : List (State × List ObjectId) :=
  (drain.phase.target, drain.rest) ::
    match drain.phase with
    | .exits => [(.retained, drain.dispatcher.retaining), (.entered, drain.dispatcher.entering)]
    | .retentions => [(.entered, drain.dispatcher.entering)]
    | .entries => []

/-- A delivery to observers that only listen, with what it tells them. -/
inductive Drain.Delivers :
    Registry ω → Drain → List (ObjectId × State) → Registry ω → Drain → Prop
  | finished {registry : Registry ω} {drain : Drain} (step : drain.step = .finished) :
      Delivers registry drain [] registry drain
  | delivered {registry moved final : Registry ω} {drain next last : Drain} {object : ObjectId}
      {target : State} {told : List (ObjectId × State)}
      (step : drain.step = .attempt object target next)
      (legal : registry.advance object target = .ok moved)
      (rest : Delivers moved next.delivered told final last) :
      Delivers registry drain ((object, target) :: told) final last
  | refused {registry final : Registry ω} {drain next last : Drain} {object : ObjectId}
      {target : State} {told : List (ObjectId × State)} {illegal : IllegalMove}
      (step : drain.step = .attempt object target next)
      (refusal : registry.advance object target = .error illegal)
      (rest : Delivers registry (next.refused illegal) told final last) :
      Delivers registry drain told final last
  | nextList {registry final : Registry ω} {drain next last : Drain}
      {told : List (ObjectId × State)} (step : drain.step = .nextList next)
      (rest : Delivers registry next told final last) :
      Delivers registry drain told final last

/-- Such a delivery comes to its end. -/
theorem Drain.exists_delivers (registry : Registry ω) (drain : Drain) :
    ∃ told final last, Drain.Delivers registry drain told final last := by
  induction drain using stepInduction generalizing registry with
  | attempt _ object target next step ih =>
    cases attempt : registry.advance object target with
    | ok moved =>
      obtain ⟨told, final, last, rest⟩ := ih _ moved
      exact ⟨_, final, last, .delivered step attempt rest⟩
    | error illegal =>
      obtain ⟨told, final, last, rest⟩ := ih _ registry
      exact ⟨told, final, last, .refused step attempt rest⟩
  | nextList _ _ step ih =>
    obtain ⟨told, final, last, rest⟩ := ih registry
    exact ⟨told, final, last, .nextList step rest⟩
  | finished drain step => exact ⟨[], registry, drain, .finished step⟩

namespace Drain.Delivers

variable {registry final : Registry ω} {drain last : Drain} {told : List (ObjectId × State)}

/-- Such a delivery is a delivery. -/
theorem proceeds (delivers : Drain.Delivers registry drain told final last) :
    drain.Proceeds last ∧ last.step = .finished := by
  induction delivers with
  | finished step => exact ⟨.refl _, step⟩
  | delivered step _ _ ih => exact ⟨.delivered step ih.1, ih.2⟩
  | refused step _ _ ih => exact ⟨.refused step ih.1, ih.2⟩
  | nextList step _ ih => exact ⟨.nextList step ih.1, ih.2⟩

/-- A delivery carries out its lists and nothing else. -/
private theorem carriesOut (delivers : Drain.Delivers registry drain told final last) :
    registry.carryOut drain.agenda = (told, final) := by
  induction delivers with
  | finished step =>
    obtain ⟨rest, phase⟩ := step_eq_finished_iff.mp step
    simp [agenda, rest, phase, Registry.carryOut, Registry.moveAll]
  | delivered step legal _ ih =>
    obtain ⟨rest, split, rfl, rfl⟩ := step_eq_attempt_iff.mp step
    simp only [agenda, Drain.delivered, Registry.carryOut, Prod.mk.injEq] at ih
    simp only [agenda, split, Registry.carryOut, Registry.moveAll, legal, List.cons_append]
    rw [ih.1, ih.2]
  | refused step refusal _ ih =>
    obtain ⟨rest, split, rfl, rfl⟩ := step_eq_attempt_iff.mp step
    simp only [agenda, Drain.refused, Registry.carryOut, Prod.mk.injEq] at ih
    simp only [agenda, split, Registry.carryOut, Registry.moveAll, refusal]
    rw [ih.1, ih.2]
  | @nextList _ _ drain _ _ _ step _ ih =>
    obtain ⟨phase, none, later, rfl⟩ := step_eq_nextList_iff.mp step
    cases begun : drain.phase with
    | exits =>
      rw [begun] at later
      cases later
      simpa [agenda, begun, none, Dispatcher.take, Phase.target, Registry.carryOut,
        Registry.moveAll] using ih
    | retentions =>
      rw [begun] at later
      cases later
      simpa [agenda, begun, none, Dispatcher.take, Phase.target, Registry.carryOut,
        Registry.moveAll] using ih
    | entries =>
      rw [begun] at later
      cases later

/-- What becomes of an object: it exits if it can, then is retained, then enters. -/
theorem effect {dispatcher : Dispatcher}
    (delivers : Drain.Delivers registry dispatcher.drain told final last) {object : ObjectId}
    (present : (registry.get? object).isSome) :
    final.state object = dispatcher.leaves object (registry.state object) ∧
      storyOf told object = dispatcher.tells object (registry.state object) := by
  obtain ⟨state, story⟩ := Registry.carryOut_spec registry dispatcher.drain.agenda present
  rw [delivers.carriesOut] at state story
  simp only [agenda, Dispatcher.drain, Dispatcher.take, Phase.target, State.hears, List.foldl_cons,
    List.foldl_nil, List.contains_reverse, List.append_nil] at state story
  exact ⟨state, story⟩

/-- A delivery removes no object. -/
theorem isSome_get? (delivers : Drain.Delivers registry drain told final last)
    (object : ObjectId) : (final.get? object).isSome = (registry.get? object).isSome := by
  rw [← Registry.isSome_get?_carryOut registry drain.agenda, delivers.carriesOut]

/-- What an object hears of a delivery continues its story. -/
theorem lives (delivers : Drain.Delivers registry drain told final last) {object : ObjectId}
    {story : List State} (present : (registry.get? object).isSome)
    (lives : State.Lives story (registry.state object)) :
    State.Lives (story ++ storyOf told object) (final.state object) := by
  have continued := Registry.carryOut_lives drain.agenda present lives
  rwa [delivers.carriesOut] at continued

/-- An object that no list names hears nothing. -/
theorem storyOf_eq_nil {dispatcher : Dispatcher}
    (delivers : Drain.Delivers registry dispatcher.drain told final last) {object : ObjectId}
    (exits : object ∉ dispatcher.exiting) (retentions : object ∉ dispatcher.retaining)
    (entries : object ∉ dispatcher.entering) : storyOf told object = [] := by
  have absent : ∀ entry ∈ dispatcher.drain.agenda, object ∉ entry.2 := by
    simp [agenda, Dispatcher.drain, Dispatcher.take, exits, retentions, entries]
  have silent := Registry.storyOf_carryOut_of_notMem registry absent
  rwa [delivers.carriesOut] at silent

end Drain.Delivers

/-- A delivery of retirements to observers that only listen. -/
inductive Retirement.Delivers :
    Registry ω → Retirement → List (ObjectId × State) → Registry ω → Prop
  | finished {registry : Registry ω} {delivery : Retirement} (step : delivery.next? = none) :
      Delivers registry delivery [] registry
  | delivered {registry moved final : Registry ω} {delivery next : Retirement}
      {object : ObjectId} {told : List (ObjectId × State)}
      (step : delivery.next? = some (object, next))
      (legal : registry.advance object .retired = .ok moved)
      (rest : Delivers moved next.delivered told final) :
      Delivers registry delivery ((object, .retired) :: told) final
  | refused {registry final : Registry ω} {delivery next : Retirement} {object : ObjectId}
      {told : List (ObjectId × State)} {illegal : IllegalMove}
      (step : delivery.next? = some (object, next))
      (refusal : registry.advance object .retired = .error illegal)
      (rest : Delivers registry next told final) : Delivers registry delivery told final

namespace Retirement

theorem next?_eq_some_iff {delivery next : Retirement} {object : ObjectId} :
    delivery.next? = some (object, next) ↔
      ∃ rest, delivery.rest = object :: rest ∧ next = { delivery with rest } := by
  unfold next?
  cases delivery.rest with
  | nil => simp
  | cons first rest =>
    simp only [Option.some.injEq, Prod.mk.injEq, List.cons.injEq]
    exact ⟨fun ⟨same, later⟩ => ⟨rest, ⟨same, rfl⟩, later.symm⟩,
      fun ⟨_, ⟨same, tail⟩, later⟩ => ⟨same, by rw [later, tail]⟩⟩

/-- A delivery of retirements carries out its list and nothing else. -/
private theorem Delivers.carriesOut {registry final : Registry ω} {delivery : Retirement}
    {told : List (ObjectId × State)} (delivers : Delivers registry delivery told final) :
    registry.moveAll .retired delivery.rest = (told, final) := by
  induction delivers with
  | @finished _ delivery step =>
    cases rest : delivery.rest with
    | nil => rfl
    | cons object rest => simp [next?, rest] at step
  | delivered step legal _ ih =>
    obtain ⟨rest, split, rfl⟩ := next?_eq_some_iff.mp step
    simp only [Retirement.delivered] at ih
    simp only [split, Registry.moveAll, legal, ih]
  | refused step refusal _ ih =>
    obtain ⟨rest, split, rfl⟩ := next?_eq_some_iff.mp step
    simp only [split, Registry.moveAll, refusal, ih]

/-- A delivery of retirements comes to its end. -/
theorem exists_delivers (registry : Registry ω) (delivery : Retirement) :
    ∃ told final, Delivers registry delivery told final :=
  match taken : delivery.next? with
  | none => ⟨[], registry, .finished taken⟩
  | some (object, next) =>
    match attempt : registry.advance object .retired with
    | .ok moved =>
      have ⟨told, final, rest⟩ := exists_delivers moved next.delivered
      ⟨_, final, .delivered taken attempt rest⟩
    | .error _ =>
      have ⟨told, final, rest⟩ := exists_delivers registry next
      ⟨told, final, .refused taken attempt rest⟩
termination_by delivery.rest.length
decreasing_by
  all_goals
    obtain ⟨rest, split, same⟩ := next?_eq_some_iff.mp taken
    simp [same, split, Retirement.delivered]

namespace Delivers

variable {registry final : Registry ω} {delivery : Retirement} {batch : RetireBatch}
  {told : List (ObjectId × State)} {object : ObjectId}

/-- What becomes of an object: it retires if the list names it and it can. -/
private theorem effect (delivers : Delivers registry delivery told final)
    (present : (registry.get? object).isSome) :
    final.state object =
        (registry.state object).after .retired (delivery.rest.contains object) ∧
      storyOf told object =
        (registry.state object).heard .retired (delivery.rest.contains object) := by
  have spec := Registry.moveAll_spec .retired registry delivery.rest present
  rwa [delivers.carriesOut] at spec

theorem isSome_get? (delivers : Delivers registry delivery told final) (object : ObjectId) :
    (final.get? object).isSome = (registry.get? object).isSome := by
  rw [← Registry.isSome_get?_moveAll .retired registry delivery.rest, delivers.carriesOut]

theorem lives (delivers : Delivers registry delivery told final) {story : List State}
    (present : (registry.get? object).isSome)
    (lives : State.Lives story (registry.state object)) :
    State.Lives (story ++ storyOf told object) (final.state object) := by
  have continued : State.Lives
      (story ++ storyOf (registry.moveAll .retired delivery.rest).1 object)
      ((registry.moveAll .retired delivery.rest).2.state object) :=
    Registry.moveAll_lives delivery.rest present lives
  rwa [delivers.carriesOut] at continued

theorem storyOf_eq_nil (delivers : Delivers registry delivery told final)
    (absent : object ∉ delivery.rest) : storyOf told object = [] := by
  have silent := Registry.storyOf_moveAll_of_notMem .retired registry absent
  rwa [delivers.carriesOut] at silent

theorem state_eq_of_notMem (delivers : Delivers registry delivery told final)
    (present : (registry.get? object).isSome) (absent : object ∉ delivery.rest) :
    final.state object = registry.state object := by
  have unlisted : delivery.rest.contains object = false := by simpa using absent
  rw [(delivers.effect present).1, unlisted]
  rfl

theorem retired_or_same (delivers : Delivers registry delivery told final)
    (present : (registry.get? object).isSome) :
    final.state object = .retired ∨ final.state object = registry.state object := by
  rw [(delivers.effect present).1]
  unfold State.after
  split
  · exact .inl rfl
  · exact .inr rfl

/-- An object that may retire does so with its batch. -/
theorem retired_of_mem (delivers : Delivers registry delivery told final)
    (present : (registry.get? object).isSome) (listed : object ∈ delivery.rest)
    (legal : (registry.state object).canBecome .retired = true) :
    final.state object = .retired := by
  have named : delivery.rest.contains object = true := by simpa using listed
  rw [(delivers.effect present).1, named, State.after, legal]
  rfl

/-- An object that may not retire stays as it is. -/
theorem state_eq_of_illegal (delivers : Delivers registry delivery told final)
    (present : (registry.get? object).isSome)
    (illegal : ¬(registry.state object).canBecome .retired = true) :
    final.state object = registry.state object := by
  rw [(delivers.effect present).1, State.after, Bool.eq_false_iff.mpr illegal, Bool.and_false]
  rfl

/-- Nothing enters when retirements are delivered. -/
theorem entered_notMem (delivers : Delivers registry delivery told final) :
    (object, .entered) ∉ told := by
  induction delivers with
  | finished => exact List.not_mem_nil
  | delivered _ _ _ ih => simpa using ih
  | refused _ _ _ ih => exact ih

end Delivers

end Retirement

end LiveTree.Lifecycle
