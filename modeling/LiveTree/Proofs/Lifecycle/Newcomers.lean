import LiveTree.Proofs.Lifecycle.Telling

/-! Newcomers in a delivery to observers that only listen. The report of a delivery says how many
were told and which moves were illegal. New objects that are to be retained and to enter can be
mixed into its lists anywhere, or be left out and told later in a delivery of their own: every
object hears the same, and the reports amount to the same. -/
namespace LiveTree.Lifecycle

open scoped List

variable {ω : Type}

/-- How many a report counts for a list. -/
def Report.counted (report : Report) : Phase → Nat
  | .exits => report.exited
  | .retentions => report.retained
  | .entries => report.entered

/-- What all objects were told is settled, but for its order, by what each was told. -/
private theorem perm_of_storyOf_eq {first second : List (ObjectId × State)}
    (same : ∀ object, storyOf first object = storyOf second object) : first ~ second := by
  have counted (told : List (ObjectId × State)) (object : ObjectId) (state : State) :
      told.count (object, state) = (storyOf told object).count state := by
    induction told with
    | nil => rfl
    | cons notice told ih =>
      obtain ⟨other, heard⟩ := notice
      by_cases own : other = object
      · subst own
        simp [storyOf_cons_self, List.count_cons, ih]
      · rw [storyOf_cons_of_ne own, ← ih, List.count_cons_of_ne]
        exact fun same => own (congrArg Prod.fst same)
  refine List.perm_iff_count.mpr fun notice => ?_
  rw [counted, counted, same]

namespace Registry

/-- The moves of a list that are illegal when their turn comes. -/
def refusals (target : State) : Registry ω → List ObjectId → List IllegalMove
  | _, [] => []
  | registry, object :: objects =>
    match registry.advance object target with
    | .ok moved => refusals target moved objects
    | .error illegal => illegal :: refusals target registry objects

/-- The illegal moves of several lists, one after another. -/
def refusalsOf : Registry ω → List (State × List ObjectId) → List IllegalMove
  | _, [] => []
  | registry, (target, objects) :: agenda =>
    registry.refusals target objects ++ (registry.moveAll target objects).2.refusalsOf agenda

/-- Two registries in which the old objects stand alike. -/
structure Alike (old : ObjectId → Bool) (one other : Registry ω) : Prop where
  state : ∀ object, old object → one.state object = other.state object
  present : ∀ object, old object → (one.get? object).isSome ∧ (other.get? object).isSome

variable {old : ObjectId → Bool} {one other moved : Registry ω} {object : ObjectId}
  {target : State}

private theorem Alike.advance_ok (alike : Alike old one other) (own : old object)
    (legal : one.advance object target = .ok moved) :
    ∃ movedToo, other.advance object target = .ok movedToo ∧ Alike old moved movedToo := by
  cases attempt : other.advance object target with
  | error illegal =>
    obtain ⟨forbidden, -⟩ := advance_eq_error_iff.mp attempt
    rw [← alike.state object own, canBecome_of_advance legal] at forbidden
    cases forbidden
  | ok movedToo =>
    refine ⟨movedToo, rfl, fun each mine => ?_, fun each mine => ?_⟩
    · by_cases same : each = object
      · subst same
        rw [state_advance_self legal (alike.present each mine).1,
          state_advance_self attempt (alike.present each mine).2]
      · rw [state_advance_of_ne legal same, state_advance_of_ne attempt same]
        exact alike.state each mine
    · rw [isSome_get?_advance legal, isSome_get?_advance attempt]
      exact alike.present each mine

private theorem Alike.advance_error (alike : Alike old one other) (own : old object)
    {illegal : IllegalMove} (refusal : one.advance object target = .error illegal) :
    other.advance object target = .error illegal := by
  rw [advance_eq_error_iff, ← alike.state object own]
  exact advance_eq_error_iff.mp refusal

/-- A move of a new object changes nothing for the old ones. -/
private theorem Alike.advance_foreign (alike : Alike old one other) (foreign : old object = false)
    (legal : one.advance object target = .ok moved) : Alike old moved other where
  state each mine := by
    have different : each ≠ object := by
      rintro rfl
      rw [foreign] at mine
      cases mine
    rw [state_advance_of_ne legal different]
    exact alike.state each mine
  present each mine := by
    rw [isSome_get?_advance legal]
    exact alike.present each mine

/-- The new objects of a list are named once, and can move when the list is begun. -/
structure Admits (old : ObjectId → Bool) (registry : Registry ω) (target : State)
    (objects : List ObjectId) : Prop where
  once : (objects.filter (!old ·)).Nodup
  legal : ∀ object ∈ objects, old object = false →
    (registry.get? object).isSome ∧ (registry.state object).canBecome target = true

private theorem Admits.tail {objects : List ObjectId}
    (admits : Admits old one target (object :: objects))
    (legal : one.advance object target = .ok moved) : Admits old moved target objects where
  once := admits.once.sublist ((List.sublist_cons_self ..).filter _)
  legal each member foreign := by
    have different : each ≠ object := by
      rintro rfl
      have twice := admits.once
      rw [List.filter_cons_of_pos (by simp [foreign])] at twice
      exact (List.nodup_cons.mp twice).1 (List.mem_filter.mpr ⟨member, by simp [foreign]⟩)
    rw [isSome_get?_advance legal, state_advance_of_ne legal different]
    exact admits.legal each (List.mem_cons_of_mem _ member) foreign

private theorem Admits.of_refused {objects : List ObjectId}
    (admits : Admits old one target (object :: objects)) : Admits old one target objects where
  once := admits.once.sublist ((List.sublist_cons_self ..).filter _)
  legal each member := admits.legal each (List.mem_cons_of_mem _ member)

/-- The new objects of a list add no illegal move, and leave the old ones alike. -/
private theorem refusals_filter {objects : List ObjectId} (alike : Alike old one other)
    (admits : Admits old one target objects) :
    one.refusals target objects = other.refusals target (objects.filter old) ∧
      Alike old (one.moveAll target objects).2
        (other.moveAll target (objects.filter old)).2 := by
  induction objects generalizing one other with
  | nil => exact ⟨rfl, alike⟩
  | cons object objects ih =>
    simp only [refusals, moveAll]
    cases own : old object with
    | true =>
      rw [List.filter_cons_of_pos own]
      simp only [refusals, moveAll]
      cases attempt : one.advance object target with
      | ok moved =>
        obtain ⟨movedToo, attemptToo, alike⟩ := alike.advance_ok own attempt
        rw [attemptToo]
        exact ih alike (admits.tail attempt)
      | error illegal =>
        rw [alike.advance_error own attempt]
        obtain ⟨refused, alike⟩ := ih alike admits.of_refused
        exact ⟨congrArg _ refused, alike⟩
    | false =>
      rw [List.filter_cons_of_neg (by simp [own])]
      cases attempt : one.advance object target with
      | ok moved => exact ih (alike.advance_foreign own attempt) (admits.tail attempt)
      | error illegal =>
        obtain ⟨forbidden, -⟩ := advance_eq_error_iff.mp attempt
        rw [(admits.legal object List.mem_cons_self own).2] at forbidden
        cases forbidden

/-- The new objects of several lists are named once in each, and can move each time. -/
def AdmitsAll (old : ObjectId → Bool) : Registry ω → List (State × List ObjectId) → Prop
  | _, [] => True
  | registry, (target, objects) :: agenda =>
    Admits old registry target objects ∧
      (registry.moveAll target objects).2.AdmitsAll old agenda

private theorem refusalsOf_filter {agenda : List (State × List ObjectId)}
    (alike : Alike old one other) (admits : one.AdmitsAll old agenda) :
    one.refusalsOf agenda =
      other.refusalsOf (agenda.map fun entry => (entry.1, entry.2.filter old)) := by
  induction agenda generalizing one other with
  | nil => rfl
  | cons entry agenda ih =>
    obtain ⟨here, later⟩ := admits
    obtain ⟨refused, alike⟩ := refusals_filter alike here
    rw [List.map_cons, refusalsOf, refusalsOf, refused, ih alike later]

end Registry

namespace Drain.Delivers

variable {registry final : Registry ω} {drain last : Drain} {told : List (ObjectId × State)}

/-- A delivery reports the illegal moves of its lists. -/
private theorem errors_eq (delivers : Drain.Delivers registry drain told final last) :
    last.report.errors = drain.report.errors ++ registry.refusalsOf drain.agenda := by
  induction delivers with
  | finished step =>
    obtain ⟨rest, phase⟩ := step_eq_finished_iff.mp step
    simp [agenda, rest, phase, Registry.refusalsOf, Registry.refusals]
  | delivered step legal _ ih =>
    obtain ⟨rest, split, rfl, rfl⟩ := step_eq_attempt_iff.mp step
    rw [ih]
    simp only [agenda, split, Drain.delivered, Registry.refusalsOf, Registry.refusals,
      Registry.moveAll, legal]
    congr 1
    unfold Report.count
    split <;> rfl
  | refused step refusal _ ih =>
    obtain ⟨rest, split, rfl, rfl⟩ := step_eq_attempt_iff.mp step
    rw [ih]
    simp [agenda, split, Drain.refused, Report.refuse, Registry.refusalsOf, Registry.refusals,
      Registry.moveAll, refusal]
  | @nextList _ _ drain _ _ _ step _ ih =>
    obtain ⟨phase, none, later, rfl⟩ := step_eq_nextList_iff.mp step
    rw [ih]
    cases begun : drain.phase with
    | exits | retentions =>
      rw [begun] at later
      cases later
      simp [agenda, begun, none, Dispatcher.take, Phase.target, Registry.refusalsOf,
        Registry.refusals, Registry.moveAll]
    | entries =>
      rw [begun] at later
      cases later

/-- A delivery counts for each of its lists those that it told of the move. -/
private theorem counted_eq (delivers : Drain.Delivers registry drain told final last)
    (phase : Phase) :
    last.report.counted phase = drain.report.counted phase + told.countP (·.2 = phase.target) := by
  induction delivers with
  | finished => rfl
  | @delivered _ _ _ drain _ _ _ _ _ step _ _ ih =>
    obtain ⟨rest, -, rfl, rfl⟩ := step_eq_attempt_iff.mp step
    rw [ih, List.countP_cons]
    cases here : drain.phase <;> cases phase <;>
      simp [Drain.delivered, Report.count, Report.counted, Phase.target] <;> omega
  | refused step _ _ ih =>
    obtain ⟨rest, -, -, rfl⟩ := step_eq_attempt_iff.mp step
    rw [ih]
    cases phase <;> rfl
  | nextList step _ ih =>
    obtain ⟨_, -, -, rfl⟩ := step_eq_nextList_iff.mp step
    exact ih

end Drain.Delivers

private theorem Registry.state_of_absent {registry : Registry ω} {object : ObjectId}
    (absent : (registry.get? object).isSome = false) : registry.state object = .unretained := by
  cases found : registry.get? object with
  | none => simp [state, found]
  | some kept => simp [found] at absent

/-- A delivery leaves what its lists do not name as it is. -/
private theorem Drain.Delivers.state_of_unlisted {registry final : Registry ω}
    {dispatcher : Dispatcher} {last : Drain} {told : List (ObjectId × State)} {object : ObjectId}
    (delivers : Drain.Delivers registry dispatcher.drain told final last)
    (exits : object ∉ dispatcher.exiting) (retentions : object ∉ dispatcher.retaining)
    (entries : object ∉ dispatcher.entering) : final.state object = registry.state object := by
  cases present : (registry.get? object).isSome with
  | true =>
    rw [(delivers.effect present).1, Dispatcher.leaves_of_unlisted exits retentions entries]
  | false =>
    rw [Registry.state_of_absent present,
      Registry.state_of_absent ((delivers.isSome_get? object).trans present)]

/-- A dispatcher in which newcomers are mixed with old objects, beside the same dispatcher without
them. They are to be retained after the old objects, and to enter anywhere between them. -/
structure Dispatcher.Mixed (old : ObjectId → Bool) (newcomers : List ObjectId)
    (mixed apart : Dispatcher) : Prop where
  exiting : mixed.exiting = apart.exiting
  retiring : mixed.retiring = apart.retiring
  retaining : mixed.retaining = apart.retaining ++ newcomers
  entering : mixed.entering.filter old = apart.entering
  enteringNew : mixed.entering.filter (!old ·) = newcomers
  exits : ∀ object ∈ apart.exiting, old object
  retains : ∀ object ∈ apart.retaining, old object
  once : newcomers.Nodup

namespace Dispatcher.Mixed

variable {old : ObjectId → Bool} {newcomers objects : List ObjectId} {mixed apart : Dispatcher}
  {object : ObjectId}

theorem start {dispatcher : Dispatcher} (exits : ∀ object ∈ dispatcher.exiting, old object)
    (retains : ∀ object ∈ dispatcher.retaining, old object)
    (enters : ∀ object ∈ dispatcher.entering, old object) : Mixed old [] dispatcher dispatcher where
  exiting := rfl
  retiring := rfl
  retaining := (List.append_nil _).symm
  entering := List.filter_eq_self.mpr enters
  enteringNew := List.filter_eq_nil_iff.mpr fun object member => by simp [enters object member]
  exits
  retains
  once := List.nodup_nil

/-- Old objects that are to enter are to enter in both. -/
theorem enter (lists : Mixed old newcomers mixed apart) (known : ∀ object ∈ objects, old object) :
    Mixed old newcomers (mixed.record .entered objects) (apart.record .entered objects) :=
  { lists with
    entering := by
      simp only [record, List.filter_append, lists.entering, List.filter_eq_self.mpr known]
    enteringNew := by
      have none : objects.filter (!old ·) = [] :=
        List.filter_eq_nil_iff.mpr fun object member => by simp [known object member]
      simp only [record, List.filter_append, lists.enteringNew, none, List.append_nil] }

/-- Old objects that are to exit or to retire are to do so in both. -/
theorem leave (lists : Mixed old newcomers mixed apart) (known : ∀ object ∈ objects, old object)
    (retiring : List ObjectId) :
    Mixed old newcomers
      { mixed with exiting := mixed.exiting ++ objects, retiring := mixed.retiring ++ retiring }
      { apart with exiting := apart.exiting ++ objects, retiring := apart.retiring ++ retiring } :=
  { lists with
    exiting := by simp only [lists.exiting]
    retiring := by simp only [lists.retiring]
    exits := fun object member =>
      (List.mem_append.mp member).elim (lists.exits object) (known object) }

/-- More newcomers are mixed in. -/
theorem add (lists : Mixed old newcomers mixed apart)
    (foreign : ∀ object ∈ objects, old object = false) (distinct : objects.Nodup)
    (disjoint : ∀ object ∈ newcomers, object ∉ objects) :
    Mixed old (newcomers ++ objects) ((mixed.record .retained objects).record .entered objects)
      apart :=
  { lists with
    retaining := by simp only [record, lists.retaining, List.append_assoc]
    entering := by
      have none : objects.filter old = [] :=
        List.filter_eq_nil_iff.mpr fun object member => by simp [foreign object member]
      simp only [record, List.filter_append, lists.entering, none, List.append_nil]
    enteringNew := by
      have all : objects.filter (!old ·) = objects :=
        List.filter_eq_self.mpr fun object member => by simp [foreign object member]
      simp only [record, List.filter_append, lists.enteringNew, all]
    once := List.nodup_append.mpr
      ⟨lists.once, distinct, fun object before _ now same => disjoint object before (same ▸ now)⟩ }

section Lists

variable (lists : Mixed old newcomers mixed apart)
include lists

private theorem foreign (member : object ∈ newcomers) : old object = false := by
  rw [← lists.enteringNew] at member
  simpa using (List.mem_filter.mp member).2

private theorem mem_entering :
    object ∈ mixed.entering ↔ object ∈ apart.entering ∨ object ∈ newcomers := by
  rw [← lists.entering, ← lists.enteringNew]
  cases own : old object <;> simp [own]

private theorem mem_retaining :
    object ∈ mixed.retaining ↔ object ∈ apart.retaining ∨ object ∈ newcomers := by
  rw [lists.retaining, List.mem_append]

/-- Nothing but old objects is listed where the newcomers are left out. -/
private theorem unlisted (foreign : old object = false) :
    object ∉ apart.exiting ∧ object ∉ apart.retaining ∧ object ∉ apart.entering := by
  refine ⟨fun member => ?_, fun member => ?_, fun member => ?_⟩
  · rw [lists.exits object member] at foreign
    cases foreign
  · rw [lists.retains object member] at foreign
    cases foreign
  · rw [← lists.entering] at member
    rw [(List.mem_filter.mp member).2] at foreign
    cases foreign

/-- The newcomers can make their moves. -/
private theorem admitsAll {registry : Registry ω}
    (new : ∀ object ∈ newcomers,
      (registry.get? object).isSome ∧ registry.state object = .unretained) :
    registry.AdmitsAll old mixed.drain.agenda := by
  have newRetains : mixed.retaining.filter (!old ·) = newcomers := by
    have none : apart.retaining.filter (!old ·) = [] :=
      List.filter_eq_nil_iff.mpr fun object member => by simp [lists.retains object member]
    have all : newcomers.filter (!old ·) = newcomers :=
      List.filter_eq_self.mpr fun object member => by simp [lists.foreign member]
    rw [lists.retaining, List.filter_append, none, all, List.nil_append]
  have newExits : mixed.exiting.reverse.filter (!old ·) = [] :=
    List.filter_eq_nil_iff.mpr fun object member => by
      rw [lists.exiting] at member
      simp [lists.exits object (List.mem_reverse.mp member)]
  have unlisted {object : ObjectId} (foreign : old object = false) :
      mixed.exiting.reverse.contains object = false := by
    rw [lists.exiting]
    simpa using (lists.unlisted foreign).1
  have isNew {object : ObjectId} (member : object ∈ mixed.retaining)
      (foreign : old object = false) : object ∈ newcomers :=
    (lists.mem_retaining.mp member).resolve_left (lists.unlisted foreign).2.1
  simp only [Drain.agenda, Dispatcher.drain, Dispatcher.take, Phase.target]
  refine ⟨⟨?_, ?_⟩, ⟨?_, ?_⟩, ⟨?_, ?_⟩, trivial⟩
  · rw [newExits]
    exact List.nodup_nil
  · intro object member foreign
    have listed : object ∈ mixed.exiting.reverse.filter (!old ·) :=
      List.mem_filter.mpr ⟨member, by simp [foreign]⟩
    rw [newExits] at listed
    cases listed
  · rw [newRetains]
    exact lists.once
  · intro object member foreign
    obtain ⟨present, unretained⟩ := new object (isNew member foreign)
    refine ⟨by rwa [Registry.isSome_get?_moveAll], ?_⟩
    rw [(Registry.moveAll_spec _ registry _ present).1, unlisted foreign, unretained]
    rfl
  · rw [lists.enteringNew]
    exact lists.once
  · intro object member foreign
    have isNew := (lists.mem_entering.mp member).resolve_left (lists.unlisted foreign).2.2
    obtain ⟨present, unretained⟩ := new object isNew
    have presentThen : ((registry.moveAll .exited mixed.exiting.reverse).2.get?
        object).isSome := by
      rwa [Registry.isSome_get?_moveAll]
    refine ⟨by rwa [Registry.isSome_get?_moveAll], ?_⟩
    rw [(Registry.moveAll_spec _ _ _ presentThen).1,
      (Registry.moveAll_spec _ registry _ present).1, unlisted foreign, unretained,
      List.contains_iff_mem.mpr (lists.mem_retaining.mpr (.inr isNew))]
    rfl

/-- Without the newcomers the lists are those of the other dispatcher. -/
private theorem agenda_filter :
    mixed.drain.agenda.map (fun entry => (entry.1, entry.2.filter old)) =
      apart.drain.agenda := by
  have exits : mixed.exiting.reverse.filter old = apart.exiting.reverse := by
    rw [lists.exiting]
    exact List.filter_eq_self.mpr fun object member =>
      lists.exits object (List.mem_reverse.mp member)
  have retains : mixed.retaining.filter old = apart.retaining := by
    have none : newcomers.filter old = [] :=
      List.filter_eq_nil_iff.mpr fun object member => by simp [lists.foreign member]
    rw [lists.retaining, List.filter_append, List.filter_eq_self.mpr lists.retains, none,
      List.append_nil]
  simp [Drain.agenda, Dispatcher.drain, Dispatcher.take, exits, retains, lists.entering]

end Lists

end Dispatcher.Mixed

/-- A dispatcher that has delivered everything, with newcomers that are to be retained and to
enter. -/
def Dispatcher.welcoming (dispatcher : Dispatcher) (newcomers : List ObjectId) : Dispatcher :=
  (dispatcher.drained.record .retained newcomers).record .entered newcomers

/-- A new object that is to be retained and to enter does both. -/
private theorem Dispatcher.leaves_new {dispatcher : Dispatcher} {object : ObjectId}
    (retains : object ∈ dispatcher.retaining) (enters : object ∈ dispatcher.entering) :
    dispatcher.leaves object .unretained = .entered :=
  leaves_entered enters nofun (fun _ => retains) nofun

/-- Registries before two ways to tell newcomers: together with the old objects, or later, when
they are created after the old objects have been told. -/
structure Arrivals (old : ObjectId → Bool) (newcomers : List ObjectId)
    (together before after later : Registry ω) : Prop where
  state : ∀ object, together.state object = before.state object
  stateLater : ∀ object, later.state object = after.state object
  existed : ∀ object, (before.get? object).isSome = old object
  kept : ∀ object, old object → (together.get? object).isSome
  new : ∀ object ∈ newcomers, (together.get? object).isSome ∧ (later.get? object).isSome

/-- Two ways to tell objects come to the same. -/
structure SameTelling (told : List (ObjectId × State)) (final : Registry ω) (last : Drain)
    (toldFirst toldThen : List (ObjectId × State)) (finalThen : Registry ω)
    (lastFirst lastThen : Drain) : Prop where
  states : ∀ object, final.state object = finalThen.state object
  stories : ∀ object, storyOf told object = storyOf toldFirst object ++ storyOf toldThen object
  counts : ∀ phase, last.report.counted phase =
    lastFirst.report.counted phase + lastThen.report.counted phase
  errors : last.report.errors = lastFirst.report.errors ++ lastThen.report.errors

namespace Dispatcher.Mixed

variable {old : ObjectId → Bool} {newcomers : List ObjectId} {mixed apart : Dispatcher}
  {object : ObjectId} {together before after later final finalThen : Registry ω}
  {told toldFirst toldThen : List (ObjectId × State)} {last lastFirst lastThen : Drain}
  (lists : Mixed old newcomers mixed apart)
  (arrivals : Arrivals old newcomers together before after later)
  (delivers : Drain.Delivers together mixed.drain told final last)
  (first : Drain.Delivers before apart.drain toldFirst after lastFirst)
  (second : Drain.Delivers later (apart.welcoming newcomers).drain toldThen finalThen lastThen)
include lists arrivals delivers first second

/-- An object that was there before hears everything with the first delivery. -/
private theorem telling_of_old (own : old object) :
    final.state object = finalThen.state object ∧
      storyOf told object = storyOf toldFirst object ++ storyOf toldThen object := by
  have notNew : object ∉ newcomers := fun member => by
    rw [lists.foreign member] at own
    cases own
  have retains : mixed.retaining.contains object = apart.retaining.contains object := by
    simp [lists.retaining, notNew]
  have enters : mixed.entering.contains object = apart.entering.contains object := by
    rw [Bool.eq_iff_iff, List.contains_iff_mem, List.contains_iff_mem, lists.mem_entering]
    exact or_iff_left notNew
  obtain ⟨state, story⟩ := delivers.effect (arrivals.kept object own)
  obtain ⟨stateFirst, storyFirst⟩ := first.effect ((arrivals.existed object).trans own)
  have stateThen := second.state_of_unlisted List.not_mem_nil notNew notNew
  have storyThen := second.storyOf_eq_nil List.not_mem_nil notNew notNew
  rw [state, story, stateThen, storyThen, storyFirst, arrivals.stateLater, stateFirst,
    arrivals.state, List.append_nil, leaves, leaves, tells, tells, lists.exiting, retains, enters]
  exact ⟨rfl, rfl⟩

/-- A newcomer is retained and enters, sooner or later. -/
private theorem telling_of_new (new : object ∈ newcomers) :
    final.state object = finalThen.state object ∧
      storyOf told object = storyOf toldFirst object ++ storyOf toldThen object := by
  have foreign := lists.foreign new
  obtain ⟨exits, retains, enters⟩ := lists.unlisted foreign
  have unretained : before.state object = .unretained :=
    Registry.state_of_absent ((arrivals.existed object).trans foreign)
  have stateFirst := first.state_of_unlisted exits retains enters
  have storyFirst := first.storyOf_eq_nil exits retains enters
  obtain ⟨present, presentThen⟩ := arrivals.new object new
  obtain ⟨state, story⟩ := delivers.effect present
  obtain ⟨stateThen, storyThen⟩ := second.effect presentThen
  rw [arrivals.stateLater, stateFirst, unretained] at stateThen storyThen
  rw [arrivals.state, unretained] at state story
  have toRetain := lists.mem_retaining.mpr (.inr new)
  have toEnter := lists.mem_entering.mpr (.inr new)
  rw [state, stateThen, story, storyFirst, storyThen, tells_new toRetain toEnter,
    leaves_new toRetain toEnter, tells_new new new, leaves_new new new]
  exact ⟨rfl, rfl⟩

/-- Nobody else hears anything. -/
private theorem telling_of_neither (foreign : old object = false) (notNew : object ∉ newcomers) :
    final.state object = finalThen.state object ∧
      storyOf told object = storyOf toldFirst object ++ storyOf toldThen object := by
  obtain ⟨exits, retains, enters⟩ := lists.unlisted foreign
  have stateFirst := first.state_of_unlisted exits retains enters
  have storyFirst := first.storyOf_eq_nil exits retains enters
  have stateThen := second.state_of_unlisted List.not_mem_nil notNew notNew
  have storyThen := second.storyOf_eq_nil List.not_mem_nil notNew notNew
  have exitsNot : object ∉ mixed.exiting := by rwa [lists.exiting]
  have retainsNot : object ∉ mixed.retaining := fun member =>
    (lists.mem_retaining.mp member).elim retains notNew
  have entersNot : object ∉ mixed.entering := fun member =>
    (lists.mem_entering.mp member).elim enters notNew
  rw [delivers.state_of_unlisted exitsNot retainsNot entersNot,
    delivers.storyOf_eq_nil exitsNot retainsNot entersNot, stateThen, storyFirst, storyThen,
    arrivals.stateLater, stateFirst, arrivals.state]
  exact ⟨rfl, rfl⟩

/-- Illegal moves are those of the old objects. -/
private theorem errors_eq :
    last.report.errors = lastFirst.report.errors ∧ lastThen.report.errors = [] := by
  have unretained {object : ObjectId} (new : object ∈ newcomers) :
      before.state object = .unretained :=
    Registry.state_of_absent ((arrivals.existed object).trans (lists.foreign new))
  have alike : Registry.Alike old together before :=
    ⟨fun object _ => arrivals.state object,
      fun object own => ⟨arrivals.kept object own, (arrivals.existed object).trans own⟩⟩
  have admits : together.AdmitsAll old mixed.drain.agenda := lists.admitsAll fun object new =>
    ⟨(arrivals.new object new).1, (arrivals.state object).trans (unretained new)⟩
  have apartLater : Mixed (fun _ => false) newcomers (apart.welcoming newcomers) apart.drained :=
    { exiting := rfl
      retiring := rfl
      retaining := rfl
      entering := List.filter_eq_nil_iff.mpr fun _ _ => Bool.false_ne_true
      enteringNew := List.filter_eq_self.mpr fun _ _ => rfl
      exits := nofun
      retains := nofun
      once := lists.once }
  have admitsLater : later.AdmitsAll (fun _ => false) (apart.welcoming newcomers).drain.agenda := by
    refine apartLater.admitsAll fun object new => ?_
    obtain ⟨exits, retains, enters⟩ := lists.unlisted (lists.foreign new)
    refine ⟨(arrivals.new object new).2, ?_⟩
    rw [arrivals.stateLater, first.state_of_unlisted exits retains enters, unretained new]
  have none (registry : Registry ω) : Registry.Alike (fun _ => false) registry registry :=
    ⟨fun _ => nofun, fun _ => nofun⟩
  constructor
  · rw [delivers.errors_eq, first.errors_eq, Registry.refusalsOf_filter alike admits,
      lists.agenda_filter]
    rfl
  · rw [second.errors_eq, Registry.refusalsOf_filter (none later) admitsLater,
      apartLater.agenda_filter]
    rfl

/-- Whether newcomers are told together with the old objects or later, every object hears the same
and ends in the same state, and the reports amount to the same. -/
theorem sameTelling : SameTelling told final last toldFirst toldThen finalThen lastFirst
    lastThen := by
  have each (object : ObjectId) : final.state object = finalThen.state object ∧
      storyOf told object = storyOf toldFirst object ++ storyOf toldThen object := by
    cases own : old object with
    | true => exact lists.telling_of_old arrivals delivers first second own
    | false =>
      by_cases new : object ∈ newcomers
      · exact lists.telling_of_new arrivals delivers first second new
      · exact lists.telling_of_neither arrivals delivers first second own new
  obtain ⟨errors, none⟩ := lists.errors_eq arrivals delivers first second
  refine ⟨fun object => (each object).1, fun object => (each object).2, fun phase => ?_, ?_⟩
  · have same : told ~ toldFirst ++ toldThen :=
      perm_of_storyOf_eq fun object => by rw [storyOf_append]; exact (each object).2
    rw [delivers.counted_eq, first.counted_eq, second.counted_eq, same.countP_eq,
      List.countP_append]
    cases phase <;> simp [Dispatcher.drain, Report.counted]
  · rw [errors, none, List.append_nil]

end Dispatcher.Mixed

end LiveTree.Lifecycle
