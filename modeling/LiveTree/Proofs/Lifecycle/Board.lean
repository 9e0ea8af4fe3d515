import LiveTree.Proofs.Lifecycle.Errands

/-! The board of a session, on which its dispatchers note what objects are to be told. A command
adds to a list or takes one out, and so does a delivery that goes on to its next list; nothing else
touches the board. Hence what is on a list at any moment, also while a delivery works on the
dispatcher, is what was noted since the list was taken out last, whatever came of the deliveries
before. -/
namespace LiveTree.Lifecycle

/-- What objects are told by a list. -/
def Phase.event : Phase → Event
  | exits => .exited
  | retentions => .retained
  | entries => .entered

namespace Dispatcher

/-- To take a list out empties it and leaves the others. -/
theorem recorded_take (dispatcher : Dispatcher) (phase : Phase) (event : Event) :
    (dispatcher.take phase).2.recorded event =
      if phase.event = event then [] else dispatcher.recorded event := by
  cases phase <;> cases event <;> rfl

theorem recorded_takeRetirements (dispatcher : Dispatcher) (event : Event) :
    dispatcher.takeRetirements.2.recorded event =
      if .retired = event then [] else dispatcher.recorded event := by
  cases event <;> rfl

theorem recorded_record (dispatcher : Dispatcher) (told event : Event) (objects : List ObjectId) :
    (dispatcher.record told objects).recorded event =
      if told = event then dispatcher.recorded event ++ objects else dispatcher.recorded event := by
  split
  · next same =>
    subst same
    exact recorded_record_self dispatcher told objects
  · next different => exact recorded_record_of_ne dispatcher objects (Ne.symm different)

end Dispatcher

end LiveTree.Lifecycle

namespace LiveTree.Session

open Lifecycle (ObjectId Dispatcher Drain)

/-- What happens at a dispatcher: notifications are recorded behind those that wait, or all that
wait for an event are taken out. -/
inductive Posting where
  | notes (id : Nat) (event : Lifecycle.Event) (objects : List ObjectId)
  | takes (id : Nat) (event : Lifecycle.Event)

namespace Posting

/-- What it makes of a list. -/
def apply (id : Nat) (event : Lifecycle.Event) (list : List ObjectId) : Posting → List ObjectId
  | notes other told objects => if other = id ∧ told = event then list ++ objects else list
  | takes other told => if other = id ∧ told = event then [] else list

/-- What has been noted for an event since the list was taken out last. -/
def listed (id : Nat) (event : Lifecycle.Event) (postings : List Posting) : List ObjectId :=
  postings.foldl (apply id event) []

end Posting

/-- The dispatchers of a session, and the deliveries that work on one of them, the innermost
first. -/
structure Board where
  dispatchers : Array (Option Dispatcher)
  drains : List (Nat × Drain)

namespace Board

/-- What a dispatcher has recorded that is not being delivered yet. A delivery that works on it
keeps that meanwhile. -/
def held (board : Board) (id : Nat) : Dispatcher :=
  ((board.dispatchers[id]?).join.or ((board.drains.lookup id).map Drain.dispatcher)).getD {}

/-- One step at the board, with what is noted or taken. -/
inductive Step (board : Board) : Option Posting → Board → Prop
  | rests : Step board none board
  | founds : Step board none { board with dispatchers := board.dispatchers.push (some {}) }
  | notes {id : Nat} {dispatcher : Dispatcher}
      (found : (board.dispatchers[id]?).join = some dispatcher) (event : Lifecycle.Event)
      (objects : List ObjectId) :
      Step board (some (.notes id event objects))
        { board with
          dispatchers := board.dispatchers.setIfInBounds id
            (some (dispatcher.record event objects)) }
  | empties {id : Nat} {dispatcher : Dispatcher}
      (found : (board.dispatchers[id]?).join = some dispatcher) :
      Step board (some (.takes id .retired))
        { board with
          dispatchers := board.dispatchers.setIfInBounds id (some dispatcher.takeRetirements.2) }
  | lends {id : Nat} {dispatcher : Dispatcher}
      (found : (board.dispatchers[id]?).join = some dispatcher) :
      Step board (some (.takes id .exited))
        { dispatchers := board.dispatchers.setIfInBounds id none
          drains := (id, dispatcher.drain) :: board.drains }
  | attempts {id : Nat} {drain later : Drain} {drains : List (Nat × Drain)}
      (front : board.drains = (id, drain) :: drains) (same : later.dispatcher = drain.dispatcher) :
      Step board none { board with drains := (id, later) :: drains }
  | nextList {id : Nat} {drain later : Drain} {drains : List (Nat × Drain)}
      (front : board.drains = (id, drain) :: drains) (step : drain.step = .nextList later) :
      Step board (some (.takes id later.phase.event))
        { board with drains := (id, later) :: drains }
  | returns {id : Nat} {drain : Drain} {drains : List (Nat × Drain)}
      (front : board.drains = (id, drain) :: drains) :
      Step board none
        { dispatchers := board.dispatchers.setIfInBounds id (some drain.dispatcher)
          drains }

/-- A dispatcher is at its place, or away with one delivery. -/
structure Sound (board : Board) : Prop where
  away : ∀ id drain, (id, drain) ∈ board.drains → board.dispatchers[id]? = some none
  apart : (board.drains.map Prod.fst).Nodup

variable {board after : Board} {posting : Option Posting} {id other : Nat}
  {event : Lifecycle.Event} {dispatcher : Dispatcher} {drain : Drain}

/-- A dispatcher that is at its place. -/
private theorem getElem?_of_found (found : (board.dispatchers[id]?).join = some dispatcher) :
    board.dispatchers[id]? = some (some dispatcher) := Option.join_eq_some_iff.mp found

theorem lt_of_getElem? {state : Option Dispatcher} (present : board.dispatchers[id]? = some state) :
    id < board.dispatchers.size := (Array.getElem?_eq_some_iff.mp present).1

private theorem held_of_found (found : (board.dispatchers[id]?).join = some dispatcher) :
    board.held id = dispatcher := by
  simp [held, found]

/-- A dispatcher that is put at its place is held there, whoever works on the others. -/
private theorem held_self (inside : id < board.dispatchers.size) (drains : List (Nat × Drain)) :
    held ⟨board.dispatchers.setIfInBounds id (some dispatcher), drains⟩ id = dispatcher := by
  simp [held, inside]

private theorem Sound.notMem (sound : board.Sound)
    (found : (board.dispatchers[id]?).join = some dispatcher) : id ∉ board.drains.map Prod.fst := by
  intro member
  obtain ⟨⟨_, drain⟩, away, rfl⟩ := List.mem_map.mp member
  rw [sound.away _ drain away] at found
  cases found

private theorem Sound.held_of_front {drains : List (Nat × Drain)} (sound : board.Sound)
    (front : board.drains = (id, drain) :: drains) : board.held id = drain.dispatcher := by
  have away := sound.away id drain (front ▸ List.mem_cons_self)
  simp [held, away, front]

/-- What happens at its own place, and who works on another dispatcher, is nothing to a
dispatcher. -/
private theorem held_eq_of_ne {state : Option Dispatcher} {drains : List (Nat × Drain)}
    (different : other ≠ id) (same : drains.lookup other = board.drains.lookup other) :
    held ⟨board.dispatchers.setIfInBounds id state, drains⟩ other = board.held other := by
  simp only [held, Array.getElem?_setIfInBounds_ne (Ne.symm different), same]

private theorem lookup_cons_of_ne (different : other ≠ id) (drains : List (Nat × Drain)) :
    ((id, drain) :: drains).lookup other = drains.lookup other := by
  rw [List.lookup_cons, beq_eq_false_iff_ne.mpr different]

/-- A step keeps each dispatcher at one place. -/
theorem Step.sound (step : board.Step posting after) (sound : board.Sound) : after.Sound := by
  have still {state : Option Dispatcher} {changed : Nat}
      (found : changed ∉ board.drains.map Prod.fst) (id : Nat) (drain : Drain)
      (member : (id, drain) ∈ board.drains) :
      (board.dispatchers.setIfInBounds changed state)[id]? = some none := by
    have different : changed ≠ id := by
      rintro rfl
      exact found (List.mem_map.mpr ⟨_, member, rfl⟩)
    rw [Array.getElem?_setIfInBounds_ne different]
    exact sound.away id drain member
  cases step with
  | rests => exact sound
  | founds =>
    refine ⟨fun id drain member => ?_, sound.apart⟩
    have away := sound.away id drain member
    rw [Array.getElem?_push_lt (lt_of_getElem? away)]
    rw [Array.getElem?_eq_getElem (lt_of_getElem? away)] at away
    exact away
  | notes found | empties found => exact ⟨still (sound.notMem found), sound.apart⟩
  | @lends id dispatcher found =>
    refine ⟨fun other drain member => ?_, List.nodup_cons.mpr ⟨sound.notMem found, sound.apart⟩⟩
    rcases List.mem_cons.mp member with same | former
    · cases same
      exact Array.getElem?_setIfInBounds_self_of_lt (lt_of_getElem? (getElem?_of_found found))
    · exact still (sound.notMem found) other drain former
  | @attempts id drain later drains front | @nextList id drain later drains front =>
    obtain ⟨away, apart⟩ := sound
    rw [front] at away apart
    refine ⟨fun other held member => ?_, apart⟩
    rcases List.mem_cons.mp member with same | former
    · cases same
      exact away id drain List.mem_cons_self
    · exact away other held (List.mem_cons_of_mem _ former)
  | @returns id drain drains front =>
    obtain ⟨away, apart⟩ := sound
    rw [front] at away apart
    obtain ⟨unheld, apart⟩ := List.nodup_cons.mp apart
    refine ⟨fun other held member => ?_, apart⟩
    have different : id ≠ other := by
      rintro rfl
      exact unheld (List.mem_map.mpr ⟨_, member, rfl⟩)
    rw [Array.getElem?_setIfInBounds_ne different]
    exact away other held (List.mem_cons_of_mem _ member)

/-- A step makes of every list what its posting says. -/
theorem Step.recorded (step : board.Step posting after) (sound : board.Sound) (id : Nat)
    (event : Lifecycle.Event) :
    (after.held id).recorded event =
      posting.toList.foldl (Posting.apply id event) ((board.held id).recorded event) := by
  cases step with
  | rests => rfl
  | founds =>
    have same : held ⟨board.dispatchers.push (some {}), board.drains⟩ id = board.held id := by
      by_cases new : id = board.dispatchers.size
      · -- No delivery can be at work on a dispatcher that is not there yet.
        have absent : board.drains.lookup id = none := by
          refine List.lookup_eq_none_iff.mpr fun pair member => ?_
          have inside := lt_of_getElem? (sound.away pair.1 pair.2 member)
          rw [bne_iff_ne]
          omega
        simp [held, new ▸ absent, new]
      · simp [held, Array.getElem?_push, new]
    exact congrArg (·.recorded event) same
  | @notes changed dispatcher found told objects =>
    by_cases own : id = changed
    · subst own
      have inside := lt_of_getElem? (getElem?_of_found found)
      rw [held_of_found found, held_self inside]
      simp [Posting.apply, Lifecycle.Dispatcher.recorded_record]
    · rw [held_eq_of_ne own rfl]
      simp [Posting.apply, Ne.symm own]
  | @empties changed dispatcher found =>
    by_cases own : id = changed
    · subst own
      have inside := lt_of_getElem? (getElem?_of_found found)
      rw [held_of_found found, held_self inside]
      simp [Posting.apply, Lifecycle.Dispatcher.recorded_takeRetirements]
    · rw [held_eq_of_ne own rfl]
      simp [Posting.apply, Ne.symm own]
  | @lends changed dispatcher found =>
    by_cases own : id = changed
    · subst own
      have inside := lt_of_getElem? (getElem?_of_found found)
      have lent : held ⟨board.dispatchers.setIfInBounds id none,
          (id, dispatcher.drain) :: board.drains⟩ id = (dispatcher.take .exits).2 := by
        simp [held, inside, Dispatcher.drain]
      rw [held_of_found found, lent, dispatcher.recorded_take]
      cases event <;> simp [Posting.apply, Lifecycle.Phase.event]
    · rw [held_eq_of_ne own (lookup_cons_of_ne own _)]
      simp [Posting.apply, Ne.symm own]
  | @attempts changed drain later drains front same =>
    have kept : held ⟨board.dispatchers, (changed, later) :: drains⟩ id = board.held id := by
      by_cases own : id = changed
      · subst own
        simp [held, front, same]
      · simp only [held, front, lookup_cons_of_ne own]
    exact congrArg (·.recorded event) kept
  | @nextList changed drain later drains front step =>
    obtain ⟨phase, -, -, rfl⟩ := Drain.step_eq_nextList_iff.mp step
    by_cases own : id = changed
    · subst own
      have away := sound.away id drain (front ▸ List.mem_cons_self)
      have gone : held ⟨board.dispatchers, (id, { drain with
          dispatcher := (drain.dispatcher.take phase).2
          phase
          rest := (drain.dispatcher.take phase).1 }) :: drains⟩ id =
          (drain.dispatcher.take phase).2 := by
        simp [held, away]
      rw [sound.held_of_front front, gone, drain.dispatcher.recorded_take]
      simp [Posting.apply]
    · have kept (later : Drain) :
          held ⟨board.dispatchers, (changed, later) :: drains⟩ id = board.held id := by
        simp only [held, front, lookup_cons_of_ne own]
      rw [kept]
      simp [Posting.apply, Ne.symm own]
  | @returns changed drain drains front =>
    by_cases own : id = changed
    · subst own
      have inside := lt_of_getElem? (sound.away id drain (front ▸ List.mem_cons_self))
      rw [sound.held_of_front front, held_self inside]
      rfl
    · rw [held_eq_of_ne own (by rw [front, lookup_cons_of_ne own])]
      rfl

end Board

end LiveTree.Session
