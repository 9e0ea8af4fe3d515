import Mathlib.Data.List.Forall2
import LiveTree.Proofs.Lifecycle.Ledger

/-! The account of retirements is right: in every course of a session the slips at each place are
those of the objects that are there, in the same order, and the deliveries that the account takes to
be in progress are those that are, with their counts. -/
namespace LiveTree.Session

open Lifecycle (ObjectId Dispatcher Drain RetireBatch Retirement)

/-- A delivery in progress, and the calls that wait for its count. -/
abbrev Delivering := Retirement × Option (List Call)

namespace Ledger

/-- The retirements at a place are those of some objects, in this order. -/
def Reads (ledger : Ledger) (spot : Spot) (objects : List ObjectId) : Prop :=
  (ledger.slips spot).map (ledger.recorded[·]?) = objects.map some

/-- A delivery of the account is the one that is in progress. -/
structure Carries (ledger : Ledger) (round : Nat) (delivering : Delivering) : Prop where
  /-- It is to attempt the same objects, -/
  due : ledger.Reads (.due round) delivering.1.rest
  /-- it counts those that it has told, -/
  count : delivering.1.retired =
    (ledger.slips (.attempted round)).countP fun serial => serial ∈ ledger.told
  /-- and its count is for the same calls. -/
  asker : (ledger.rounds[round]?).map Round.asker = some delivering.2

/-- The account agrees with what waits and with the deliveries in progress. -/
structure Agrees (ledger : Ledger) (held : Spot → List ObjectId) (deliveries : List Delivering) :
    Prop where
  waiting : ∀ spot, spot.Waits → ledger.Reads spot (held spot)
  inProgress : List.Forall₂ ledger.Carries ledger.running deliveries

variable {ledger changed : Ledger} {held : Spot → List ObjectId} {deliveries : List Delivering}
  {spot source : Spot} {objects : List ObjectId} {round : Nat} {delivering : Delivering}

private theorem Reads.congr (reads : ledger.Reads spot objects)
    (slips : changed.slips spot = ledger.slips spot)
    (recorded : ledger.recorded <+: changed.recorded) : changed.Reads spot objects := by
  obtain ⟨more, grown⟩ := recorded
  unfold Reads at reads ⊢
  rw [slips, ← reads]
  refine List.map_congr_left fun serial member => ?_
  have known : ledger.recorded[serial]? ∈ objects.map some := by
    rw [← reads]
    exact List.mem_map_of_mem member
  obtain ⟨object, -, found⟩ := List.mem_map.mp known
  have within := (List.getElem?_eq_some_iff.mp found.symm).1
  rw [← grown, List.getElem?_append_left within]

private theorem Carries.congr (carries : ledger.Carries round delivering)
    (due : changed.slips (.due round) = ledger.slips (.due round))
    (attempted : changed.slips (.attempted round) = ledger.slips (.attempted round))
    (recorded : ledger.recorded <+: changed.recorded)
    (rounds : changed.rounds[round]? = ledger.rounds[round]?)
    (told : ∀ serial ∈ ledger.slips (.attempted round),
      serial ∈ changed.told ↔ serial ∈ ledger.told) :
    changed.Carries round delivering where
  due := carries.due.congr due recorded
  count := by
    rw [carries.count, attempted]
    exact List.countP_congr fun serial member => by simp [told serial member]
  asker := by rw [rounds, carries.asker]

theorem Agrees.waits_nothing (agrees : ledger.Agrees held deliveries) (waits : spot.Waits)
    (empty : held spot = []) : ledger.slips spot = [] := by
  have reads := agrees.waiting spot waits
  rw [Reads, empty] at reads
  simpa using reads

/-- What is true of each delivery in progress stays true of it. -/
private theorem forall₂_of_mem {relation other : Nat → Delivering → Prop} {rounds : List Nat}
    (related : List.Forall₂ relation rounds deliveries)
    (stays : ∀ round ∈ rounds, ∀ delivering, relation round delivering → other round delivering) :
    List.Forall₂ other rounds deliveries := by
  induction related with
  | nil => exact .nil
  | cons first _ ih =>
    exact .cons (stays _ List.mem_cons_self _ first)
      (ih fun round member => stays round (List.mem_cons_of_mem _ member))

private theorem Agrees.enter (agrees : ledger.Agrees held deliveries) (spot : Spot)
    (waits : spot.Waits) (objects : List ObjectId) :
    (ledger.enter spot objects).Agrees (Function.update held spot (held spot ++ objects))
      deliveries := by
  have grown : ledger.recorded <+: (ledger.enter spot objects).recorded :=
    List.prefix_append _ _
  have kept {other : Spot} (different : other ≠ spot) :=
    ledger.slips_enter_of_ne spot other objects different
  constructor
  case waiting =>
    intro other waiting
    by_cases same : other = spot
    · subst same
      rw [Function.update_self]
      unfold Reads
      have old : Reads { ledger with recorded := ledger.recorded ++ objects } other (held other) :=
        (agrees.waiting other waiting).congr rfl grown
      have new : (List.range' ledger.recorded.length objects.length).map
          ((ledger.recorded ++ objects)[·]?) = objects.map some := by
        refine List.ext_getElem (by simp) fun index _ within => ?_
        rw [List.length_map] at within
        simp [within]
      rw [slips_enter, if_pos rfl, List.map_append, List.map_append]
      exact congrArg₂ (· ++ ·) old new
    · rw [Function.update_of_ne same]
      exact (agrees.waiting other waiting).congr (kept same) grown
  case inProgress =>
    refine forall₂_of_mem agrees.inProgress fun round _ delivering carries => ?_
    exact carries.congr (kept (waits.ne id)) (kept (waits.ne id)) grown rfl fun _ _ => Iff.rfl

private theorem Agrees.pour (agrees : ledger.Agrees held deliveries) (source : Spot)
    (waits : source.Waits) {name : Name} (different : source ≠ .batch name) :
    (ledger.pour source (.batch name)).Agrees
      (Function.update (Function.update held source []) (.batch name)
        (held (.batch name) ++ held source)) deliveries := by
  have kept {other : Spot} (first : other ≠ source) (second : other ≠ .batch name) :=
    ledger.slips_pour_of_ne other source (.batch name) first second
  constructor
  case waiting =>
    intro other waiting
    by_cases into : other = .batch name
    · subst into
      rw [Function.update_self]
      unfold Reads
      rw [slips_pour, if_neg different.symm, if_pos rfl, List.map_append, List.map_append]
      exact congrArg₂ (· ++ ·) (agrees.waiting (.batch name) waiting) (agrees.waiting source waits)
    · rw [Function.update_of_ne into]
      by_cases out : other = source
      · subst out
        rw [Function.update_self]
        unfold Reads
        rw [slips_pour, if_pos rfl, if_neg into]
        rfl
      · rw [Function.update_of_ne out]
        exact (agrees.waiting other waiting).congr (kept out into) (List.prefix_refl _)
  case inProgress =>
    refine forall₂_of_mem agrees.inProgress fun round _ delivering carries => ?_
    exact carries.congr (kept (waits.ne id) nofun) (kept (waits.ne id) nofun) (List.prefix_refl _)
      rfl fun _ _ => Iff.rfl

private theorem Agrees.start (balanced : ledger.Balanced) (agrees : ledger.Agrees held deliveries)
    (source : Spot) (waits : source.Waits) (asker : Option (List Call)) :
    (ledger.start source asker).Agrees (Function.update held source [])
      ((⟨held source, 0⟩, asker) :: deliveries) := by
  obtain ⟨attemptedNone, dueNone, -⟩ := balanced.fresh (Nat.le_refl _)
  have attempted := ledger.attempted_start waits asker
  have due := ledger.due_start waits asker
  have rounds : (ledger.start source asker).rounds =
    ledger.rounds ++ [⟨ledger.slips source, asker⟩] := rfl
  constructor
  case waiting =>
    intro other waiting
    have notDue : other ≠ .due ledger.rounds.length := by
      rintro rfl
      exact waiting
    by_cases out : other = source
    · subst out
      rw [Function.update_self]
      unfold Reads
      rw [slips_start, if_pos rfl, if_neg notDue]
      rfl
    · rw [Function.update_of_ne out]
      refine (agrees.waiting other waiting).congr ?_ (List.prefix_refl _)
      rw [slips_start, if_neg out, if_neg notDue, List.append_nil]
  case inProgress =>
    refine .cons ⟨?_, ?_, ?_⟩ (forall₂_of_mem agrees.inProgress fun round member delivering
      carries => ?_)
    · unfold Reads
      rw [due, dueNone, if_pos rfl, List.nil_append]
      exact agrees.waiting source waits
    · rw [attempted, attemptedNone]
      rfl
    · simp [rounds]
    · have before := balanced.started round member
      refine carries.congr ?_ (attempted round) (List.prefix_refl _) ?_ fun _ _ => Iff.rfl
      · rw [due, if_neg (by omega), List.append_nil]
      · rw [rounds, List.getElem?_append_left before]

/-- The next retirement of a delivery is the one on its first slip. -/
theorem Carries.next {delivery next : Retirement} {asker : Option (List Call)} {object : ObjectId}
    (carries : ledger.Carries round (delivery, asker))
    (turn : delivery.next? = some (object, next)) :
    ∃ serial rest, ledger.slips (.due round) = serial :: rest ∧
      ledger.recorded[serial]? = some object ∧
      rest.map (ledger.recorded[·]?) = next.rest.map some ∧ next.retired = delivery.retired := by
  obtain ⟨objects, retired⟩ := delivery
  cases objects with
  | nil => cases turn
  | cons first others =>
    cases turn
    obtain ⟨serial, rest, split, found, reads⟩ := List.map_eq_cons_iff.mp carries.due
    exact ⟨serial, rest, split, found, reads, rfl⟩

/-- What is still to be attempted has not been attempted. -/
theorem Filed.unattempted (filed : ledger.Filed) {serial : Nat}
    (due : serial ∈ ledger.slips (.due round)) (other : Nat) :
    serial ∉ ledger.slips (.attempted other) :=
  fun attempted => nomatch filed.eq_of_mem due attempted

theorem Balanced.untold (balanced : ledger.Balanced) {serial : Nat}
    (due : serial ∈ ledger.slips (.due round)) : serial ∉ ledger.told := by
  intro told
  obtain ⟨other, attempted⟩ := balanced.told serial told
  exact balanced.filed.unattempted due other attempted

private theorem Agrees.attempt (balanced : ledger.Balanced) {delivery next : Retirement}
    {asker : Option (List Call)} {object : ObjectId}
    (agrees : ledger.Agrees held ((delivery, asker) :: deliveries))
    (turn : delivery.next? = some (object, next)) (told : Bool) :
    (ledger.attempt told).Agrees held
      ((if told then next.delivered else next, asker) :: deliveries) := by
  obtain ⟨waiting, inProgress⟩ := agrees
  obtain ⟨current, outer, carries, others, running⟩ := List.forall₂_cons_right_iff.mp inProgress
  obtain ⟨serial, rest, split, -, reads, retired⟩ := carries.next turn
  have nested := balanced.nested
  rw [running] at nested
  have recorded : ledger.recorded <+: (ledger.attempt told).recorded := by simp
  have member : serial ∈ ledger.slips (.due current) := split ▸ List.mem_cons_self
  have now : (ledger.attempt told).told =
      if told then ledger.told ++ [serial] else ledger.told := by
    rw [told_attempt running, split]
    rfl
  have still {other : Nat} (different : other ≠ serial) :
      other ∈ (ledger.attempt told).told ↔ other ∈ ledger.told := by
    rw [now]
    cases told <;> simp [different]
  have own : serial ∈ (ledger.attempt told).told ↔ told = true := by
    rw [now]
    cases told <;> simp [balanced.untold member]
  -- A count looks only at what was attempted before, so the new slip does not change any.
  have stillFor (round : Nat) : ∀ other ∈ ledger.slips (.attempted round),
      other ∈ (ledger.attempt told).told ↔ other ∈ ledger.told := by
    intro other attempted
    refine still ?_
    rintro rfl
    exact balanced.filed.unattempted member round attempted
  constructor
  case waiting =>
    intro other waits
    exact (waiting other waits).congr (ledger.slips_attempt_of_waits told other waits) recorded
  case inProgress =>
    rw [running_attempt, running]
    refine .cons ⟨?_, ?_, ?_⟩ (forall₂_of_mem others fun round outside delivering carries => ?_)
    · have left : (ledger.attempt told).slips (.due current) = rest := by
        simp [due_attempt running, split]
      unfold Reads
      rw [left, recorded_attempt, reads]
      cases told <;> rfl
    · have attempted : (ledger.attempt told).slips (.attempted current) =
          ledger.slips (.attempted current) ++ [serial] := by
        simp [attempted_attempt running, split]
      have before : (ledger.slips (.attempted current)).countP
          (fun serial => serial ∈ (ledger.attempt told).told) = delivery.retired := by
        rw [carries.count]
        exact List.countP_congr fun other earlier => by simp [stillFor current other earlier]
      rw [attempted, List.countP_append, before, List.countP_singleton, ← retired]
      cases told <;> simp [own, Retirement.delivered]
    · rw [rounds_attempt]
      exact carries.asker
    · have lower := (List.pairwise_cons.mp nested).1 round outside
      have other : round ≠ current := by omega
      refine carries.congr ?_ ?_ recorded (by simp) (stillFor round)
      · rw [due_attempt running, if_neg other]
      · rw [attempted_attempt running, if_neg other, List.append_nil]

private theorem Agrees.finish (balanced : ledger.Balanced)
    (agrees : ledger.Agrees held (delivering :: deliveries)) :
    ledger.finish.Agrees held deliveries := by
  obtain ⟨waiting, inProgress⟩ := agrees
  obtain ⟨current, outer, carries, others, running⟩ := List.forall₂_cons_right_iff.mp inProgress
  have nested := balanced.nested
  rw [running] at nested
  have recorded : ledger.recorded <+: ledger.finish.recorded := by simp
  constructor
  case waiting =>
    intro other waits
    exact (waiting other waits).congr (ledger.slips_finish_of_waits other waits) recorded
  case inProgress =>
    rw [running_finish, running, List.tail_cons]
    refine forall₂_of_mem others fun round outside delivering carries => ?_
    have lower := (List.pairwise_cons.mp nested).1 round outside
    have other : round ≠ current := by omega
    refine carries.congr ?_ (ledger.attempted_finish round) recorded (by simp) fun _ _ => by simp
    rw [due_finish running, if_neg other]

end Ledger

/-- The retirements that a call keeps for a dispatcher while it works on it. -/
def Duty.kept? (id : Nat) : Duty → Option (List ObjectId)
  | .draining other drain => if other = id then some drain.dispatcher.retiring else none
  | .retiring _ _ => none

/-- The dispatcher on which a call works. -/
def Duty.dispatcher? : Duty → Option Nat
  | .draining id _ => some id
  | .retiring _ _ => none

def Duty.delivering? : Duty → Option Delivering
  | .draining _ _ => none
  | .retiring delivery asker => some (delivery, asker)

namespace Desk

/-- The retirements in a dispatcher, which may be away from its place. -/
def queue (desk : Desk) (id : Nat) : List ObjectId :=
  match (desk.dispatchers[id]?).join with
  | some dispatcher => dispatcher.retiring
  | none => (desk.duties.findSome? (Duty.kept? id)).getD []

/-- The retirements under the name of a batch. -/
def batch (desk : Desk) (name : Name) : List ObjectId :=
  (desk.batches.get? name).elim [] RetireBatch.objects

/-- What waits at a place. -/
def held (desk : Desk) : Spot → List ObjectId
  | .queue id => desk.queue id
  | .batch name => desk.batch name
  | _ => []

/-- The deliveries in progress, the innermost first. -/
def deliveries (desk : Desk) : List Delivering := desk.duties.filterMap Duty.delivering?

/-- A dispatcher on which a call works is away from its place, and no other call works on it. -/
structure Lent (desk : Desk) : Prop where
  away : ∀ id ∈ desk.duties.filterMap Duty.dispatcher?, desk.dispatchers[id]? = some none
  apart : (desk.duties.filterMap Duty.dispatcher?).Nodup

variable {desk after : Desk} {errands : List Errand} {id : Nat} {dispatcher : Dispatcher}

private theorem within_of_found (found : (desk.dispatchers[id]?).join = some dispatcher) :
    id < desk.dispatchers.size := by
  by_contra outside
  rw [Array.getElem?_eq_none (by omega)] at found
  cases found

private theorem Lent.setDispatcher (lent : desk.Lent)
    (found : (desk.dispatchers[id]?).join = some dispatcher) (changed : Option Dispatcher) :
    ∀ other ∈ desk.duties.filterMap Duty.dispatcher?,
      other ≠ id ∧ (desk.dispatchers.setIfInBounds id changed)[other]? = some none := by
  intro other member
  have away := lent.away other member
  have different : other ≠ id := by
    rintro rfl
    rw [away] at found
    cases found
  refine ⟨different, ?_⟩
  rw [Array.getElem?_setIfInBounds_ne different.symm]
  exact away

/-- A batch that loses its name concerns no dispatcher. -/
private theorem filterMap_duties_store {β : Type} (desk : Desk) (name : Name) (batch : RetireBatch)
    {seen : Duty → Option β} (blind : ∀ delivery, seen (.retiring delivery none) = none) :
    (desk.store name batch).duties.filterMap seen = desk.duties.filterMap seen := by
  unfold store
  dsimp only
  split
  · exact List.filterMap_cons_none (blind _)
  · rfl

private theorem Lent.step (lent : desk.Lent) (step : desk.Step errands after) : after.Lent := by
  have same {other : Desk} (dispatchers : other.dispatchers = desk.dispatchers)
      (duties : other.duties.filterMap Duty.dispatcher? =
        desk.duties.filterMap Duty.dispatcher?) : other.Lent := by
    constructor
    · rw [dispatchers, duties]
      exact lent.away
    · rw [duties]
      exact lent.apart
  have front {duty : Duty} {duties : List Duty} (split : desk.duties = duty :: duties)
      (idle : duty.dispatcher? = none) :
      duties.filterMap Duty.dispatcher? = desk.duties.filterMap Duty.dispatcher? := by
    rw [split, List.filterMap_cons_none idle]
  cases step with
  | rests => exact lent
  | founds =>
    refine ⟨fun id member => ?_, lent.apart⟩
    have away := lent.away id member
    have within := (Array.getElem?_eq_some_iff.mp away).1
    rw [Array.getElem?_push, if_neg (by omega)]
    exact away
  | notes found _ | records found _ =>
    exact ⟨fun other member => (lent.setDispatcher found _ other member).2, lent.apart⟩
  | @lends id dispatcher found =>
    constructor
    · intro other member
      rcases List.mem_cons.mp member with rfl | outer
      · simp [within_of_found found]
      · exact (lent.setDispatcher found none other outer).2
    · refine List.nodup_cons.mpr ⟨fun member => ?_, lent.apart⟩
      exact (lent.setDispatcher found none id member).1 rfl
  | drains split _ =>
    refine same rfl ?_
    rw [split]
    rfl
  | @returns id drain duties split =>
    have away := lent.away
    have apart := lent.apart
    rw [split] at away apart
    obtain ⟨absent, others⟩ := List.nodup_cons.mp apart
    refine ⟨fun other member => ?_, others⟩
    have different : id ≠ other := fun same => absent (same ▸ member)
    rw [Array.getElem?_setIfInBounds_ne different]
    exact away other (List.mem_cons_of_mem _ member)
  | takes found =>
    constructor
    · rw [filterMap_duties_store _ _ _ fun _ => rfl]
      exact fun other member => (lent.setDispatcher found _ other member).2
    · rw [filterMap_duties_store _ _ _ fun _ => rfl]
      exact lent.apart
  | stores name objects => exact same rfl (filterMap_duties_store _ _ _ fun _ => rfl)
  | merges | delivers | arrives => exact same rfl rfl
  | attempts split => exact same rfl ((List.filterMap_cons_none rfl).trans (front split rfl))
  | ends split => exact same rfl (front split rfl)

/-! ### What waits after a step -/

private theorem queue_of_found (found : (desk.dispatchers[id]?).join = some dispatcher) :
    desk.queue id = dispatcher.retiring := by
  rw [queue, found]

private theorem held_of_queue {other : Desk} (queue : ∀ id, other.queue id = desk.queue id)
    (batches : other.batches = desk.batches) : other.held = desk.held := by
  funext spot
  cases spot with
  | queue id => exact queue id
  | batch name => simp only [held, batch, batches]
  | handed | due | attempted | lost => rfl

/-- A new dispatcher has no retirements. -/
private theorem held_found (lent : desk.Lent) :
    ({ desk with dispatchers := desk.dispatchers.push (some {}) } : Desk).held = desk.held := by
  refine held_of_queue (fun id => ?_) rfl
  by_cases new : id = desk.dispatchers.size
  · subst new
    have unknown : desk.duties.findSome? (Duty.kept? desk.dispatchers.size) = none := by
      refine List.findSome?_eq_none_iff.mpr fun duty member => ?_
      cases duty with
      | retiring => rfl
      | draining id drain =>
        have away := lent.away id (List.mem_filterMap.mpr ⟨_, member, rfl⟩)
        have within := (Array.getElem?_eq_some_iff.mp away).1
        simp only [Duty.kept?]
        rw [if_neg (by omega)]
    simp [queue, unknown]
  · simp [queue, Array.getElem?_push, new]

/-- A call that works on a dispatcher keeps its retirements. -/
private theorem held_lend (found : (desk.dispatchers[id]?).join = some dispatcher) :
    (Desk.mk (desk.dispatchers.setIfInBounds id none) desk.batches
      (.draining id dispatcher.drain :: desk.duties)).held = desk.held := by
  refine held_of_queue (fun other => ?_) rfl
  by_cases same : other = id
  · subst same
    rw [queue_of_found found]
    simp [queue, within_of_found found, Duty.kept?]
    rfl
  · simp [queue, Array.getElem?_setIfInBounds_ne (Ne.symm same), Duty.kept?, Ne.symm same]

private theorem held_drain {drain later : Drain} {duties : List Duty}
    (front : desk.duties = .draining id drain :: duties)
    (same : later.dispatcher.retiring = drain.dispatcher.retiring) :
    ({ desk with duties := .draining id later :: duties } : Desk).held = desk.held := by
  refine held_of_queue (fun other => ?_) rfl
  simp only [queue, front, List.findSome?_cons, Duty.kept?, same]

private theorem held_return (lent : desk.Lent) {drain : Drain} {duties : List Duty}
    (front : desk.duties = .draining id drain :: duties) :
    (Desk.mk (desk.dispatchers.setIfInBounds id (some drain.dispatcher)) desk.batches duties).held =
      desk.held := by
  have away := lent.away id (by rw [front]; exact List.mem_cons_self)
  have within := (Array.getElem?_eq_some_iff.mp away).1
  refine held_of_queue (fun other => ?_) rfl
  by_cases same : other = id
  · subst same
    have kept : desk.queue other = drain.dispatcher.retiring := by
      rw [queue, away]
      simp [front, Duty.kept?]
    rw [kept]
    simp [queue, within]
  · simp [queue, Array.getElem?_setIfInBounds_ne (Ne.symm same), front, Duty.kept?, Ne.symm same]

private theorem held_setDispatcher (found : (desk.dispatchers[id]?).join = some dispatcher)
    (changed : Dispatcher) :
    ({ desk with dispatchers := desk.dispatchers.setIfInBounds id (some changed) } : Desk).held =
      Function.update desk.held (.queue id) changed.retiring := by
  funext spot
  cases spot with
  | queue other =>
    by_cases same : other = id
    · subst same
      simp [held, queue, within_of_found found]
    · have different : Spot.queue other ≠ .queue id := fun equal => same (Spot.queue.inj equal)
      rw [Function.update_of_ne different]
      simp [held, queue, Array.getElem?_setIfInBounds_ne (Ne.symm same)]
  | batch | handed | due | attempted | lost => rfl

/-- A batch is seen under its name only. -/
private theorem held_of_batch {other : Desk} {name : Name} {objects : List ObjectId}
    (queue : ∀ id, other.queue id = desk.queue id) (own : other.batch name = objects)
    (others : ∀ third, third ≠ name → other.batch third = desk.batch third) :
    other.held = Function.update desk.held (.batch name) objects := by
  funext spot
  cases spot with
  | queue id => exact queue id
  | batch third =>
    by_cases same : third = name
    · subst same
      rw [Function.update_self]
      exact own
    · have different : Spot.batch third ≠ .batch name := fun equal => same (Spot.batch.inj equal)
      rw [Function.update_of_ne different]
      exact others third same
  | handed | due | attempted | lost => rfl

private theorem held_set (desk : Desk) (name : Name) (batch : RetireBatch) :
    ({ desk with batches := desk.batches.set name batch } : Desk).held =
      Function.update desk.held (.batch name) batch.objects :=
  held_of_batch (fun _ => rfl) (by simp [Desk.batch]) fun third different => by
    simp [Desk.batch, Table.get?_set_of_ne _ _ different]

private theorem held_erase (desk : Desk) (name : Name) :
    ({ desk with batches := desk.batches.erase name } : Desk).held =
      Function.update desk.held (.batch name) [] :=
  held_of_batch (fun _ => rfl) (by simp [batch]) fun third different => by
    simp [batch, Table.get?_erase_of_ne _ different]

/-- In a delivery nothing waits. -/
private theorem held_retiring (desk : Desk) (delivery : Retirement) (asker : Option (List Call))
    (duties : List Duty) :
    ({ desk with duties := .retiring delivery asker :: duties } : Desk).held =
      ({ desk with duties } : Desk).held :=
  held_of_queue (fun _ => rfl) rfl

private theorem held_of_front {delivery : Retirement} {asker : Option (List Call)}
    {duties : List Duty} (front : desk.duties = .retiring delivery asker :: duties) :
    ({ desk with duties } : Desk).held = desk.held := by
  rw [← held_retiring desk delivery asker, ← front]

theorem deliveries_of_front {delivery : Retirement} {asker : Option (List Call)}
    {duties : List Duty} (front : desk.duties = .retiring delivery asker :: duties) :
    desk.deliveries = (delivery, asker) :: duties.filterMap Duty.delivering? := by
  rw [deliveries, front]
  rfl

private theorem held_store (desk : Desk) (name : Name) (batch : RetireBatch) :
    (desk.store name batch).held = Function.update desk.held (.batch name) batch.objects := by
  rw [← held_set]
  unfold store
  split
  · exact held_retiring { desk with batches := desk.batches.set name batch } ..
  · rfl

private theorem held_merge {name source : Name} {batch other : RetireBatch}
    (found : desk.batches.get? source = some other)
    (into : (desk.batches.erase source).get? name = some batch) :
    ({ desk with batches := (desk.batches.erase source).set name (batch.extend other) } :
        Desk).held =
      Function.update (Function.update desk.held (.batch source) []) (.batch name)
        (desk.held (.batch name) ++ desk.held (.batch source)) := by
  have apart : name ≠ source := by
    rintro rfl
    rw [Table.get?_erase_self] at into
    cases into
  have stays : desk.batches.get? name = some batch := by
    rwa [Table.get?_erase_of_ne _ apart] at into
  have both : desk.held (.batch name) ++ desk.held (.batch source) =
      (batch.extend other).objects := by
    simp [held, Desk.batch, found, stays, RetireBatch.extend]
  rw [both, ← held_erase]
  exact held_set { desk with batches := desk.batches.erase source } name (batch.extend other)

end Desk

namespace Ledger

variable {ledger : Ledger} {desk after : Desk} {errands : List Errand}

/-- A batch that loses its name is delivered. -/
private theorem Agrees.oust (balanced : ledger.Balanced)
    (agrees : ledger.Agrees desk.held desk.deliveries) (name : Name) (batch : RetireBatch) :
    (ledger.afterAll (desk.ousts name)).Agrees (Function.update desk.held (.batch name) [])
      (desk.store name batch).deliveries := by
  unfold Desk.ousts Desk.store Desk.deliveries
  dsimp only
  cases former : desk.batches.get? name with
  | none =>
    have none : desk.held (.batch name) = [] := by simp [Desk.held, Desk.batch, former]
    rw [← none, Function.update_eq_self]
    exact agrees
  | some batch =>
    have whole : desk.held (.batch name) = batch.objects := by
      simp [Desk.held, Desk.batch, former]
    have begun := agrees.start balanced (.batch name) trivial none
    rw [whole] at begun
    exact begun

private theorem Agrees.step (balanced : ledger.Balanced) (lent : desk.Lent)
    (agrees : ledger.Agrees desk.held desk.deliveries) (step : desk.Step errands after) :
    (ledger.afterAll errands).Agrees after.held after.deliveries := by
  have rests {other : Desk} (held : other.held = desk.held)
      (deliveries : other.deliveries = desk.deliveries) :
      ledger.Agrees other.held other.deliveries := by
    rw [held, deliveries]
    exact agrees
  cases step with
  | rests => exact agrees
  | founds => exact rests (Desk.held_found lent) rfl
  | @notes id dispatcher noted found same =>
    refine rests ?_ rfl
    rw [Desk.held_setDispatcher found, same, ← Desk.queue_of_found found]
    exact Function.update_eq_self ..
  | @records id dispatcher found objects =>
    have entered := agrees.enter (.queue id) trivial objects
    rw [Desk.held_setDispatcher found]
    change Agrees _ (Function.update _ _ (desk.queue id ++ objects)) _ at entered
    rw [Desk.queue_of_found found] at entered
    exact entered
  | lends found => exact rests (Desk.held_lend found) rfl
  | drains front same =>
    refine rests (Desk.held_drain front same) ?_
    simp only [Desk.deliveries, front]
    rfl
  | returns front =>
    refine rests (Desk.held_return lent front) ?_
    simp only [Desk.deliveries, front]
    rfl
  | @takes id dispatcher name found =>
    have apart : Spot.queue id ≠ .batch name := nofun
    -- A former batch of this name goes first, so what is poured comes to an empty place.
    have poured := (agrees.oust balanced name ⟨dispatcher.takeRetirements.1⟩).pour (.queue id)
      trivial apart
    rw [Function.update_self, List.nil_append, Function.update_of_ne apart,
      Function.update_comm apart, Function.update_idem, Function.update_comm apart.symm] at poured
    have whole : desk.held (.queue id) = dispatcher.retiring := Desk.queue_of_found found
    rw [whole] at poured
    rw [afterAll_append, Desk.held_store, Desk.held_setDispatcher found]
    exact poured
  | stores name objects =>
    have entered := (agrees.oust balanced name ⟨objects⟩).enter (.batch name) trivial objects
    rw [Function.update_self, List.nil_append, Function.update_idem] at entered
    rw [afterAll_append, Desk.held_store]
    exact entered
  | @merges name source batch other found into =>
    have apart : Spot.batch source ≠ .batch name := by
      rintro equal
      cases equal
      rw [Table.get?_erase_self] at into
      cases into
    rw [Desk.held_merge found into]
    exact agrees.pour (.batch source) trivial apart
  | @delivers name batch found asker =>
    have begun := agrees.start balanced (.batch name) trivial asker
    have whole : desk.held (.batch name) = batch.objects := by simp [Desk.held, Desk.batch, found]
    rw [whole, ← Desk.held_erase desk name] at begun
    rw [Desk.held_retiring { desk with batches := desk.batches.erase name }]
    exact begun
  | arrives objects =>
    -- Nothing stays where a pool hands over: the delivery begins with all of it in the same step.
    have waits : Spot.handed.Waits := trivial
    have begun := (agrees.enter .handed waits objects).start (balanced.enter waits objects) .handed
      waits none
    rw [Function.update_self, Function.update_idem] at begun
    have same : Function.update desk.held .handed [] = desk.held := Function.update_eq_self ..
    rw [same] at begun
    rw [Desk.held_retiring]
    exact begun
  | attempts front turn told =>
    rw [Desk.deliveries_of_front front] at agrees
    rw [Desk.held_retiring, Desk.held_of_front front]
    exact agrees.attempt balanced turn told
  | ends front =>
    rw [Desk.deliveries_of_front front] at agrees
    rw [Desk.held_of_front front]
    exact agrees.finish balanced

end Ledger

namespace Machine

variable {machine : Machine} {passed : List Machine}

/-- The account of what was done with retirements by machines that were passed. -/
def ledger (passed : List Machine) : Ledger := ({} : Ledger).afterAll (passed.flatMap errands)

theorem ledger_append (passed : List Machine) (last : Machine) :
    ledger (passed ++ [last]) = (ledger passed).afterAll last.errands := by
  rw [ledger, List.flatMap_append, List.flatMap_singleton, Ledger.afterAll_append]
  rfl

/-- What is known of the account of a course. -/
structure Reckoned (ledger : Ledger) (desk : Desk) : Prop where
  balanced : ledger.Balanced
  lent : desk.Lent
  agrees : ledger.Agrees desk.held desk.deliveries

private theorem Reckoned.step {ledger : Ledger} {desk after : Desk} {errands : List Errand}
    (reckoned : Reckoned ledger desk) (step : desk.Step errands after) :
    Reckoned (ledger.afterAll errands) after where
  balanced := reckoned.balanced.afterAll step.regular
  lent := reckoned.lent.step step
  agrees := reckoned.agrees.step reckoned.balanced reckoned.lent step

/-- The account of a course is right. -/
theorem Course.reckoned (course : Course passed machine) :
    Reckoned (ledger passed) machine.desk := by
  obtain ⟨scripts, listener, command, goes⟩ := course
  induction goes with
  | stays =>
    refine ⟨.empty, ⟨nofun, .nil⟩, ⟨fun spot _ => ?_, .nil⟩⟩
    have none : (start { scripts } listener command).desk.held spot = [] := by
      cases spot <;> rfl
    rw [none]
    rfl
  | moves _ move ih =>
    rw [ledger_append]
    exact ih.step move.desk_step

end Machine

end LiveTree.Session
