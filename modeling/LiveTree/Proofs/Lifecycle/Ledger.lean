import Mathlib.Data.List.Range
import Mathlib.Logic.Function.Basic
import LiveTree.Proofs.Lifecycle.Errands

/-! An account of all retirements. Every retirement gets a number when it is recorded, and a slip
with that number goes where it goes: the same object can be recorded several times, and the numbers
tell those retirements apart. Errands carry slips from one place to another, so whatever errands are
done each slip stays in exactly one place. A delivery is numbered too, and its slips are those it
has still to attempt, those it has attempted and those that are lost with it. -/
namespace LiveTree.Session

open Lifecycle (ObjectId Retirement)

/-- The places at which retirements wait until somebody fetches them. -/
def Spot.Waits : Spot → Prop
  | .queue _ | .batch _ | .handed => True
  | .due _ | .attempted _ | .lost _ => False

theorem Spot.Waits.ne {spot other : Spot} (waits : spot.Waits) (delivers : ¬ other.Waits) :
    other ≠ spot :=
  fun same => delivers (same ▸ waits)

/-- The slips with which a delivery began, and the calls that wait for its count. -/
structure Round where
  whole : List Nat
  asker : Option (List Call)

/-- An account of retirements: the objects that were recorded, the slips at each place, the
deliveries that have begun, those in progress with the innermost first, and the slips whose object
was told. -/
structure Ledger where
  recorded : List ObjectId := []
  slips : Spot → List Nat := fun _ => []
  rounds : List Round := []
  running : List Nat := []
  told : List Nat := []

namespace Ledger

/-- The account after new retirements have come to a place. -/
def enter (ledger : Ledger) (spot : Spot) (objects : List ObjectId) : Ledger :=
  { ledger with
    recorded := ledger.recorded ++ objects
    slips := Function.update ledger.slips spot
      (ledger.slips spot ++ List.range' ledger.recorded.length objects.length) }

/-- The account after the first slips at one place have gone to the end of another. -/
def shift (ledger : Ledger) (source target : Spot) (number : Nat) : Ledger :=
  let left := Function.update ledger.slips source ((ledger.slips source).drop number)
  { ledger with
    slips := Function.update left target (left target ++ (ledger.slips source).take number) }

/-- The account after all slips at one place have gone to the end of another. -/
def pour (ledger : Ledger) (source target : Spot) : Ledger :=
  ledger.shift source target (ledger.slips source).length

/-- The account after a delivery of all slips at a place has begun. -/
def start (ledger : Ledger) (source : Spot) (asker : Option (List Call)) : Ledger :=
  { ledger.pour source (.due ledger.rounds.length) with
    rounds := ledger.rounds ++ [⟨ledger.slips source, asker⟩]
    running := ledger.rounds.length :: ledger.running }

/-- The account after an attempt of the innermost delivery. -/
def attempt (ledger : Ledger) (told : Bool) : Ledger :=
  match ledger.running with
  | [] => ledger
  | round :: _ =>
    { ledger.shift (.due round) (.attempted round) 1 with
      told := if told then ledger.told ++ (ledger.slips (.due round)).take 1 else ledger.told }

/-- The account after the innermost delivery has ended. What is left of it is lost. -/
def finish (ledger : Ledger) : Ledger :=
  match ledger.running with
  | [] => ledger
  | round :: outer => { ledger.pour (.due round) (.lost round) with running := outer }

/-- The account after an errand. -/
def after (ledger : Ledger) : Errand → Ledger
  | .enters spot objects => ledger.enter spot objects
  | .pours source target => ledger.pour source target
  | .begins source asker => ledger.start source asker
  | .attempts told => ledger.attempt told
  | .ends => ledger.finish

/-- The account after several errands. -/
def afterAll (ledger : Ledger) (errands : List Errand) : Ledger := errands.foldl after ledger

theorem afterAll_append (ledger : Ledger) (errands more : List Errand) :
    ledger.afterAll (errands ++ more) = (ledger.afterAll errands).afterAll more :=
  List.foldl_append

section Slips

variable (ledger : Ledger) (spot other source target : Spot)

theorem slips_enter (objects : List ObjectId) :
    (ledger.enter spot objects).slips other =
      ledger.slips other ++
        if other = spot then List.range' ledger.recorded.length objects.length else [] := by
  by_cases same : other = spot
  · subst same
    simp [enter]
  · simp [enter, same]

private theorem slips_shift (number : Nat) :
    (ledger.shift source target number).slips other =
      (if other = source then (ledger.slips source).drop number else ledger.slips other) ++
        if other = target then (ledger.slips source).take number else [] := by
  have left (spot : Spot) :
      Function.update ledger.slips source ((ledger.slips source).drop number) spot =
        if spot = source then (ledger.slips source).drop number else ledger.slips spot :=
    Function.update_apply ..
  by_cases same : other = target
  · subst same
    simp [shift, left]
  · simp [shift, same, left]

theorem slips_pour :
    (ledger.pour source target).slips other =
      (if other = source then [] else ledger.slips other) ++
        if other = target then ledger.slips source else [] := by
  rw [pour, slips_shift, List.drop_length, List.take_length]

theorem slips_enter_of_ne (objects : List ObjectId) (different : other ≠ spot) :
    (ledger.enter spot objects).slips other = ledger.slips other := by
  rw [slips_enter, if_neg different, List.append_nil]

theorem slips_pour_of_ne (first : other ≠ source) (second : other ≠ target) :
    (ledger.pour source target).slips other = ledger.slips other := by
  rw [slips_pour, if_neg first, if_neg second, List.append_nil]

theorem slips_start (asker : Option (List Call)) :
    (ledger.start source asker).slips other =
      (if other = source then [] else ledger.slips other) ++
        if other = .due ledger.rounds.length then ledger.slips source else [] :=
  ledger.slips_pour ..

variable {source}

/-- Whatever place a delivery fetches its slips from, -/
theorem due_start (waits : source.Waits) (asker : Option (List Call)) (round : Nat) :
    (ledger.start source asker).slips (.due round) =
      ledger.slips (.due round) ++
        if round = ledger.rounds.length then ledger.slips source else [] := by
  have apart : Spot.due round ≠ source := waits.ne id
  simp [slips_start, apart]

/-- it has attempted nothing yet -/
theorem attempted_start (waits : source.Waits) (asker : Option (List Call)) (round : Nat) :
    (ledger.start source asker).slips (.attempted round) = ledger.slips (.attempted round) := by
  have apart : Spot.attempted round ≠ source := waits.ne id
  simp [slips_start, apart]

/-- and lost nothing. -/
theorem lost_start (waits : source.Waits) (asker : Option (List Call)) (round : Nat) :
    (ledger.start source asker).slips (.lost round) = ledger.slips (.lost round) := by
  have apart : Spot.lost round ≠ source := waits.ne id
  simp [slips_start, apart]

end Slips

section Deliveries

variable {ledger : Ledger} {current : Nat} {outer : List Nat}

theorem slips_attempt (running : ledger.running = current :: outer) (told : Bool) (spot : Spot) :
    (ledger.attempt told).slips spot =
      (if spot = .due current then (ledger.slips (.due current)).drop 1 else ledger.slips spot) ++
        if spot = .attempted current then (ledger.slips (.due current)).take 1 else [] := by
  unfold attempt
  rw [running]
  exact ledger.slips_shift ..

theorem told_attempt (running : ledger.running = current :: outer) (told : Bool) :
    (ledger.attempt told).told =
      if told then ledger.told ++ (ledger.slips (.due current)).take 1 else ledger.told := by
  unfold attempt
  rw [running]

theorem slips_finish (running : ledger.running = current :: outer) (spot : Spot) :
    ledger.finish.slips spot =
      (if spot = .due current then [] else ledger.slips spot) ++
        if spot = .lost current then ledger.slips (.due current) else [] := by
  unfold finish
  rw [running]
  exact ledger.slips_pour ..

theorem due_attempt (running : ledger.running = current :: outer) (told : Bool) (round : Nat) :
    (ledger.attempt told).slips (.due round) =
      if round = current then (ledger.slips (.due current)).drop 1
      else ledger.slips (.due round) := by
  simp [slips_attempt running]

theorem attempted_attempt (running : ledger.running = current :: outer) (told : Bool)
    (round : Nat) :
    (ledger.attempt told).slips (.attempted round) = ledger.slips (.attempted round) ++
      if round = current then (ledger.slips (.due current)).take 1 else [] := by
  simp [slips_attempt running]

theorem due_finish (running : ledger.running = current :: outer) (round : Nat) :
    ledger.finish.slips (.due round) =
      if round = current then [] else ledger.slips (.due round) := by
  simp [slips_finish running]

theorem lost_finish (running : ledger.running = current :: outer) (round : Nat) :
    ledger.finish.slips (.lost round) = ledger.slips (.lost round) ++
      if round = current then ledger.slips (.due current) else [] := by
  simp [slips_finish running]

variable (ledger)

@[simp]
theorem recorded_attempt (told : Bool) : (ledger.attempt told).recorded = ledger.recorded := by
  unfold attempt
  split <;> rfl

@[simp]
theorem rounds_attempt (told : Bool) : (ledger.attempt told).rounds = ledger.rounds := by
  unfold attempt
  split <;> rfl

@[simp]
theorem running_attempt (told : Bool) : (ledger.attempt told).running = ledger.running := by
  unfold attempt
  split <;> rfl

@[simp]
theorem recorded_finish : ledger.finish.recorded = ledger.recorded := by
  unfold finish
  split <;> rfl

@[simp]
theorem rounds_finish : ledger.finish.rounds = ledger.rounds := by
  unfold finish
  split <;> rfl

@[simp]
theorem told_finish : ledger.finish.told = ledger.told := by
  unfold finish
  split <;> rfl

@[simp]
theorem running_finish : ledger.finish.running = ledger.running.tail := by
  unfold finish
  split <;> simp_all

/-- An attempt loses nothing, -/
@[simp]
theorem lost_attempt (told : Bool) (round : Nat) :
    (ledger.attempt told).slips (.lost round) = ledger.slips (.lost round) := by
  cases running : ledger.running with
  | nil => simp [attempt, running]
  | cons => simp [slips_attempt running]

/-- and an ending attempts nothing. -/
@[simp]
theorem attempted_finish (round : Nat) :
    ledger.finish.slips (.attempted round) = ledger.slips (.attempted round) := by
  cases running : ledger.running with
  | nil => simp [finish, running]
  | cons => simp [slips_finish running]

/-- What waits is not concerned by an attempt, -/
theorem slips_attempt_of_waits (told : Bool) (spot : Spot) (waits : spot.Waits) :
    (ledger.attempt told).slips spot = ledger.slips spot := by
  cases running : ledger.running with
  | nil => simp [attempt, running]
  | cons current =>
    have due : spot ≠ .due current := (waits.ne id).symm
    have attempted : spot ≠ .attempted current := (waits.ne id).symm
    simp [slips_attempt running, due, attempted]

/-- nor by an ending. -/
theorem slips_finish_of_waits (spot : Spot) (waits : spot.Waits) :
    ledger.finish.slips spot = ledger.slips spot := by
  cases running : ledger.running with
  | nil => simp [finish, running]
  | cons current =>
    have due : spot ≠ .due current := (waits.ne id).symm
    have lost : spot ≠ .lost current := (waits.ne id).symm
    simp [slips_finish running, due, lost]

/-- Without a delivery in progress nothing is attempted, -/
theorem attempt_of_running_eq_nil (idle : ledger.running = []) (told : Bool) :
    ledger.attempt told = ledger := by
  unfold attempt
  rw [idle]

/-- and nothing ends. -/
theorem finish_of_running_eq_nil (idle : ledger.running = []) : ledger.finish = ledger := by
  unfold finish
  rw [idle]

end Deliveries

/-- Every slip is in exactly one place. -/
structure Filed (ledger : Ledger) : Prop where
  /-- A retirement that was recorded is in one place, there once, and nowhere else. -/
  once : ∀ serial < ledger.recorded.length, ∃ spot, ∀ other,
    (ledger.slips other).count serial = if other = spot then 1 else 0
  /-- Everything that is in some place was recorded. -/
  bounded : ∀ spot, ∀ serial ∈ ledger.slips spot, serial < ledger.recorded.length

namespace Filed

variable {ledger : Ledger} {spot other : Spot} {serial : Nat}

private theorem enter (filed : ledger.Filed) (spot : Spot) (objects : List ObjectId) :
    (ledger.enter spot objects).Filed where
  once := by
    intro serial within
    rw [Ledger.enter, List.length_append] at within
    by_cases old : serial < ledger.recorded.length
    · -- The new slips have greater numbers.
      obtain ⟨place, once⟩ := filed.once serial old
      refine ⟨place, fun other => ?_⟩
      have fresh : (if other = spot then List.range' ledger.recorded.length objects.length
          else []).count serial = 0 := by
        split
        · rw [List.count_eq_zero, List.mem_range'_1]
          omega
        · rfl
      rw [slips_enter, List.count_append, fresh, once other, Nat.add_zero]
    · refine ⟨spot, fun other => ?_⟩
      have absent : (ledger.slips other).count serial = 0 :=
        List.count_eq_zero.mpr fun present => old (filed.bounded other serial present)
      have new : List.count serial (List.range' ledger.recorded.length objects.length) = 1 := by
        refine List.count_eq_one_of_mem List.nodup_range' (List.mem_range'_1.mpr ?_)
        omega
      rw [slips_enter, List.count_append, absent]
      split <;> simp [new]
  bounded := by
    intro other serial present
    rw [slips_enter, List.mem_append] at present
    rw [Ledger.enter, List.length_append]
    rcases present with old | new
    · have within := filed.bounded other serial old
      omega
    · split at new
      · have within := List.mem_range'_1.mp new
        omega
      · cases new

/-- Slips that go from one place to another are in one place as before. -/
private theorem shift (filed : ledger.Filed) (source target : Spot) (number : Nat) :
    (ledger.shift source target number).Filed where
  once := by
    intro serial within
    obtain ⟨place, once⟩ := filed.once serial within
    have parts : (ledger.slips source).count serial =
        ((ledger.slips source).take number).count serial +
          ((ledger.slips source).drop number).count serial := by
      rw [← List.count_append, List.take_append_drop]
    have inSource := once source
    by_cases goes : serial ∈ (ledger.slips source).take number
    · -- It was in the first place, and it is in the second one now.
      have some := List.count_pos_iff.mpr goes
      have here : source = place := by
        by_contra elsewhere
        rw [if_neg elsewhere] at inSource
        omega
      subst here
      rw [if_pos rfl] at inSource
      have taken : ((ledger.slips source).take number).count serial = 1 := by omega
      have left : ((ledger.slips source).drop number).count serial = 0 := by omega
      refine ⟨target, fun other => ?_⟩
      rw [slips_shift, List.count_append]
      have before := once other
      by_cases first : other = source
      · rw [if_pos first, left]
        split <;> simp [taken]
      · rw [if_neg first] at before ⊢
        rw [before]
        split <;> simp [taken]
    · -- It is where it was, be it among those that are left in the first place.
      have stays := List.count_eq_zero.mpr goes
      refine ⟨place, fun other => ?_⟩
      rw [slips_shift, List.count_append]
      have before := once other
      have nothing : (if other = target then (ledger.slips source).take number else []).count
          serial = 0 := by
        split <;> simp [stays]
      rw [nothing, Nat.add_zero]
      by_cases first : other = source
      · subst first
        rw [if_pos rfl]
        omega
      · rw [if_neg first]
        exact before
  bounded := by
    intro other serial present
    rw [slips_shift, List.mem_append] at present
    have inside (member : serial ∈ ledger.slips source) := filed.bounded source serial member
    rcases present with stays | goes
    · split at stays
      · exact inside (List.mem_of_mem_drop stays)
      · exact filed.bounded other serial stays
    · split at goes
      · exact inside (List.mem_of_mem_take goes)
      · cases goes

private theorem of_slips {changed : Ledger} (filed : ledger.Filed)
    (slips : changed.slips = ledger.slips) (recorded : changed.recorded = ledger.recorded) :
    changed.Filed := by
  constructor
  · rw [slips, recorded]
    exact filed.once
  · rw [slips, recorded]
    exact filed.bounded

theorem eq_of_mem (filed : ledger.Filed) (here : serial ∈ ledger.slips spot)
    (there : serial ∈ ledger.slips other) : spot = other := by
  obtain ⟨place, once⟩ := filed.once serial (filed.bounded spot serial here)
  have at_ {somewhere : Spot} (member : serial ∈ ledger.slips somewhere) : somewhere = place := by
    by_contra elsewhere
    have count := once somewhere
    rw [if_neg elsewhere] at count
    exact List.count_eq_zero.mp count member
  rw [at_ here, at_ there]

end Filed

end Ledger

/-- The errands that are done at a desk: what waits goes to a batch or into a delivery. -/
def Errand.Regular : Errand → Prop
  | .enters spot _ => spot.Waits
  | .pours source target => source.Waits ∧ ∃ name, target = .batch name
  | .begins source _ => source.Waits
  | .attempts _ | .ends => True

namespace Desk

variable {desk after : Desk} {errands : List Errand}

private theorem regular_of_mem_ousts {name : Name} {errand : Errand}
    (member : errand ∈ desk.ousts name) : errand.Regular := by
  unfold ousts at member
  split at member
  · rw [List.mem_singleton.mp member]
    trivial
  · cases member

theorem Step.regular (step : desk.Step errands after) : ∀ errand ∈ errands, errand.Regular := by
  cases step with
  | rests | founds | notes | lends | drains | returns => exact fun _ member => nomatch member
  | records | merges | delivers | attempts | ends => simp [Errand.Regular, Spot.Waits]
  | arrives => simp [Errand.Regular, Spot.Waits]
  | takes | stores =>
    intro errand member
    rcases List.mem_append.mp member with ousted | done
    · exact regular_of_mem_ousts ousted
    · simp [List.mem_singleton.mp done, Errand.Regular, Spot.Waits]

end Desk

namespace Ledger

/-- What always holds of an account. -/
structure Balanced (ledger : Ledger) : Prop where
  filed : ledger.Filed
  /-- A dispatcher holds its retirements in the order in which they were recorded. -/
  ascending : ∀ id, (ledger.slips (.queue id)).Pairwise (· < ·)
  /-- A delivery has attempted, has still to attempt, or has lost what it began with, in this
  order. -/
  whole : ∀ round, ledger.slips (.attempted round) ++ ledger.slips (.due round) ++
    ledger.slips (.lost round) = (ledger.rounds[round]?).elim [] Round.whole
  nested : ledger.running.Pairwise (· > ·)
  started : ∀ round ∈ ledger.running, round < ledger.rounds.length
  /-- A delivery in progress has lost nothing, -/
  goesOn : ∀ round ∈ ledger.running, ledger.slips (.lost round) = []
  /-- and one that is over has nothing left to attempt. -/
  idle : ∀ round, round ∉ ledger.running → ledger.slips (.due round) = []
  /-- Who was told was attempted. -/
  told : ∀ serial ∈ ledger.told, ∃ round, serial ∈ ledger.slips (.attempted round)

namespace Balanced

variable {ledger : Ledger}

/-- A delivery that has not begun has nothing. -/
theorem fresh (balanced : ledger.Balanced) {round : Nat} (new : ledger.rounds.length ≤ round) :
    ledger.slips (.attempted round) = [] ∧ ledger.slips (.due round) = [] ∧
      ledger.slips (.lost round) = [] := by
  have whole := balanced.whole round
  rw [List.getElem?_eq_none new] at whole
  simpa [and_assoc] using whole

theorem empty : ({} : Ledger).Balanced where
  filed := ⟨by simp, by simp⟩
  ascending := by simp
  whole := by simp
  nested := .nil
  started := by simp
  goesOn := by simp
  idle := by simp
  told := by simp

/-- Where only the places change at which retirements wait, the deliveries are as they were. -/
private theorem of_rounds {changed : Ledger} (balanced : ledger.Balanced) (filed : changed.Filed)
    (ascending : ∀ id, (changed.slips (.queue id)).Pairwise (· < ·))
    (kept : ∀ spot, ¬ spot.Waits → changed.slips spot = ledger.slips spot)
    (rounds : changed.rounds = ledger.rounds) (running : changed.running = ledger.running)
    (told : changed.told = ledger.told) : changed.Balanced := by
  have due (round : Nat) := kept (.due round) id
  have attempted (round : Nat) := kept (.attempted round) id
  have lost (round : Nat) := kept (.lost round) id
  constructor
  case filed => exact filed
  case ascending => exact ascending
  case whole =>
    intro round
    rw [due, attempted, lost, rounds]
    exact balanced.whole round
  case nested => exact running ▸ balanced.nested
  case started =>
    rw [running, rounds]
    exact balanced.started
  case goesOn => exact fun round goes => (lost round).trans (balanced.goesOn round (running ▸ goes))
  case idle => exact fun round ended => (due round).trans (balanced.idle round (running ▸ ended))
  case told =>
    intro serial member
    obtain ⟨round, attempt⟩ := balanced.told serial (told ▸ member)
    exact ⟨round, by rwa [attempted]⟩

theorem enter (balanced : ledger.Balanced) {spot : Spot} (waits : spot.Waits)
    (objects : List ObjectId) : (ledger.enter spot objects).Balanced := by
  refine balanced.of_rounds (balanced.filed.enter spot objects) (fun id => ?_)
    (fun other delivers => ?_) rfl rfl rfl
  · rw [slips_enter]
    refine List.pairwise_append.mpr ⟨balanced.ascending id, ?_, ?_⟩
    · split
      · exact List.pairwise_lt_range'
      · exact .nil
    · intro old earlier new later
      have before := balanced.filed.bounded _ old earlier
      split at later
      · have behind := List.mem_range'_1.mp later
        omega
      · cases later
  · exact ledger.slips_enter_of_ne _ _ objects (waits.ne delivers)

/-- What is fetched from a dispatcher leaves it empty. -/
private theorem ascending_pour (balanced : ledger.Balanced) (source target : Spot) (id : Nat)
    (different : Spot.queue id ≠ target) :
    ((ledger.pour source target).slips (.queue id)).Pairwise (· < ·) := by
  rw [slips_pour, if_neg different, List.append_nil]
  split
  · exact .nil
  · exact balanced.ascending id

private theorem pour (balanced : ledger.Balanced) {source : Spot} (waits : source.Waits)
    (name : Name) : (ledger.pour source (.batch name)).Balanced := by
  refine balanced.of_rounds (balanced.filed.shift _ _ _)
    (fun id => balanced.ascending_pour source (.batch name) id nofun) (fun other delivers => ?_)
    rfl rfl rfl
  have batched : (Spot.batch name).Waits := trivial
  exact ledger.slips_pour_of_ne _ _ _ (waits.ne delivers) (batched.ne delivers)

private theorem start (balanced : ledger.Balanced) {source : Spot} (waits : source.Waits)
    (asker : Option (List Call)) : (ledger.start source asker).Balanced := by
  obtain ⟨attemptedNone, dueNone, lostNone⟩ := balanced.fresh (Nat.le_refl _)
  have attempted := ledger.attempted_start waits asker
  have lost := ledger.lost_start waits asker
  have due := ledger.due_start waits asker
  constructor
  case filed => exact (balanced.filed.shift _ _ _).of_slips rfl rfl
  case ascending =>
    exact fun id => balanced.ascending_pour source (.due ledger.rounds.length) id nofun
  case whole =>
    intro round
    rw [attempted, lost, due]
    change _ = ((ledger.rounds ++ [⟨ledger.slips source, asker⟩])[round]?).elim [] Round.whole
    by_cases new : round = ledger.rounds.length
    · subst new
      simp [attemptedNone, dueNone, lostNone]
    · rw [if_neg new, List.append_nil, balanced.whole round]
      congr 1
      grind
  case nested => exact .cons (fun round member => balanced.started round member) balanced.nested
  case started =>
    intro round member
    change round < (ledger.rounds ++ [_]).length
    rw [List.length_append, List.length_singleton]
    rcases List.mem_cons.mp member with rfl | outer
    · omega
    · have before := balanced.started round outer
      omega
  case goesOn =>
    intro round member
    rw [lost]
    rcases List.mem_cons.mp member with rfl | outer
    · exact lostNone
    · exact balanced.goesOn round outer
  case idle =>
    intro round ended
    obtain ⟨other, outer⟩ := List.ne_and_not_mem_of_not_mem_cons ended
    rw [due, if_neg other, List.append_nil]
    exact balanced.idle round outer
  case told =>
    intro serial told
    obtain ⟨round, member⟩ := balanced.told serial told
    exact ⟨round, by rwa [attempted]⟩

private theorem attempt (balanced : ledger.Balanced) (told : Bool) :
    (ledger.attempt told).Balanced := by
  cases running : ledger.running with
  | nil => rwa [attempt_of_running_eq_nil ledger running]
  | cons current outer =>
    have due := due_attempt running told
    have attempted := attempted_attempt running told
    constructor
    case filed =>
      refine (balanced.filed.shift (.due current) (.attempted current) 1).of_slips ?_
        (ledger.recorded_attempt told)
      funext spot
      rw [slips_attempt running, slips_shift]
    case ascending =>
      intro id
      rw [slips_attempt_of_waits ledger told (.queue id) trivial]
      exact balanced.ascending id
    case whole =>
      intro round
      rw [due, attempted, lost_attempt, rounds_attempt, ← balanced.whole round]
      by_cases own : round = current
      · subst own
        rw [if_pos rfl, if_pos rfl, List.append_assoc (ledger.slips _), List.take_append_drop]
      · rw [if_neg own, if_neg own, List.append_nil]
    case nested => simpa using balanced.nested
    case started => simpa using balanced.started
    case goesOn =>
      intro round goes
      rw [lost_attempt]
      exact balanced.goesOn round (by simpa using goes)
    case idle =>
      intro round ended
      rw [running_attempt] at ended
      have other : round ≠ current := by
        rintro rfl
        exact ended (running ▸ List.mem_cons_self)
      rw [due, if_neg other]
      exact balanced.idle round ended
    case told =>
      intro serial member
      have before (old : serial ∈ ledger.told) :
          ∃ round, serial ∈ (ledger.attempt told).slips (.attempted round) := by
        obtain ⟨round, attempt⟩ := balanced.told serial old
        exact ⟨round, by rw [attempted]; exact List.mem_append_left _ attempt⟩
      rw [told_attempt running] at member
      split at member
      · rcases List.mem_append.mp member with old | new
        · exact before old
        · refine ⟨current, ?_⟩
          rw [attempted, if_pos rfl]
          exact List.mem_append_right _ new
      · exact before member

private theorem finish (balanced : ledger.Balanced) : ledger.finish.Balanced := by
  cases running : ledger.running with
  | nil => rwa [finish_of_running_eq_nil ledger running]
  | cons current outer =>
    have due := due_finish running
    have lost := lost_finish running
    have left : ledger.finish.running = outer := by simp [running]
    have inside {round : Nat} (member : round ∈ outer) : round ∈ ledger.running :=
      running ▸ List.mem_cons_of_mem _ member
    have nested := balanced.nested
    rw [running] at nested
    obtain ⟨above, outerNested⟩ := List.pairwise_cons.mp nested
    constructor
    case filed =>
      refine (balanced.filed.shift (.due current) (.lost current)
        (ledger.slips (.due current)).length).of_slips ?_ ledger.recorded_finish
      funext spot
      rw [slips_finish running]
      exact (ledger.slips_pour ..).symm
    case ascending =>
      intro id
      rw [slips_finish_of_waits ledger (.queue id) trivial]
      exact balanced.ascending id
    case whole =>
      intro round
      rw [due, attempted_finish, lost, rounds_finish, ← balanced.whole round]
      by_cases own : round = current
      · subst own
        simp [balanced.goesOn round (running ▸ List.mem_cons_self)]
      · rw [if_neg own, if_neg own, List.append_nil]
    case nested => rwa [left]
    case started =>
      rw [left, rounds_finish]
      exact fun round member => balanced.started round (inside member)
    case goesOn =>
      intro round member
      rw [left] at member
      -- The deliveries outside began earlier, so they are others.
      have lower := above round member
      have other : round ≠ current := by omega
      rw [lost, if_neg other, List.append_nil]
      exact balanced.goesOn round (inside member)
    case idle =>
      intro round ended
      rw [left] at ended
      rw [due]
      split
      · rfl
      · next other =>
        refine balanced.idle round fun member => ?_
        rw [running] at member
        exact (List.mem_cons.mp member).elim other ended
    case told =>
      intro serial told
      rw [told_finish] at told
      obtain ⟨round, member⟩ := balanced.told serial told
      exact ⟨round, by rwa [attempted_finish]⟩

private theorem after (balanced : ledger.Balanced) {errand : Errand} (regular : errand.Regular) :
    (ledger.after errand).Balanced := by
  cases errand with
  | enters spot objects => exact balanced.enter regular objects
  | pours source target =>
    obtain ⟨waits, name, rfl⟩ := regular
    exact balanced.pour waits name
  | begins source asker => exact balanced.start regular asker
  | attempts told => exact balanced.attempt told
  | ends => exact balanced.finish

theorem afterAll (balanced : ledger.Balanced) {errands : List Errand}
    (regular : ∀ errand ∈ errands, errand.Regular) : (ledger.afterAll errands).Balanced := by
  induction errands generalizing ledger with
  | nil => exact balanced
  | cons errand errands ih =>
    exact ih (balanced.after (regular errand List.mem_cons_self)) fun other member =>
      regular other (List.mem_cons_of_mem _ member)

end Balanced

end Ledger

end LiveTree.Session
