import Mathlib.Data.List.Pairwise
import LiveTree.Proofs.Relocation.Exchange

/-! No departure is lost, and none is handed out twice. Over the whole life of a pool, panics
included, what came in is what still waits together with what went out. The numbers of the reports
tell departures apart, so this is also true of every single one. -/
namespace LiveTree.Relocation

open scoped List

variable {η π : Type}

/-- Where a reported departure can be: it still waits, or it left in one of the ways. -/
inductive Whereabouts where
  | waiting
  | left (way : Way)

namespace Whereabouts

/-- The departures that are in one place, given all that happened to a pool. -/
def holding (transfers : List (Transfer η π)) (pool : Pool η π) :
    Whereabouts → List (Departure η π)
  | waiting => pool.departures.all
  | left way => leftBy way transfers

/-- All places. -/
def everywhere : List Whereabouts :=
  [waiting, left .claimed, left .moved, left .resolved, left .disposed]

private theorem mem_everywhere (place : Whereabouts) : place ∈ everywhere := by
  rcases place with _ | way
  · simp [everywhere]
  · cases way <;> simp [everywhere]

end Whereabouts

/-- What went out, went out in one of the ways. -/
private theorem gone_perm (transfers : List (Transfer η π)) :
    gone transfers ~ leftBy .claimed transfers ++ (leftBy .moved transfers ++
      (leftBy .resolved transfers ++ leftBy .disposed transfers)) := by
  induction transfers with
  | nil => exact .refl _
  | cons transfer transfers ih =>
    rcases transfer with departure | ⟨way, departure⟩
    · exact ih
    · -- The departure goes to the front of its own part, past the parts before it.
      have pass (part rest : List (Departure η π)) :
          departure :: (part ++ rest) ~ part ++ departure :: rest := List.perm_middle.symm
      have joined := ih.cons departure
      cases way with
      | claimed => exact joined
      | moved => exact joined.trans (pass _ _)
      | resolved => exact joined.trans ((pass _ _).trans ((pass _ _).append_left _))
      | disposed =>
        refine joined.trans ((pass _ _).trans (List.Perm.append_left _ ?_))
        exact (pass _ _).trans ((pass _ _).append_left _)

/-- What it means that a pool has lost nothing and handed nothing out twice. -/
structure Pool.Conserves (transfers : List (Transfer η π)) (pool : Pool η π) : Prop where
  /-- Every report has a number of its own. -/
  apart : ((reported transfers).map Departure.sequence).Nodup
  /-- A reported departure is in exactly one place. -/
  onePlace : ∀ departure ∈ reported transfers,
    ∃! place : Whereabouts, departure ∈ place.holding transfers pool
  /-- It is there once. -/
  once : ∀ place : Whereabouts, (place.holding transfers pool).Nodup
  /-- Nothing else is anywhere. -/
  nothingElse : ∀ place : Whereabouts, place.holding transfers pool ⊆ reported transfers
  /-- The counters agree with this. -/
  balance : pool.stats.departures = pool.pendingDepartures + pool.stats.moves +
    (leftBy .claimed transfers).length + pool.stats.disposed
  /-- A pass that ends leaves nothing that waits. -/
  ended : ∀ (filling : Filling) (ending : Ending filling pool),
    ending.after.pendingDepartures = 0

namespace Pool

variable {config : Settings.RelocationConfig} {transfers : List (Transfer η π)} {pool : Pool η π}

/-- What came in is what is in all the places together. -/
private theorem Run.reported_perm (run : Run config transfers pool) :
    reported transfers ~ Whereabouts.everywhere.flatMap (·.holding transfers pool) := by
  have content : reported transfers ~ pool.departures.all ++ gone transfers := run.turnover.content
  simpa [Whereabouts.everywhere, Whereabouts.holding] using
    content.trans ((gone_perm transfers).append_left _)

theorem Run.reported_apart (run : Run config transfers pool) :
    ((reported transfers).map Departure.sequence).Nodup := by
  rw [run.turnover.numbers]
  exact List.nodup_range'

/-- Whatever is called on a pool, and whoever panics meanwhile, every departure that it accepted
either waits in it or has left it once, in one way. -/
theorem run_conserves_departures (run : Run config transfers pool) :
    pool.Conserves transfers := by
  have perm := run.reported_perm
  have apart := run.reported_apart
  have everywhereNodup := perm.nodup_iff.mp (apart.of_map _)
  obtain ⟨once, disjoint⟩ := List.nodup_flatMap.mp everywhereNodup
  constructor
  case apart => exact apart
  case onePlace =>
    intro departure came
    obtain ⟨place, -, held⟩ := List.mem_flatMap.mp (perm.mem_iff.mp came)
    refine ⟨place, held, ?_⟩
    intro other alsoHeld
    by_contra different
    have symmetric : Std.Symm (Function.onFun List.Disjoint fun place : Whereabouts =>
        place.holding transfers pool) := ⟨fun _ _ apart => List.disjoint_symm apart⟩
    exact disjoint.forall other.mem_everywhere place.mem_everywhere different alsoHeld held
  case once =>
    intro place
    exact once place place.mem_everywhere
  case nothingElse =>
    intro place departure held
    exact perm.mem_iff.mpr (List.mem_flatMap.mpr ⟨place, place.mem_everywhere, held⟩)
  case balance =>
    have counted := perm.length_eq
    obtain ⟨-, -, -, -, -, -, departures, moves, disposed⟩ := run.turnover
    simp only [Whereabouts.everywhere, Whereabouts.holding, List.flatMap_cons, List.flatMap_nil,
      List.length_append, List.length_nil] at counted
    simp only [Nat.zero_add] at departures moves disposed
    rw [departures, moves, disposed, pendingDepartures, Departures.size_eq_length_all]
    omega
  case ended =>
    intro filling ending
    rw [ending.after_eq]
    rfl

/-- A departure that moved at once is accounted for like any other. -/
theorem run_conserves_departures_moved :
    ∃ pool : Pool Unit Unit, pool.stats.moves = 1 ∧
      pool.Conserves
        [.reported ⟨0, ⟨⟨7⟩, (), (), ⟨0⟩, [⟨3⟩], true⟩⟩,
          .left .moved ⟨0, ⟨⟨7⟩, (), (), ⟨0⟩, [⟨3⟩], true⟩⟩] := by
  let entry : Entry Unit Unit := ⟨⟨7⟩, (), (), ⟨0⟩, [⟨3⟩], true⟩
  have reports : Run {} [.reported ⟨0, entry⟩] _ :=
    Run.created.next (@Exchange.report Unit Unit _ _ ⟨7⟩ entry rfl)
  have moves := reports.next (@Exchange.place Unit Unit _ ⟨7⟩ () ⟨0⟩ ⟨0, entry⟩ rfl rfl)
  exact ⟨_, rfl, run_conserves_departures moves⟩

end Pool

end LiveTree.Relocation
