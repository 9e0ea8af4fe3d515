import LiveTree.Proofs.Lifecycle.Board
import LiveTree.Proofs.Relocation.Insertion

/-! What dispatchers, deliveries, pools and passes name. An operation on one of them hands on what
was named before, or what came in with the operation, and names nothing else; so an object that
somebody names has been named since it was handed in. -/
namespace LiveTree.Table

variable {κ α : Type} [DecidableEq κ] {table : Table κ α} {key : κ} {value other : α}

theorem mem_values_of_get? (bound : table.get? key = some value) : value ∈ table.values := by
  obtain ⟨before, after, split, -⟩ := List.lookup_eq_some_iff.mp bound
  rw [values, split]
  exact List.mem_map_of_mem (List.mem_append_right _ List.mem_cons_self)

theorem mem_values_of_erase (member : value ∈ (table.erase key).values) : value ∈ table.values := by
  have fewer : (table.erase key).bindings.Sublist table.bindings := List.filter_sublist
  exact (fewer.map Prod.snd).subset member

theorem mem_values_of_set (member : other ∈ (table.set key value).values) :
    other = value ∨ other ∈ table.values := by
  rw [values_set] at member
  exact (List.mem_cons.mp member).imp_right mem_values_of_erase

end LiveTree.Table

namespace LiveTree.Lifecycle

variable {object : ObjectId}

/-- A dispatcher names the objects for which it has something recorded. -/
def Dispatcher.Names (dispatcher : Dispatcher) (object : ObjectId) : Prop :=
  ∃ event, object ∈ dispatcher.recorded event

/-- A delivery names what is left of its list and what waits behind it. -/
def Drain.Names (drain : Drain) (object : ObjectId) : Prop :=
  object ∈ drain.rest ∨ drain.dispatcher.Names object

namespace Dispatcher

variable {dispatcher : Dispatcher} {event : Event} {objects : List ObjectId} {phase : Phase}

theorem Names.of_record (names : (dispatcher.record event objects).Names object) :
    dispatcher.Names object ∨ object ∈ objects := by
  obtain ⟨told, recorded⟩ := names
  rw [recorded_record] at recorded
  split at recorded
  · exact (List.mem_append.mp recorded).imp_left fun before => ⟨told, before⟩
  · exact .inl ⟨told, recorded⟩

private theorem Names.of_take (names : (dispatcher.take phase).2.Names object) :
    dispatcher.Names object := by
  obtain ⟨event, recorded⟩ := names
  rw [recorded_take] at recorded
  split at recorded
  · cases recorded
  · exact ⟨event, recorded⟩

private theorem names_of_mem_take (member : object ∈ (dispatcher.take phase).1) :
    dispatcher.Names object := by
  cases phase with
  | exits => exact ⟨.exited, List.mem_reverse.mp member⟩
  | retentions => exact ⟨.retained, member⟩
  | entries => exact ⟨.entered, member⟩

theorem Names.of_takeRetirements (names : dispatcher.takeRetirements.2.Names object) :
    dispatcher.Names object := by
  obtain ⟨event, recorded⟩ := names
  rw [recorded_takeRetirements] at recorded
  split at recorded
  · cases recorded
  · exact ⟨event, recorded⟩

theorem names_of_mem_takeRetirements (member : object ∈ dispatcher.takeRetirements.1) :
    dispatcher.Names object := ⟨.retired, member⟩

end Dispatcher

namespace Drain

variable {dispatcher : Dispatcher} {drain next : Drain} {attempted : ObjectId} {target : State}

theorem Names.of_drain (names : dispatcher.drain.Names object) : dispatcher.Names object :=
  names.elim Dispatcher.names_of_mem_take Dispatcher.Names.of_take

/-- What a delivery attempts to tell is one of its objects. -/
theorem names_attempted (step : drain.step = .attempt attempted target next) :
    drain.Names attempted := by
  obtain ⟨rest, split, -, -⟩ := step_eq_attempt_iff.mp step
  exact .inl (split ▸ List.mem_cons_self)

theorem Names.of_attempt (step : drain.step = .attempt attempted target next)
    (names : next.Names object) : drain.Names object := by
  obtain ⟨rest, split, -, rfl⟩ := step_eq_attempt_iff.mp step
  exact names.imp_left fun member => split ▸ List.mem_cons_of_mem _ member

theorem Names.of_nextList (step : drain.step = .nextList next) (names : next.Names object) :
    drain.Names object := by
  obtain ⟨phase, -, -, rfl⟩ := step_eq_nextList_iff.mp step
  exact .inr (names.elim Dispatcher.names_of_mem_take Dispatcher.Names.of_take)

end Drain

end LiveTree.Lifecycle

namespace LiveTree.Relocation

open Lifecycle (ObjectId Dispatcher)

variable {η π : Type} {object : ObjectId}

/-! ### Pools -/

namespace Departures

variable {departures rest : Departures η π} {id : DescriptorId} {departure : Departure η π}

private theorem mem_all_of_mem_waiting (member : departure ∈ departures.waiting id) :
    departure ∈ departures.all := by
  unfold waiting at member
  cases bound : departures.queues.get? id with
  | none => simp [bound] at member
  | some queue =>
    rw [bound, Option.getD_some] at member
    exact List.mem_flatten.mpr ⟨queue, Table.mem_values_of_get? bound, member⟩

private theorem mem_all_of_replace {queue : List (Departure η π)}
    (member : departure ∈ (departures.replace id queue).all) :
    departure ∈ queue ∨ departure ∈ departures.all := by
  obtain ⟨held, bound, inside⟩ := List.mem_flatten.mp member
  rcases Table.mem_values_of_set bound with rfl | before
  · exact .inl inside
  · exact .inr (List.mem_flatten.mpr ⟨held, before, inside⟩)

private theorem mem_all_of_add {added : Departure η π}
    (member : departure ∈ (departures.add added).all) :
    departure = added ∨ departure ∈ departures.all := by
  rcases mem_all_of_replace member with queued | before
  · rcases List.mem_append.mp queued with waits | own
    · exact .inr (mem_all_of_mem_waiting waits)
    · exact .inl (List.mem_singleton.mp own)
  · exact .inr before

/-- What is claimed has waited, and so has what is left. -/
private theorem mem_all_of_claim (claimed : departures.claim id = some (departure, rest)) :
    departure ∈ departures.all ∧ ∀ other ∈ rest.all, other ∈ departures.all := by
  obtain ⟨queue, split, rfl⟩ := claim_eq_some_iff.mp claimed
  refine ⟨mem_all_of_mem_waiting (split ▸ List.mem_cons_self), fun other member => ?_⟩
  rcases mem_all_of_replace member with queued | before
  · exact mem_all_of_mem_waiting (split ▸ List.mem_cons_of_mem _ queued)
  · exact before

end Departures

namespace Pool

variable {pool after : Pool η π} {entry : Entry η π}

theorem names_iff : pool.Names object ↔ pool.dispatcher.Names object ∨
    ∃ departure ∈ pool.departures.all, object ∈ departure.entry.objects := by
  constructor
  · rintro (⟨recorded⟩ | ⟨waits, own⟩)
    · exact .inl ⟨_, recorded⟩
    · exact .inr ⟨_, waits, own⟩
  · rintro (⟨event, recorded⟩ | ⟨departure, waits, own⟩)
    · exact .recorded recorded
    · exact .waits waits own

/-- The counters and the requests of a pool name nothing. -/
theorem Names.of_eq (names : after.Names object) (dispatcher : after.dispatcher = pool.dispatcher)
    (departures : after.departures = pool.departures) : pool.Names object := by
  rw [names_iff, dispatcher, departures] at names
  exact names_iff.mpr names

/-- Another dispatcher names what it names itself. -/
theorem Names.of_dispatcher {dispatcher : Dispatcher}
    (names : ({ pool with dispatcher } : Pool η π).Names object) :
    pool.Names object ∨ dispatcher.Names object := by
  rcases names_iff.mp names with recorded | ⟨_, waits, own⟩
  · exact .inr recorded
  · exact .inl (.waits waits own)

private theorem names_of_farewell {dispatcher : Dispatcher}
    (names : (farewell dispatcher entry).Names object) :
    dispatcher.Names object ∨ object ∈ entry.objects := by
  unfold farewell at names
  rcases names.of_record with before | own
  · split at before
    · exact before.of_record
    · exact .inl before
  · exact .inr own

theorem Names.of_instantiate {descriptor : DescriptorId} {handle : η} {parameter : π}
    {position : Position.Hash} {objects : List ObjectId}
    (names : (pool.instantiate descriptor handle parameter position objects).2.Names object) :
    pool.Names object ∨ object ∈ objects := by
  rw [instantiate_snd] at names
  rcases names.of_dispatcher with before | recorded
  · exact .inl before
  · rcases recorded.of_record with retained | own
    · exact retained.of_record.imp_left fun before => names_iff.mpr (.inl before)
    · exact .inr own

theorem Names.of_deactivate (names : (pool.deactivate entry).2.Names object) :
    pool.Names object ∨ object ∈ entry.objects := by
  rw [deactivate_snd] at names
  rcases names.of_dispatcher with before | recorded
  · exact .inl before
  · split at recorded
    · exact recorded.of_record.imp_left fun before => names_iff.mpr (.inl before)
    · exact .inl (names_iff.mpr (.inl recorded))

theorem Names.of_reportDeparture {descriptor : DescriptorId}
    (reported : pool.reportDeparture descriptor entry = .ok after) (names : after.Names object) :
    pool.Names object ∨ object ∈ entry.objects := by
  obtain ⟨-, rfl⟩ := reportDeparture_eq_ok_iff.mp reported
  rcases names_iff.mp names with recorded | ⟨departure, waits, own⟩
  · exact .inl (names_iff.mpr (.inl recorded))
  · rcases Departures.mem_all_of_add waits with rfl | before
    · exact .inr own
    · exact .inl (.waits before own)

/-- What a claim hands out was named before, and so is what it leaves. -/
theorem names_of_claim {id : DescriptorId} (claimed : pool.claim id = some (entry, after))
    (names : object ∈ entry.objects ∨ after.Names object) : pool.Names object := by
  obtain ⟨departure, departures, found, rfl, rfl⟩ := claim_eq_some_iff.mp claimed
  obtain ⟨waited, fewer⟩ := Departures.mem_all_of_claim found
  rcases names with own | left
  · exact .waits waited own
  · rcases names_iff.mp left with recorded | ⟨other, waits, inside⟩
    · exact names_iff.mpr (.inl recorded)
    · exact .waits (fewer other waits) inside

/-- Content that moves records what the pool has named. -/
private theorem names_of_moved {id : DescriptorId} {departure : Departure η π}
    {departures : Departures η π} {stats : Stats}
    (found : pool.departures.claim id = some (departure, departures))
    (names : Names { pool with
      departures, dispatcher := welcome pool.dispatcher departure.entry, stats } object) :
    pool.Names object :=
  .of_welcome (Departures.mem_all_of_claim found).1 (Departures.mem_all_of_claim found).2 rfl names

theorem names_of_requestPlacement {descriptor : DescriptorId} {parameter : π}
    {position : Position.Hash}
    (names : (pool.requestPlacement descriptor parameter position).2.Names object ∨
      ∃ moved, (pool.requestPlacement descriptor parameter position).1 = .moved moved ∧
        object ∈ moved.objects) : pool.Names object := by
  rcases pool.requestPlacement_cases descriptor parameter position with
    ⟨departure, departures, -, found, answer⟩ | ⟨-, -, -, answer⟩ | ⟨-, -, answer⟩ <;>
    rw [answer] at names
  · rcases names with left | ⟨_, moved, own⟩
    · exact names_of_moved found left
    · cases moved
      exact .waits (Departures.mem_all_of_claim found).1 own
  all_goals
    rcases names with left | ⟨_, moved, -⟩
    · exact left.of_eq rfl rfl
    · cases moved

theorem Names.of_disposeDepartures (names : pool.disposeDepartures.Names object) :
    pool.Names object := by
  rw [disposeDepartures_eq] at names
  have recorded : (pool.leftovers.foldl farewell pool.dispatcher).Names object := by
    rcases names_iff.mp names with recorded | ⟨_, waits, -⟩
    · exact recorded
    · cases waits
  have waited : ∀ entry ∈ pool.leftovers, ∀ object ∈ entry.objects, pool.Names object := by
    intro entry left object own
    obtain ⟨departure, ordered, rfl⟩ := List.mem_map.mp left
    exact .waits (pool.departures.inReportOrder_perm.subset ordered) own
  have before (object : ObjectId) (named : pool.dispatcher.Names object) : pool.Names object :=
    names_iff.mpr (.inl named)
  -- Each disposal in turn records objects that the pool has named all along.
  generalize pool.dispatcher = dispatcher at recorded before
  generalize pool.leftovers = entries at recorded waited
  induction entries generalizing dispatcher with
  | nil => exact before object recorded
  | cons entry entries ih =>
    refine ih _ (fun other named => ?_) recorded fun other member =>
      waited other (List.mem_cons_of_mem _ member)
    exact (names_of_farewell named).elim (before other) (waited entry List.mem_cons_self other)

end Pool

/-! ### Passes -/

/-- A pass names what its pool names, and the content that it has placed. -/
def Pass.Names (pass : Pass η π) (object : ObjectId) : Prop :=
  pass.pool.Names object ∨ ∃ pair ∈ pass.moved ++ pass.inserted, object ∈ pair.2.objects

namespace Pass

variable {pool : Pool η π} {pass next : Pass η π} {request : Request π} {claimed : Entry η π}

theorem Names.of_endPass (names : pool.endPass.Names object) : pool.Names object := by
  rcases names with inside | ⟨_, placed, -⟩
  · exact inside.of_eq rfl rfl
  · cases placed

theorem Names.of_matched (step : pass.step = .matched request claimed next)
    (names : next.Names object) : pass.Names object := by
  obtain ⟨requests, departure, departures, -, found, rfl, rfl⟩ := of_step_eq_matched step
  rcases names with inside | ⟨pair, placed, own⟩
  · exact .inl (Pool.names_of_moved found inside)
  · simp only [List.mem_append, List.mem_singleton] at placed
    rcases placed with (before | rfl) | before
    · exact .inr ⟨pair, List.mem_append_left _ before, own⟩
    · exact .inl (.waits (Departures.mem_all_of_claim found).1 own)
    · exact .inr ⟨pair, List.mem_append_right _ before, own⟩

theorem Names.of_insert {handle : η} {objects : List ObjectId}
    (names : (pass.insert request handle objects).Names object) :
    pass.Names object ∨ object ∈ objects := by
  rcases names with inside | ⟨pair, placed, own⟩
  · have made : (pass.pool.instantiate request.descriptor handle request.parameter request.position
        objects).2.Names object := inside
    exact made.of_instantiate.imp_left .inl
  · simp only [insert, List.mem_append, List.mem_singleton] at placed
    rcases placed with before | before | rfl
    · exact .inl (.inr ⟨pair, List.mem_append_left _ before, own⟩)
    · exact .inl (.inr ⟨pair, List.mem_append_right _ before, own⟩)
    · exact .inr own

theorem Names.of_disposeDepartures (names : pass.disposeDepartures.Names object) :
    pass.Names object := names.imp_left Pool.Names.of_disposeDepartures

end Pass

end LiveTree.Relocation
