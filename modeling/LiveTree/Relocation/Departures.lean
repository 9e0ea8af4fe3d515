import LiveTree.Relocation.Entry
import LiveTree.Table

/-! Departed content that waits to be placed again. Departures are indexed by descriptor, one
queue for each, and every departure carries its place in the order of all reports, so that what
is left over can be put back into that order. -/
namespace LiveTree.Relocation

variable {η π : Type}

/-- An entry that left its place, numbered in the order of the reports. -/
structure Departure (η π : Type) where
  sequence : Nat
  entry : Entry η π

/-- The waiting departures, a queue for each descriptor that has one. -/
structure Departures (η π : Type) where
  queues : Table DescriptorId (List (Departure η π)) := {}

namespace Departures

/-- The queue of a descriptor, the earliest departure first. -/
def waiting (departures : Departures η π) (id : DescriptorId) : List (Departure η π) :=
  (departures.queues.get? id).getD []

/-- The index with another queue for a descriptor. -/
def replace (departures : Departures η π) (id : DescriptorId) (queue : List (Departure η π)) :
    Departures η π :=
  ⟨departures.queues.set id queue⟩

/-- Adds a departure behind those of the same descriptor. -/
def add (departures : Departures η π) (departure : Departure η π) : Departures η π :=
  let id := departure.entry.descriptor
  departures.replace id (departures.waiting id ++ [departure])

/-- Takes the earliest departure of a descriptor out. -/
def claim (departures : Departures η π) (id : DescriptorId) :
    Option (Departure η π × Departures η π) :=
  match departures.waiting id with
  | [] => none
  | departure :: rest => some (departure, departures.replace id rest)

/-- How many departures wait. -/
def size (departures : Departures η π) : Nat := departures.queues.values.flatten.length

/-- All waiting departures in the order in which they were reported. -/
def inReportOrder (departures : Departures η π) : List (Departure η π) :=
  departures.queues.values.flatten.mergeSort fun first second =>
    first.sequence ≤ second.sequence

@[simp]
theorem waiting_replace_self (departures : Departures η π) (id : DescriptorId)
    (queue : List (Departure η π)) : (departures.replace id queue).waiting id = queue := by
  simp [replace, waiting]

theorem waiting_replace_of_ne (departures : Departures η π) {id other : DescriptorId}
    (queue : List (Departure η π)) (different : other ≠ id) :
    (departures.replace id queue).waiting other = departures.waiting other := by
  simp [replace, waiting, Table.get?_set_of_ne, different]

/-- A departure waits behind the earlier ones of its descriptor. -/
@[simp]
theorem waiting_add_self (departures : Departures η π) (departure : Departure η π) :
    (departures.add departure).waiting departure.entry.descriptor =
      departures.waiting departure.entry.descriptor ++ [departure] := by
  simp [add, waiting_replace_self]

theorem waiting_add_of_ne (departures : Departures η π) (departure : Departure η π)
    {id : DescriptorId} (different : id ≠ departure.entry.descriptor) :
    (departures.add departure).waiting id = departures.waiting id := by
  simp [add, waiting_replace_of_ne, different]

/-- Nothing is claimed exactly when nothing of the descriptor waits. -/
theorem claim_eq_none_iff (departures : Departures η π) (id : DescriptorId) :
    departures.claim id = none ↔ departures.waiting id = [] := by
  unfold claim
  split <;> simp_all

end Departures

end LiveTree.Relocation
