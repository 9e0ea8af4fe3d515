import Mathlib.Data.List.Nodup
import LiveTree.Relocation.Departures

/-! The index of waiting departures keeps what is reported. A well-kept index has one queue for
each descriptor, every queue holds content of its own descriptor in the order of the reports, and
no two departures share their place in that order. What waits for a descriptor is then exactly
what remains of its reports when all departures are put back into order. -/
namespace LiveTree.Relocation.Departures

variable {η π : Type}

/-- Everything that waits, queue after queue. -/
def all (departures : Departures η π) : List (Departure η π) := departures.queues.values.flatten

/-- What waits for the descriptors other than one. -/
def others (departures : Departures η π) (id : DescriptorId) : List (Departure η π) :=
  (departures.queues.erase id).values.flatten

/-- An index as reports and claims leave it, where `bound` is the number of the next report. -/
structure WellKept (departures : Departures η π) (bound : Nat) : Prop where
  distinct : departures.queues.Distinct
  own : ∀ id, ∀ departure ∈ departures.waiting id, departure.entry.descriptor = id
  inOrder : ∀ id, (departures.waiting id).Pairwise fun first second =>
    first.sequence < second.sequence
  numbered : ∀ departure ∈ departures.all, departure.sequence < bound
  apart : (departures.all.map Departure.sequence).Nodup

@[simp]
theorem all_empty : ({} : Departures η π).all = [] := rfl

@[simp]
theorem waiting_empty (id : DescriptorId) : ({} : Departures η π).waiting id = [] := rfl

theorem size_eq_length_all (departures : Departures η π) :
    departures.size = departures.all.length := rfl

/-- What waits, waits for a descriptor or for the others. -/
private theorem all_perm {departures : Departures η π} (distinct : departures.queues.Distinct)
    (id : DescriptorId) : departures.all.Perm (departures.waiting id ++ departures.others id) := by
  unfold all others waiting
  cases bound : departures.queues.get? id with
  | none => simp [Table.erase_of_get?_eq_none bound]
  | some queue => exact (Table.values_perm_of_get? distinct bound).flatten

/-- Another queue for a descriptor leaves what waits for the others. -/
private theorem all_replace (departures : Departures η π) (id : DescriptorId)
    (queue : List (Departure η π)) :
    (departures.replace id queue).all = queue ++ departures.others id := by
  simp [all, replace, others, Table.values_set]

theorem mem_all_iff {departures : Departures η π} (distinct : departures.queues.Distinct)
    {departure : Departure η π} :
    departure ∈ departures.all ↔ ∃ id, departure ∈ departures.waiting id := by
  constructor
  · intro member
    obtain ⟨queue, held, inside⟩ := List.mem_flatten.mp member
    obtain ⟨id, bound⟩ := (Table.mem_values_iff distinct).mp held
    exact ⟨id, by simpa [waiting, bound] using inside⟩
  · rintro ⟨id, inside⟩
    exact (all_perm distinct id).mem_iff.mpr (List.mem_append_left _ inside)

/-- A departure that comes in joins those that wait. -/
theorem all_add_perm {departures : Departures η π} (distinct : departures.queues.Distinct)
    (departure : Departure η π) :
    (departures.add departure).all.Perm (departure :: departures.all) := by
  have before := all_perm distinct departure.entry.descriptor
  rw [add, all_replace, List.append_assoc, List.singleton_append]
  exact List.perm_middle.trans (before.symm.cons departure)

/-- A claim takes the first of the queue and nothing else. -/
theorem claim_eq_some_iff {departures rest : Departures η π} {id : DescriptorId}
    {departure : Departure η π} :
    departures.claim id = some (departure, rest) ↔
      ∃ queue, departures.waiting id = departure :: queue ∧ rest = departures.replace id queue := by
  unfold claim
  split
  · next empty => simp [empty]
  · next first queue split =>
    simp only [split, Option.some.injEq, Prod.mk.injEq, List.cons.injEq]
    exact ⟨fun ⟨same, left⟩ => ⟨queue, ⟨same, rfl⟩, left.symm⟩,
      fun ⟨_, ⟨same, tail⟩, left⟩ => ⟨same, by rw [left, tail]⟩⟩

theorem all_claim_perm {departures rest : Departures η π} {id : DescriptorId}
    {departure : Departure η π} (distinct : departures.queues.Distinct)
    (claimed : departures.claim id = some (departure, rest)) :
    departures.all.Perm (departure :: rest.all) := by
  obtain ⟨queue, split, rfl⟩ := claim_eq_some_iff.mp claimed
  rw [all_replace]
  simpa [split] using all_perm distinct id

namespace WellKept

variable {departures rest : Departures η π} {bound : Nat}

theorem empty (bound : Nat) : ({} : Departures η π).WellKept bound where
  distinct := List.nodup_nil
  own := by simp
  inOrder := by simp
  numbered := by simp
  apart := by simp

private theorem numbered_waiting (kept : departures.WellKept bound) {id : DescriptorId}
    {departure : Departure η π} (member : departure ∈ departures.waiting id) :
    departure.sequence < bound :=
  kept.numbered departure ((mem_all_iff kept.distinct).mpr ⟨id, member⟩)

/-- A report under the next number keeps the index well kept. -/
theorem add (kept : departures.WellKept bound) (entry : Entry η π) :
    (departures.add ⟨bound, entry⟩).WellKept (bound + 1) := by
  have joined := all_add_perm kept.distinct ⟨bound, entry⟩
  constructor
  case distinct => exact Table.distinct_set kept.distinct _ _
  case own =>
    intro id departure member
    by_cases same : id = entry.descriptor
    · subst same
      rw [waiting_add_self _ ⟨bound, entry⟩, List.mem_append, List.mem_singleton] at member
      rcases member with earlier | rfl
      · exact kept.own _ departure earlier
      · rfl
    · rw [waiting_add_of_ne _ _ same] at member
      exact kept.own id departure member
  case inOrder =>
    intro id
    by_cases same : id = entry.descriptor
    · subst same
      rw [waiting_add_self _ ⟨bound, entry⟩]
      refine List.pairwise_append.mpr ⟨kept.inOrder _, List.pairwise_singleton _ _, ?_⟩
      intro earlier member latest isLatest
      rw [List.mem_singleton.mp isLatest]
      exact kept.numbered_waiting member
    · rw [waiting_add_of_ne _ _ same]
      exact kept.inOrder id
  case numbered =>
    intro departure member
    rcases List.mem_cons.mp (joined.mem_iff.mp member) with rfl | earlier
    · exact Nat.lt_succ_self bound
    · exact Nat.lt_succ_of_lt (kept.numbered departure earlier)
  case apart =>
    rw [(joined.map Departure.sequence).nodup_iff]
    refine List.nodup_cons.mpr ⟨?_, kept.apart⟩
    intro taken
    obtain ⟨departure, member, same⟩ := List.mem_map.mp taken
    exact Nat.lt_irrefl _ (same ▸ kept.numbered departure member)

/-- A claim keeps the index well kept. -/
theorem claim (kept : departures.WellKept bound) {id : DescriptorId}
    {departure : Departure η π} (claimed : departures.claim id = some (departure, rest)) :
    rest.WellKept bound := by
  have taken := all_claim_perm kept.distinct claimed
  obtain ⟨queue, split, rfl⟩ := claim_eq_some_iff.mp claimed
  constructor
  case distinct => exact Table.distinct_set kept.distinct _ _
  case own =>
    intro other found member
    by_cases same : other = id
    · subst same
      rw [waiting_replace_self] at member
      exact kept.own other found (by simp [split, member])
    · rw [waiting_replace_of_ne _ _ same] at member
      exact kept.own other found member
  case inOrder =>
    intro other
    by_cases same : other = id
    · subst same
      have queued := kept.inOrder other
      rw [split] at queued
      rw [waiting_replace_self]
      exact (List.pairwise_cons.mp queued).2
    · rw [waiting_replace_of_ne _ _ same]
      exact kept.inOrder other
  case numbered =>
    intro found member
    exact kept.numbered found (taken.mem_iff.mpr (List.mem_cons_of_mem _ member))
  case apart =>
    have apart := (taken.map Departure.sequence).nodup_iff.mp kept.apart
    exact (List.nodup_cons.mp apart).2

/-- A departure that is claimed waited, and waits no longer. -/
theorem mem_of_claim (kept : departures.WellKept bound) {id : DescriptorId}
    {departure : Departure η π} (claimed : departures.claim id = some (departure, rest)) :
    departure ∈ departures.all ∧ departure ∉ rest.all := by
  have split := all_claim_perm kept.distinct claimed
  have once := split.nodup_iff.mp (kept.apart.of_map _)
  exact ⟨split.mem_iff.mpr List.mem_cons_self, (List.nodup_cons.mp once).1⟩

/-- Departures with one number are one departure. -/
theorem eq_of_sequence_eq (kept : departures.WellKept bound) {first second : Departure η π}
    (present : first ∈ departures.all) (other : second ∈ departures.all)
    (same : first.sequence = second.sequence) : first = second :=
  List.inj_on_of_nodup_map kept.apart present other same

end WellKept

/-- Putting the departures into order loses none and adds none. -/
theorem inReportOrder_perm (departures : Departures η π) :
    departures.inReportOrder.Perm departures.all :=
  List.mergeSort_perm _ _

theorem inReportOrder_sorted (departures : Departures η π) :
    departures.inReportOrder.Pairwise fun first second => first.sequence ≤ second.sequence := by
  let earlier (first second : Departure η π) : Bool := first.sequence ≤ second.sequence
  have transitive : ∀ a b c, earlier a b → earlier b c → earlier a c := fun _ _ _ first second =>
    decide_eq_true (Nat.le_trans (of_decide_eq_true first) (of_decide_eq_true second))
  have total : ∀ a b, earlier a b || earlier b a := fun _ _ => by
    simpa [earlier] using Nat.le_total _ _
  have sorted := List.pairwise_mergeSort transitive total departures.all
  exact sorted.imp of_decide_eq_true

/-- What waits for the other descriptors is content of other descriptors. -/
private theorem WellKept.others_foreign {departures : Departures η π} {bound : Nat}
    (kept : departures.WellKept bound) {id : DescriptorId} {departure : Departure η π}
    (member : departure ∈ departures.others id) : departure.entry.descriptor ≠ id := by
  have without : departure ∈ (departures.replace id []).all := by
    simpa [all_replace] using member
  have distinct : (departures.replace id []).queues.Distinct :=
    Table.distinct_set kept.distinct id []
  obtain ⟨other, waits⟩ := (mem_all_iff distinct).mp without
  have different : other ≠ id := by
    rintro rfl
    simp at waits
  rw [waiting_replace_of_ne _ _ different] at waits
  exact fun same => different ((kept.own other departure waits).symm.trans same)

/-- Of the departures in the order of the reports, those of a descriptor are its queue. -/
theorem filter_inReportOrder {departures : Departures η π} {bound : Nat}
    (kept : departures.WellKept bound) (id : DescriptorId) :
    departures.inReportOrder.filter (fun departure => departure.entry.descriptor = id) =
      departures.waiting id := by
  have ours : (departures.waiting id).filter (fun departure => departure.entry.descriptor = id)
      = departures.waiting id :=
    List.filter_eq_self.mpr fun departure member => decide_eq_true (kept.own id departure member)
  have theirs : (departures.others id).filter (fun departure => departure.entry.descriptor = id)
      = [] :=
    List.filter_eq_nil_iff.mpr fun departure member => by simpa using kept.others_foreign member
  have sameContent := (departures.inReportOrder_perm.trans (all_perm kept.distinct id)).filter
    fun departure => departure.entry.descriptor = id
  rw [List.filter_append, ours, theirs, List.append_nil] at sameContent
  -- Both lists are sorted by numbers that are all different, so equal content makes them equal.
  refine List.Perm.eq_of_pairwise ?_ (departures.inReportOrder_sorted.filter _)
    ((kept.inOrder id).imp Nat.le_of_lt) sameContent
  intro first second found waits earlier later
  exact kept.eq_of_sequence_eq
    (departures.inReportOrder_perm.mem_iff.mp (List.mem_filter.mp found).1)
    ((mem_all_iff kept.distinct).mpr ⟨id, waits⟩) (Nat.le_antisymm earlier later)

/-- The order of the reports depends on what waits and on nothing else. -/
theorem inReportOrder_eq_of_waiting_eq {first second : Departures η π} {bound other : Nat}
    (kept : first.WellKept bound) (keptToo : second.WellKept other)
    (same : ∀ id, first.waiting id = second.waiting id) :
    first.inReportOrder = second.inReportOrder := by
  have content : first.all.Perm second.all := by
    refine (List.perm_ext_iff_of_nodup (kept.apart.of_map _) (keptToo.apart.of_map _)).mpr ?_
    intro departure
    rw [mem_all_iff kept.distinct, mem_all_iff keptToo.distinct]
    exact exists_congr fun id => by rw [same id]
  have ordered := (first.inReportOrder_perm.trans content).trans second.inReportOrder_perm.symm
  refine List.Perm.eq_of_pairwise ?_ first.inReportOrder_sorted second.inReportOrder_sorted ordered
  intro one another found waits earlier later
  exact keptToo.eq_of_sequence_eq
    (second.inReportOrder_perm.mem_iff.mp (ordered.mem_iff.mp found))
    (second.inReportOrder_perm.mem_iff.mp waits) (Nat.le_antisymm earlier later)

end LiveTree.Relocation.Departures
