import Mathlib.Logic.Function.Basic
import LiveTree.Proofs.Sequences
import LiveTree.Relocation.Entry

/-! First come, first served, said without a pool. Every request in turn takes the first that
waits for its descriptor, if anything does. So the n-th request of a descriptor gets the n-th that
waits for it, and what requests for other descriptors do has no effect on that. -/
namespace LiveTree.Relocation

variable {α π : Type}

/-- The queues after the first of one queue has left. -/
def advance (waiting : DescriptorId → List α) (id : DescriptorId) : DescriptorId → List α :=
  Function.update waiting id (waiting id).tail

/-- What each request gets. -/
def allot (waiting : DescriptorId → List α) : List (Request π) → List (Request π × Option α)
  | [] => []
  | request :: requests =>
    (request, (waiting request.descriptor).head?) ::
      allot (advance waiting request.descriptor) requests

/-- What still waits when every request has got its own. -/
def unallotted (waiting : DescriptorId → List α) : List (Request π) → DescriptorId → List α
  | [] => waiting
  | request :: requests => unallotted (advance waiting request.descriptor) requests

/-- The requests of a descriptor. -/
def requestsFor (requests : List (Request π)) (id : DescriptorId) : List (Request π) :=
  requests.filter fun request => request.descriptor = id

/-- The requests that got nothing. -/
def unserved (pairs : List (Request π × Option α)) : List (Request π) :=
  (pairs.filter fun pair => pair.2.isNone).map Prod.fst

@[simp]
theorem requestsFor_nil (id : DescriptorId) : requestsFor ([] : List (Request π)) id = [] := rfl

private theorem requestsFor_cons_self (request : Request π) (requests : List (Request π)) :
    requestsFor (request :: requests) request.descriptor =
      request :: requestsFor requests request.descriptor := by
  simp [requestsFor]

private theorem requestsFor_cons_of_ne {request : Request π} {id : DescriptorId}
    (different : request.descriptor ≠ id) (requests : List (Request π)) :
    requestsFor (request :: requests) id = requestsFor requests id := by
  simp [requestsFor, different]

theorem requestsFor_append (first second : List (Request π)) (id : DescriptorId) :
    requestsFor (first ++ second) id = requestsFor first id ++ requestsFor second id :=
  List.filter_append ..

@[simp]
theorem advance_self (waiting : DescriptorId → List α) (id : DescriptorId) :
    advance waiting id id = (waiting id).tail := Function.update_self ..

theorem advance_of_ne (waiting : DescriptorId → List α) {id other : DescriptorId}
    (different : other ≠ id) : advance waiting id other = waiting other :=
  Function.update_of_ne different ..

/-- Where nothing waits, nothing leaves. -/
private theorem advance_of_eq_nil {waiting : DescriptorId → List α} {id : DescriptorId}
    (empty : waiting id = []) : advance waiting id = waiting := by
  rw [advance, empty, List.tail_nil, ← empty, Function.update_eq_self]

@[simp]
theorem map_fst_allot (waiting : DescriptorId → List α) (requests : List (Request π)) :
    (allot waiting requests).map Prod.fst = requests := by
  induction requests generalizing waiting with
  | nil => rfl
  | cons request requests ih => simp [allot, ih]

theorem allot_append (waiting : DescriptorId → List α) (first second : List (Request π)) :
    allot waiting (first ++ second) =
      allot waiting first ++ allot (unallotted waiting first) second := by
  induction first generalizing waiting with
  | nil => rfl
  | cons request first ih => simp [allot, unallotted, ih]

@[simp]
theorem unserved_nil : unserved ([] : List (Request π × Option α)) = [] := rfl

@[simp]
theorem unserved_append (first second : List (Request π × Option α)) :
    unserved (first ++ second) = unserved first ++ unserved second := by
  simp [unserved]

/-- A request that nothing waits for gets nothing, and leaves the queues alone. -/
theorem allot_singleton_of_eq_nil {waiting : DescriptorId → List α} {request : Request π}
    (empty : waiting request.descriptor = []) : allot waiting [request] = [(request, none)] := by
  simp [allot, empty]

theorem unallotted_singleton_of_eq_nil {waiting : DescriptorId → List α} {request : Request π}
    (empty : waiting request.descriptor = []) : unallotted waiting [request] = waiting := by
  simp [unallotted, advance_of_eq_nil empty]

theorem unallotted_append (waiting : DescriptorId → List α) (first second : List (Request π)) :
    unallotted waiting (first ++ second) = unallotted (unallotted waiting first) second := by
  induction first generalizing waiting with
  | nil => rfl
  | cons request first ih => exact ih _

/-- The n-th request of a descriptor gets the n-th that waits for it. -/
private theorem filter_allot (waiting : DescriptorId → List α) (requests : List (Request π))
    (id : DescriptorId) :
    (allot waiting requests).filter (fun pair => pair.1.descriptor = id) =
      (requestsFor requests id).mapIdx fun n request => (request, (waiting id)[n]?) := by
  induction requests generalizing waiting with
  | nil => rfl
  | cons request requests ih =>
    by_cases same : request.descriptor = id
    · subst same
      rw [requestsFor_cons_self, List.mapIdx_cons, allot, List.filter_cons_of_pos (by simp), ih]
      simp [List.head?_eq_getElem?]
    · rw [requestsFor_cons_of_ne same, allot, List.filter_cons_of_neg (by simpa using same), ih,
        advance_of_ne _ (Ne.symm same)]

theorem mem_allot_of_getElem? {waiting : DescriptorId → List α} {requests : List (Request π)}
    {id : DescriptorId} {n : Nat} {request : Request π}
    (asked : (requestsFor requests id)[n]? = some request) :
    (request, (waiting id)[n]?) ∈ allot waiting requests := by
  have found : ((allot waiting requests).filter fun pair => pair.1.descriptor = id)[n]? =
      some (request, (waiting id)[n]?) := by
    rw [filter_allot, List.getElem?_mapIdx, asked]
    rfl
  exact (List.mem_filter.mp (List.mem_of_getElem? found)).1

/-- What a request gets waited for its descriptor. -/
theorem mem_of_mem_allot {waiting : DescriptorId → List α} {requests : List (Request π)}
    {request : Request π} {item : α} (gets : (request, some item) ∈ allot waiting requests) :
    item ∈ waiting request.descriptor := by
  induction requests generalizing waiting with
  | nil => cases gets
  | cons first requests ih =>
    rcases List.mem_cons.mp gets with here | later
    · obtain ⟨rfl, head⟩ := Prod.mk.inj here
      exact List.mem_of_mem_head? head.symm
    · have waits := ih later
      by_cases same : request.descriptor = first.descriptor
      · rw [same, advance_self] at waits
        exact same ▸ List.mem_of_mem_tail waits
      · rwa [advance_of_ne _ same] at waits

theorem unserved_allot_subset (waiting : DescriptorId → List α) (requests : List (Request π)) :
    unserved (allot waiting requests) ⊆ requests := by
  intro request left
  obtain ⟨pair, inside, rfl⟩ := List.mem_map.mp left
  rw [← map_fst_allot waiting requests]
  exact List.mem_map_of_mem (List.mem_filter.mp inside).1

/-- Every request gets something or is unserved. -/
theorem length_allot (waiting : DescriptorId → List α) (requests : List (Request π)) :
    ((allot waiting requests).filterMap Prod.snd).length +
      (unserved (allot waiting requests)).length = requests.length := by
  rw [← map_fst_allot waiting requests, List.length_map, map_fst_allot]
  generalize allot waiting requests = pairs
  induction pairs with
  | nil => rfl
  | cons pair pairs ih =>
    obtain ⟨request, _ | item⟩ := pair <;> simp [unserved] at ih ⊢ <;> omega

/-- What is left for a descriptor is what its requests did not reach. -/
theorem unallotted_eq_drop (waiting : DescriptorId → List α) (requests : List (Request π))
    (id : DescriptorId) :
    unallotted waiting requests id = (waiting id).drop (requestsFor requests id).length := by
  induction requests generalizing waiting with
  | nil => rfl
  | cons request requests ih =>
    by_cases same : request.descriptor = id
    · subst same
      rw [requestsFor_cons_self, unallotted, ih, advance_self, List.drop_tail, List.length_cons]
    · rw [requestsFor_cons_of_ne same, unallotted, ih, advance_of_ne _ (Ne.symm same)]

/-- Places in the order of their tickets have tickets of their own. -/
theorem filter_ticket_allot {waiting : DescriptorId → List α} {requests : List (Request π)}
    {pair : Request π × Option α}
    (inOrder : requests.Pairwise fun first second => first.ticket < second.ticket)
    (member : pair ∈ allot waiting requests) :
    (allot waiting requests).filter (fun other => other.1.ticket = pair.1.ticket) = [pair] := by
  have tickets : ((allot waiting requests).map fun other => other.1.ticket) =
      requests.map Request.ticket := by
    rw [← map_fst_allot waiting requests, List.map_map, map_fst_allot]
    rfl
  refine filter_key_eq_singleton ?_ member
  rw [tickets]
  exact (List.pairwise_map.mpr inOrder).imp Nat.ne_of_lt

theorem filter_unserved (pairs : List (Request π × Option α)) (ticket : PlacementTicket) :
    (unserved pairs).filter (fun request => request.ticket = ticket) =
      unserved (pairs.filter fun pair => pair.1.ticket = ticket) := by
  induction pairs with
  | nil => rfl
  | cons pair pairs ih =>
    obtain ⟨request, _ | served⟩ := pair
    · by_cases same : request.ticket = ticket <;> simp [unserved, same] at ih ⊢ <;> exact ih
    · by_cases same : request.ticket = ticket <;> simp [unserved, same] at ih ⊢ <;> exact ih

end LiveTree.Relocation
