/-! Tables. A table binds keys to values; binding a key again replaces its value, so a key has at
most one value. What an operation does is said by `get?`: it changes the value of its own key and
of no other. -/
namespace LiveTree

/-- Values of type `α` by keys of type `κ`. -/
structure Table (κ α : Type) where
  bindings : List (κ × α) := []

namespace Table

variable {κ α : Type} [DecidableEq κ]

/-- The value of a key. -/
def get? (table : Table κ α) (key : κ) : Option α := table.bindings.lookup key

/-- Takes a key and its value out. -/
def erase (table : Table κ α) (key : κ) : Table κ α :=
  ⟨table.bindings.filter fun binding => binding.1 != key⟩

/-- Binds a key, whatever it was bound to. -/
def set (table : Table κ α) (key : κ) (value : α) : Table κ α :=
  ⟨(key, value) :: (table.erase key).bindings⟩

/-- All values, those bound last first. -/
def values (table : Table κ α) : List α := table.bindings.map Prod.snd

/-- Whether some key is bound to a value with a property. -/
def any (table : Table κ α) (property : α → Bool) : Bool := table.values.any property

@[simp]
theorem get?_erase_self (table : Table κ α) (key : κ) : (table.erase key).get? key = none := by
  simp only [get?, erase, List.lookup_eq_none_iff, List.mem_filter, bne_iff_ne]
  exact fun _ bound => bound.2.symm

theorem get?_erase_of_ne (table : Table κ α) {key other : κ} (different : other ≠ key) :
    (table.erase key).get? other = table.get? other := by
  simp only [get?, erase]
  induction table.bindings with
  | nil => rfl
  | cons binding bindings ih =>
    obtain ⟨bound, value⟩ := binding
    by_cases same : bound = key
    · subst same
      simp [List.lookup_cons, beq_eq_false_iff_ne.mpr different, ih]
    · simp [same, List.lookup_cons, ih]

@[simp]
theorem get?_set_self (table : Table κ α) (key : κ) (value : α) :
    (table.set key value).get? key = some value := by
  simp [get?, set]

theorem get?_set_of_ne (table : Table κ α) {key other : κ} (value : α) (different : other ≠ key) :
    (table.set key value).get? other = table.get? other := by
  rw [← table.get?_erase_of_ne different]
  simp [get?, set, List.lookup_cons, beq_eq_false_iff_ne.mpr different]

/-- Every key is bound at most once. -/
def Distinct (table : Table κ α) : Prop := (table.bindings.map Prod.fst).Nodup

theorem distinct_erase {table : Table κ α} (distinct : table.Distinct) (key : κ) :
    (table.erase key).Distinct :=
  distinct.sublist (List.filter_sublist.map _)

theorem distinct_set {table : Table κ α} (distinct : table.Distinct) (key : κ) (value : α) :
    (table.set key value).Distinct := by
  refine List.nodup_cons.mpr ⟨?_, distinct_erase distinct key⟩
  simp [erase]

theorem values_set (table : Table κ α) (key : κ) (value : α) :
    (table.set key value).values = value :: (table.erase key).values := rfl

theorem erase_of_get?_eq_none {table : Table κ α} {key : κ} (unbound : table.get? key = none) :
    table.erase key = table := by
  refine congrArg Table.mk (List.filter_eq_self.mpr fun binding member => ?_)
  have different := List.lookup_eq_none_iff.mp unbound binding member
  exact bne_iff_ne.mpr fun same => by simp [same] at different

/-- Besides the value of a key there are the values of the other keys. -/
theorem values_perm_of_get? {table : Table κ α} {key : κ} {value : α}
    (distinct : table.Distinct) (bound : table.get? key = some value) :
    table.values.Perm (value :: (table.erase key).values) := by
  obtain ⟨bindings⟩ := table
  obtain ⟨before, after, rfl, absent⟩ := List.lookup_eq_some_iff.mp bound
  have laterAbsent : ∀ binding ∈ after, binding.1 ≠ key := by
    intro binding member same
    have keys : (before.map Prod.fst ++ key :: after.map Prod.fst).Nodup := by
      simpa [Distinct] using distinct
    have apart := (List.nodup_cons.mp (List.nodup_append.mp keys).2.1).1
    exact apart (List.mem_map.mpr ⟨binding, member, same⟩)
  have kept : (erase ⟨before ++ (key, value) :: after⟩ key).bindings = before ++ after := by
    have earlier : ∀ binding ∈ before, (binding.1 != key) = true := by
      intro binding member
      exact bne_iff_ne.mpr (bne_iff_ne.mp (absent binding member)).symm
    have later : ∀ binding ∈ after, (binding.1 != key) = true := by simpa using laterAbsent
    simp [erase, List.filter_eq_self.mpr earlier, List.filter_eq_self.mpr later]
  simp only [values, kept, List.map_append, List.map_cons]
  exact List.perm_middle

/-- The values are those that some key leads to. -/
theorem mem_values_iff {table : Table κ α} {value : α} (distinct : table.Distinct) :
    value ∈ table.values ↔ ∃ key, table.get? key = some value := by
  constructor
  · intro member
    obtain ⟨⟨key, held⟩, bound, rfl⟩ := List.mem_map.mp member
    obtain ⟨before, after, split⟩ := List.append_of_mem bound
    refine ⟨key, List.lookup_eq_some_iff.mpr ⟨before, after, split, fun other earlier => ?_⟩⟩
    simp only [Distinct, split, List.map_append, List.map_cons] at distinct
    have apart := (List.nodup_append.mp distinct).2.2 other.1 (List.mem_map_of_mem earlier) key
      List.mem_cons_self
    exact bne_iff_ne.mpr apart.symm
  · rintro ⟨key, bound⟩
    exact (values_perm_of_get? distinct bound).mem_iff.mpr List.mem_cons_self

end Table

end LiveTree
