/-! Lists and arrays. What a session keeps is kept in lists and arrays, and these are the facts
about them that speak of no session: to change an item twice or not at all, an array with other
items, an item found by its key, and items that are kept or come last. -/
namespace LiveTree

open scoped List

variable {α β : Type}

section Arrays

variable {items : Array α} {index : Nat} {item : α}

/-- To change an item and then change it again is one change. -/
theorem modify_modify (items : Array α) (index : Nat) (first second : α → α) :
    (items.modify index first).modify index second = items.modify index (second ∘ first) := by
  apply Array.ext_getElem?
  intro other
  simp only [Array.getElem?_modify]
  split
  · rw [Option.map_map]
  · rfl

theorem modify_eq_self {change : α → α} (held : items[index]? = some item)
    (same : change item = item) : items.modify index change = items := by
  apply Array.ext_getElem?
  intro other
  rw [Array.getElem?_modify]
  split
  · next here => rw [← here, held, Option.map_some, same]
  · rfl

theorem setIfInBounds_eq_self (held : items[index]? = some item) :
    items.setIfInBounds index item = items := by
  obtain ⟨within, rfl⟩ := Array.getElem?_eq_some_iff.mp held
  rw [Array.setIfInBounds_def, dif_pos within, Array.set_getElem_self]

/-- Work on one item and a change of all items go past each other. -/
theorem modify_map {change : α → β} {work : α → α} {later : β → β}
    (same : ∀ item, items[index]? = some item → later (change item) = change (work item)) :
    (items.map change).modify index later = (items.modify index work).map change := by
  refine Array.ext_getElem? fun other => ?_
  simp only [Array.getElem?_modify, Array.getElem?_map]
  split
  · next here =>
    subst here
    cases found : items[index]? with
    | none => rfl
    | some item => exact congrArg some (same item found)
  · rfl

end Arrays

section Lists

variable {items : List α} {item : α}

/-- Of items with different keys, a key finds its own. -/
theorem filter_key_eq_singleton {key : α → Nat} (apart : (items.map key).Nodup)
    (member : item ∈ items) : items.filter (fun other => key other = key item) = [item] := by
  induction items with
  | nil => cases member
  | cons first items ih =>
    obtain ⟨absent, apart⟩ := List.nodup_cons.mp apart
    rcases List.mem_cons.mp member with rfl | later
    · have others : items.filter (fun other => key other = key item) = [] :=
        List.filter_eq_nil_iff.mpr fun other inside same =>
          absent (List.mem_map.mpr ⟨other, inside, of_decide_eq_true same⟩)
      rw [List.filter_cons_of_pos (by simp), others]
    · have different : key first ≠ key item := fun same =>
        absent (List.mem_map.mpr ⟨item, later, same.symm⟩)
      rw [List.filter_cons_of_neg (by simpa using different), ih apart later]

/-- What is kept of a list up to one of its items is where that item is found among the kept. -/
theorem getElem?_filter_of_kept (keeps : α → Bool) {n : Nat} (found : items[n]? = some item)
    (kept : keeps item = true) :
    (items.filter keeps)[((items.take n).filter keeps).length]? = some item := by
  obtain ⟨within, rfl⟩ := List.getElem?_eq_some_iff.mp found
  have split : items.take n ++ items[n] :: items.drop (n + 1) = items := by
    rw [← List.drop_eq_getElem_cons, List.take_append_drop]
  have filtered : items.filter keeps =
      (items.take n).filter keeps ++ items[n] :: (items.drop (n + 1)).filter keeps := by
    rw [← List.filter_cons_of_pos kept, ← List.filter_append, split]
  rw [filtered, List.getElem?_append_right (Nat.le_refl _), Nat.sub_self]
  rfl

/-- What comes to the last of three lists comes to them all. -/
theorem perm_behind (first second : List α) {third after : List α}
    (arrived : after ~ item :: third) :
    first ++ (second ++ after) ~ item :: (first ++ (second ++ third)) := by
  rw [← List.append_assoc, ← List.append_assoc]
  exact (arrived.append_left (first ++ second)).trans List.perm_middle

end Lists

end LiveTree
