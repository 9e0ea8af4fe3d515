import Mathlib.Data.List.Pairwise
import LiveTree.Proofs.Relocation.Affairs
import LiveTree.Proofs.Relocation.Operations

/-! Content and the affairs of its objects. Content that moves or changes hands is a matter of a
change or two. Content that is disposed is given up for good, and what becomes of its objects
depends on what is still to be told when it is: an entry that is still to be told is told after
the exit of the disposal, and then nothing retires the object. -/
namespace LiveTree.Relocation

open Lifecycle (ObjectId State Registry Dispatcher Drain storyOf)
open scoped List

variable {η π ω : Type}

namespace Affairs.Course

variable {affairs : Affairs ω}

/-- Content that changes hands changes nothing for its objects. -/
theorem passOn {live : List (List ObjectId)} (same : affairs.live ~ live) :
    Course affairs [] { affairs with live } :=
  .single (.release same.symm.subperm)

/-- Content that moves enters again if it has to. -/
theorem welcome {entry : Entry η π} (held : entry.objects ∈ affairs.live) :
    Course affairs [] { affairs with dispatcher := Pool.welcome affairs.dispatcher entry } := by
  unfold Pool.welcome
  split
  · exact .none affairs
  · exact .single (.enter held)

/-- Content that found no place is given up. -/
theorem farewell {entries : List (Entry η π)} {live : List (List ObjectId)}
    (held : affairs.live = entries.map Entry.objects ++ live) :
    Course affairs [] { affairs with
      live
      dispatcher := entries.foldl Pool.farewell affairs.dispatcher } := by
  induction entries generalizing affairs with
  | nil =>
    cases held
    exact .none affairs
  | cons entry entries ih =>
    have among : entry.objects ∈ affairs.live := by simp [held]
    have exits : Course affairs [] { affairs with
        dispatcher :=
          if entry.active then affairs.dispatcher.record .exited entry.objects
          else affairs.dispatcher } := by
      split
      · exact .single (.exit among)
      · exact .none affairs
    have first := exits.trans (.single (.retire held))
    exact first.trans (ih rfl)

end Affairs.Course

/-- What the disposal of content records: the exit of what is active, and the retirement of all. -/
theorem Pool.foldl_farewell (entries : List (Entry η π)) (dispatcher : Dispatcher) :
    entries.foldl farewell dispatcher = { dispatcher with
      exiting := dispatcher.exiting ++ (entries.filter Entry.active).flatMap Entry.objects
      retiring := dispatcher.retiring ++ entries.flatMap Entry.objects } := by
  induction entries generalizing dispatcher with
  | nil => simp
  | cons entry entries ih =>
    cases active : entry.active <;>
      simp [ih, farewell, active, Dispatcher.record, List.append_assoc]

/-- The disposal of content: it is given up, and everything that is recorded by then is told. -/
inductive Affairs.Disposal (affairs : Affairs ω) (entries : List (Entry η π)) :
    List (ObjectId × State) → Affairs ω → Prop
  | disposed {live : List (List ObjectId)} {told : List (ObjectId × State)}
      {registry : Registry ω} {drain : Drain}
      (held : affairs.live ~ entries.map Entry.objects ++ live)
      (delivery : Drain.Delivers affairs.registry
        (entries.foldl Pool.farewell affairs.dispatcher).drain told registry drain) :
      Disposal affairs entries told { affairs with
        registry
        live
        dispatcher := (entries.foldl Pool.farewell affairs.dispatcher).drained }

/-- Whether all is told that content has to be told before it is disposed: nothing of it is still
to enter, and what entered leaves with it. -/
def Affairs.Clear (affairs : Affairs ω) (entry : Entry η π) : Prop :=
  ∀ object ∈ entry.objects, object ∉ affairs.dispatcher.entering ∧
    (entry.active = false → affairs.registry.state object = .entered →
      object ∈ affairs.dispatcher.exiting)

/-- Whether content that was disposed is at rest: none of its objects entered since then, and each
that was ever retained and is no longer to retire has retired, right after it exited if it ever
entered. -/
def Affairs.AtRest (affairs : Affairs ω) (entry : Entry η π)
    (history since : List (ObjectId × State)) : Prop :=
  ∀ object ∈ entry.objects, (object, .entered) ∉ since ∧
    (object ∉ affairs.owed → .retained ∈ storyOf history object →
      affairs.registry.state object = .retired ∧
        (.entered ∈ storyOf history object → [.exited, .retired] <:+ storyOf history object))

namespace Affairs.Disposal

variable {affairs after : Affairs ω} {entries : List (Entry η π)} {entry : Entry η π}
  {history told : List (ObjectId × State)} {object : ObjectId}

theorem course (disposal : affairs.Disposal entries told after) : affairs.Course told after := by
  cases disposal with
  | disposed held delivery =>
    refine .quietly (.passOn held) ?_
    refine .quietly (.farewell rfl) ?_
    exact .single (.deliver delivery)

/-- What is disposed was held until then. -/
theorem held_given (disposal : affairs.Disposal entries told after)
    (sound : Affairs.Sound history affairs) (among : entry ∈ entries)
    (member : object ∈ entry.objects) :
    entry.objects ∈ affairs.live ∧ object ∈ affairs.given := by
  cases disposal with
  | disposed held delivery =>
    have isHeld : entry.objects ∈ affairs.live :=
      held.mem_iff.mpr (List.mem_append_left _ (List.mem_map_of_mem among))
    exact ⟨isHeld, sound.liveGiven _ isHeld member⟩

/-- Disposed content shares no object with what is still held, and none with each other. -/
private theorem disjoint (disposal : affairs.Disposal entries told after)
    (sound : Affairs.Sound history affairs) :
    entries.Pairwise (fun first second => first.objects.Disjoint second.objects) ∧
      ∀ entry ∈ entries, ∀ objects ∈ after.live, entry.objects.Disjoint objects := by
  cases disposal with
  | disposed held delivery =>
    obtain ⟨among, -, across⟩ :=
      List.pairwise_append.mp ((held.pairwise_iff List.disjoint_symm).mp sound.apart)
    exact ⟨List.pairwise_map.mp among, fun entry member => across _ (List.mem_map_of_mem member)⟩

private theorem apart (disposal : affairs.Disposal entries told after)
    (sound : Affairs.Sound history affairs) {other : Entry η π} (among : entry ∈ entries)
    (present : other ∈ entries) (different : entry ≠ other) (member : object ∈ entry.objects) :
    object ∉ other.objects := by
  have symmetric : Std.Symm fun first second : Entry η π =>
      first.objects.Disjoint second.objects :=
    ⟨fun _ _ apart => List.disjoint_symm apart⟩
  exact (disposal.disjoint sound).1.forall among present different member

/-- The objects of disposed content are out of reach, in the state in which its disposal and what
was recorded before leave them. -/
private theorem outOfReach (disposal : affairs.Disposal entries told after)
    (sound : Affairs.Sound history affairs) (among : entry ∈ entries)
    (member : object ∈ entry.objects) {left : State}
    (leaves : (entries.foldl Pool.farewell affairs.dispatcher).leaves object
      (affairs.registry.state object) = left) : after.OutOfReach left object := by
  obtain ⟨-, given⟩ := disposal.held_given sound among member
  have across := (disposal.disjoint sound).2 entry among
  cases disposal with
  | disposed held delivery =>
    refine ⟨given, ?_, List.not_mem_nil, List.not_mem_nil, List.not_mem_nil, .inl ⟨?_, ?_⟩⟩
    · intro objects kept inside
      exact across objects kept member inside
    · exact (delivery.effect (sound.present object given)).1.trans leaves
    · intro _
      have recorded : object ∈ (entries.foldl Pool.farewell affairs.dispatcher).retiring := by
        rw [Pool.foldl_farewell]
        exact List.mem_append_right _ (List.mem_flatMap.mpr ⟨entry, among, member⟩)
      exact mem_owed_iff.mpr (.inl recorded)

/-- What an object hears when it is disposed. -/
theorem story (disposal : affairs.Disposal entries told after)
    (sound : Affairs.Sound history affairs) (given : object ∈ affairs.given) :
    storyOf told object = (entries.foldl Pool.farewell affairs.dispatcher).tells object
      (affairs.registry.state object) := by
  cases disposal with
  | disposed held delivery => exact (delivery.effect (sound.present object given)).2

/-- Objects of content that is clear leave with it and do not enter meanwhile. -/
theorem exited_of_clear (disposal : affairs.Disposal entries told after)
    (sound : Affairs.Sound history affairs) (among : entry ∈ entries)
    (clear : affairs.Clear entry) (member : object ∈ entry.objects) :
    after.OutOfReach .exited object ∧ (object, .entered) ∉ told := by
  obtain ⟨noEntry, leaves⟩ := clear object member
  obtain ⟨held, given⟩ := disposal.held_given sound among member
  obtain ⟨settled, awaits⟩ := sound.settled object given
  have begun : affairs.registry.state object = .entered ∨
      affairs.registry.state object = .exited := by
    have noRetention : object ∉ affairs.dispatcher.retaining :=
      fun retained => noEntry (sound.entersAfter retained)
    have alive := (sound.unowed _ held object member).2
    cases state : affairs.registry.state object with
    | unretained => exact absurd (awaits state) noRetention
    | retained => exact absurd state settled
    | entered => exact .inl rfl
    | exited => exact .inr rfl
    | retired => exact absurd state alive
  have still : object ∉ (entries.foldl Pool.farewell affairs.dispatcher).entering := by
    rw [Pool.foldl_farewell]
    exact noEntry
  have exits : affairs.registry.state object = .entered →
      object ∈ (entries.foldl Pool.farewell affairs.dispatcher).exiting := by
    intro entered
    rw [Pool.foldl_farewell]
    cases active : entry.active with
    | false => exact List.mem_append_left _ (leaves active entered)
    | true =>
      have listed : entry ∈ entries.filter Entry.active := List.mem_filter.mpr ⟨among, active⟩
      exact List.mem_append_right _ (List.mem_flatMap.mpr ⟨entry, listed, member⟩)
  refine ⟨disposal.outOfReach sound among member (Dispatcher.leaves_exited still begun exits), ?_⟩
  rw [← Lifecycle.mem_storyOf_iff, disposal.story sound given]
  exact Dispatcher.entered_notMem_tells still

/-- Content that is not clear has an object that is entered after the disposal. -/
theorem exists_entered_of_not_clear (disposal : affairs.Disposal entries told after)
    (sound : Affairs.Sound history affairs) (among : entry ∈ entries)
    (unclear : ¬affairs.Clear entry) :
    ∃ object ∈ entry.objects, after.OutOfReach .entered object := by
  obtain ⟨object, unclear⟩ := not_forall.mp unclear
  obtain ⟨member, unclear⟩ := Classical.not_imp.mp unclear
  obtain ⟨held, given⟩ := disposal.held_given sound among member
  obtain ⟨settled, awaits⟩ := sound.settled object given
  have alive := (sound.unowed _ held object member).2
  refine ⟨object, member, disposal.outOfReach sound among member ?_⟩
  by_cases enters : object ∈ affairs.dispatcher.entering
  · refine Dispatcher.leaves_entered ?_ settled ?_ alive
    · rw [Pool.foldl_farewell]
      exact enters
    · rw [Pool.foldl_farewell]
      exact awaits
  · have stuck := fun leaves => unclear ⟨enters, leaves⟩
    obtain ⟨inactive, stuck⟩ := Classical.not_imp.mp stuck
    obtain ⟨entered, stays⟩ := Classical.not_imp.mp stuck
    rw [entered]
    apply Dispatcher.leaves_entered_of_stays
    intro exits
    rw [Pool.foldl_farewell] at exits
    rcases List.mem_append.mp exits with before | now
    · exact stays before
    · -- Another content of the disposal would have to name the object too.
      obtain ⟨other, listed, inside⟩ := List.mem_flatMap.mp now
      obtain ⟨present, active⟩ := List.mem_filter.mp listed
      have different : entry ≠ other := fun same => by simp [← same, inactive] at active
      exact disposal.apart sound among present different member inside

end Affairs.Disposal

end LiveTree.Relocation
