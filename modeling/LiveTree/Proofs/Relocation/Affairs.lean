import Mathlib.Data.List.Perm.Subperm
import LiveTree.Proofs.Lifecycle.Telling

/-! The affairs of retained objects. Whatever a host and a pool do, they do few things to objects:
new content brings objects, content that moves or is taken out records what its objects are to be
told, content that is given up leaves its objects behind, and what was recorded is told. Objects
that were given up to retire are out of reach from then on. -/
namespace LiveTree.Relocation

open Lifecycle (ObjectId State Registry Dispatcher RetireBatch Drain Retirement storyOf)

variable {ω : Type}

/-- All that matters for objects: their registry, which of them were given to a pool, the objects
of each content that somebody holds, and what they are still to be told. -/
structure Affairs (ω : Type) where
  registry : Registry ω
  given : List ObjectId
  live : List (List ObjectId)
  dispatcher : Dispatcher
  batches : List RetireBatch

/-- The objects that are still to retire. -/
def Affairs.owed (affairs : Affairs ω) : List ObjectId :=
  affairs.dispatcher.retiring ++ affairs.batches.flatMap RetireBatch.objects

/-- Whether objects can be given to a pool: each exists, was told nothing, and was not given. -/
def Affairs.Fresh (affairs : Affairs ω) (objects : List ObjectId) : Prop :=
  ∀ object ∈ objects, object ∉ affairs.given ∧ (affairs.registry.get? object).isSome = true ∧
    affairs.registry.state object = .unretained

/-- One change of the affairs, with what is told. -/
inductive Affairs.Change : Affairs ω → List (ObjectId × State) → Affairs ω → Prop
  | create (affairs : Affairs ω) (observer : ω) :
      Change affairs [] { affairs with registry := (affairs.registry.create observer).2 }
  | release {affairs : Affairs ω} {live : List (List ObjectId)}
      (fewer : live.Subperm affairs.live) :
      Change affairs [] { affairs with live }
  | give {affairs : Affairs ω} {objects : List ObjectId} (fresh : affairs.Fresh objects) :
      Change affairs [] { affairs with
        given := objects ++ affairs.given
        live := objects :: affairs.live
        dispatcher := (affairs.dispatcher.record .retained objects).record .entered objects }
  | enter {affairs : Affairs ω} {objects : List ObjectId} (held : objects ∈ affairs.live) :
      Change affairs [] { affairs with dispatcher := affairs.dispatcher.record .entered objects }
  | exit {affairs : Affairs ω} {objects : List ObjectId} (held : objects ∈ affairs.live) :
      Change affairs [] { affairs with dispatcher := affairs.dispatcher.record .exited objects }
  | retire {affairs : Affairs ω} {objects : List ObjectId} {live : List (List ObjectId)}
      (held : affairs.live = objects :: live) :
      Change affairs [] { affairs with
        live
        dispatcher := affairs.dispatcher.record .retired objects }
  | deliver {affairs : Affairs ω} {told : List (ObjectId × State)} {registry : Registry ω}
      {drain : Drain}
      (delivery : Drain.Delivers affairs.registry affairs.dispatcher.drain told registry drain) :
      Change affairs told { affairs with registry, dispatcher := affairs.dispatcher.drained }
  | take (affairs : Affairs ω) :
      Change affairs [] { affairs with
        dispatcher := affairs.dispatcher.takeRetirements.2
        batches := ⟨affairs.dispatcher.takeRetirements.1⟩ :: affairs.batches }
  | merge {affairs : Affairs ω} {first second : RetireBatch} {rest : List RetireBatch}
      (among : affairs.batches.Perm (first :: second :: rest)) :
      Change affairs [] { affairs with batches := first.extend second :: rest }
  | deliverBatch {affairs : Affairs ω} {batch : RetireBatch} {rest : List RetireBatch}
      {told : List (ObjectId × State)} {registry : Registry ω}
      (among : affairs.batches.Perm (batch :: rest))
      (delivery : Retirement.Delivers affairs.registry batch.deliver told registry) :
      Change affairs told { affairs with registry, batches := rest }

/-- Several changes, one after another, with all that is told. -/
inductive Affairs.Course : Affairs ω → List (ObjectId × State) → Affairs ω → Prop
  | none (affairs : Affairs ω) : Course affairs [] affairs
  | next {first middle last : Affairs ω} {told more : List (ObjectId × State)}
      (change : Change first told middle) (rest : Course middle more last) :
      Course first (told ++ more) last

namespace Affairs.Course

variable {first middle last : Affairs ω} {told more : List (ObjectId × State)}

theorem single (change : Change first told last) : Course first told last := by
  simpa using Course.next change (.none last)

theorem trans (start : Course first told middle) (rest : Course middle more last) :
    Course first (told ++ more) last := by
  induction start with
  | none => exact rest
  | next change _ ih =>
    rw [List.append_assoc]
    exact .next change (ih rest)

theorem quietly (start : Course first [] middle) (rest : Course middle told last) :
    Course first told last :=
  start.trans rest

end Affairs.Course

/-- What is always true of the affairs, given all that was told. -/
structure Affairs.Sound (history : List (ObjectId × State)) (affairs : Affairs ω) : Prop where
  present : ∀ object ∈ affairs.given, (affairs.registry.get? object).isSome = true
  lives : ∀ object ∈ affairs.given,
    State.Lives (storyOf history object) (affairs.registry.state object)
  untold : ∀ object, object ∉ affairs.given → storyOf history object = []
  apart : affairs.live.Pairwise List.Disjoint
  liveGiven : ∀ objects ∈ affairs.live, objects ⊆ affairs.given
  listed : ∀ event, affairs.dispatcher.recorded event ⊆ affairs.given
  batched : ∀ batch ∈ affairs.batches, batch.objects ⊆ affairs.given
  entersAfter : affairs.dispatcher.retaining ⊆ affairs.dispatcher.entering
  settled : ∀ object ∈ affairs.given, affairs.registry.state object ≠ .retained ∧
    (affairs.registry.state object = .unretained → object ∈ affairs.dispatcher.retaining)
  unowed : ∀ objects ∈ affairs.live, ∀ object ∈ objects,
    object ∉ affairs.owed ∧ affairs.registry.state object ≠ .retired

namespace Affairs

theorem mem_owed_iff {affairs : Affairs ω} {object : ObjectId} :
    object ∈ affairs.owed ↔ object ∈ affairs.dispatcher.retiring ∨
      ∃ batch ∈ affairs.batches, object ∈ batch.objects := by
  simp [owed]

private theorem listed_record {dispatcher : Dispatcher} {given objects : List ObjectId}
    (listed : ∀ event, dispatcher.recorded event ⊆ given) (among : objects ⊆ given)
    (event : Lifecycle.Event) :
    ∀ other, (dispatcher.record event objects).recorded other ⊆ given := by
  intro other
  by_cases same : other = event
  · subst same
    rw [Dispatcher.recorded_record_self]
    exact List.append_subset.mpr ⟨listed other, among⟩
  · rw [Dispatcher.recorded_record_of_ne _ _ same]
    exact listed other

/-- Two batches in one hold what they held apart. -/
theorem mem_owed_merge {affairs : Affairs ω} {first second : RetireBatch}
    {rest : List RetireBatch} (among : affairs.batches.Perm (first :: second :: rest))
    {object : ObjectId} :
    object ∈ ({ affairs with batches := first.extend second :: rest } : Affairs ω).owed ↔
      object ∈ affairs.owed := by
  have same := (among.flatMap_right RetireBatch.objects).mem_iff (a := object)
  simp only [owed, List.mem_append, same]
  simp [RetireBatch.extend]

/-- What is still to retire, is in a batch or not. -/
theorem mem_owed_deliver {affairs : Affairs ω} {batch : RetireBatch} {rest : List RetireBatch}
    (among : affairs.batches.Perm (batch :: rest)) (registry : Registry ω) {object : ObjectId} :
    object ∈ affairs.owed ↔
      object ∈ batch.objects ∨
        object ∈ ({ affairs with registry, batches := rest } : Affairs ω).owed := by
  have same := (among.flatMap_right RetireBatch.objects).mem_iff (a := object)
  simp only [owed, List.mem_append, same, List.flatMap_cons]
  exact or_left_comm

namespace Sound

variable {history told : List (ObjectId × State)} {affairs after : Affairs ω}

theorem owed_subset (sound : Sound history affairs) : affairs.owed ⊆ affairs.given := by
  intro object owed
  rcases mem_owed_iff.mp owed with recorded | ⟨batch, held, inside⟩
  · exact sound.listed .retired recorded
  · exact sound.batched batch held inside

/-- Before any object is created there is nothing to care for. -/
theorem start : Sound [] (⟨{}, [], [], {}, []⟩ : Affairs ω) where
  present := by simp
  lives := by simp
  untold := fun _ _ => rfl
  apart := .nil
  liveGiven := by simp
  listed := fun event => by cases event <;> exact List.nil_subset _
  batched := by simp
  entersAfter := List.nil_subset _
  settled := by simp
  unowed := by simp

/-- What is recorded for held objects leaves the affairs sound, if it does not retire them. -/
private theorem record (sound : Sound history affairs) {objects : List ObjectId}
    (held : objects ∈ affairs.live) {event : Lifecycle.Event}
    (moves : event = .entered ∨ event = .exited) :
    Sound history { affairs with dispatcher := affairs.dispatcher.record event objects } where
  present := sound.present
  lives := sound.lives
  untold := sound.untold
  apart := sound.apart
  liveGiven := sound.liveGiven
  listed := listed_record sound.listed (sound.liveGiven _ held) event
  batched := sound.batched
  entersAfter := by
    rcases moves with rfl | rfl
    · exact fun _ retained => List.mem_append_left _ (sound.entersAfter retained)
    · exact sound.entersAfter
  settled := by rcases moves with rfl | rfl <;> exact sound.settled
  unowed := by rcases moves with rfl | rfl <;> exact sound.unowed

private theorem give (sound : Sound history affairs) {objects : List ObjectId}
    (fresh : affairs.Fresh objects) :
    Sound history { affairs with
      given := objects ++ affairs.given
      live := objects :: affairs.live
      dispatcher := (affairs.dispatcher.record .retained objects).record .entered objects } where
  present := by
    intro object given
    rcases List.mem_append.mp given with new | old
    · exact (fresh object new).2.1
    · exact sound.present object old
  lives := by
    intro object given
    rcases List.mem_append.mp given with new | old
    · rw [sound.untold object (fresh object new).1, (fresh object new).2.2]
      exact .new
    · exact sound.lives object old
  untold := fun object absent => sound.untold object fun old =>
    absent (List.mem_append_right _ old)
  apart := List.pairwise_cons.mpr ⟨fun others held object new old =>
    (fresh object new).1 (sound.liveGiven others held old), sound.apart⟩
  liveGiven := by
    intro others held
    rcases List.mem_cons.mp held with rfl | old
    · exact List.subset_append_left ..
    · exact List.Subset.trans (sound.liveGiven others old) (List.subset_append_right ..)
  listed := by
    have before : ∀ event, affairs.dispatcher.recorded event ⊆ objects ++ affairs.given :=
      fun event => List.Subset.trans (sound.listed event) (List.subset_append_right ..)
    have new : objects ⊆ objects ++ affairs.given := List.subset_append_left ..
    exact listed_record (listed_record before new _) new _
  batched := fun batch held =>
    List.Subset.trans (sound.batched batch held) (List.subset_append_right ..)
  entersAfter := List.append_subset.mpr
    ⟨List.Subset.trans sound.entersAfter (List.subset_append_left ..), List.subset_append_right ..⟩
  settled := by
    intro object given
    rcases List.mem_append.mp given with new | old
    · rw [(fresh object new).2.2]
      exact ⟨nofun, fun _ => List.mem_append_right _ new⟩
    · obtain ⟨settled, awaits⟩ := sound.settled object old
      exact ⟨settled, fun begun => List.mem_append_left _ (awaits begun)⟩
  unowed := by
    intro others held
    rcases List.mem_cons.mp held with rfl | old
    · intro object new
      obtain ⟨absent, -, unretained⟩ := fresh object new
      exact ⟨fun owed => absent (sound.owed_subset owed), by rw [unretained]; nofun⟩
    · exact sound.unowed others old

private theorem retire (sound : Sound history affairs) {objects : List ObjectId}
    {live : List (List ObjectId)} (held : affairs.live = objects :: live) :
    Sound history { affairs with
      live
      dispatcher := affairs.dispatcher.record .retired objects } where
  present := sound.present
  lives := sound.lives
  untold := sound.untold
  apart := (List.pairwise_cons.mp (held ▸ sound.apart)).2
  liveGiven := fun others inside => sound.liveGiven others (by simp [held, inside])
  listed := listed_record sound.listed (sound.liveGiven objects (by simp [held])) _
  batched := sound.batched
  entersAfter := sound.entersAfter
  settled := sound.settled
  unowed := by
    intro others inside object member
    obtain ⟨unowed, alive⟩ := sound.unowed others (by simp [held, inside]) object member
    refine ⟨?_, alive⟩
    intro owed
    have disjoint := (List.pairwise_cons.mp (held ▸ sound.apart)).1 others inside
    rcases mem_owed_iff.mp owed with recorded | batched
    · rcases List.mem_append.mp recorded with before | now
      · exact unowed (mem_owed_iff.mpr (.inl before))
      · exact disjoint now member
    · exact unowed (mem_owed_iff.mpr (.inr batched))

/-- What somebody lets go of is one less to care for. -/
private theorem release (sound : Sound history affairs) {live : List (List ObjectId)}
    (fewer : live.Subperm affairs.live) : Sound history { affairs with live } where
  present := sound.present
  lives := sound.lives
  untold := sound.untold
  apart := by
    obtain ⟨kept, same, among⟩ := fewer
    exact (same.pairwise_iff List.disjoint_symm).mp (sound.apart.sublist among)
  liveGiven := fun objects held => sound.liveGiven objects (fewer.subset held)
  listed := sound.listed
  batched := sound.batched
  entersAfter := sound.entersAfter
  settled := sound.settled
  unowed := fun objects held => sound.unowed objects (fewer.subset held)

/-- A new object is nobody's concern before it is given to a pool. -/
private theorem create (sound : Sound history affairs) (observer : ω) :
    Sound history { affairs with registry := (affairs.registry.create observer).2 } where
  present := by
    intro object given
    have present := sound.present object given
    rw [Registry.get?_create_of_isSome observer present]
    exact present
  lives := by
    intro object given
    rw [Registry.state_create]
    exact sound.lives object given
  untold := sound.untold
  apart := sound.apart
  liveGiven := sound.liveGiven
  listed := sound.listed
  batched := sound.batched
  entersAfter := sound.entersAfter
  settled := by
    intro object given
    rw [Registry.state_create]
    exact sound.settled object given
  unowed := by
    intro objects held object member
    rw [Registry.state_create]
    exact sound.unowed objects held object member

/-- A delivery settles every object: it is retained only to enter. -/
private theorem deliver (sound : Sound history affairs) {registry : Registry ω} {drain : Drain}
    (delivery : Drain.Delivers affairs.registry affairs.dispatcher.drain told registry drain) :
    Sound (history ++ told)
      { affairs with registry, dispatcher := affairs.dispatcher.drained } where
  present := by
    intro object given
    rw [delivery.isSome_get?]
    exact sound.present object given
  lives := by
    intro object given
    rw [Lifecycle.storyOf_append]
    exact delivery.lives (sound.present object given) (sound.lives object given)
  untold := by
    intro object absent
    have unlisted : ∀ event, object ∉ affairs.dispatcher.recorded event :=
      fun event listed => absent (sound.listed event listed)
    rw [Lifecycle.storyOf_append, sound.untold object absent,
      delivery.storyOf_eq_nil (unlisted .exited) (unlisted .retained) (unlisted .entered)]
    rfl
  apart := sound.apart
  liveGiven := sound.liveGiven
  listed := by
    intro event
    cases event with
    | retained | entered | exited => exact List.nil_subset _
    | retired => exact sound.listed .retired
  batched := sound.batched
  entersAfter := List.nil_subset _
  settled := by
    intro object given
    obtain ⟨settled, awaits⟩ := sound.settled object given
    obtain ⟨unretained, begun⟩ :=
      affairs.dispatcher.leaves_settled (@sound.entersAfter object) settled awaits
    rw [(delivery.effect (sound.present object given)).1]
    exact ⟨unretained, fun none => absurd none begun⟩
  unowed := by
    intro objects held object member
    obtain ⟨unowed, alive⟩ := sound.unowed objects held object member
    rw [(delivery.effect (sound.present object (sound.liveGiven objects held member))).1]
    exact ⟨unowed, Dispatcher.leaves_ne_retired alive⟩

/-- Retirements that were taken out are still to be told. -/
private theorem take (sound : Sound history affairs) :
    Sound history { affairs with
      dispatcher := affairs.dispatcher.takeRetirements.2
      batches := ⟨affairs.dispatcher.takeRetirements.1⟩ :: affairs.batches } where
  present := sound.present
  lives := sound.lives
  untold := sound.untold
  apart := sound.apart
  liveGiven := sound.liveGiven
  listed := by
    intro event
    cases event with
    | retained => exact sound.listed .retained
    | entered => exact sound.listed .entered
    | exited => exact sound.listed .exited
    | retired => exact List.nil_subset _
  batched := List.forall_mem_cons.mpr ⟨sound.listed .retired, sound.batched⟩
  entersAfter := sound.entersAfter
  settled := sound.settled
  unowed := sound.unowed

private theorem merge (sound : Sound history affairs) {first second : RetireBatch}
    {rest : List RetireBatch} (among : affairs.batches.Perm (first :: second :: rest)) :
    Sound history { affairs with batches := first.extend second :: rest } where
  present := sound.present
  lives := sound.lives
  untold := sound.untold
  apart := sound.apart
  liveGiven := sound.liveGiven
  listed := sound.listed
  batched := by
    have batched : ∀ batch ∈ first :: second :: rest, batch.objects ⊆ affairs.given :=
      fun batch held => sound.batched batch (among.mem_iff.mpr held)
    obtain ⟨ofFirst, ofSecond, ofRest⟩ := by simpa only [List.forall_mem_cons] using batched
    exact List.forall_mem_cons.mpr ⟨List.append_subset.mpr ⟨ofFirst, ofSecond⟩, ofRest⟩
  entersAfter := sound.entersAfter
  settled := sound.settled
  unowed := by
    intro objects held object member
    obtain ⟨unowed, alive⟩ := sound.unowed objects held object member
    exact ⟨fun owed => unowed ((mem_owed_merge among).mp owed), alive⟩

/-- A batch retires objects that nobody holds. -/
private theorem deliverBatch (sound : Sound history affairs) {batch : RetireBatch}
    {rest : List RetireBatch} {registry : Registry ω}
    (among : affairs.batches.Perm (batch :: rest))
    (delivery : Retirement.Delivers affairs.registry batch.deliver told registry) :
    Sound (history ++ told) { affairs with registry, batches := rest } := by
  obtain ⟨ofBatch, ofRest⟩ : batch.objects ⊆ affairs.given ∧
      ∀ batch ∈ rest, batch.objects ⊆ affairs.given :=
    List.forall_mem_cons.mp fun batch held => sound.batched batch (among.mem_iff.mpr held)
  exact {
    present := by
      intro object given
      rw [delivery.isSome_get?]
      exact sound.present object given
    lives := by
      intro object given
      rw [Lifecycle.storyOf_append]
      exact delivery.lives (sound.present object given) (sound.lives object given)
    untold := by
      intro object absent
      rw [Lifecycle.storyOf_append, sound.untold object absent,
        delivery.storyOf_eq_nil fun inside => absent (ofBatch inside)]
      rfl
    apart := sound.apart
    liveGiven := sound.liveGiven
    listed := sound.listed
    batched := ofRest
    entersAfter := sound.entersAfter
    settled := by
      intro object given
      have present := sound.present object given
      rcases delivery.retired_or_same present with retired | same
      · rw [retired]
        exact ⟨nofun, nofun⟩
      · rw [same]
        exact sound.settled object given
    unowed := by
      intro objects held object member
      obtain ⟨unowed, alive⟩ := sound.unowed objects held object member
      have present := sound.present object (sound.liveGiven objects held member)
      have outside : object ∉ batch.objects := fun inside =>
        unowed ((mem_owed_deliver among registry).mpr (.inl inside))
      rw [delivery.state_eq_of_notMem present outside]
      exact ⟨fun owed => unowed ((mem_owed_deliver among registry).mpr (.inr owed)), alive⟩ }

/-- Whatever is done next, the affairs stay sound. -/
private theorem change (sound : Sound history affairs) (change : Change affairs told after) :
    Sound (history ++ told) after := by
  cases change with
  | create observer => simpa using sound.create observer
  | release fewer => simpa using sound.release fewer
  | give fresh => simpa using sound.give fresh
  | enter held => simpa using sound.record held (.inl rfl)
  | exit held => simpa using sound.record held (.inr rfl)
  | retire held => simpa using sound.retire held
  | deliver delivery => exact sound.deliver delivery
  | take => simpa using sound.take
  | merge among => simpa using sound.merge among
  | deliverBatch among delivery => exact sound.deliverBatch among delivery

theorem course (sound : Sound history affairs) (course : Course affairs told after) :
    Sound (history ++ told) after := by
  induction course generalizing history with
  | none => simpa using sound
  | next change _ ih =>
    rw [← List.append_assoc]
    exact ih (sound.change change)

end Sound

/-- An object that was given up in a state: nobody holds it, and nothing is recorded for it but its
retirement. It is still in that state, or has retired. -/
structure OutOfReach (affairs : Affairs ω) (left : State) (object : ObjectId) : Prop where
  given : object ∈ affairs.given
  unheld : ∀ objects ∈ affairs.live, object ∉ objects
  noRetention : object ∉ affairs.dispatcher.retaining
  noEntry : object ∉ affairs.dispatcher.entering
  noExit : object ∉ affairs.dispatcher.exiting
  fate : affairs.registry.state object = left ∧
      (left.canBecome .retired = true → object ∈ affairs.owed) ∨
    affairs.registry.state object = .retired ∧ left.canBecome .retired = true

namespace OutOfReach

variable {history told : List (ObjectId × State)} {affairs after : Affairs ω} {left : State}
  {object : ObjectId}

/-- An object that was given up after it left retires in the end. -/
theorem retired (out : affairs.OutOfReach .exited object) (told : object ∉ affairs.owed) :
    affairs.registry.state object = .retired := by
  rcases out.fate with ⟨-, owed⟩ | ⟨retired, -⟩
  · exact absurd (owed rfl) told
  · exact retired

/-- An object that was given up before it left never does. -/
theorem entered (out : affairs.OutOfReach .entered object) :
    affairs.registry.state object = .entered := by
  rcases out.fate with ⟨entered, -⟩ | ⟨-, illegal⟩
  · exact entered
  · cases illegal

/-- More that is owed changes nothing for an object out of reach. -/
private theorem fate_mono (out : affairs.OutOfReach left object)
    (same : after.registry.state object = affairs.registry.state object)
    (owed : object ∈ affairs.owed → object ∈ after.owed) :
    after.registry.state object = left ∧ (left.canBecome .retired = true → object ∈ after.owed) ∨
      after.registry.state object = .retired ∧ left.canBecome .retired = true := by
  rw [same]
  exact out.fate.imp_left fun ⟨state, owes⟩ => ⟨state, fun legal => owed (owes legal)⟩

/-- Whatever is done next, an object out of reach stays there and does not enter. -/
private theorem change (out : affairs.OutOfReach left object)
    (sound : Affairs.Sound history affairs) (change : Change affairs told after) :
    after.OutOfReach left object ∧ (object, .entered) ∉ told := by
  have present := sound.present object out.given
  cases change with
  | create observer =>
    have same := affairs.registry.state_create observer object
    exact ⟨{ out with fate := out.fate_mono same id }, List.not_mem_nil⟩
  | release fewer =>
    exact ⟨{ out with unheld := fun objects held => out.unheld objects (fewer.subset held) },
      List.not_mem_nil⟩
  | @give objects fresh =>
    have other : object ∉ objects := fun inside => (fresh object inside).1 out.given
    exact ⟨{
      given := List.mem_append_right _ out.given
      unheld := List.forall_mem_cons.mpr ⟨other, out.unheld⟩
      noRetention := by simp [Dispatcher.record, other, out.noRetention]
      noEntry := by simp [Dispatcher.record, other, out.noEntry]
      noExit := out.noExit
      fate := out.fate }, List.not_mem_nil⟩
  | enter held =>
    have other := out.unheld _ held
    exact ⟨{ out with noEntry := by simp [Dispatcher.record, other, out.noEntry] },
      List.not_mem_nil⟩
  | exit held =>
    have other := out.unheld _ held
    exact ⟨{ out with noExit := by simp [Dispatcher.record, other, out.noExit] },
      List.not_mem_nil⟩
  | @retire objects live held =>
    refine ⟨{ out with
      unheld := fun others inside => out.unheld others (by simp [held, inside])
      fate := out.fate_mono rfl fun owed => ?_ }, List.not_mem_nil⟩
    rcases mem_owed_iff.mp owed with recorded | batched
    · exact mem_owed_iff.mpr (.inl (List.mem_append_left _ recorded))
    · exact mem_owed_iff.mpr (.inr batched)
  | deliver delivery =>
    have silent := delivery.storyOf_eq_nil out.noExit out.noRetention out.noEntry
    have same := (delivery.effect present).1
    rw [Dispatcher.leaves_of_unlisted out.noExit out.noRetention out.noEntry] at same
    refine ⟨{
      given := out.given
      unheld := out.unheld
      noRetention := List.not_mem_nil
      noEntry := List.not_mem_nil
      noExit := List.not_mem_nil
      fate := out.fate_mono same id }, ?_⟩
    intro entered
    have heard := Lifecycle.mem_storyOf_iff.mpr entered
    rw [silent] at heard
    cases heard
  | take => exact ⟨{ out with }, List.not_mem_nil⟩
  | merge among =>
    exact ⟨{ out with fate := out.fate_mono rfl (mem_owed_merge among).mpr },
      List.not_mem_nil⟩
  | @deliverBatch batch rest _ registry among delivery =>
    refine ⟨{ out with fate := ?_ }, delivery.entered_notMem⟩
    by_cases inside : object ∈ batch.objects
    · rcases out.fate with ⟨state, -⟩ | ⟨retired, legal⟩
      · by_cases legal : left.canBecome .retired = true
        · have moved := delivery.retired_of_mem present inside (state ▸ legal)
          exact .inr ⟨moved, legal⟩
        · have stays := delivery.state_eq_of_illegal present (state ▸ legal)
          exact .inl ⟨stays.trans state, fun able => absurd able legal⟩
      · have stays := delivery.state_eq_of_illegal present (by simp [retired])
        exact .inr ⟨stays.trans retired, legal⟩
    · have stays := delivery.state_eq_of_notMem present inside
      exact out.fate_mono stays fun owed =>
        ((mem_owed_deliver among registry).mp owed).resolve_left inside

/-- An object out of reach never enters again. -/
theorem course (out : affairs.OutOfReach left object) (sound : Affairs.Sound history affairs)
    (course : Course affairs told after) :
    after.OutOfReach left object ∧ (object, .entered) ∉ told := by
  induction course generalizing history with
  | none => exact ⟨out, List.not_mem_nil⟩
  | next change _ ih =>
    obtain ⟨still, early⟩ := out.change sound change
    obtain ⟨remains, late⟩ := ih still (sound.change change)
    refine ⟨remains, ?_⟩
    intro entered
    rcases List.mem_append.mp entered with first | later
    · exact early first
    · exact late later

end OutOfReach

end Affairs

end LiveTree.Relocation
