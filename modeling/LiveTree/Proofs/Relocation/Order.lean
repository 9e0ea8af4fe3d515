import Mathlib.Data.List.Flatten
import LiveTree.Proofs.Lifecycle.Dues
import LiveTree.Proofs.Relocation.Disposal

/-! Affairs in order. Where every object is given once, it is in the custody of one content or owed
its retirement, but never both. Affairs are in order when every object meets what it is due, the
objects of content end where the flag of the content says, and what is owed has left. Content that
moves, is taken out of the tree or is disposed keeps them so, if none of its objects still waits to
enter when it is taken out or disposed. -/
namespace LiveTree.Relocation

open Lifecycle (ObjectId State Registry Dispatcher RetireBatch Drain Retirement)
open scoped List

variable {η π ω : Type}

/-- The objects that somebody holds or that are still to retire, each as often as it is. -/
def Affairs.custody (affairs : Affairs ω) : List ObjectId := affairs.live.flatten ++ affairs.owed

namespace Affairs

variable {affairs after : Affairs ω} {history told : List (ObjectId × State)}
  {objects : List ObjectId} {object : ObjectId}

/-- Nothing is held or owed more often than it was given. -/
private theorem Change.custody (change : Change affairs told after)
    (accounted : affairs.custody <+~ affairs.given) : after.custody <+~ after.given := by
  cases change with
  | create | enter | exit | deliver => exact accounted
  | release fewer =>
    obtain ⟨live, same, among⟩ := fewer
    have released := (same.symm.flatten.subperm.trans among.flatten.subperm).append
      (List.Subperm.refl affairs.owed)
    exact released.trans accounted
  | give fresh =>
    simp only [Affairs.custody, List.flatten_cons, List.append_assoc]
    exact (List.subperm_append_left _).mpr accounted
  | @retire objects live held =>
    have moved : live.flatten ++ (affairs.dispatcher.retiring ++ objects ++
        affairs.batches.flatMap RetireBatch.objects) ~ affairs.custody := by
      simp only [Affairs.custody, Affairs.owed, held, List.flatten_cons, List.append_assoc]
      have before := List.perm_append_comm_assoc (live.flatten ++ affairs.dispatcher.retiring)
        objects (affairs.batches.flatMap RetireBatch.objects)
      simpa only [List.append_assoc] using before
    exact moved.subperm.trans accounted
  | take => simpa [Affairs.custody, Affairs.owed, Dispatcher.takeRetirements] using accounted
  | @merge first second rest among =>
    have same : (first.extend second :: rest).flatMap RetireBatch.objects ~
        affairs.batches.flatMap RetireBatch.objects := by
      refine .trans (.of_eq ?_) (among.flatMap_right RetireBatch.objects).symm
      simp [RetireBatch.extend]
    exact (((same.append_left _).append_left _).subperm).trans accounted
  | @deliverBatch batch rest _ _ among _ =>
    have fewer : rest.flatMap RetireBatch.objects <+~
        affairs.batches.flatMap RetireBatch.objects :=
      (List.sublist_append_right ..).subperm.trans
        (among.flatMap_right RetireBatch.objects).symm.subperm
    refine List.Subperm.trans ?_ accounted
    exact (List.subperm_append_left _).mpr ((List.subperm_append_left _).mpr fewer)

/-- What was given stays given. -/
private theorem Change.given_sublist (change : Change affairs told after) :
    affairs.given <+ after.given := by
  cases change with
  | give => exact List.sublist_append_right ..
  | _ => exact List.Sublist.refl _

theorem Course.given_sublist (course : Course affairs told after) :
    affairs.given <+ after.given := by
  induction course with
  | none => exact .refl _
  | next change _ ih => exact change.given_sublist.trans ih

theorem Course.custody (course : Course affairs told after)
    (accounted : affairs.custody <+~ affairs.given) : after.custody <+~ after.given := by
  induction course with
  | none => exact accounted
  | next change _ ih => exact ih (change.custody accounted)

theorem nodup_custody (accounted : affairs.custody <+~ affairs.given)
    (once : affairs.given.Nodup) : affairs.custody.Nodup := by
  obtain ⟨among, same, fewer⟩ := accounted
  exact same.nodup_iff.mp (once.sublist fewer)

/-- What is in one custody is in no other, and there once. -/
theorem parted_of_nodup (single : affairs.custody.Nodup) {others : List (List ObjectId)}
    (held : affairs.live ~ objects :: others) :
    objects.Nodup ∧ (∀ other ∈ others, objects.Disjoint other) ∧ objects.Disjoint affairs.owed := by
  have same : affairs.custody ~ objects ++ (others.flatten ++ affairs.owed) :=
    (held.flatten.append_right _).trans (.of_eq (List.append_assoc ..))
  obtain ⟨once, -, apart⟩ := List.nodup_append.mp (same.nodup_iff.mp single)
  refine ⟨once, ?_, ?_⟩
  · intro other among object inside there
    have elsewhere := List.mem_append_left affairs.owed (List.mem_flatten_of_mem among there)
    exact apart object inside object elsewhere rfl
  · intro object inside owed
    exact apart object inside object (List.mem_append_right _ owed) rfl

/-- What is in a batch is held by nobody, and owed there once and nowhere else. -/
private theorem batch_of_nodup (single : affairs.custody.Nodup) {batch : RetireBatch}
    {others : List RetireBatch} (among : affairs.batches ~ batch :: others)
    (registry : Registry ω) :
    batch.objects.Nodup ∧ (∀ held ∈ affairs.live, batch.objects.Disjoint held) ∧
      batch.objects.Disjoint { affairs with registry, batches := others }.owed := by
  have same : affairs.custody ~
      batch.objects ++ (affairs.live.flatten ++
        { affairs with registry, batches := others }.owed) := by
    have split := (among.flatMap_right RetireBatch.objects).append_left
      (affairs.live.flatten ++ affairs.dispatcher.retiring)
    have moved := List.perm_append_comm_assoc (affairs.live.flatten ++ affairs.dispatcher.retiring)
      batch.objects (others.flatMap RetireBatch.objects)
    simpa only [custody, owed, List.flatMap_cons, List.append_assoc] using split.trans moved
  obtain ⟨once, -, apart⟩ := List.nodup_append.mp (same.nodup_iff.mp single)
  refine ⟨once, ?_, ?_⟩
  · intro held among object inside there
    exact apart object inside object
      (List.mem_append_left _ (List.mem_flatten_of_mem among there)) rfl
  · intro object inside owed
    exact apart object inside object (List.mem_append_right _ owed) rfl

end Affairs

/-- Where the objects of content are when all is told: in the tree if the content is active. -/
def Entry.standing (entry : Entry η π) : State := if entry.active then .entered else .exited

namespace Pool

variable {dispatcher : Dispatcher} {entries : List (Entry η π)} {entry : Entry η π}
  {object : ObjectId}

/-- The disposal of other content records nothing for an object. -/
private theorem due_foldl_farewell_of_notMem (dispatcher : Dispatcher)
    (absent : ∀ entry ∈ entries, object ∉ entry.objects) :
    (entries.foldl farewell dispatcher).due object = dispatcher.due object := by
  induction entries generalizing dispatcher with
  | nil => rfl
  | cons first entries ih =>
    obtain ⟨elsewhere, absent⟩ := List.forall_mem_cons.mp absent
    rw [List.foldl_cons, ih _ absent, farewell, Dispatcher.due_record_retired]
    split
    · exact Dispatcher.due_record_of_notMem .exited elsewhere
    · rfl

/-- The disposal of content leads its objects out of the tree, if nothing of it is still to
enter. -/
private theorem leads_foldl_farewell {state : State}
    (apart : entries.Pairwise fun first second => first.objects.Disjoint second.objects)
    (among : entry ∈ entries) (single : entry.objects.Nodup) (member : object ∈ entry.objects)
    (noRetention : object ∉ dispatcher.retaining) (noEntry : object ∉ dispatcher.entering)
    (leads : State.Leads state (dispatcher.due object) entry.standing) :
    State.Leads state ((entries.foldl farewell dispatcher).due object) .exited := by
  induction entries generalizing dispatcher with
  | nil => cases among
  | cons first entries ih =>
    obtain ⟨first_apart, apart⟩ := List.pairwise_cons.mp apart
    rw [List.foldl_cons]
    rcases List.mem_cons.mp among with rfl | later
    · rw [due_foldl_farewell_of_notMem _ fun other present => first_apart other present member,
        farewell, Dispatcher.due_record_retired]
      cases active : entry.active with
      | true =>
        rw [if_pos rfl, Dispatcher.due_record_exited single member noRetention noEntry]
        rw [Entry.standing, active, if_pos rfl] at leads
        exact leads.snoc rfl
      | false => simpa [Entry.standing, active] using leads
    · have elsewhere : object ∉ first.objects := fun inside => first_apart entry later inside member
      have frame : (farewell dispatcher first).due object = dispatcher.due object :=
        due_foldl_farewell_of_notMem dispatcher (List.forall_mem_singleton.mpr elsewhere)
      refine ih apart later ?_ ?_ (frame ▸ leads)
      · unfold farewell
        split <;> exact noRetention
      · unfold farewell
        split <;> exact noEntry

end Pool

/-- Every object meets what it is due; the objects of the content that is held end where its flag
says; and what is to retire has left. -/
structure Affairs.InOrder (affairs : Affairs ω) (entries : List (Entry η π)) : Prop where
  held : affairs.live ~ entries.map Entry.objects
  meets : ∀ object ∈ affairs.given, ∃ last,
    State.Leads (affairs.registry.state object) (affairs.dispatcher.due object) last
  standing : ∀ entry ∈ entries, ∀ object ∈ entry.objects,
    State.Leads (affairs.registry.state object) (affairs.dispatcher.due object) entry.standing
  owed : ∀ object ∈ affairs.owed,
    affairs.registry.state object = .exited ∧ affairs.dispatcher.due object = []

namespace Affairs.InOrder

variable {affairs after : Affairs ω} {history told : List (ObjectId × State)}
  {entries rest : List (Entry η π)} {entry : Entry η π} {object : ObjectId}

/-- Where states and what is due stay as they were, so does the order, whoever holds the content
and wherever the retirements are. -/
theorem of_same (inOrder : affairs.InOrder entries) {others : List (Entry η π)}
    (held : after.live ~ others.map Entry.objects)
    (given : after.given = affairs.given)
    (states : after.registry.state = affairs.registry.state)
    (due : after.dispatcher.due = affairs.dispatcher.due)
    (owed : ∀ object ∈ after.owed, object ∈ affairs.owed)
    (kept : ∀ entry ∈ others, ∃ old ∈ entries,
      old.objects = entry.objects ∧ old.active = entry.active) : after.InOrder others where
  held := held
  meets := by
    rw [given, states, due]
    exact inOrder.meets
  standing := by
    intro entry among object member
    obtain ⟨old, was, objects, active⟩ := kept entry among
    rw [states, due, Entry.standing, ← active]
    exact inOrder.standing old was object (objects ▸ member)
  owed := by
    rw [states, due]
    exact fun object stillOwed => inOrder.owed object (owed object stillOwed)

/-- Retirements may be taken out. -/
theorem take (inOrder : affairs.InOrder entries) :
    InOrder { affairs with
      dispatcher := affairs.dispatcher.takeRetirements.2
      batches := ⟨affairs.dispatcher.takeRetirements.1⟩ :: affairs.batches } entries := by
  refine inOrder.of_same inOrder.held rfl rfl rfl ?_ fun entry member => ⟨entry, member, rfl, rfl⟩
  simp [Affairs.owed, Dispatcher.takeRetirements]

/-- Content may change hands. -/
theorem passOn (inOrder : affairs.InOrder entries) {others : List (Entry η π)}
    (kept : others ⊆ entries) :
    InOrder { affairs with live := others.map Entry.objects } others :=
  inOrder.of_same (.refl _) rfl rfl rfl (fun _ => id)
    fun entry member => ⟨entry, kept member, rfl, rfl⟩

/-- Content may change in all but its objects and its flag. -/
theorem relabel (inOrder : affairs.InOrder entries) (among : entries ~ entry :: rest)
    {moved : Entry η π} (objects : moved.objects = entry.objects)
    (active : moved.active = entry.active) : affairs.InOrder (moved :: rest) := by
  have held := inOrder.held.trans (among.map Entry.objects)
  refine inOrder.of_same (by simpa [objects] using held) rfl rfl rfl (fun _ => id) ?_
  refine List.forall_mem_cons.mpr ⟨⟨entry, ?_, objects.symm, active.symm⟩, fun other present => ?_⟩
  · exact among.mem_iff.mpr List.mem_cons_self
  · exact ⟨other, among.mem_iff.mpr (List.mem_cons_of_mem _ present), rfl, rfl⟩

/-- What is recorded for content leads its objects on, if they may move there, and leaves all
others as they were. -/
private theorem lead (inOrder : affairs.InOrder entries) (single : affairs.custody.Nodup)
    (among : entries ~ entry :: rest) {dispatcher : Dispatcher} {moved : Entry η π}
    (same : moved.objects = entry.objects)
    (legal : entry.standing.canBecome moved.standing = true)
    (touched : ∀ object ∈ entry.objects,
      dispatcher.due object = affairs.dispatcher.due object ++ [moved.standing])
    (untouched : ∀ object, object ∉ entry.objects →
      dispatcher.due object = affairs.dispatcher.due object)
    (retiring : dispatcher.retiring = affairs.dispatcher.retiring) :
    InOrder { affairs with dispatcher } (moved :: rest) := by
  have held : affairs.live ~ entry.objects :: rest.map Entry.objects :=
    inOrder.held.trans (among.map _)
  obtain ⟨-, apart, unowed⟩ := parted_of_nodup single held
  have onward : ∀ object ∈ entry.objects,
      State.Leads (affairs.registry.state object) (dispatcher.due object) moved.standing := by
    intro object member
    rw [touched object member]
    exact (inOrder.standing entry (among.mem_iff.mpr List.mem_cons_self) object member).snoc legal
  refine ⟨by simpa [same] using held, ?_, ?_, ?_⟩
  · intro object given
    by_cases member : object ∈ entry.objects
    · exact ⟨_, onward object member⟩
    · simp only [untouched object member]
      exact inOrder.meets object given
  · refine List.forall_mem_cons.mpr ⟨same ▸ onward, ?_⟩
    intro other present object member
    have elsewhere : object ∉ entry.objects := fun inside =>
      apart other.objects (List.mem_map_of_mem present) inside member
    simp only [untouched object elsewhere]
    exact inOrder.standing other (among.mem_iff.mpr (List.mem_cons_of_mem _ present)) object member
  · intro object owes
    have stillOwed : object ∈ affairs.owed := by simpa only [Affairs.owed, retiring] using owes
    have elsewhere : object ∉ entry.objects := fun inside => unowed inside stillOwed
    simp only [untouched object elsewhere]
    exact inOrder.owed object stillOwed

/-- Content that moves enters again if it has to. -/
theorem welcome (inOrder : affairs.InOrder entries) (single : affairs.custody.Nodup)
    (among : entries ~ entry :: rest) (parameter : π) (position : Position.Hash) :
    InOrder { affairs with dispatcher := Pool.welcome affairs.dispatcher entry }
      (entry.placedAt parameter position :: rest) := by
  cases active : entry.active with
  | true =>
    simp only [Pool.welcome, active, if_true]
    exact inOrder.relabel among rfl active.symm
  | false =>
    obtain ⟨once, -⟩ := parted_of_nodup single (inOrder.held.trans (among.map _))
    simp only [Pool.welcome, active, Bool.false_eq_true, if_false]
    exact inOrder.lead single among rfl (by simp [Entry.standing, Entry.placedAt, active]; rfl)
      (fun _ member => Dispatcher.due_record_entered once member)
      (fun _ absent => Dispatcher.due_record_of_notMem .entered absent) rfl

/-- Content that is taken out of the tree leaves it, if nothing of it is still to enter. -/
theorem deactivate (inOrder : affairs.InOrder entries) (sound : Sound history affairs)
    (single : affairs.custody.Nodup) (among : entries ~ entry :: rest)
    (told : ∀ object ∈ entry.objects, object ∉ affairs.dispatcher.entering) :
    InOrder { affairs with
      dispatcher :=
        if entry.active then affairs.dispatcher.record .exited entry.objects
        else affairs.dispatcher } ({ entry with active := false } :: rest) := by
  cases active : entry.active with
  | false =>
    simp only [Bool.false_eq_true, if_false]
    exact inOrder.relabel among rfl active.symm
  | true =>
    obtain ⟨once, -⟩ := parted_of_nodup single (inOrder.held.trans (among.map _))
    simp only [if_true]
    exact inOrder.lead single among rfl (by simp [Entry.standing, active]; rfl)
      (fun object member => Dispatcher.due_record_exited once member
        (fun retained => told object member (sound.entersAfter retained)) (told object member))
      (fun _ absent => Dispatcher.due_record_of_notMem .exited absent) rfl

/-- New content is to be retained and to enter. -/
theorem give (inOrder : affairs.InOrder entries) (sound : Sound history affairs)
    (fresh : affairs.Fresh entry.objects) (single : entry.objects.Nodup)
    (active : entry.active = true) :
    InOrder { affairs with
      given := entry.objects ++ affairs.given
      live := entry.objects :: affairs.live
      dispatcher :=
        (affairs.dispatcher.record .retained entry.objects).record .entered entry.objects }
      (entry :: entries) := by
  have led : ∀ object ∈ entry.objects, State.Leads (affairs.registry.state object)
      (((affairs.dispatcher.record .retained entry.objects).record .entered
        entry.objects).due object) entry.standing := by
    intro object member
    obtain ⟨absent, -, unretained⟩ := fresh object member
    rw [unretained, Dispatcher.due_new (fun event listed => absent (sound.listed event listed))
      single member, Entry.standing, if_pos active]
    exact .moves rfl (.moves rfl (.stays _))
  have others : ∀ object ∈ affairs.given,
      ((affairs.dispatcher.record .retained entry.objects).record .entered
        entry.objects).due object = affairs.dispatcher.due object := by
    intro object given
    have elsewhere : object ∉ entry.objects := fun new => (fresh object new).1 given
    rw [Dispatcher.due_record_of_notMem _ elsewhere, Dispatcher.due_record_of_notMem _ elsewhere]
  refine ⟨inOrder.held.cons _, ?_, ?_, ?_⟩
  · intro object given
    rcases List.mem_append.mp given with new | old
    · exact ⟨_, led object new⟩
    · simp only [others object old]
      exact inOrder.meets object old
  · refine List.forall_mem_cons.mpr ⟨led, ?_⟩
    intro other present object member
    have given := sound.liveGiven other.objects
      (inOrder.held.mem_iff.mpr (List.mem_map_of_mem present)) member
    simp only [others object given]
    exact inOrder.standing other present object member
  · intro object owes
    simp only [others object (sound.owed_subset owes)]
    exact inOrder.owed object owes

/-- Where nothing is due, the objects of content are where its flag says. -/
theorem settled (inOrder : affairs.InOrder entries)
    (nothing : ∀ object, affairs.dispatcher.due object = []) :
    ∀ entry ∈ entries, ∀ object ∈ entry.objects,
      affairs.registry.state object = entry.standing := by
  intro entry among object member
  have leads := inOrder.standing entry among object member
  rw [nothing] at leads
  exact leads.eq_of_nil

section Disposal

variable {leftovers : List (Entry η π)} (inOrder : affairs.InOrder entries)
  (sound : Sound history affairs) (single : affairs.custody.Nodup)
  (among : entries ~ leftovers ++ rest)
  (clear : ∀ entry ∈ leftovers, ∀ object ∈ entry.objects, object ∉ affairs.dispatcher.entering)
include inOrder sound single among clear

/-- What a disposal records leads the objects of the disposed content out of the tree. -/
private theorem leads_out : ∀ entry ∈ leftovers, ∀ object ∈ entry.objects,
    State.Leads (affairs.registry.state object)
      ((leftovers.foldl Pool.farewell affairs.dispatcher).due object) .exited := by
  intro entry present object member
  have waited : entry ∈ entries := among.mem_iff.mpr (List.mem_append_left _ present)
  have split := List.perm_cons_erase (inOrder.held.mem_iff.mpr (List.mem_map_of_mem waited))
  have noEntry := clear entry present object member
  have held := inOrder.held.trans ((among.map _).trans (.of_eq List.map_append))
  have apart := List.pairwise_append.mp ((held.pairwise_iff List.disjoint_symm).mp sound.apart)
  exact Pool.leads_foldl_farewell (List.pairwise_map.mp apart.1) present
    (parted_of_nodup single split).1 member (fun retained => noEntry (sound.entersAfter retained))
    noEntry (inOrder.standing entry waited object member)

/-- Every object meets what it is due when content is disposed. -/
private theorem meets_disposal :
    affairs.registry.Meets (leftovers.foldl Pool.farewell affairs.dispatcher).due := by
  intro object due
  have held := inOrder.held.trans ((among.map _).trans (.of_eq List.map_append))
  have given : object ∈ affairs.given := by
    by_contra absent
    have recorded := sound.course (.quietly (.passOn held) (.farewell rfl))
    exact due (Dispatcher.due_eq_nil fun event listed => absent (recorded.listed event listed))
  refine ⟨sound.present object given, ?_⟩
  by_cases left : ∃ entry ∈ leftovers, object ∈ entry.objects
  · obtain ⟨entry, present, member⟩ := left
    exact ⟨_, inOrder.leads_out sound single among clear entry present object member⟩
  · rw [Pool.due_foldl_farewell_of_notMem _ fun entry present member =>
      left ⟨entry, present, member⟩]
    exact inOrder.meets object given

/-- A delivery makes no illegal attempt and keeps the order; content that is disposed just before
leaves with it, if nothing of it is still to enter. -/
theorem dispose {heard : List (ObjectId × State)} {registry : Registry ω} {drain : Drain}
    (delivery : Drain.Delivers affairs.registry
      (leftovers.foldl Pool.farewell affairs.dispatcher).drain heard registry drain) :
    drain.report.errors = [] ∧
      InOrder { affairs with
        registry
        live := rest.map Entry.objects
        dispatcher := (leftovers.foldl Pool.farewell affairs.dispatcher).drained } rest := by
  have held := inOrder.held.trans ((among.map _).trans (.of_eq List.map_append))
  obtain ⟨-, -, across⟩ :=
    List.pairwise_append.mp ((held.pairwise_iff List.disjoint_symm).mp sound.apart)
  obtain ⟨errors, states⟩ :=
    delivery.settles (inOrder.meets_disposal sound single among clear)
  refine ⟨errors, .refl _, ?_, ?_, ?_⟩
  · intro object _
    rw [Dispatcher.due_drained]
    exact ⟨_, .stays _⟩
  · intro entry present object member
    have kept : entry ∈ entries := among.mem_iff.mpr (List.mem_append_right _ present)
    have elsewhere : ∀ other ∈ leftovers, object ∉ other.objects := fun other left inside =>
      across _ (List.mem_map_of_mem left) _ (List.mem_map_of_mem present) inside member
    have leads := inOrder.standing entry kept object member
    rw [← Pool.due_foldl_farewell_of_notMem _ elsewhere] at leads
    rw [Dispatcher.due_drained, states object _ leads]
    exact .stays _
  · intro object owes
    refine ⟨states object _ ?_, Dispatcher.due_drained ..⟩
    by_cases left : ∃ entry ∈ leftovers, object ∈ entry.objects
    · obtain ⟨entry, present, member⟩ := left
      exact inOrder.leads_out sound single among clear entry present object member
    · -- It was owed before, so it has left, and nothing is due to it.
      have elsewhere : ∀ entry ∈ leftovers, object ∉ entry.objects :=
        fun entry present member => left ⟨entry, present, member⟩
      have owed : object ∈ affairs.owed := by
        have apart : object ∉ leftovers.flatMap Entry.objects := by simpa using elsewhere
        simpa [Affairs.owed, Dispatcher.drained, Pool.foldl_farewell, apart] using owes
      obtain ⟨exited, settled⟩ := inOrder.owed object owed
      rw [exited, Pool.due_foldl_farewell_of_notMem _ elsewhere, settled]
      exact .stays _

end Disposal

/-- A delivery alone keeps the order, too. -/
theorem deliver (inOrder : affairs.InOrder entries) (sound : Sound history affairs)
    (single : affairs.custody.Nodup) {heard : List (ObjectId × State)} {registry : Registry ω}
    {drain : Drain}
    (delivery : Drain.Delivers affairs.registry affairs.dispatcher.drain heard registry drain) :
    drain.report.errors = [] ∧
      InOrder { affairs with registry, dispatcher := affairs.dispatcher.drained } entries := by
  have among : entries ~ [] ++ entries := .refl entries
  obtain ⟨errors, order⟩ := inOrder.dispose sound single among nofun delivery
  exact ⟨errors, order.of_same inOrder.held rfl rfl rfl (fun _ => id)
    fun entry member => ⟨entry, member, rfl, rfl⟩⟩

/-- A batch retires all that it holds. -/
theorem deliverBatch (inOrder : affairs.InOrder entries) (sound : Sound history affairs)
    (single : affairs.custody.Nodup) {batch : RetireBatch} {others : List RetireBatch}
    (among : affairs.batches ~ batch :: others) {registry : Registry ω} {last : Retirement}
    (finishes : Retirement.Finishes affairs.registry batch.deliver told registry last) :
    last.retired = batch.size ∧ InOrder { affairs with registry, batches := others } entries := by
  obtain ⟨once, unheld, unowed⟩ := batch_of_nodup single among registry
  have owes : ∀ object, object ∈ affairs.owed ↔ object ∈ batch.objects ∨
      object ∈ { affairs with registry, batches := others }.owed :=
    fun object => mem_owed_deliver among registry
  have stays : ∀ object ∈ affairs.given, object ∉ batch.objects →
      registry.state object = affairs.registry.state object :=
    fun object given outside =>
      finishes.delivers.state_eq_of_notMem (sound.present object given) outside
  constructor
  · have meets : affairs.registry.Meets (Lifecycle.dues [(.retired, batch.deliver.rest)]) := by
      intro object due
      obtain ⟨_, listed, inside⟩ := Lifecycle.exists_mem_of_dues_ne_nil due
      cases List.mem_singleton.mp listed
      have owed := (owes object).mpr (.inl inside)
      have count : batch.deliver.rest.count object = 1 := List.count_eq_one_of_mem once inside
      have alone : Lifecycle.dues [(State.retired, batch.deliver.rest)] object = [.retired] := by
        simp [Lifecycle.dues, count]
      rw [alone, (inOrder.owed object owed).1]
      exact ⟨sound.present object (sound.owed_subset owed), _, .moves rfl (.stays _)⟩
    rw [finishes.retired_of_meets meets]
    exact Nat.zero_add _
  · refine ⟨inOrder.held, ?_, ?_, ?_⟩
    · intro object given
      by_cases inside : object ∈ batch.objects
      · simp only [(inOrder.owed object ((owes object).mpr (.inl inside))).2]
        exact ⟨_, .stays _⟩
      · simp only [stays object given inside]
        exact inOrder.meets object given
    · intro entry present object member
      have isHeld := inOrder.held.mem_iff.mpr (List.mem_map_of_mem present)
      have outside : object ∉ batch.objects := fun inside => unheld _ isHeld inside member
      simp only [stays object (sound.liveGiven _ isHeld member) outside]
      exact inOrder.standing entry present object member
    · intro object stillOwed
      have owed := (owes object).mpr (.inr stillOwed)
      have outside : object ∉ batch.objects := fun inside => unowed inside stillOwed
      simp only [stays object (sound.owed_subset owed) outside]
      exact inOrder.owed object owed

end Affairs.InOrder

end LiveTree.Relocation
