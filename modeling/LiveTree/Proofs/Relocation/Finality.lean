import LiveTree.Proofs.Relocation.Scene

/-! Disposal is final, if it comes in time. Content that nothing is still to be told but its exit
leaves with its disposal, never enters again, and retires with its batch. Content whose objects
are still to enter does so after its disposal, since exits are told before entries; those objects
never retire. -/
namespace LiveTree.Relocation

open Lifecycle (ObjectId State Dispatcher Drain Retirement storyOf)
open scoped List

variable {η π ω : Type}

namespace Affairs

variable {affairs : Affairs ω} {entry : Entry η π} {history since : List (ObjectId × State)}

/-- Objects that left and are out of reach are at rest. -/
private theorem atRest_of_exited (sound : Sound history affairs)
    (out : ∀ object ∈ entry.objects,
      affairs.OutOfReach .exited object ∧ (object, .entered) ∉ since) :
    affairs.AtRest entry history since := by
  intro object member
  obtain ⟨out, still⟩ := out object member
  refine ⟨still, ?_⟩
  intro told _
  refine ⟨out.retired told, ?_⟩
  intro entered
  have lives := sound.lives object out.given
  rw [out.retired told] at lives
  exact lives.exited_before_retired entered

/-- An object that stays entered is never at rest once nothing is owed to it. -/
private theorem not_atRest_of_entered (sound : Sound history affairs) {object : ObjectId}
    (member : object ∈ entry.objects) (out : affairs.OutOfReach .entered object)
    (told : object ∉ affairs.owed) : ¬affairs.AtRest entry history since := by
  intro atRest
  have entered := out.entered
  have lives := sound.lives object out.given
  have retained := lives.retained_mem (by simp [entered])
  obtain ⟨retired, -⟩ := (atRest object member).2 told retained
  rw [entered] at retired
  cases retired

end Affairs

namespace Scene

variable {config : Settings.RelocationConfig} {history told : List (ObjectId × State)}
  {scene next : Scene η π ω} {disposed : List (Entry η π)} {entry : Entry η π}

/-- After a disposal everything that is owed to an object of it can be delivered. -/
private theorem Step.exists_unowed (step : scene.Step told disposed next)
    (unmatched : entry ∈ disposed) {object : ObjectId} (apart : object ∉ scene.affairs.owed) :
    ∃ more last, next.Run more last ∧ object ∉ last.affairs.owed := by
  have batched : ∀ batch ∈ scene.batches, object ∉ batch.objects := fun batch held inside =>
    apart (Affairs.mem_owed_iff.mpr (.inr ⟨batch, held, inside⟩))
  cases step with
  | @endPass _ pass _ _ _ registry drain _ =>
    obtain ⟨told, final, delivery⟩ := Retirement.exists_delivers registry
      (Lifecycle.RetireBatch.deliver ⟨drain.dispatcher.takeRetirements.1⟩)
    refine ⟨_, _, ((Run.refl _).next (.takeRetirements rfl)).next
      (.deliverBatch (.refl _) delivery), ?_⟩
    intro owed
    rcases Affairs.mem_owed_iff.mp owed with recorded | ⟨batch, held, inside⟩
    · cases recorded
    · exact batched batch held inside
  | discardPool =>
    refine ⟨[], _, .refl _, ?_⟩
    intro owed
    rcases Affairs.mem_owed_iff.mp owed with recorded | ⟨batch, held, inside⟩
    · cases recorded
    · exact batched batch held inside
  | _ => cases unmatched

/-- Disposed content stays at rest, whatever happens later, exactly when it was clear: nothing of
it was still to enter, and what had entered left with it. -/
theorem disposed_rests_iff_clear (run : (new config).Run history scene)
    (step : scene.Step told disposed next) (unmatched : entry ∈ disposed) :
    (∀ more last, next.Run more last →
      last.affairs.AtRest entry (history ++ (told ++ more)) (told ++ more)) ↔
      scene.affairs.Clear entry := by
  obtain ⟨indexed, sound⟩ := run.sound
  obtain ⟨first, rest, after, rfl, disposal, course⟩ := step.disposal unmatched
  have soundAfter := sound.course disposal.course
  have soundLater : ∀ {more last}, next.Run more last →
      Affairs.Sound (history ++ (first ++ rest ++ more)) last.affairs ∧
        after.Course (rest ++ more) last.affairs := by
    intro more last later
    have onward := (later.course (step.indexed indexed)).2
    have all := sound.course ((step.course indexed).trans onward)
    exact ⟨all, course.trans onward⟩
  constructor
  · intro atRest
    by_contra unclear
    obtain ⟨object, member, out⟩ := disposal.exists_entered_of_not_clear sound unmatched unclear
    have apart := (sound.unowed _ (disposal.held_given sound unmatched member).1 object member).1
    obtain ⟨more, last, later, told⟩ := step.exists_unowed unmatched apart
    obtain ⟨soundLast, onward⟩ := soundLater later
    have outLast := (out.course soundAfter onward).1
    exact Affairs.not_atRest_of_entered soundLast member outLast told (atRest more last later)
  · intro clear more last later
    obtain ⟨soundLast, onward⟩ := soundLater later
    apply Affairs.atRest_of_exited soundLast
    intro object member
    obtain ⟨out, early⟩ := disposal.exited_of_clear sound unmatched clear member
    obtain ⟨outLast, late⟩ := out.course soundAfter onward
    refine ⟨outLast, ?_⟩
    intro entered
    rw [List.append_assoc] at entered
    rcases List.mem_append.mp entered with before | behind
    · exact early before
    · exact late behind

/-- Content that departs when no place waits is disposed by the end of the pass. -/
private theorem Run.exists_disposal {pool : Pool η π} {rest : List (Entry η π)}
    (run : (new config).Run history scene) (resting : scene.stage = .resting pool)
    (held : scene.held ~ entry :: rest) (answered : pool.deferred = []) :
    ∃ middle told disposed next, (new config).Run history middle ∧
      middle.Step told disposed next ∧ entry ∈ disposed ∧ middle.registry = scene.registry ∧
        middle.stage.dispatcher = pool.dispatcher := by
  obtain ⟨after, accepted⟩ : ∃ after, pool.reportDeparture entry.descriptor entry = .ok after :=
    ⟨_, Pool.reportDeparture_eq_ok_iff.mpr ⟨rfl, rfl⟩⟩
  have departed := run.next (.report resting held accepted)
  have begun := departed.next (.beginPass rfl .handsBack)
  simp only [List.append_nil] at begun
  obtain ⟨told, final, drain, delivery⟩ :=
    after.endPass.disposeDepartures.pool.dispatcher.drain.exists_delivers scene.registry
  obtain ⟨-, same⟩ := Pool.reportDeparture_eq_ok_iff.mp accepted
  have settled : after.endPass.step = .settled := by
    simp [Pass.step, Pool.endPass, same, answered]
  have unmatched : entry ∈ after.leftovers := by
    have indexed := run.sound.1
    rw [Indexed, resting] at indexed
    have joined := Departures.entries_add indexed ⟨pool.nextDeparture, entry⟩
    rw [after.leftovers_perm.mem_iff, same]
    exact joined.mem_iff.mpr List.mem_cons_self
  have recorded : after.dispatcher = pool.dispatcher := by rw [same]
  exact ⟨_, told, _, _, begun, .endPass rfl settled delivery, unmatched, rfl, recorded⟩

/-- Content with one object. -/
def lone : Entry Unit Unit := ⟨⟨7⟩, (), (), ⟨0⟩, [⟨0⟩], true⟩

/-- A pool that was given this content and is still to tell its object of it. -/
def made : Scene Unit Unit Unit where
  registry := ⟨#[⟨.unretained, ()⟩]⟩
  given := [⟨0⟩]
  held := [lone]
  batches := []
  stage := .resting { dispatcher := { retaining := [⟨0⟩], entering := [⟨0⟩] } }

private theorem run_made : (new {}).Run [] made := by
  have created : (new {} : Scene Unit Unit Unit).Run [] _ := (Run.refl _).next (.create _ ())
  have fresh : Affairs.Fresh ⟨⟨#[⟨.unretained, ()⟩]⟩, [], [], {}, []⟩ [⟨0⟩] := by
    intro object member
    rw [List.mem_singleton.mp member]
    exact ⟨List.not_mem_nil, rfl, rfl⟩
  exact created.next (@Step.instantiate _ _ _ _ {} rfl ⟨7⟩ () () ⟨0⟩ [⟨0⟩] fresh)

/-- The content departs when its object was told of it: it is at rest after its disposal. -/
theorem told_before_disposed_rests :
    ∃ (history told : List (ObjectId × State)) (scene next : Scene Unit Unit Unit)
      (disposed : List (Entry Unit Unit)),
      (new {}).Run history scene ∧ scene.Step told disposed next ∧ lone ∈ disposed ∧
        ∀ more last, next.Run more last →
          last.affairs.AtRest lone (history ++ (told ++ more)) (told ++ more) := by
  obtain ⟨heard, registry, drain, delivery⟩ :=
    made.stage.dispatcher.drain.exists_delivers made.registry
  obtain ⟨proceeds, finished⟩ := delivery.proceeds
  have dispatched := run_made.next (.dispatch rfl delivery)
  obtain ⟨scene, told, disposed, next, run, step, unmatched, -, dispatcher⟩ :=
    dispatched.exists_disposal rfl (.refl [lone]) rfl
  have told_all : scene.affairs.dispatcher.entering = [] := by
    rw [affairs, dispatcher, proceeds.dispatcher_eq finished]
    rfl
  have clear : scene.affairs.Clear lone := by
    intro object _
    refine ⟨?_, fun inactive => absurd inactive (by decide)⟩
    rw [told_all]
    exact List.not_mem_nil
  exact ⟨_, told, scene, next, disposed, run, step, unmatched,
    (disposed_rests_iff_clear run step unmatched).mpr clear⟩

/-- The content departs before its object is told of it: it is disposed, and enters nevertheless. -/
theorem disposed_before_told_enters :
    ∃ (history told : List (ObjectId × State)) (scene next : Scene Unit Unit Unit)
      (disposed : List (Entry Unit Unit)),
      (new {}).Run history scene ∧ scene.Step told disposed next ∧ lone ∈ disposed ∧
        ¬ next.affairs.AtRest lone (history ++ told) told := by
  obtain ⟨scene, told, disposed, next, run, step, unmatched, registry, dispatcher⟩ :=
    run_made.exists_disposal rfl (.refl [lone]) rfl
  refine ⟨_, told, scene, next, disposed, run, step, unmatched, fun atRest => ?_⟩
  obtain ⟨first, rest, after, rfl, disposal, -⟩ := step.disposal unmatched
  have present := (disposal.held_given run.sound.2 unmatched (List.mem_singleton_self _)).2
  have story : storyOf first ⟨0⟩ = [.retained, .entered] := by
    rw [disposal.story run.sound.2 present, Pool.foldl_farewell, affairs, registry, dispatcher]
    exact Dispatcher.tells_new (List.mem_singleton_self _) (List.mem_singleton_self _)
  have entered : (⟨0⟩, .entered) ∈ first := by
    rw [← Lifecycle.mem_storyOf_iff, story]
    exact List.mem_cons_of_mem _ (List.mem_singleton_self _)
  exact (atRest ⟨0⟩ (List.mem_singleton_self _)).1 (List.mem_append_left _ entered)

end Scene

end LiveTree.Relocation
