import LiveTree.Proofs.Session.Fates

/-! Enlistment. Whoever waits with a component when the next call of it begins is enlisted in that
call: it is in the batch that the call takes out, whatever begins and ends inside the call, until
it has its turn or is withdrawn, or the call ends; and a call that ends leaves nobody of its batch
waiting, because it has gone through them all or because a panic has taken the rest of them along.
So a turn always falls into the first call after the registration. -/
namespace LiveTree.Session

open Awaiting LiveTree.Frame

namespace Stage

variable {stage after : Stage} {source : QueueRef} {base : List QueueRef} {delivery : Delivery}
  {ticket : Ticket} {deed : Option Deed} {queue changed : CallbackQueue} {history : List Deed}

/-- A call of a component is in progress that began over some other calls. -/
def Within (stage : Stage) (source : QueueRef) (base : List QueueRef) : Prop :=
  source :: base <:+ stage.serving

/-- Such a call is in progress, and if an awaiter still waits, it is in the batch of that call. -/
def Enlists (stage : Stage) (source : QueueRef) (base : List QueueRef) (delivery : Delivery)
    (ticket : Ticket) : Prop :=
  stage.Within source base ∧
    ∃ queue inner batch outer, stage.awaiting source = some queue ∧
      queue.running = inner ++ batch :: outer ∧ outer.length = base.count source ∧
      batch.purpose = delivery ∧ ticket < queue.awaiters.size ∧
      (queue.fate? ticket = some .waiting → ticket ∈ batch.rest)

/-- An awaiter is still where the next call of its component finds it. -/
def Ready (stage : Stage) (source : QueueRef) (ticket : Ticket) : Prop :=
  ∃ queue, stage.awaiting source = some queue ∧ queue.closed = none ∧
    ticket < queue.awaiters.size ∧ (queue.fate? ticket = some .waiting → ticket ∈ queue.pending)

/-- Who has been registered is ready. -/
private theorem Step.ready_of_accepts {handle : HandleId} {callback : Callback} {hooked : Bool}
    (step : stage.Step (some (.accepts source ticket handle callback hooked)) after) :
    after.Ready source ticket := by
  cases step with
  | accepts found accepted =>
    obtain ⟨unclosed, rfl⟩ := Queue.register_eq_ok_iff.mp accepted
    refine ⟨_, awaiting_setQueue_self .., unclosed, ?_, fun _ => ?_⟩
    · simp
    · exact List.mem_append_right _ List.mem_cons_self

/-- Until the next call of its component begins, an awaiter stays ready. -/
private theorem Step.ready (step : stage.Step deed after) (life : Life history stage)
    (ready : stage.Ready source ticket)
    (quiet : ∀ delivery, deed ≠ some (.begins source delivery)) : after.Ready source ticket := by
  obtain ⟨queue, found, unclosed, inside, listed⟩ := ready
  obtain ⟨changed, present, change⟩ := step.change found
  have grown := Nat.lt_of_lt_of_le inside change.size_le
  have kept (waits : changed.fate? ticket = some .waiting) : ticket ∈ queue.pending :=
    listed (change.waited inside waits)
  refine ⟨changed, present, ?_⟩
  cases change with
  | stays => exact ⟨unclosed, inside, listed⟩
  | flushes => exact absurd rfl (quiet _)
  | closes => exact absurd rfl (quiet _)
  | finishes => exact ⟨unclosed, inside, listed⟩
  | serves => exact ⟨unclosed, grown, kept⟩
  | loses running =>
    have pending : queue.abandon.pending = queue.pending := by simp [Queue.abandon, running]
    have closed : queue.abandon.closed = queue.closed := by simp [Queue.abandon, running]
    exact ⟨closed.trans unclosed, grown, fun waits => pending ▸ kept waits⟩
  | @accepts callback registration accepted =>
    obtain ⟨-, rfl⟩ := Queue.register_eq_ok_iff.mp accepted
    exact ⟨unclosed, grown, fun waits => List.mem_append_left _ (kept waits)⟩
  | @withdraws handle taken withdrawn =>
    refine ⟨(Queue.closed_withdraw ..).trans unclosed, grown, fun waits => ?_⟩
    have other : ticket ≠ taken := by
      rintro rfl
      have waiting := listed (Change.waited (.withdraws withdrawn) inside waits)
      rw [Queue.fate?_withdraw, if_pos ⟨rfl, (life.sound found).waits ticket waiting⟩] at waits
      cases waits
    rw [Queue.pending_withdraw (life.sound found)]
    exact List.mem_filter.mpr ⟨kept waits, bne_iff_ne.mpr other⟩

/-! ### A call begins, goes on, and ends -/

/-- A call enlists whoever is ready. -/
private theorem Step.enlists_of_begins (step : stage.Step (some (.begins source delivery)) after)
    (attended : stage.Attended) (ready : stage.Ready source ticket) :
    after.Enlists source stage.serving delivery ticket := by
  obtain ⟨queue, found, unclosed, inside, listed⟩ := ready
  have count := attended source
  rw [found, Option.elim_some] at count
  obtain ⟨changed, present, change⟩ := step.change found
  have within : after.Within source stage.serving := ⟨[], step.serving_of_begins.symm⟩
  refine ⟨within, changed, [], ?_⟩
  cases change with
  | stays foreign => exact absurd rfl (foreign _ rfl)
  | flushes =>
    exact ⟨⟨.resume, queue.pending, 0⟩, queue.running, present, rfl, count, rfl, inside, listed⟩
  | closes reason =>
    exact ⟨⟨.refuse (queue.closed.getD reason), queue.pending, 0⟩, queue.running, present, rfl,
      count, rfl, inside, listed⟩

/-- How a call ends: it is done with its batch, or a panic leaves it. A scheduler lets no panic
leave. -/
def Ends (source : QueueRef) (deed : Option Deed) : Prop :=
  deed = some (.finishes source) ∨
    (∃ tickets, deed = some (.loses source tickets)) ∧ ∀ id, source ≠ .scheduler id

/-- A call is in progress until it ends. -/
theorem Step.within (step : stage.Step deed after) (within : stage.Within source base) :
    after.Within source base ∨
      Ends source deed ∧ stage.serving = source :: base ∧ after.serving = base := by
  rcases step.turnover.call_stays within with still | ⟨innermost, ended, how⟩
  · exact .inl still
  · exact .inr ⟨how, innermost, ended⟩

/-- The calls in progress inside a call. -/
theorem Within.count_le (within : stage.Within source base) :
    base.count source + 1 ≤ stage.serving.count source := by
  have sublist := within.sublist.count_le source
  rwa [List.count_cons_self] at sublist

/-- What happens to a batch in progress whose call does not end: it stays as it is, or it is the
innermost and gives a turn. -/
theorem Change.batch_cases {inner outer : List (Batch Delivery)} {batch : Batch Delivery}
    (change : stage.Change source queue deed changed)
    (running : queue.running = inner ++ batch :: outer) (goesOn : inner = [] → ¬ Ends source deed) :
    ((∃ inner, changed.running = inner ++ batch :: outer) ∧
      (inner = [] → ∀ ticket callback told, deed ≠ some (.serves source ticket callback told))) ∨
    inner = [] ∧ ∃ skipped ticket rest callback,
      deed = some (.serves source ticket callback batch.purpose) ∧
      batch.rest = skipped ++ ticket :: rest ∧
      (∀ other ∈ skipped, queue.fate? other ≠ some .waiting) ∧
      queue.fate? ticket = some .waiting ∧ changed = queue.handOver ticket batch rest outer := by
  have above (first : Batch Delivery) (same : changed.running = first :: queue.running) :
      ∃ inner, changed.running = inner ++ batch :: outer :=
    ⟨first :: inner, same.trans (congrArg _ running)⟩
  cases change with
  | stays foreign =>
    refine .inl ⟨⟨inner, running⟩, fun _ ticket callback told => ?_⟩
    rintro rfl
    exact foreign _ rfl rfl
  | flushes => exact .inl ⟨above _ rfl, by simp⟩
  | closes => exact .inl ⟨above _ rfl, by simp⟩
  | accepts accepted =>
    obtain ⟨-, rfl⟩ := Queue.register_eq_ok_iff.mp accepted
    exact .inl ⟨⟨inner, running⟩, by simp⟩
  | withdraws => exact .inl ⟨⟨inner, (Queue.running_withdraw ..).trans running⟩, by simp⟩
  | loses front free =>
    have left := front
    rw [running] at left
    cases inner with
    | nil => exact absurd (.inr ⟨⟨_, rfl⟩, free⟩) (goesOn rfl)
    | cons top inner =>
      cases left
      exact .inl ⟨⟨inner, by simp [Queue.abandon, front]⟩, by simp⟩
  | finishes front =>
    rw [running] at front
    cases inner with
    | nil => exact absurd (.inl rfl) (goesOn rfl)
    | cons top inner =>
      cases front
      exact .inl ⟨⟨inner, rfl⟩, by simp⟩
  | @serves first others skipped rest served callback front split passed waiting =>
    rw [running] at front
    cases inner with
    | nil =>
      cases front
      exact .inr ⟨rfl, skipped, served, rest, callback, rfl, split, passed,
        Queue.fate?_of_getElem? waiting, rfl⟩
    | cons top inner =>
      cases front
      exact .inl ⟨⟨_ :: inner, rfl⟩, by simp⟩

/-- Whoever waits in such a batch stays in it. -/
private theorem Change.batch_goes_on {inner outer : List (Batch Delivery)} {batch : Batch Delivery}
    (change : stage.Change source queue deed changed)
    (running : queue.running = inner ++ batch :: outer) (inside : ticket < queue.awaiters.size)
    (listed : queue.fate? ticket = some .waiting → ticket ∈ batch.rest)
    (goesOn : inner = [] → ¬ Ends source deed) :
    ∃ inner later, changed.running = inner ++ later :: outer ∧ later.purpose = batch.purpose ∧
      (changed.fate? ticket = some .waiting → ticket ∈ later.rest) := by
  rcases change.batch_cases running goesOn with
    ⟨⟨inside', same⟩, -⟩ | ⟨-, skipped, served, rest, callback, -, split, passed, waiting, rfl⟩
  · exact ⟨inside', batch, same, rfl, fun waits => listed (change.waited inside waits)⟩
  · refine ⟨[], ⟨batch.purpose, rest, batch.served + 1⟩, rfl, rfl, fun waits => ?_⟩
    have waited := change.waited inside waits
    have member := listed waited
    rw [split] at member
    rcases List.mem_append.mp member with early | late
    · exact absurd waited (passed ticket early)
    · rcases List.mem_cons.mp late with rfl | behind
      · rw [Queue.fate?_handOver waiting, if_pos rfl] at waits
        cases waits
      · exact behind

/-- The batch of a call is put away only when the call ends. -/
theorem Step.not_ends (step : stage.Step deed after) (attended : stage.Attended)
    (still : after.Within source base) (found : stage.awaiting source = some queue)
    {inner outer : List (Batch Delivery)} {batch : Batch Delivery}
    (running : queue.running = inner ++ batch :: outer)
    (depth : outer.length = base.count source) : inner = [] → ¬ Ends source deed := by
  rintro rfl ends
  have count := attended source
  rw [found, Option.elim_some, running, List.nil_append, List.length_cons, depth] at count
  have ended : stage.serving = source :: after.serving := by
    have turnover := step.turnover
    generalize after.serving = calls at turnover ⊢
    rcases ends with rfl | ⟨⟨tickets, rfl⟩, -⟩
    · cases turnover with
      | stays quiet => exact absurd rfl (quiet _ rfl _ .resume []).2.1
      | finishes innermost => exact innermost
    · cases turnover with
      | stays quiet => exact absurd rfl (quiet _ rfl _ .resume _).2.2
      | loses innermost => exact innermost
  have more := still.count_le
  rw [ended, List.count_cons_self] at count
  omega

/-- Whoever is enlisted stays so until its call ends, and then it does not wait any more. -/
private theorem Step.enlists (step : stage.Step deed after) (life : Life history stage)
    (enlists : stage.Enlists source base delivery ticket) :
    after.Enlists source base delivery ticket ∨
      Ends source deed ∧ stage.serving = source :: base ∧ after.serving = base ∧
        ∃ queue, after.awaiting source = some queue ∧ queue.fate? ticket ≠ some .waiting := by
  obtain ⟨within, queue, inner, batch, outer, found, running, depth, rfl, inside, listed⟩ := enlists
  obtain ⟨changed, present, change⟩ := step.change found
  have count := life.attended source
  rw [found, Option.elim_some, running, List.length_append, List.length_cons, depth] at count
  rcases step.within within with still | ⟨ends, innermost, left⟩
  · left
    have goesOn := step.not_ends life.attended still found running depth
    obtain ⟨inner, later, running, purpose, kept⟩ :=
      change.batch_goes_on running inside listed goesOn
    exact ⟨still, changed, inner, later, outer, present, running, depth, purpose,
      Nat.lt_of_lt_of_le inside change.size_le, kept⟩
  · right
    refine ⟨ends, innermost, left, changed, present, fun waits => ?_⟩
    rw [innermost, List.count_cons_self] at count
    have alone : inner = [] := List.length_eq_zero_iff.mp (by omega)
    subst alone
    have waited := change.waited inside waits
    cases change with
    | stays foreign => rcases ends with rfl | ⟨⟨_, rfl⟩, -⟩ <;> exact foreign _ rfl rfl
    | finishes front passed =>
      cases running.symm.trans front
      exact passed ticket (listed waited) waited
    | loses front =>
      cases running.symm.trans front
      rw [Queue.fate?_abandon front, if_pos ⟨listed waited, waited⟩] at waits
      cases waits
    | _ => rcases ends with ends | ⟨⟨_, ends⟩, -⟩ <;> cases ends

/-- The innermost batch that lists somebody who is enlisted is the one of its call, and no call is
in progress inside that call. -/
private theorem Enlists.innermost (enlists : stage.Enlists source base delivery ticket)
    (life : Life history stage) {calls : List QueueRef} {first : Batch Delivery}
    {others : List (Batch Delivery)} (found : stage.awaiting source = some queue)
    (innermost : stage.serving = source :: calls) (front : queue.running = first :: others)
    (member : ticket ∈ first.rest) (waits : queue.fate? ticket = some .waiting) :
    first.purpose = delivery ∧ stage.serving = source :: base := by
  obtain ⟨within, held, inner, batch, outer, present, running, depth, rfl, -, listed⟩ := enlists
  cases found.symm.trans present
  have count := life.attended source
  rw [found, Option.elim_some, running, List.length_append, List.length_cons, depth] at count
  cases inner with
  | nil =>
    cases running.symm.trans front
    refine ⟨rfl, ?_⟩
    rw [Within, innermost] at within
    rcases List.suffix_cons_iff.mp within with same | deeper
    · exact innermost.trans same.symm
    · -- A call of the component inside would have a batch of its own.
      have more := deeper.sublist.count_le source
      rw [List.count_cons_self] at more
      rw [innermost, List.count_cons_self, List.length_nil] at count
      omega
  | cons top inner =>
    cases running.symm.trans front
    -- Nobody is listed in two batches.
    have once := (List.nodup_append.mp (life.sound found).once).2.1
    have both : queue.batched = first.rest ++ (inner ++ batch :: outer).flatMap Batch.rest := by
      simp [Queue.batched, front]
    rw [both] at once
    have there : ticket ∈ (inner ++ batch :: outer).flatMap Batch.rest :=
      List.mem_flatMap.mpr ⟨batch, List.mem_append_right _ List.mem_cons_self, listed waits⟩
    exact absurd rfl ((List.nodup_append.mp once).2.2 ticket member ticket there)

/-- Whoever has a turn in a call is told what the call is for. -/
theorem Step.serves_of_enlists (life : Life history stage) {callback : Callback} {told : Delivery}
    (step : stage.Step (some (.serves source ticket callback told)) after)
    (enlists : stage.Enlists source base delivery ticket) :
    told = delivery ∧ stage.serving = source :: base := by
  cases step with
  | serves found innermost front split passed waiting =>
    refine enlists.innermost life found innermost front ?_ (Queue.fate?_of_getElem? waiting)
    rw [split]
    exact List.mem_append_right _ List.mem_cons_self

/-- Whoever is enlisted goes down with the batch of its own call. -/
private theorem Step.loses_of_enlists (life : Life history stage) {tickets : List Ticket}
    (step : stage.Step (some (.loses source tickets)) after)
    (enlists : stage.Enlists source base delivery ticket) (lost : ticket ∈ tickets) :
    stage.serving = source :: base := by
  cases step with
  | loses found innermost front =>
    obtain ⟨member, waits⟩ := List.mem_filter.mp lost
    exact (enlists.innermost life found innermost front member (of_decide_eq_true waits)).2

/-! ### From a registration to the next call -/

section Registered

variable {handle : HandleId} {callback : Callback} {hooked : Bool}

/-- Who was accepted is ready until a call begins. -/
theorem Life.ready {sooner between : List Deed}
    (life : Life (sooner ++ .accepts source ticket handle callback hooked :: between) stage)
    (first : ∀ delivery, .begins source delivery ∉ between) : stage.Ready source ticket := by
  generalize whole : sooner ++ .accepts source ticket handle callback hooked :: between =
    history at life
  induction life generalizing between with
  | bare => simp at whole
  | @next history stage after deed life step ih =>
    cases deed with
    | none =>
      rw [Option.toList_none, List.append_nil] at whole
      exact step.ready life (ih first whole) nofun
    | some done =>
      rcases List.eq_nil_or_concat between with rfl | ⟨earlier, last, rfl⟩
      · obtain ⟨rfl, rfl⟩ := List.append_singleton_inj.mp whole
        exact step.ready_of_accepts
      · rw [List.concat_eq_append, ← List.cons_append, ← List.append_assoc] at whole
        obtain ⟨rfl, rfl⟩ := List.append_singleton_inj.mp whole
        rw [List.concat_eq_append] at first
        refine step.ready life (ih (fun delivery member => ?_) rfl) ?_
        · exact first delivery (List.mem_append_left _ member)
        · rintro delivery ⟨rfl⟩
          exact first delivery (List.mem_append_right _ List.mem_cons_self)

/-- Nobody who is ready has a turn, or goes down with a batch. -/
theorem Step.unsettled_of_ready {done : Deed} (step : stage.Step (some done) after)
    (life : Life history stage) (ready : stage.Ready source ticket)
    (settles : done.Serves source ticket ∨
      ∃ tickets, done = .loses source tickets ∧ ticket ∈ tickets) : False := by
  obtain ⟨queue, found, -, -, listed⟩ := ready
  have listedTwice (waits : queue.fate? ticket = some .waiting) (batched : ticket ∈ queue.batched) :
      False :=
    (List.nodup_append.mp (life.sound found).once).2.2 ticket (listed waits) ticket batched rfl
  rcases settles with turn | ⟨tickets, rfl, lost⟩
  · cases step with
    | serves present _ running split _ waiting =>
      obtain ⟨rfl, rfl⟩ := turn
      cases found.symm.trans present
      refine listedTwice (Queue.fate?_of_getElem? waiting)
        (List.mem_flatMap.mpr ⟨_, running ▸ List.mem_cons_self, ?_⟩)
      rw [split]
      exact List.mem_append_right _ List.mem_cons_self
    | _ => cases turn
  · cases step with
    | loses present _ running =>
      cases found.symm.trans present
      obtain ⟨member, waits⟩ := List.mem_filter.mp lost
      exact listedTwice (of_decide_eq_true waits)
        (List.mem_flatMap.mpr ⟨_, running ▸ List.mem_cons_self, member⟩)

/-- A registration is given a ticket that was unknown before. -/
theorem Life.unknown_before {before later : List Deed}
    (life : Life (before ++ .accepts source ticket handle callback hooked :: later) stage) :
    ∃ earlier, Life before earlier ∧ ∀ queue, earlier.awaiting source = some queue →
      queue.awaiters.size ≤ ticket := by
  obtain ⟨earlier, _, early, step⟩ := life.split
  refine ⟨earlier, early, fun queue found => ?_⟩
  cases step with
  | accepts present accepted =>
    cases found.symm.trans present
    obtain ⟨-, rfl⟩ := Queue.register_eq_ok_iff.mp accepted
    exact Nat.le_refl _

/-- Nobody has a turn with a component, or goes down with a batch of it, before a call begins. -/
theorem Life.undisturbed {sooner between : List Deed}
    (life : Life (sooner ++ .accepts source ticket handle callback hooked :: between) stage)
    (first : ∀ delivery, .begins source delivery ∉ between) :
    ∀ deed ∈ sooner ++ .accepts source ticket handle callback hooked :: between,
      ¬ (deed.Serves source ticket ∨
        ∃ tickets, deed = .loses source tickets ∧ ticket ∈ tickets) := by
  intro deed member settles
  rcases List.mem_append.mp member with before | since
  · obtain ⟨earlier, early, unknown⟩ := life.unknown_before
    have known := early.knows before
    have held : ∃ queue, earlier.awaiting source = some queue ∧ ticket < queue.awaiters.size := by
      rcases settles with turn | ⟨tickets, rfl, lost⟩
      · cases deed with
        | serves origin served =>
          obtain ⟨rfl, rfl⟩ := turn
          exact known
        | _ => cases turn
      · obtain ⟨queue, found, inside⟩ := known
        exact ⟨queue, found, inside ticket lost⟩
    obtain ⟨queue, found, inside⟩ := held
    exact Nat.not_lt.mpr (unknown queue found) inside
  · rcases List.mem_cons.mp since with rfl | after
    · rcases settles with turn | ⟨tickets, other, -⟩
      · cases turn
      · cases other
    · obtain ⟨upTo, rest, rfl⟩ := List.append_of_mem after
      rw [← List.cons_append, ← List.append_assoc] at life
      obtain ⟨earlier, later, early, step⟩ := life.split
      have ready := early.ready fun delivery among => first delivery (List.mem_append_left _ among)
      exact step.unsettled_of_ready early ready settles

end Registered

/-- Who stands in line was registered since the last call began. -/
theorem accepted_of_line {handle : HandleId} {history : List Deed}
    (listed : (ticket, handle) ∈ Deed.line source history) :
    ∃ sooner between callback hooked,
      history = sooner ++ .accepts source ticket handle callback hooked :: between ∧
        ∀ delivery, .begins source delivery ∉ between := by
  induction history using List.reverseRecOn with
  | nil => cases listed
  | append_singleton history last ih =>
    have stood (former : (ticket, handle) ∈ Deed.line source history)
        (other : ∀ delivery, .begins source delivery ≠ last) :
        ∃ sooner between callback hooked,
          history ++ [last] = sooner ++ .accepts source ticket handle callback hooked :: between ∧
            ∀ delivery, .begins source delivery ∉ between := by
      obtain ⟨sooner, between, callback, hooked, rfl, first⟩ := ih former
      refine ⟨sooner, between ++ [last], callback, hooked, by simp, fun delivery member => ?_⟩
      rcases List.mem_append.mp member with early | latest
      · exact first delivery early
      · exact other delivery (List.mem_singleton.mp latest)
    rw [Deed.line, List.foldl_append, List.foldl_cons, List.foldl_nil, ← Deed.line] at listed
    cases last with
    | accepts origin given held callback hooked =>
      simp only [Deed.linesUp] at listed
      split at listed
      · next own =>
        subst own
        rcases List.mem_append.mp listed with former | latest
        · exact stood former (by simp)
        · obtain ⟨rfl, rfl⟩ := Prod.mk.inj (List.mem_singleton.mp latest)
          exact ⟨history, [], callback, hooked, rfl, by simp⟩
      · exact stood listed (by simp)
    | begins origin told =>
      simp only [Deed.linesUp] at listed
      split at listed
      · cases listed
      · next other =>
        refine stood listed ?_
        rintro delivery ⟨⟩
        exact other rfl
    | cancels id => exact stood (List.mem_filter.mp listed).1 (by simp)
    | serves | finishes | loses | startsFrame | idles | moves | refuses =>
      exact stood listed (by simp)

/-- What was not decided by some time was not decided before it. -/
private theorem unsettled_of_append {handle : HandleId} {before after : List Deed}
    (unsettled : Deed.settled? source ticket handle (before ++ after) = none) :
    Deed.settled? source ticket handle before = none := by
  unfold Deed.settled? at unsettled ⊢
  rw [List.findSome?_append, Option.or_eq_none_iff] at unsettled
  exact unsettled.1

end Stage

namespace Machine

variable {earlier later : List Machine} {ending machine : Machine} {source : QueueRef}
  {ticket : Ticket} {handle : HandleId} {callback : Callback} {hooked : Bool} {delivery : Delivery}

/-- A call has whoever was ready enlisted until it is over. -/
private theorem Course.enlists (course : Course (earlier ++ ending :: later) machine)
    (ready : ending.stage.Ready source ticket)
    (began : ending.deed? = some (.begins source delivery)) :
    (∀ middle ∈ later ++ [machine],
      middle.stage.Enlists source ending.stage.serving delivery ticket) ∨
    ∃ during last rest, later = during ++ last :: rest ∧ Stage.Ends source last.deed? ∧
      (∀ middle ∈ during ++ [last],
        middle.stage.Enlists source ending.stage.serving delivery ticket) ∧
      ∃ queue, last.step.stage.awaiting source = some queue ∧
        queue.fate? ticket ≠ some .waiting := by
  induction later using List.reverseRecOn generalizing machine with
  | nil =>
    left
    obtain ⟨early, move⟩ := course.latest
    have step := move.stage_step early.life.attended
    rw [began] at step
    intro middle member
    obtain rfl := List.mem_singleton.mp member
    exact step.enlists_of_begins early.life.attended ready
  | append_singleton later last ih =>
    rw [← List.cons_append, ← List.append_assoc] at course
    obtain ⟨early, move⟩ := course.latest
    rcases ih early with inside | ⟨during, final, rest, rfl, ended, inside, settled⟩
    · have enlists := inside last (List.mem_append_right _ List.mem_cons_self)
      have step := move.stage_step early.life.attended
      rcases step.enlists early.life enlists with still | ⟨ends, -, -, settled⟩
      · left
        intro middle member
        rcases List.mem_append.mp member with former | latter
        · exact inside middle former
        · obtain rfl := List.mem_singleton.mp latter
          exact still
      · right
        refine ⟨later, last, [], rfl, ends, inside, ?_⟩
        have done : ∃ deed, last.deed? = some deed := by
          rcases ends with done | ⟨⟨_, done⟩, -⟩ <;> exact ⟨_, done⟩
        obtain ⟨deed, done⟩ := done
        rwa [← move.eq_step done]
    · right
      exact ⟨during, final, rest ++ [last], by simp, ended, inside, settled⟩

section Enlisted

variable (course : Course (earlier ++ ending :: later) machine)
  (accepted : .accepts source ticket handle callback hooked ∈ deeds earlier)
include course accepted

/-- Once a call is over in which somebody no longer waits, it is decided what has become of it. -/
private theorem Course.decided_of_over {during others rest : List Machine} {last : Machine}
    (split : later = during ++ last :: others ++ rest)
    (ended : ∃ queue, last.step.stage.awaiting source = some queue ∧
      queue.fate? ticket ≠ some .waiting) :
    Deed.settled? source ticket handle
      (deeds (earlier ++ ending :: (during ++ last :: others))) ≠ none := by
  subst split
  have upTo : Course (earlier ++ ending :: during) last := by
    have regrouped : earlier ++ ending :: (during ++ last :: others ++ rest) =
        earlier ++ ending :: during ++ last :: (others ++ rest) := by simp
    rw [regrouped] at course
    exact course.before
  have life := upTo.life_step
  rw [← deeds_singleton, ← deeds_append] at life
  have registered := mem_deeds_append_left (ending :: during ++ [last]) accepted
  rw [← List.append_assoc] at registered
  obtain ⟨queue, found, fate⟩ := ended
  intro unsettled
  have regrouped : earlier ++ ending :: (during ++ last :: others) =
      earlier ++ ending :: during ++ [last] ++ others := by simp
  rw [regrouped, deeds_append] at unsettled
  exact fate ((life.waiting_iff registered found).mpr (Stage.unsettled_of_append unsettled))

variable (ready : ending.stage.Ready source ticket)
  (began : ending.deed? = some (.begins source delivery))
include ready began

/-- Whatever becomes of somebody who was ready when a call began, while nothing has become of it the
call is in progress and has it enlisted. -/
private theorem Course.enlists_of_unsettled
    (unsettled : Deed.settled? source ticket handle
      (deeds (earlier ++ ending :: later)) = none) :
    ∀ middle ∈ later ++ [machine],
      middle.stage.Enlists source ending.stage.serving delivery ticket := by
  rcases course.enlists ready began with inside | ⟨during, last, rest, rfl, -, -, ended⟩
  · exact inside
  · exact absurd unsettled (course.decided_of_over accepted (List.append_nil _).symm ended)

/-- What is not decided about somebody enlisted is not decided because the call is in progress. -/
theorem Course.inBatch_of_unsettled
    (unsettled : Deed.settled? source ticket handle
      (deeds (earlier ++ ending :: later)) = none) :
    (∀ middle ∈ later ++ [machine], middle.stage.Within source ending.stage.serving) ∧
      Condition.inBatch.Holds machine.stage (deeds (earlier ++ ending :: later)) source ticket
        handle := by
  have inside := course.enlists_of_unsettled accepted ready began unsettled
  have member := mem_deeds_append_left (ending :: later) accepted
  obtain ⟨within, queue, inner, batch, outer, found, running, -, -, -, listed⟩ :=
    inside machine (List.mem_append_right _ List.mem_cons_self)
  have waits := (course.life.waiting_iff member found).mpr unsettled
  refine ⟨fun middle among => (inside middle among).1, within.subset List.mem_cons_self,
    queue, found, waits, batch, ?_, listed waits⟩
  rw [running]
  exact List.mem_append_right _ List.mem_cons_self

/-- What is done to somebody who was ready when a call began is done in that call. -/
private theorem Course.inside_of_settles {during rest : List Machine} {middle : Machine}
    {deed : Deed} (split : later = during ++ middle :: rest) (done : middle.deed? = some deed)
    (settles : deed.Serves source ticket ∨
      ∃ tickets, deed = .loses source tickets ∧ ticket ∈ tickets) :
    Course (earlier ++ ending :: during) middle ∧
      ∀ other ∈ during ++ [middle],
        other.stage.Enlists source ending.stage.serving delivery ticket := by
  subst split
  have upTo : Course (earlier ++ ending :: during) middle := by
    rw [← List.cons_append, ← List.append_assoc] at course
    exact course.before
  refine ⟨upTo, upTo.enlists_of_unsettled accepted ready began ?_⟩
  have life := course.life
  have member := mem_deeds_append_left (ending :: (during ++ middle :: rest)) accepted
  have whole : deeds (earlier ++ ending :: (during ++ middle :: rest)) =
      deeds (earlier ++ ending :: during) ++ deed :: deeds rest := by
    rw [← List.cons_append, ← List.append_assoc, deeds_append, deeds_cons middle, done]
    rfl
  rw [whole] at life member
  exact (life.unsettled_before member settles).2

/-- A turn of somebody who was ready when a call began falls into that call. -/
theorem Course.serves_inside {during rest : List Machine} {middle : Machine} {served : Callback}
    {told : Delivery} (split : later = during ++ middle :: rest)
    (done : middle.deed? = some (.serves source ticket served told)) :
    served = callback ∧ told = delivery ∧
      middle.stage.serving = source :: ending.stage.serving ∧
      ∀ other ∈ during ++ [middle], other.stage.Within source ending.stage.serving := by
  obtain ⟨upTo, inside⟩ :=
    course.inside_of_settles accepted ready began split done (.inl ⟨rfl, rfl⟩)
  have step := stage_step upTo.life.attended
  rw [done] at step
  obtain ⟨same, innermost⟩ := step.serves_of_enlists upTo.life
    (inside middle (List.mem_append_right _ List.mem_cons_self))
  refine ⟨?_, same, innermost, fun other among => (inside other among).1⟩
  have life := course.life
  have member := mem_deeds_append_left (ending :: later) accepted
  have whole : deeds (earlier ++ ending :: later) =
      deeds (earlier ++ ending :: during) ++ .serves source ticket served told :: deeds rest := by
    rw [split, ← List.cons_append, ← List.append_assoc, deeds_append, deeds_cons middle, done]
    rfl
  rw [whole] at life member
  exact life.callback_of_serves member

/-- Whoever was ready when a call began and is lost goes down with the batch of that call. -/
theorem Course.loses_inside {during rest : List Machine} {middle : Machine}
    {tickets : List Ticket} (split : later = during ++ middle :: rest)
    (done : middle.deed? = some (.loses source tickets)) (lost : ticket ∈ tickets) :
    middle.stage.serving = source :: ending.stage.serving ∧
      ∀ other ∈ during ++ [middle], other.stage.Within source ending.stage.serving := by
  obtain ⟨upTo, inside⟩ :=
    course.inside_of_settles accepted ready began split done (.inr ⟨tickets, rfl, lost⟩)
  have step := stage_step upTo.life.attended
  rw [done] at step
  exact ⟨step.loses_of_enlists upTo.life
    (inside middle (List.mem_append_right _ List.mem_cons_self)) lost,
    fun other among => (inside other among).1⟩

omit ready in
/-- Who has had a turn by now but not before a call has had one turn since the call began. -/
theorem Course.one_turn_since
    (unserved : ∀ deed ∈ deeds earlier, ¬ deed.Serves source ticket)
    (settled : Deed.settled? source ticket handle
      (deeds (earlier ++ ending :: later)) = some .handedOver) :
    (deeds later).countP (fun deed => deed.Serves source ticket) = 1 := by
  have member := mem_deeds_append_left (ending :: later) accepted
  obtain ⟨deed, done, turn⟩ := (course.life.handedOver_iff member).mpr settled
  have since : deed ∈ deeds later := by
    rw [deeds_append, deeds_cons, began] at done
    rcases List.mem_append.mp done with former | latter
    · exact absurd turn (unserved deed former)
    · rcases List.mem_cons.mp latter with rfl | later
      · cases turn
      · exact later
  have once := course.life.one_turn member
  rw [deeds_append, deeds_cons, List.countP_append, List.countP_append] at once
  have some : 0 < (deeds later).countP fun deed => deed.Serves source ticket :=
    List.countP_pos_iff.mpr ⟨deed, since, decide_eq_true turn⟩
  omega

end Enlisted

end Machine

end LiveTree.Session
