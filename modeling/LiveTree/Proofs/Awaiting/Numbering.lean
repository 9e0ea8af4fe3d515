import LiveTree.Proofs.Awaiting.Standing

/-! The numbers of awaiters in the lists of a queue. Read through the batches in progress, the
outermost first, then through those that are pending, and then to the number that is given next,
the numbers only go up: a registration puts one more behind them, and every other operation only
leaves some out. So nobody stands in two places, everybody left in a batch comes before everybody
pending, and a search for a number finds its own awaiter or nobody. -/
namespace LiveTree.Awaiting.Queue

open scoped List

variable {α ρ : Type} {queue changed : Queue α ρ} {ticket : Ticket}

/-- The numbers of all that are listed, those in the outermost batch first and those that are
pending last, and behind them the number that is given next. -/
def numbers (queue : Queue α ρ) : List Ticket :=
  queue.running.reverse.flatMap Batch.rest ++ queue.pending ++ [queue.awaiters.size]

/-! ### Every operation -/

theorem numbers_register {value : α} {registration : Registration α ρ}
    (accepted : queue.register value = .ok registration) :
    registration.queue.numbers = queue.numbers ++ [queue.awaiters.size + 1] := by
  obtain ⟨-, rfl⟩ := register_eq_ok_iff.mp accepted
  simp [numbers]

theorem numbers_withdraw (queue : Queue α ρ) (ticket : Ticket) :
    (queue.withdraw ticket).numbers <+ queue.numbers := by
  have fewer : (queue.withdraw ticket).pending <+ queue.pending := by
    unfold withdraw
    split
    · exact List.filter_sublist
    · exact List.Sublist.refl _
  rw [numbers, numbers, running_withdraw, size_withdraw]
  exact (fewer.append_left _).append_right _

@[simp]
theorem numbers_flush (queue : Queue α ρ) (purpose : ρ) :
    (queue.flush purpose).numbers = queue.numbers := by
  simp [numbers, flush]

@[simp]
theorem numbers_close (queue : Queue α ρ) (closed : Closed) (purpose : Closed → ρ) :
    (queue.close closed purpose).numbers = queue.numbers :=
  numbers_flush ..

section Innermost

variable {batch : Batch ρ} {outer : List (Batch ρ)} (running : queue.running = batch :: outer)
include running

private theorem numbers_of_running :
    queue.numbers = outer.reverse.flatMap Batch.rest ++
      (batch.rest ++ (queue.pending ++ [queue.awaiters.size])) := by
  simp [numbers, running]

/-- Whatever goes out of the innermost batch, the others stay as they stood. -/
private theorem numbers_of_left {left : List Ticket} (fewer : left <+ batch.rest) :
    outer.reverse.flatMap Batch.rest ++ (left ++ (queue.pending ++ [queue.awaiters.size])) <+
      queue.numbers := by
  rw [numbers_of_running running]
  exact (fewer.append_right _).append_left _

theorem numbers_handOver {skipped rest : List Ticket}
    (split : batch.rest = skipped ++ ticket :: rest) :
    (queue.handOver ticket batch rest outer).numbers <+ queue.numbers := by
  have behind : rest <+ batch.rest := by
    rw [split]
    exact (List.sublist_cons_self ..).trans (List.sublist_append_right ..)
  have after : (queue.handOver ticket batch rest outer).numbers =
      outer.reverse.flatMap Batch.rest ++ (rest ++ (queue.pending ++ [queue.awaiters.size])) := by
    simp [numbers, handOver, settle]
  rw [after]
  exact numbers_of_left running behind

theorem numbers_finish :
    ({ queue with running := outer } : Queue α ρ).numbers <+ queue.numbers := by
  have after : ({ queue with running := outer } : Queue α ρ).numbers =
      outer.reverse.flatMap Batch.rest ++ ([] ++ (queue.pending ++ [queue.awaiters.size])) := by
    simp [numbers]
  rw [after]
  exact numbers_of_left running (List.nil_sublist _)

theorem numbers_abandon : queue.abandon.numbers <+ queue.numbers := by
  have after : queue.abandon.numbers =
      outer.reverse.flatMap Batch.rest ++ ([] ++ (queue.pending ++ [queue.awaiters.size])) := by
    rw [numbers, size_abandon]
    simp [abandon, running]
  rw [after]
  exact numbers_of_left running (List.nil_sublist _)

end Innermost

/-! ### What can be relied on -/

/-- What whoever looks at a queue can rely on. -/
structure Orderly (queue : Queue α ρ) : Prop where
  /-- Everybody pending waits. -/
  waits : ∀ ticket ∈ queue.pending, queue.fate? ticket = some .waiting
  /-- Their numbers go up. -/
  ascending : queue.pending.Pairwise (· < ·)
  /-- The number that is given next is above them. -/
  below : ∀ ticket ∈ queue.pending, ticket < queue.awaiters.size
  /-- Everybody left in a batch has a number below those of all that are pending. -/
  earlier : ∀ batch ∈ queue.running, ∀ left ∈ batch.rest, ∀ ticket ∈ queue.pending, left < ticket
  /-- Nobody stands in two places. -/
  once : (queue.pending ++ queue.batched).Nodup
  /-- Whoever was handed over or lost stands nowhere. -/
  spent : ∀ ticket, queue.fate? ticket = some .handedOver ∨ queue.fate? ticket = some .lost →
    ticket ∉ queue.pending ++ queue.batched
  /-- Nobody is pending in a closed queue. -/
  shut : queue.closed ≠ none → queue.pending = []
  /-- As long as fewer than 2^64 have registered, the numbers go up as words of 64 bits as well. -/
  words : queue.awaiters.size < UInt64.size → (queue.numbers.map UInt64.ofNat).Pairwise (· < ·)

theorem le_of_mem_numbers (ascending : queue.numbers.Pairwise (· < ·))
    (member : ticket ∈ queue.numbers) : ticket ≤ queue.awaiters.size := by
  rcases List.mem_append.mp member with listed | next
  · exact Nat.le_of_lt
      ((List.pairwise_append.mp ascending).2.2 ticket listed _ List.mem_cons_self)
  · exact Nat.le_of_eq (List.mem_singleton.mp next)

/-- A sound queue whose numbers go up is orderly. -/
theorem Sound.orderly (sound : queue.Sound) (ascending : queue.numbers.Pairwise (· < ·)) :
    queue.Orderly := by
  obtain ⟨listed, -, next⟩ := List.pairwise_append.mp ascending
  obtain ⟨-, pending, between⟩ := List.pairwise_append.mp listed
  constructor
  case waits => exact sound.waits
  case ascending => exact pending
  case below =>
    intro ticket member
    exact next ticket (List.mem_append_right _ member) _ List.mem_cons_self
  case earlier =>
    intro batch running left member ticket pending
    refine between left (List.mem_flatMap.mpr ⟨batch, ?_, member⟩) ticket pending
    exact List.mem_reverse.mpr running
  case once => exact sound.once
  case spent =>
    intro ticket settled member
    rcases List.mem_append.mp member with pending | batched
    · simp [sound.waits ticket pending] at settled
    · rcases sound.turnless ticket batched with waits | withdrawn
      · simp [waits] at settled
      · simp [withdrawn] at settled
  case shut => exact sound.shut
  case words =>
    intro few
    refine List.pairwise_map.mpr (ascending.imp_of_mem fun {one two} first second less => ?_)
    have bounded {number : Ticket} (member : number ∈ queue.numbers) : number < UInt64.size :=
      Nat.lt_of_le_of_lt (le_of_mem_numbers ascending member) few
    exact (UInt64.ofNat_lt_iff_lt (bounded first) (bounded second)).mpr less

/-! ### What a withdrawal takes off -/

/-- What becomes of a queue when the handle of one of its awaiters is cancelled. -/
inductive Removal (queue : Queue α ρ) (ticket : Ticket) : Queue α ρ → Prop
  /-- A pending awaiter goes off the list at the one place where it stands. -/
  | takesOff {before after : List Ticket} (listed : queue.pending = before ++ ticket :: after)
      (alone : ticket ∉ before ++ after) :
      Removal queue ticket
        { queue.settle ticket .withdrawn with pending := before ++ after }
  /-- An awaiter that was taken out stays in its batch, where it will be passed over; no list
  changes. -/
  | passesOver {batch : Batch ρ} (unlisted : ticket ∉ queue.pending)
      (running : batch ∈ queue.running) (left : ticket ∈ batch.rest)
      (waits : queue.fate? ticket = some .waiting) :
      Removal queue ticket (queue.settle ticket .withdrawn)
  /-- For an awaiter that does not wait any more nothing changes at all. -/
  | changesNothing (unlisted : ticket ∉ queue.pending)
      (settled : queue.fate? ticket ≠ some .waiting) : Removal queue ticket queue

/-- To withdraw an awaiter that waits is to settle its fate and to take its number off the list. -/
private theorem withdraw_of_waiting (sound : queue.Sound)
    (waits : queue.fate? ticket = some .waiting) :
    queue.withdraw ticket =
      { queue.settle ticket .withdrawn with pending := queue.pending.erase ticket } := by
  have once := (List.nodup_append.mp sound.once).1
  unfold withdraw
  split
  · rw [once.erase_eq_filter]
  · next settled => exact absurd waits settled

theorem Sound.removal (sound : queue.Sound) (ticket : Ticket) :
    queue.Removal ticket (queue.withdraw ticket) := by
  by_cases waits : queue.fate? ticket = some .waiting
  · rw [withdraw_of_waiting sound waits]
    by_cases member : ticket ∈ queue.pending
    · obtain ⟨before, after, listed⟩ := List.append_of_mem member
      have once := (List.nodup_append.mp sound.once).1
      rw [listed] at once
      have alone := (List.nodup_cons.mp (List.nodup_middle.mp once)).1
      have others : queue.pending.erase ticket = before ++ after := by
        rw [listed, List.erase_append_right _ fun early => alone (List.mem_append_left _ early),
          List.erase_cons_head]
      rw [others]
      exact .takesOff listed alone
    · -- Whoever waits and is not pending is left in a batch.
      obtain ⟨batch, running, left⟩ :=
        List.mem_flatMap.mp ((sound.listed ticket waits).resolve_left member)
      rw [List.erase_of_not_mem member]
      exact .passesOver member running left waits
  · rw [withdraw_of_ne_waiting waits]
    exact .changesNothing (fun member => waits (sound.waits ticket member)) waits

/-- A list without the first number that is the number of an awaiter as a word of 64 bits. -/
def strikeOut (ticket : Ticket) (pending : List Ticket) : List Ticket :=
  pending.eraseP fun other => UInt64.ofNat other == UInt64.ofNat ticket

/-- As long as fewer than 2^64 have registered, nobody else that is pending has the number of an
awaiter as a word of 64 bits. -/
private theorem Orderly.word_ne (orderly : queue.Orderly) (few : queue.awaiters.size < UInt64.size)
    (inside : ticket < queue.awaiters.size) {other : Ticket} (pending : other ∈ queue.pending)
    (different : other ≠ ticket) : ¬ (UInt64.ofNat other == UInt64.ofNat ticket) = true := by
  intro same
  have number := congrArg UInt64.toNat (eq_of_beq same)
  rw [UInt64.toNat_ofNat_of_lt' (Nat.lt_trans (orderly.below other pending) few),
    UInt64.toNat_ofNat_of_lt' (Nat.lt_trans inside few)] at number
  exact different number

/-- A search by 64-bit numbers takes off what the withdrawal takes off: the awaiter itself if it is
pending, else nobody. -/
theorem Removal.pending_eq (removal : queue.Removal ticket changed) (orderly : queue.Orderly)
    (few : queue.awaiters.size < UInt64.size) (inside : ticket < queue.awaiters.size) :
    changed.pending = strikeOut ticket queue.pending := by
  have nobody (unlisted : ticket ∉ queue.pending) :
      queue.pending = strikeOut ticket queue.pending := by
    refine (List.eraseP_of_forall_not fun other pending => ?_).symm
    refine orderly.word_ne few inside pending ?_
    rintro rfl
    exact unlisted pending
  cases removal with
  | @takesOff before after listed alone =>
    have first : ∀ other ∈ before, ¬ (UInt64.ofNat other == UInt64.ofNat ticket) = true := by
      intro other member
      refine orderly.word_ne few inside (listed ▸ List.mem_append_left _ member) ?_
      rintro rfl
      exact alone (List.mem_append_left _ member)
    rw [strikeOut, listed, List.eraseP_append_right _ first,
      List.eraseP_cons_of_pos (by exact beq_self_eq_true _)]
  | passesOver unlisted => exact nobody unlisted
  | changesNothing unlisted => exact nobody unlisted

end LiveTree.Awaiting.Queue
