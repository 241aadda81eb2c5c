import EthPayServer.Outbox.Memory

/-!
# Reading the queue while it is written

A stream of `MemoryBridge` copies a batch of the queue under its lock and then
hands the batch out, while events are published and trimmed.  Whatever the
order of these steps, what it hands out is numbered without a gap.
-/

namespace EthPayServer.Outbox

open Lib

def MemoryOutbox.perform (outbox : MemoryOutbox) : BridgeAction → MemoryOutbox
  | .publish event blockHeight => outbox.publish event blockHeight
  | .bumpEpoch => outbox.bumpEpoch

/-- A queue and a stream that reads it. -/
structure MemoryStream where
  outbox : MemoryOutbox
  tail : Tail
  /-- copied from the queue and not handed out yet -/
  batch : List EventEnvelope
  given : List EventEnvelope
  ended : Bool
  /-- the number the stream starts at, once that is known -/
  start : Option Int

inductive MemoryStreamAction where
  | bridge (action : BridgeAction)
  /-- a round of the stream's loop copies the next batch -/
  | poll
  /-- the stream hands out the next envelope of its batch -/
  | give

namespace MemoryStream

section

variable (stream : MemoryStream)

def sliceStart : Nat := (stream.tail.nextSeq - stream.outbox.oldest).toNat

def perform : MemoryStreamAction → MemoryStream
  | .bridge action => { stream with outbox := stream.outbox.perform action }
  | .poll =>
    if stream.ended || !stream.batch.isEmpty then stream
    else if stream.tail.expectedSeq.any (· < stream.outbox.oldest) then { stream with ended := true }
    else
      let batch := stream.outbox.entries.drop stream.sliceStart
      { stream with
        batch
        start := stream.start.or (if batch.isEmpty then none else some stream.outbox.oldest) }
  | .give =>
    match stream.batch with
    | [] => stream
    | envelope :: rest =>
      { stream with
        tail := ⟨envelope.cursor.seq + 1, some (envelope.cursor.seq + 1)⟩
        batch := rest
        given := stream.given ++ [envelope] }

/-- The stream of an accepted subscription, before its first round. -/
def opened (outbox : MemoryOutbox) (cursor : Option EventCursor) (tail : Tail) : MemoryStream :=
  ⟨outbox, tail, [], [], false, cursor.map fun cursor => cursor.seq + 1⟩

/-! ## What every step keeps -/

/-- The stream is where its number says, or has copied its first batch and handed out none of it. -/
structure Steady : Prop where
  counted : 0 ≤ stream.outbox.oldest
  fresh : stream.start = none → stream.given = [] ∧ stream.batch = [] ∧ stream.tail = ⟨0, none⟩
  numbered : ∀ first ∈ stream.start,
    Numbered (fun envelope => envelope.cursor.seq) first (stream.given ++ stream.batch) ∧
    first + (stream.given ++ stream.batch).length ≤ stream.outbox.nextSeq ∧
    (stream.tail = ⟨first + stream.given.length, some (first + stream.given.length)⟩ ∨
      stream.given = [] ∧ stream.batch ≠ [])

end

variable {stream : MemoryStream}

theorem oldest_perform (outbox : MemoryOutbox) (action : BridgeAction) :
    outbox.oldest ≤ (outbox.perform action).oldest ∧ outbox.nextSeq ≤ (outbox.perform action).nextSeq := by
  cases action with
  | publish event blockHeight =>
    have few := outbox.excess_le
    simp only [MemoryOutbox.perform, MemoryOutbox.oldest, MemoryOutbox.publish, List.length_drop,
      List.length_append, List.length_singleton]
    omega
  | bumpEpoch => exact ⟨le_refl _, le_refl _⟩

section

variable (steady : stream.Steady)
include steady

/-- An idle stream that missed nothing stands at its next number. -/
theorem Steady.position (idle : stream.batch = []) {first : Int} (isStart : stream.start = some first) :
    stream.tail = ⟨first + stream.given.length, some (first + stream.given.length)⟩ ∧
      first + stream.given.length ≤ stream.outbox.nextSeq := by
  obtain ⟨_, published, isTail | ⟨_, busy⟩⟩ := steady.numbered first isStart
  · rw [idle, List.append_nil] at published
    exact ⟨isTail, published⟩
  · exact absurd idle busy

/-- A round copies from inside what is retained. -/
theorem Steady.sliceStart_le (idle : stream.batch = []) :
    stream.sliceStart ≤ stream.outbox.entries.length := by
  have counted := steady.counted
  have length : stream.outbox.oldest = stream.outbox.nextSeq - stream.outbox.entries.length := rfl
  have behind : stream.tail.nextSeq ≤ stream.outbox.nextSeq := by
    cases isStart : stream.start with
    | none =>
      rw [(steady.fresh isStart).2.2]
      change (0 : Int) ≤ _
      omega
    | some first =>
      obtain ⟨isTail, published⟩ := steady.position idle isStart
      rwa [isTail]
  unfold sliceStart
  omega

theorem Steady.poll : (stream.perform .poll).Steady := by
  unfold perform
  dsimp only
  split
  · exact steady
  next isIdle =>
  split
  · exact ⟨steady.counted, steady.fresh, steady.numbered⟩
  next unbroken =>
  obtain ⟨_, idle⟩ : stream.ended = false ∧ stream.batch = [] := by simpa using isIdle
  have inside := steady.sliceStart_le idle
  have slice := stream.outbox.numbered.drop inside
  have counted := steady.counted
  have length : stream.outbox.oldest = stream.outbox.nextSeq - stream.outbox.entries.length := rfl
  cases isStart : stream.start with
  | none =>
    obtain ⟨noneGiven, _, isTail⟩ := steady.fresh isStart
    have whole : stream.sliceStart = 0 := by
      rw [sliceStart, isTail]
      change (0 - stream.outbox.oldest).toNat = 0
      omega
    rw [whole, List.drop_zero, Nat.cast_zero, add_zero] at slice
    rw [whole, List.drop_zero, Option.none_or]
    split
    next empty => exact ⟨counted, fun _ => ⟨noneGiven, List.isEmpty_iff.mp empty, isTail⟩, by rintro _ ⟨⟩⟩
    next nonempty =>
      refine ⟨counted, by rintro ⟨⟩, ?_⟩
      rintro first ⟨⟩
      simp only [noneGiven, List.nil_append]
      exact ⟨slice, by omega, .inr ⟨trivial, by simpa using nonempty⟩⟩
  | some first =>
    obtain ⟨isTail, published⟩ := steady.position idle isStart
    have reached : stream.outbox.oldest ≤ first + stream.given.length := by simpa [isTail] using unbroken
    have isNext : stream.outbox.oldest + stream.sliceStart = first + stream.given.length := by
      rw [sliceStart, isTail]
      change _ + ((first + stream.given.length - _).toNat : Int) = _
      omega
    obtain ⟨numbered, _⟩ := steady.numbered first isStart
    rw [idle, List.append_nil] at numbered
    refine ⟨counted, by rintro ⟨⟩, ?_⟩
    rintro first ⟨⟩
    refine ⟨numbered.append (isNext ▸ slice), ?_, .inl isTail⟩
    simp only [List.length_append, List.length_drop]
    omega

theorem Steady.give : (stream.perform .give).Steady := by
  unfold perform
  cases isBatch : stream.batch with
  | nil => exact steady
  | cons envelope rest =>
    refine ⟨steady.counted, fun isStart => ?_, fun first isStart => ?_⟩
    · have none := (steady.fresh isStart).2.1
      rw [isBatch] at none
      cases none
    obtain ⟨numbered, published, _⟩ := steady.numbered first isStart
    rw [isBatch] at numbered published
    have here := numbered.drop (k := stream.given.length) (by simp)
    rw [List.drop_left] at here
    have isHere : envelope.cursor.seq = first + stream.given.length := here.1
    have isTail : envelope.cursor.seq + 1 = first + (stream.given ++ [envelope]).length := by
      rw [isHere, List.length_append, List.length_singleton, Nat.cast_add, add_assoc]
      rfl
    simp only [isTail, List.append_assoc, List.singleton_append]
    exact ⟨numbered, published, .inl trivial⟩

theorem Steady.perform (action : MemoryStreamAction) : (stream.perform action).Steady := by
  cases action with
  | poll => exact steady.poll
  | give => exact steady.give
  | bridge action =>
    obtain ⟨older, more⟩ := oldest_perform stream.outbox action
    refine ⟨steady.counted.trans older, steady.fresh, fun first isStart => ?_⟩
    obtain ⟨numbered, published, position⟩ := steady.numbered first isStart
    exact ⟨numbered, published.trans more, position⟩

end

theorem steady_foldl (steady : stream.Steady) (actions : List MemoryStreamAction) :
    (actions.foldl perform stream).Steady := by
  induction actions generalizing stream with
  | nil => exact steady
  | cons action rest ih => exact ih (steady.perform action)

/-- Where a stream starts does not change once it is known. -/
theorem start_foldl {first : Int} (isStart : stream.start = some first) (actions : List MemoryStreamAction) :
    (actions.foldl perform stream).start = some first := by
  induction actions generalizing stream with
  | nil => exact isStart
  | cons action rest ih =>
    refine ih ?_
    unfold perform
    split
    · exact isStart
    · simp only [isStart, Option.some_or]
      split <;> [exact isStart; split <;> rfl]
    · split <;> exact isStart

/-- The round that meets the gap ends the stream. -/
theorem ended_of_missed {expected : Int} (isExpected : stream.tail.expectedSeq = some expected)
    (missed : expected < stream.outbox.oldest) (idle : stream.batch = []) :
    (stream.perform .poll).ended = true := by
  unfold perform
  dsimp only
  split
  next isOver => simpa [idle] using isOver
  · simp [isExpected, missed]

/-- A stream whose next number was trimmed away hands out nothing more. -/
theorem given_of_missed {expected : Int} (isExpected : stream.tail.expectedSeq = some expected)
    (missed : expected < stream.outbox.oldest) (idle : stream.batch = []) (more : List MemoryStreamAction) :
    (more.foldl perform stream).given = stream.given := by
  induction more generalizing stream with
  | nil => rfl
  | cons action rest ih =>
    cases action with
    | bridge action => exact ih isExpected (missed.trans_le (oldest_perform _ action).1) idle
    | give =>
      have same : stream.perform .give = stream := by simp [perform, idle]
      rw [List.foldl_cons, same]
      exact ih isExpected missed idle
    | poll =>
      obtain ⟨ended, ends⟩ : ∃ ended, stream.perform .poll = { stream with ended } := by
        unfold perform
        dsimp only
        split
        · exact ⟨stream.ended, rfl⟩
        · exact ⟨true, by simp [isExpected, missed]⟩
      rw [List.foldl_cons, ends]
      exact ih isExpected missed idle

theorem counted_foldl (epoch : Int) (cap : Option Nat) (history : List BridgeAction) :
    0 ≤ (history.foldl MemoryOutbox.perform (.new epoch cap)).oldest := by
  have start : 0 ≤ (MemoryOutbox.new epoch cap).oldest := le_refl 0
  generalize MemoryOutbox.new epoch cap = outbox at start ⊢
  induction history generalizing outbox with
  | nil => exact start
  | cons action rest ih => exact ih _ (start.trans (oldest_perform outbox action).1)

theorem steady_opened {outbox : MemoryOutbox} {cursor : Option EventCursor} {tail : Tail}
    (counted : 0 ≤ outbox.oldest) (accepted : outbox.subscribeFrom cursor = .ok tail) :
    (opened outbox cursor tail).Steady := by
  unfold MemoryOutbox.subscribeFrom at accepted
  cases cursor with
  | none =>
    cases accepted
    exact ⟨counted, fun _ => ⟨rfl, rfl, rfl⟩, by rintro _ ⟨⟩⟩
  | some cursor =>
    dsimp only at accepted
    split at accepted
    · cases accepted
    next inRange =>
      cases accepted
      refine ⟨counted, by rintro ⟨⟩, ?_⟩
      rintro first ⟨⟩
      simp only [MemoryOutbox.outOfRange, Bool.or_eq_true, decide_eq_true_eq, not_or, not_le] at inRange
      refine ⟨trivial, ?_, .inl ?_⟩
      · simpa [opened] using Int.add_one_le_of_lt inRange.2
      · simp [opened]

/-- For every cap and every order of the steps, a stream hands out consecutive numbers from where it starts. -/
theorem memory_stream_gap_free (epoch : Int) (cap : Option Nat) (history : List BridgeAction)
    (cursor : Option EventCursor) (tail : Tail)
    (accepted : (history.foldl MemoryOutbox.perform (.new epoch cap)).subscribeFrom cursor = .ok tail)
    (actions : List MemoryStreamAction) :
    let stream := actions.foldl perform
      (opened (history.foldl MemoryOutbox.perform (.new epoch cap)) cursor tail)
    (∀ first ∈ stream.start, stream.given.map (fun envelope => envelope.cursor.seq) =
      (List.range stream.given.length).map fun i : Nat => first + i) ∧
    (stream.start = none → stream.given = []) ∧
    (∀ cursor' ∈ cursor, stream.start = some (cursor'.seq + 1)) ∧
    (stream.given.map fun envelope => envelope.cursor.seq).Nodup ∧
    (stream.batch = [] → stream.sliceStart ≤ stream.outbox.entries.length) ∧
    ∀ expected ∈ stream.tail.expectedSeq, expected < stream.outbox.oldest → stream.batch = [] →
      (stream.perform .poll).ended = true ∧
        ∀ more : List MemoryStreamAction, (more.foldl perform stream).given = stream.given := by
  intro stream
  have steady : stream.Steady := steady_foldl (steady_opened (counted_foldl epoch cap history) accepted) actions
  have numbers : ∀ first ∈ stream.start, stream.given.map (fun envelope => envelope.cursor.seq) =
      (List.range stream.given.length).map fun i : Nat => first + i := by
    intro first isStart
    have numbered := (steady.numbered first isStart).1.take stream.given.length
    rw [List.take_left] at numbered
    exact numbered.map_eq
  refine ⟨numbers, fun isStart => (steady.fresh isStart).1, ?_, ?_, steady.sliceStart_le,
    fun expected isExpected missed idle => ⟨ended_of_missed isExpected missed idle,
      given_of_missed isExpected missed idle⟩⟩
  · intro cursor' isCursor
    exact start_foldl (by rw [opened, isCursor]; rfl) actions
  cases isStart : stream.start with
  | none =>
    rw [(steady.fresh isStart).1]
    exact List.nodup_nil
  | some first =>
    rw [numbers first isStart]
    exact List.nodup_range.map fun i j same => by simpa using same

/-- A queue that keeps one entry, and a stream that resumes behind entry 0. -/
def oneRetained (actions : List MemoryStreamAction) : MemoryStream :=
  actions.foldl perform
    (opened ([.publish (.notice 1) 1, .publish (.notice 1) 2].foldl MemoryOutbox.perform (.new 7 (some 1)))
      (some ⟨7, 0, 1⟩) ⟨1, some 1⟩)

/-- Entry 1 is trimmed after the stream copied it, and handed out all the same. -/
theorem trimmed_entry_given :
    let copied := oneRetained [.poll, .bridge (.publish (.notice 1) 3)]
    copied.given = [] ∧ copied.outbox.oldest = 2 ∧ (copied.perform .give).ended = false ∧
      (copied.perform .give).given.map (fun envelope => envelope.cursor.seq) = [1] := by
  decide

/-- Entry 2 is trimmed before the stream copied it: the next round ends the stream. -/
theorem memory_stream_gap_free_oneRetained :
    ((oneRetained [.poll, .give, .bridge (.publish (.notice 1) 3), .bridge (.publish (.notice 1) 4)]).perform
      .poll).ended = true :=
  ((memory_stream_gap_free 7 (some 1) [.publish (.notice 1) 1, .publish (.notice 1) 2]
    (some ⟨7, 0, 1⟩) ⟨1, some 1⟩ rfl [.poll, .give, .bridge (.publish (.notice 1) 3),
      .bridge (.publish (.notice 1) 4)]).2.2.2.2.2 2 rfl (by decide) rfl).1

end MemoryStream

end EthPayServer.Outbox
