import EthPayServer.Outbox.Redis
import EthPayServer.Lib.Numbered

/-!
# The in-memory outbox beside the Redis outbox

`MemoryBridge` keeps its events in a queue behind a mutex and numbers them from
zero, `RedisBridge` in a stream that it numbers from one.  Both refuse to resume
where events were trimmed away.  They differ in what else they refuse: the
queue knows where it ends but does not ask for the epoch, the stream asks for
the epoch but does not ask where it ends.
-/

namespace EthPayServer.Outbox

open Lib
open Evm (MonitorEvent)

structure EventEnvelope where
  chainId : Nat
  cursor : EventCursor
  event : MonitorEvent
deriving DecidableEq

/-- The errors of `subscribe_from`. -/
inductive EvmError where
  | eventStreamOutOfRange (message : String)
deriving DecidableEq, Repr

/-! ## The queue -/

structure MemoryOutbox where
  epoch : Int
  /-- oldest first -/
  entries : List EventEnvelope
  nextSeq : Int
  /-- `none` is unbounded -/
  maxRetained : Option Nat
  numbered : Numbered (fun envelope => envelope.cursor.seq) (nextSeq - entries.length) entries

/-- The variables of an open stream. -/
structure Tail where
  nextSeq : Int
  expectedSeq : Option Int
deriving DecidableEq

namespace MemoryOutbox

def new (epoch : Int) (maxRetained : Option Nat) : MemoryOutbox := ⟨epoch, [], 0, maxRetained, trivial⟩

def envelope (outbox : MemoryOutbox) (event : MonitorEvent) (blockHeight : Int) : EventEnvelope :=
  ⟨event.chainId, ⟨outbox.epoch, outbox.nextSeq, blockHeight⟩, event⟩

/-- How many entries are popped once one more is there. -/
def excess (outbox : MemoryOutbox) : Nat :=
  match outbox.maxRetained with
  | none => 0
  | some max => outbox.entries.length + 1 - max

theorem excess_le (outbox : MemoryOutbox) : outbox.excess ≤ outbox.entries.length + 1 := by
  unfold excess
  split <;> omega

def publish (outbox : MemoryOutbox) (event : MonitorEvent) (blockHeight : Int) : MemoryOutbox where
  epoch := outbox.epoch
  entries := (outbox.entries ++ [outbox.envelope event blockHeight]).drop outbox.excess
  nextSeq := outbox.nextSeq + 1
  maxRetained := outbox.maxRetained
  numbered := by
    have all : Numbered (fun envelope => envelope.cursor.seq) (outbox.nextSeq - outbox.entries.length)
        (outbox.entries ++ [outbox.envelope event blockHeight]) :=
      outbox.numbered.append_singleton (by simp [envelope])
    have inside := outbox.excess_le
    have kept := all.drop (k := outbox.excess) (by simpa using inside)
    simp only [List.length_drop, List.length_append, List.length_singleton]
    rwa [show outbox.nextSeq + 1 - ((outbox.entries.length + 1 - outbox.excess : Nat) : Int) =
      outbox.nextSeq - outbox.entries.length + outbox.excess by omega]

def bumpEpoch (outbox : MemoryOutbox) : MemoryOutbox := { outbox with epoch := outbox.epoch + 1 }

/-- The number of the oldest entry that is retained. -/
def oldest (outbox : MemoryOutbox) : Int := outbox.nextSeq - outbox.entries.length

/-- The cursor is behind what is retained, or beyond what was published. -/
def outOfRange (outbox : MemoryOutbox) (cursor : EventCursor) : Bool :=
  cursor.seq < outbox.oldest - 1 || outbox.nextSeq ≤ cursor.seq

def subscribeFrom (outbox : MemoryOutbox) (cursor : Option EventCursor) : Except EvmError Tail :=
  match cursor with
  | some cursor =>
    if outbox.outOfRange cursor then
      .error (.eventStreamOutOfRange
        (s!"resume at seq {cursor.seq} is outside the retained range " ++
          s!"(seq {outbox.oldest}..{outbox.nextSeq})"))
    else .ok ⟨cursor.seq + 1, some (cursor.seq + 1)⟩
  | none => .ok ⟨0, none⟩

/-- What the stream yields in some rounds of its loop; it waits when nothing is left. -/
def drain (outbox : MemoryOutbox) : Nat → Tail → List EventEnvelope
  | 0, _ => []
  | rounds + 1, tail =>
    if tail.expectedSeq.any (· < outbox.oldest) then []
    else
      let batch := outbox.entries.drop (tail.nextSeq - outbox.oldest).toNat
      match batch.getLast? with
      | none => []
      | some last => batch ++ outbox.drain rounds ⟨last.cursor.seq + 1, some (last.cursor.seq + 1)⟩

/-- The first round yields everything there is, and the rounds after it nothing. -/
theorem drain_eq (outbox : MemoryOutbox) (tail : Tail)
    (behind : ∀ expected ∈ tail.expectedSeq, outbox.oldest ≤ expected)
    (inside : tail.nextSeq ≤ outbox.nextSeq) (rounds : Nat) :
    outbox.drain (rounds + 1) tail = outbox.entries.drop (tail.nextSeq - outbox.oldest).toNat := by
  have within : (tail.nextSeq - outbox.oldest).toNat ≤ outbox.entries.length := by
    unfold oldest
    omega
  have unbroken : tail.expectedSeq.any (· < outbox.oldest) = false := by
    cases isExpected : tail.expectedSeq with
    | none => rfl
    | some expected => simpa using behind expected isExpected
  rw [drain, unbroken]
  simp only [Bool.false_eq_true, if_false]
  cases isLast : (outbox.entries.drop (tail.nextSeq - outbox.oldest).toNat).getLast? with
  | none => simpa using (List.getLast?_eq_none_iff.mp isLast).symm
  | some last =>
    have number := (outbox.numbered.drop within).getLast? isLast
    rw [List.length_drop] at number
    have atEnd : last.cursor.seq + 1 = outbox.nextSeq := by
      rw [number]
      omega
    cases rounds with
    | zero => simp [drain]
    | succ rounds =>
      have atOldest : (outbox.nextSeq - outbox.oldest).toNat = outbox.entries.length := by
        unfold oldest
        omega
      dsimp only
      rw [atEnd, drain]
      simp only [atOldest, List.drop_length, List.getLast?_nil]
      split <;> simp

end MemoryOutbox

/-! ## The stream -/

def Entry.envelope (entry : Entry) : EventEnvelope := ⟨entry.chainId, entry.cursor, entry.event⟩

namespace Redis

/-- `get_or_init_epoch`, with the epoch it would draw. -/
def getOrInitEpoch (redis : Redis) (candidate : Int) : Int × Redis :=
  match redis.epoch with
  | some epoch => (epoch, redis)
  | none => (candidate, redis.setNx candidate)

def subscribeFrom (redis : Redis) (candidate : Int) (cursor : Option EventCursor) :
    Except EvmError Subscription × Redis :=
  let (subscribedEpoch, redis) := redis.getOrInitEpoch candidate
  match cursor with
  | none => (.ok ⟨subscribedEpoch, 0, none⟩, redis)
  | some cursor =>
    if cursor.epoch ≠ subscribedEpoch then
      (.error (.eventStreamOutOfRange
        (s!"resume cursor names epoch {cursor.epoch} but the outbox " ++ s!"is at epoch {subscribedEpoch}")), redis)
    else
      match redis.oldestRetainedSeq with
      | some oldest =>
        if cursor.seq + 1 < oldest then
          (.error (.eventStreamOutOfRange
            (s!"resume at seq {cursor.seq} is behind the oldest " ++ s!"retained entry (seq {oldest})")), redis)
        else (.ok ⟨subscribedEpoch, cursor.seq, some (cursor.seq + 1)⟩, redis)
      | none => (.ok ⟨subscribedEpoch, cursor.seq, some (cursor.seq + 1)⟩, redis)

end Redis

/-- Hand out a batch; `none` when the stream ends at a gap. -/
def Subscription.yieldBatch (subscription : Subscription) : List Entry → List Entry × Option Subscription
  | [] => ([], some subscription)
  | entry :: batch =>
    if isSeqGap subscription.expectedSeq entry.seq then ([], none)
    else
      let rest := Subscription.yieldBatch ⟨subscription.subscribedEpoch, entry.seq, some (entry.seq + 1)⟩ batch
      (entry :: rest.1, rest.2)

/-- What the stream yields in some rounds of its loop, while nothing is published. -/
def Redis.drain (redis : Redis) : Nat → Subscription → List Entry
  | 0, _ => []
  | rounds + 1, subscription =>
    if epochUnchanged redis subscription.subscribedEpoch then
      match subscription.yieldBatch (redis.xread subscription.lastId) with
      | (given, none) => given
      | (given, some next) => given ++ redis.drain rounds next
    else []

variable {subscription : Subscription}

/-- A batch without a gap is handed out whole. -/
theorem Subscription.yieldBatch_numbered {base : Int} {first : Entry} {batch : List Entry}
    (numbered : Numbered Entry.seq base (first :: batch))
    (expected : ∀ seq ∈ subscription.expectedSeq, seq = base) :
    subscription.yieldBatch (first :: batch) = (first :: batch, some ⟨subscription.subscribedEpoch,
      base + batch.length, some (base + batch.length + 1)⟩) := by
  have unbroken : isSeqGap subscription.expectedSeq first.seq = false := by
    cases isExpected : subscription.expectedSeq with
    | none => rfl
    | some seq => simp [isSeqGap, numbered.1, expected seq isExpected]
  induction batch generalizing subscription base first with
  | nil =>
    rw [numbered.1] at unbroken
    simp [yieldBatch, unbroken, numbered.1]
  | cons second batch ih =>
    have isSecond : second.seq = base + 1 := numbered.2.1
    rw [yieldBatch, unbroken]
    simp only [Bool.false_eq_true, if_false]
    rw [ih numbered.2 (by simp [numbered.1]) (by simp [isSeqGap, numbered.1, isSecond])]
    simp only [List.length_cons]
    push_cast
    simp only [Prod.mk.injEq, Option.some.injEq, Subscription.mk.injEq, true_and]
    omega

namespace Redis

variable {redis : Redis} {base : Int}

/-- What the subscriber still has to see. -/
def remaining (redis : Redis) (lastId : Int) : List Entry := redis.stream.filter fun entry => lastId < entry.seq

/-- The entry the subscriber expects has not been trimmed away. -/
def Follows (base : Int) (subscription : Subscription) : Prop :=
  ∀ seq ∈ subscription.expectedSeq, seq = subscription.lastId + 1 ∧ base ≤ seq

theorem nextBatch (numbered : Numbered Entry.seq base redis.stream) {lastId : Int} {first : Entry}
    {more : List Entry} (isRest : redis.remaining lastId = redis.stream.drop (lastId + 1 - base).toNat)
    (rest : redis.remaining lastId = first :: more) :
    redis.remaining (base + ((lastId + 1 - base).toNat : Int) + ((more.take 499).length : Int)) =
      (first :: more).drop 500 := by
  rw [remaining, numbered.filter_lt, ← rest, isRest, List.drop_drop, List.length_take]
  have more_eq : more.length + 1 = redis.stream.length - (lastId + 1 - base).toNat := by
    rw [← List.length_drop, ← isRest, rest, List.length_cons]
  by_cases long : 499 ≤ more.length
  · congr 1
    omega
  · rw [List.drop_eq_nil_of_le (by omega), List.drop_eq_nil_of_le (by omega)]

/-- Every round hands out the next 500 entries. -/
theorem drain_eq (numbered : Numbered Entry.seq base redis.stream)
    (current : redis.epoch = some subscription.subscribedEpoch) (follows : Follows base subscription)
    (rounds : Nat) :
    redis.drain rounds subscription = (redis.remaining subscription.lastId).take (500 * rounds) := by
  induction rounds generalizing subscription with
  | zero => simp [drain]
  | succ rounds ih =>
    have unchanged : epochUnchanged redis subscription.subscribedEpoch = true := by
      simp [epochUnchanged, current]
    rw [drain, if_pos unchanged]
    have isRest : redis.remaining subscription.lastId =
        redis.stream.drop (subscription.lastId + 1 - base).toNat := numbered.filter_lt _
    have isBatch : redis.xread subscription.lastId = (redis.remaining subscription.lastId).take 500 := rfl
    rw [isBatch, show 500 * (rounds + 1) = 500 + 500 * rounds by omega, List.take_add]
    cases rest : redis.remaining subscription.lastId with
    | nil =>
      have later := ih current follows
      rw [rest] at later
      simpa [Subscription.yieldBatch] using later
    | cons first more =>
      have inside : (subscription.lastId + 1 - base).toNat ≤ redis.stream.length := by
        by_contra outside
        rw [isRest, List.drop_eq_nil_of_le (by omega)] at rest
        cases rest
      have restNumbered := numbered.drop inside
      rw [← isRest, rest] at restNumbered
      have batchNumbered := restNumbered.take 500
      rw [List.take_succ_cons] at batchNumbered ⊢
      rw [Subscription.yieldBatch_numbered batchNumbered]
      · refine congrArg (first :: more.take 499 ++ ·) ((ih (by exact current) ?_).trans ?_)
        · rintro seq ⟨⟩
          exact ⟨rfl, by omega⟩
        · rw [nextBatch numbered isRest rest]
      · intro seq isExpected
        have := follows seq isExpected
        omega

end Redis

/-! ## Both at once -/

structure Bridges where
  memory : MemoryOutbox
  redis : Redis

inductive BridgeAction where
  | publish (event : MonitorEvent) (blockHeight : Int)
  | bumpEpoch

/-- A position of the queue as a position of the stream: epochs are identified, numbers start one later. -/
def EventCursor.align (identify : Int → Int) (cursor : EventCursor) : EventCursor :=
  ⟨identify cursor.epoch, cursor.seq + 1, cursor.blockHeight⟩

def EventEnvelope.align (identify : Int → Int) (envelope : EventEnvelope) : EventEnvelope :=
  { envelope with cursor := envelope.cursor.align identify }

namespace Bridges

/-- The same on both; Redis trims exactly, and draws the epoch that stands for the queue's. -/
def perform (identify : Int → Int) (cap : Nat) (bridges : Bridges) : BridgeAction → Bridges
  | .publish event blockHeight =>
    ⟨bridges.memory.publish event blockHeight,
      bridges.redis.publish event blockHeight (identify bridges.memory.epoch) bridges.redis.log.length
        (bridges.redis.stream.length + 1 - cap)⟩
  | .bumpEpoch =>
    ⟨bridges.memory.bumpEpoch, bridges.redis.bumpEpoch (identify bridges.memory.bumpEpoch.epoch)⟩

def after (identify : Int → Int) (cap : Nat) (epoch : Int) (history : List BridgeAction) : Bridges :=
  history.foldl (perform identify cap) ⟨.new epoch (some cap), .empty⟩

/-- `subscribe_from` on the stream; a missing epoch is drawn as the one that stands for the queue's. -/
def subscribeRedis (identify : Int → Int) (bridges : Bridges) (cursor : Option EventCursor) :
    Except EvmError Subscription × Redis :=
  bridges.redis.subscribeFrom (identify bridges.memory.epoch) (cursor.map (EventCursor.align identify))

structure Aligned (identify : Int → Int) (cap : Nat) (bridges : Bridges) : Prop where
  capped : bridges.memory.maxRetained = some cap
  counted : 0 ≤ bridges.memory.oldest
  seq : bridges.redis.seq = bridges.memory.nextSeq
  epoch : ∀ epoch ∈ bridges.redis.epoch, epoch = identify bridges.memory.epoch
  stream : bridges.redis.stream.map Entry.envelope = bridges.memory.entries.map (EventEnvelope.align identify)

section Alignment

variable {identify : Int → Int} {cap : Nat} {bridges : Bridges}

section

variable (aligned : bridges.Aligned identify cap)
include aligned

theorem Aligned.length : bridges.redis.stream.length = bridges.memory.entries.length := by
  have same := congrArg List.length aligned.stream
  simpa using same

theorem Aligned.getD_epoch :
    bridges.redis.epoch.getD (identify bridges.memory.epoch) = identify bridges.memory.epoch := by
  cases isEpoch : bridges.redis.epoch with
  | none => rfl
  | some epoch => exact aligned.epoch epoch isEpoch

theorem Aligned.publish (event : MonitorEvent) (blockHeight : Int) :
    (bridges.perform identify cap (.publish event blockHeight)).Aligned identify cap := by
  have excess : bridges.memory.excess = bridges.redis.stream.length + 1 - cap := by
    unfold MemoryOutbox.excess
    rw [aligned.capped, aligned.length]
  refine ⟨aligned.capped, ?_, ?_, ?_, ?_⟩
  · have before := aligned.counted
    have few := bridges.memory.excess_le
    simp only [perform, MemoryOutbox.oldest, MemoryOutbox.publish, List.length_drop, List.length_append,
      List.length_singleton] at before ⊢
    omega
  · simp only [perform, Redis.publish, MemoryOutbox.publish, aligned.seq]
  · intro epoch isEpoch
    simp only [perform, Redis.publish] at isEpoch
    have same := aligned.getD_epoch
    cases isNone : bridges.redis.epoch with
    | none =>
      rw [isNone] at isEpoch
      exact (Option.some.inj isEpoch).symm
    | some old =>
      rw [isNone] at isEpoch same
      exact (Option.some.inj isEpoch).symm.trans same
  · simp only [perform, Redis.publish, MemoryOutbox.publish, List.map_drop, List.map_append, aligned.stream,
      excess, List.map_singleton]
    simp only [Redis.nextEntry, Entry.envelope, Entry.cursor, MemoryOutbox.envelope, EventEnvelope.align,
      EventCursor.align, aligned.getD_epoch, aligned.seq]

theorem Aligned.bumpEpoch : (bridges.perform identify cap .bumpEpoch).Aligned identify cap := by
  refine ⟨aligned.capped, aligned.counted, aligned.seq, ?_, aligned.stream⟩
  rintro epoch ⟨⟩
  rfl

end

/-- Whatever happened to both, they hold the same events. -/
theorem aligned_after (identify : Int → Int) (cap : Nat) (epoch : Int) (history : List BridgeAction) :
    (after identify cap epoch history).Aligned identify cap := by
  have start : Aligned identify cap ⟨.new epoch (some cap), .empty⟩ :=
    ⟨rfl, le_refl _, rfl, by rintro _ ⟨⟩, rfl⟩
  unfold after
  generalize (⟨.new epoch (some cap), .empty⟩ : Bridges) = bridges at start ⊢
  induction history generalizing bridges with
  | nil => exact start
  | cons action rest ih =>
    cases action with
    | publish event blockHeight => exact ih _ (start.publish event blockHeight)
    | bumpEpoch => exact ih _ start.bumpEpoch

section

variable (aligned : bridges.Aligned identify cap)
include aligned

theorem Aligned.numbered : Numbered Entry.seq (bridges.memory.oldest + 1) bridges.redis.stream := by
  have queue : Numbered (fun envelope => envelope.cursor.seq) (bridges.memory.oldest + 1)
      (bridges.memory.entries.map (EventEnvelope.align identify)) :=
    Numbered.map_iff.mpr (bridges.memory.numbered.shift fun _ => rfl)
  rw [← aligned.stream] at queue
  exact (Numbered.map_iff (f := Entry.envelope)).mp queue

/-- The first number of the stream. -/
theorem Aligned.oldestRetainedSeq :
    bridges.redis.oldestRetainedSeq =
      if bridges.memory.entries = [] then none else some (bridges.memory.oldest + 1) := by
  have numbered := aligned.numbered
  have length := aligned.length
  unfold Redis.oldestRetainedSeq
  cases isStream : bridges.redis.stream with
  | nil =>
    rw [isStream] at length
    rw [if_pos (List.length_eq_zero_iff.mp length.symm)]
    rfl
  | cons first rest =>
    rw [isStream] at numbered length
    rw [if_neg (by rintro none; simp [none] at length), ← numbered.1]
    rfl

theorem Aligned.getOrInitEpoch :
    ∃ redis, bridges.redis.getOrInitEpoch (identify bridges.memory.epoch) =
        (identify bridges.memory.epoch, redis) ∧
      redis.epoch = some (identify bridges.memory.epoch) ∧ redis.stream = bridges.redis.stream := by
  unfold Redis.getOrInitEpoch
  cases isEpoch : bridges.redis.epoch with
  | none => exact ⟨_, rfl, by simp [Redis.setNx, isEpoch], rfl⟩
  | some epoch =>
    have same := aligned.epoch epoch isEpoch
    exact ⟨bridges.redis, by rw [same], by rw [isEpoch, same], rfl⟩

end

/-- The stream refuses a cursor of another epoch, and one behind what it retains. -/
def refusedByRedis (bridges : Bridges) (cursor : EventCursor) : Bool :=
  cursor.epoch ≠ bridges.memory.epoch ||
    (!bridges.memory.entries.isEmpty && decide (cursor.seq + 1 < bridges.memory.oldest))

/-- What `subscribe_from` answers on the stream, and the store it leaves. -/
theorem Aligned.subscribe (injective : Function.Injective identify) (aligned : bridges.Aligned identify cap)
    (cursor : EventCursor) :
    ∃ redis, (bridges.subscribeRedis identify (some cursor)).2 = redis ∧
      redis.epoch = some (identify bridges.memory.epoch) ∧ redis.stream = bridges.redis.stream ∧
      if bridges.refusedByRedis cursor then
        ∃ message, (bridges.subscribeRedis identify (some cursor)).1 = .error (.eventStreamOutOfRange message)
      else (bridges.subscribeRedis identify (some cursor)).1 =
        .ok ⟨identify bridges.memory.epoch, cursor.seq + 1, some (cursor.seq + 1 + 1)⟩ := by
  obtain ⟨redis, found, current, same⟩ := aligned.getOrInitEpoch
  have oldest : redis.oldestRetainedSeq =
      if bridges.memory.entries = [] then none else some (bridges.memory.oldest + 1) := by
    rw [← aligned.oldestRetainedSeq, Redis.oldestRetainedSeq, same, Redis.oldestRetainedSeq]
  refine ⟨redis, ?_⟩
  unfold subscribeRedis Redis.subscribeFrom refusedByRedis
  rw [found]
  simp only [Option.map_some, EventCursor.align, oldest]
  by_cases sameEpoch : cursor.epoch = bridges.memory.epoch
  · by_cases empty : bridges.memory.entries = []
    · simp [sameEpoch, empty, current, same]
    · by_cases behind : cursor.seq + 1 < bridges.memory.oldest
      · simp [sameEpoch, empty, behind, current, same]
      · simp [sameEpoch, empty, behind, current, same]
  · simp [sameEpoch, injective.ne sameEpoch, current, same]

theorem Aligned.drain (aligned : bridges.Aligned identify cap) {redis : Redis}
    (current : redis.epoch = some subscription.subscribedEpoch) (same : redis.stream = bridges.redis.stream)
    (follows : Redis.Follows (bridges.memory.oldest + 1) subscription) {rounds : Nat}
    (enough : bridges.memory.entries.length ≤ 500 * rounds) :
    (redis.drain rounds subscription).map Entry.envelope =
      (bridges.memory.entries.drop (subscription.lastId - bridges.memory.oldest).toNat).map
        (EventEnvelope.align identify) := by
  have numbered := aligned.numbered
  rw [← same] at numbered
  rw [Redis.drain_eq numbered current follows, Redis.remaining, numbered.filter_lt, List.take_of_length_le]
  · rw [same, List.map_drop, aligned.stream, List.map_drop]
    congr 2
    omega
  · rw [same, List.length_drop, aligned.length]
    omega

end Alignment

end Bridges

/-! ## Which cursors they accept -/

/-- `subscribe_from` answers that the cursor is out of range. -/
def Refuses {α : Type} (answer : Except EvmError α) : Prop :=
  ∃ message, answer = .error (.eventStreamOutOfRange message)

variable {cursor : EventCursor}

theorem refuses_memory {outbox : MemoryOutbox} :
    Refuses (outbox.subscribeFrom (some cursor)) ↔
      cursor.seq + 1 < outbox.oldest ∨ outbox.nextSeq ≤ cursor.seq := by
  unfold Refuses MemoryOutbox.subscribeFrom
  have test : outbox.outOfRange cursor = true ↔
      cursor.seq + 1 < outbox.oldest ∨ outbox.nextSeq ≤ cursor.seq := by
    simp only [MemoryOutbox.outOfRange, Bool.or_eq_true, decide_eq_true_eq]
    omega
  dsimp only
  split
  next refused => exact ⟨fun _ => test.mp refused, fun _ => ⟨_, rfl⟩⟩
  next accepted => exact ⟨by rintro ⟨_, ⟨⟩⟩, fun refused => absurd (test.mpr refused) accepted⟩

theorem subscribeFrom_ok {outbox : MemoryOutbox} {tail : Tail}
    (accepted : outbox.subscribeFrom (some cursor) = .ok tail) :
    tail = ⟨cursor.seq + 1, some (cursor.seq + 1)⟩ ∧ outbox.oldest ≤ cursor.seq + 1 ∧
      cursor.seq < outbox.nextSeq := by
  have inRange : ¬ Refuses (outbox.subscribeFrom (some cursor)) := by
    rintro ⟨message, refused⟩
    rw [accepted] at refused
    cases refused
  rw [refuses_memory] at inRange
  unfold MemoryOutbox.subscribeFrom at accepted
  dsimp only at accepted
  split at accepted
  · cases accepted
  · cases accepted
    exact ⟨rfl, by omega, by omega⟩

/--
A cursor both bridges judge alike: one of the current epoch is at or before the
last event that was published, and at it if none is retained; one of another
epoch is outside the range of the queue.
-/
structure Comparable (outbox : MemoryOutbox) (cursor : EventCursor) : Prop where
  published : cursor.epoch = outbox.epoch → cursor.seq < outbox.nextSeq
  retained : cursor.epoch = outbox.epoch → outbox.entries = [] → outbox.nextSeq ≤ cursor.seq + 1
  foreign : cursor.epoch ≠ outbox.epoch → cursor.seq + 1 < outbox.oldest ∨ outbox.nextSeq ≤ cursor.seq

section Agreement

variable {identify : Int → Int} {cap : Nat} {bridges : Bridges}

variable (injective : Function.Injective identify)
include injective

variable (aligned : bridges.Aligned identify cap)
include aligned

theorem refuses_redis :
    Refuses (bridges.subscribeRedis identify (some cursor)).1 ↔ bridges.refusedByRedis cursor = true := by
  obtain ⟨redis, -, -, -, answer⟩ := aligned.subscribe injective cursor
  split at answer
  next refused => exact ⟨fun _ => refused, fun _ => answer⟩
  next accepted =>
    refine ⟨?_, fun refused => absurd refused accepted⟩
    rintro ⟨message, refused⟩
    rw [answer] at refused
    cases refused

theorem agree_of_aligned (comparable : Comparable bridges.memory cursor) :
    Refuses (bridges.memory.subscribeFrom (some cursor)) ↔
      Refuses (bridges.subscribeRedis identify (some cursor)).1 := by
  rw [refuses_memory, refuses_redis injective aligned]
  simp only [Bridges.refusedByRedis, Bool.or_eq_true, Bool.and_eq_true, Bool.not_eq_true',
    List.isEmpty_eq_false_iff, decide_eq_true_eq]
  by_cases sameEpoch : cursor.epoch = bridges.memory.epoch
  · have published := comparable.published sameEpoch
    by_cases empty : bridges.memory.entries = []
    · have last := comparable.retained sameEpoch empty
      have all : bridges.memory.oldest = bridges.memory.nextSeq := by simp [MemoryOutbox.oldest, empty]
      simp only [sameEpoch, empty, ne_eq, not_true_eq_false, false_and, or_self, iff_false]
      omega
    · simp only [sameEpoch, empty, ne_eq, not_true_eq_false, not_false_eq_true, true_and, false_or]
      omega
  · exact ⟨fun _ => .inl sameEpoch, fun _ => comparable.foreign sameEpoch⟩

theorem deliver_alike {cursor : Option EventCursor} {tail : Tail}
    (accepted : bridges.memory.subscribeFrom cursor = .ok tail)
    (acceptedToo : (bridges.subscribeRedis identify cursor).1 = .ok subscription) (rounds : Nat)
    {redisRounds : Nat} (enough : bridges.memory.entries.length ≤ 500 * redisRounds) :
    bridges.memory.drain (rounds + 1) tail =
        bridges.memory.entries.filter (fun envelope => cursor.all fun last => last.seq < envelope.cursor.seq) ∧
      ((bridges.subscribeRedis identify cursor).2.drain redisRounds subscription).map Entry.envelope =
        (bridges.memory.drain (rounds + 1) tail).map (EventEnvelope.align identify) := by
  have counted := aligned.counted
  cases cursor with
  | none =>
    cases accepted
    obtain ⟨redis, found, current, same⟩ := aligned.getOrInitEpoch
    have isOpen : bridges.subscribeRedis identify none = (.ok ⟨identify bridges.memory.epoch, 0, none⟩, redis) := by
      simp only [Bridges.subscribeRedis, Redis.subscribeFrom, found, Option.map_none]
    rw [isOpen] at acceptedToo ⊢
    cases acceptedToo
    have yielded := bridges.memory.drain_eq ⟨0, none⟩ (by rintro _ ⟨⟩) (by
      unfold MemoryOutbox.oldest at counted
      simp only
      omega) rounds
    rw [yielded]
    constructor
    · have all : (0 - bridges.memory.oldest).toNat = 0 := by omega
      rw [all]
      simp
    · exact aligned.drain current same (by rintro _ ⟨⟩) enough
  | some cursor =>
    obtain ⟨rfl, behind, before⟩ := subscribeFrom_ok accepted
    obtain ⟨redis, isStore, current, same, answer⟩ := aligned.subscribe injective cursor
    split at answer
    · obtain ⟨message, refused⟩ := answer
      rw [acceptedToo] at refused
      cases refused
    rw [acceptedToo] at answer
    cases answer
    rw [isStore]
    have yielded := bridges.memory.drain_eq ⟨cursor.seq + 1, some (cursor.seq + 1)⟩
      (by
        rintro _ ⟨⟩
        exact behind) (by
        simp only
        omega) rounds
    rw [yielded]
    constructor
    · exact (bridges.memory.numbered.filter_lt cursor.seq).symm
    · refine aligned.drain current same ?_ enough
      rintro _ ⟨⟩
      exact ⟨rfl, by omega⟩

end Agreement

/--
After every history of publishes and epoch bumps, the two bridges refuse the
same of the cursors they judge alike; and for every cursor, when both accept it,
both deliver the events above it that are retained, in order.
-/
theorem bridges_agree {identify : Int → Int} (injective : Function.Injective identify) (cap : Nat) (epoch : Int)
    (history : List BridgeAction) :
    (∀ cursor, Comparable (Bridges.after identify cap epoch history).memory cursor →
      (Refuses ((Bridges.after identify cap epoch history).memory.subscribeFrom (some cursor)) ↔
        Refuses ((Bridges.after identify cap epoch history).subscribeRedis identify (some cursor)).1)) ∧
    ∀ cursor tail subscription rounds redisRounds,
      (Bridges.after identify cap epoch history).memory.subscribeFrom cursor = .ok tail →
      ((Bridges.after identify cap epoch history).subscribeRedis identify cursor).1 = .ok subscription →
      (Bridges.after identify cap epoch history).memory.entries.length ≤ 500 * redisRounds →
      (Bridges.after identify cap epoch history).memory.drain (rounds + 1) tail =
          (Bridges.after identify cap epoch history).memory.entries.filter
            (fun envelope => cursor.all fun last => last.seq < envelope.cursor.seq) ∧
        (((Bridges.after identify cap epoch history).subscribeRedis identify cursor).2.drain redisRounds
            subscription).map Entry.envelope =
          ((Bridges.after identify cap epoch history).memory.drain (rounds + 1) tail).map
            (EventEnvelope.align identify) := by
  have aligned := Bridges.aligned_after identify cap epoch history
  refine ⟨fun cursor comparable => agree_of_aligned injective aligned comparable, ?_⟩
  intro cursor tail subscription rounds redisRounds accepted acceptedToo enough
  exact deliver_alike injective aligned accepted acceptedToo rounds enough

/-- Two events are published, and the epoch is bumped after the first. -/
def bumped : Bridges :=
  Bridges.after id 5 7 [.publish (.notice 1) 0, .bumpEpoch, .publish (.notice 1) 0]

/--
A cursor of the epoch before is accepted by the queue alone; one beyond the end
by the stream alone; and before anything is published the stream accepts any
cursor of its epoch.
-/
theorem bridges_disagree :
    ¬ Refuses (bumped.memory.subscribeFrom (some ⟨7, 0, 0⟩)) ∧
      Refuses (bumped.subscribeRedis id (some ⟨7, 0, 0⟩)).1 ∧
      Refuses (bumped.memory.subscribeFrom (some ⟨8, 5, 0⟩)) ∧
      ¬ Refuses (bumped.subscribeRedis id (some ⟨8, 5, 0⟩)).1 ∧
      Refuses ((Bridges.after id 5 7 []).memory.subscribeFrom (some ⟨7, 3, 0⟩)) ∧
      ¬ Refuses ((Bridges.after id 5 7 []).subscribeRedis id (some ⟨7, 3, 0⟩)).1 := by
  have aligned : bumped.Aligned id 5 := Bridges.aligned_after id 5 7 _
  have alignedEmpty : (Bridges.after id 5 7 []).Aligned id 5 := Bridges.aligned_after id 5 7 _
  simp only [refuses_memory, refuses_redis Function.injective_id aligned,
    refuses_redis Function.injective_id alignedEmpty]
  decide +kernel

/-- A cursor at the first of the two events. -/
theorem bridges_agree_bumped :
    (Refuses (bumped.memory.subscribeFrom (some ⟨8, 0, 0⟩)) ↔
      Refuses (bumped.subscribeRedis id (some ⟨8, 0, 0⟩)).1) ∧
    bumped.memory.drain 1 ⟨1, some 1⟩ = [⟨1, ⟨8, 1, 0⟩, .notice 1⟩] ∧
    ((bumped.subscribeRedis id (some ⟨8, 0, 0⟩)).2.drain 1 ⟨8, 1, some 2⟩).map Entry.envelope =
      (bumped.memory.drain 1 ⟨1, some 1⟩).map (EventEnvelope.align id) := by
  have agree := bridges_agree Function.injective_id 5 7 [.publish (.notice 1) 0, .bumpEpoch, .publish (.notice 1) 0]
  refine ⟨agree.1 ⟨8, 0, 0⟩ ⟨by decide, by decide, fun other => absurd rfl other⟩, by decide +kernel, ?_⟩
  exact (agree.2 (some ⟨8, 0, 0⟩) ⟨1, some 1⟩ ⟨8, 1, some 2⟩ 0 1 rfl rfl (by decide)).2

end EthPayServer.Outbox
