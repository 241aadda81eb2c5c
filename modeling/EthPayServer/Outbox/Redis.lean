import EthPayServer.Outbox.Cursors
import EthPayServer.Evm.Monitor
import EthPayServer.Lib.Transition

/-!
# The Redis outbox

The events of every monitor go to one Redis stream.  Beside the stream stand a
counter, from which the positions are drawn, and the epoch, a random number
that names the lineage of the positions.  A publish is one atomic script.  A
subscriber compares the epoch, checks that its position is still retained, and
then reads batch after batch; each request is a round trip of its own, and the
store can be lost, or come back from an earlier snapshot, between any two.
-/

namespace EthPayServer.Outbox

open Lib
open Evm (MonitorEvent)

/-! ## The store -/

/-- An entry of the stream; its id is `seq-0`. -/
structure Entry where
  epoch : Int
  seq : Int
  chainId : Nat
  blockHeight : Int
  event : MonitorEvent
  /-- how many entries were published before it, in any store -/
  stamp : Nat
deriving DecidableEq

def Entry.cursor (entry : Entry) : EventCursor := ⟨entry.epoch, entry.seq, entry.blockHeight⟩

/-- The keys of the outbox.  A missing counter counts from zero. -/
structure Redis where
  epoch : Option Int
  seq : Int
  /-- the retained entries, oldest first -/
  stream : List Entry
  /-- every entry that led to this store, trimmed ones included -/
  log : List Entry
  retained : stream <:+ log
  ascending : log.Pairwise fun entry later => entry.seq < later.seq
  counted : ∀ entry ∈ log, entry.seq ≤ seq

namespace Redis

/-- A store without keys. -/
def empty : Redis := ⟨none, 0, [], [], List.suffix_rfl, List.Pairwise.nil, by simp⟩

/-- `SET epoch candidate NX`. -/
def setNx (redis : Redis) (candidate : Int) : Redis :=
  { redis with epoch := redis.epoch.or (some candidate) }

/-- `bump_epoch`. -/
def bumpEpoch (redis : Redis) (newEpoch : Int) : Redis := { redis with epoch := some newEpoch }

/-- The entry the script appends. -/
def nextEntry (redis : Redis) (event : MonitorEvent) (blockHeight candidate : Int) (stamp : Nat) :
    Entry :=
  ⟨redis.epoch.getD candidate, redis.seq + 1, event.chainId, blockHeight, event, stamp⟩

/--
`PUBLISH_SCRIPT`: draw the position, read or set the epoch, append.  The drawn
position is above every id of the stream, so `XADD` accepts it.  The number of
entries that `MAXLEN ~` removes is up to Redis.
-/
def publish (redis : Redis) (event : MonitorEvent) (blockHeight candidate : Int) (stamp trimmed : Nat) :
    Redis where
  epoch := redis.epoch.or (some candidate)
  seq := redis.seq + 1
  stream := (redis.stream ++ [redis.nextEntry event blockHeight candidate stamp]).drop trimmed
  log := redis.log ++ [redis.nextEntry event blockHeight candidate stamp]
  retained := (List.drop_suffix _ _).trans (by
    obtain ⟨gone, isLog⟩ := redis.retained
    exact ⟨gone, by rw [← isLog, List.append_assoc]⟩)
  ascending := by
    refine List.pairwise_append.mpr ⟨redis.ascending, List.pairwise_singleton _ _, ?_⟩
    intro entry mem later new
    rw [List.mem_singleton.mp new]
    have := redis.counted entry mem
    show entry.seq < redis.seq + 1
    omega
  counted := by
    intro entry mem
    rcases List.mem_append.mp mem with old | new
    · have := redis.counted entry old
      omega
    · rw [List.mem_singleton.mp new]
      exact le_rfl

/-- `oldest_retained_seq`. -/
def oldestRetainedSeq (redis : Redis) : Option Int := redis.stream.head?.map Entry.seq

/-- `XREAD COUNT 500`: the entries above an id; none when the wait runs out. -/
def xread (redis : Redis) (lastId : Int) : List Entry :=
  (redis.stream.filter fun entry => lastId < entry.seq).take 500

theorem mem_log_of_mem_xread {redis : Redis} {lastId : Int} {entry : Entry}
    (mem : entry ∈ redis.xread lastId) : entry ∈ redis.log :=
  redis.retained.subset (List.mem_filter.mp (List.mem_of_mem_take mem)).1

end Redis

/-! ## The subscriber -/

def epochUnchanged (redis : Redis) (expected : Int) : Bool := redis.epoch = some expected

def isSeqGap (expectedSeq : Option Int) (seq : Int) : Bool :=
  match expectedSeq with
  | none => false
  | some expected => seq ≠ expected

/-- The variables of an open stream. -/
structure Subscription where
  subscribedEpoch : Int
  lastId : Int
  expectedSeq : Option Int

/-- What `subscribe_from` and its stream do next. -/
inductive Stage where
  /-- nothing: no call is running, no stream is open -/
  | ended
  /-- `SET NX`, as `GET` found no epoch -/
  | minting
  /-- the `GET` after it -/
  | minted
  /-- the retention check; the epoch was accepted -/
  | accepted (subscribedEpoch : Int)
  /-- the epoch check of the loop -/
  | waiting (subscription : Subscription)
  /-- `XREAD` -/
  | reading (subscription : Subscription)
  /-- hand out the rest of a batch -/
  | yielding (subscription : Subscription) (batch : List Entry)

/-- An entry that was given to the subscriber, and what could be read then. -/
structure Given where
  entry : Entry
  readable : List Entry

/-- The store, its past, and one subscriber. -/
structure RedisRun where
  redis : Redis
  /-- the snapshots a restart may come back from -/
  history : List Redis
  /-- the epochs drawn so far, and the number of publishes -/
  drawn : List Int
  clock : Nat
  stage : Stage
  given : List Given

inductive RedisAction where
  | publish (event : MonitorEvent) (blockHeight candidate : Int) (trimmed : Nat)
  | bumpEpoch (newEpoch : Int)
  /-- another caller of `get_or_init_epoch` sets the epoch -/
  | initEpoch (candidate : Int)
  | lose
  | restore (snapshot : Redis)
  /-- the subscriber calls `subscribe_from`: the first `GET` -/
  | subscribe
  | setNx (candidate : Int)
  | getEpoch
  | checkRetained
  | checkEpoch
  | xread
  | yield
  /-- a request fails, or the process ends -/
  | fail

namespace RedisRun

def last (run : RedisRun) : Option Entry := run.given.getLast?.map Given.entry

def replace (run : RedisRun) (redis : Redis) : RedisRun :=
  { run with redis, history := run.redis :: run.history }

def draw (run : RedisRun) (candidate : Int) : RedisRun :=
  { run with drawn := candidate :: run.drawn }

def goTo (run : RedisRun) (stage : Stage) : RedisRun := { run with stage }

/-- Compare the epoch with the cursor's. -/
def accept (run : RedisRun) (subscribedEpoch : Int) : Stage :=
  match run.last with
  | none => .accepted subscribedEpoch
  | some last => if last.epoch ≠ subscribedEpoch then .ended else .accepted subscribedEpoch

/-- The stream as it opens, from the cursor of the last entry or from the start. -/
def openStream (run : RedisRun) (subscribedEpoch : Int) : Stage :=
  match run.last, run.redis.oldestRetainedSeq with
  | none, _ => .waiting ⟨subscribedEpoch, 0, none⟩
  | some last, none => .waiting ⟨subscribedEpoch, last.seq, some (last.seq + 1)⟩
  | some last, some oldest =>
    if last.seq + 1 < oldest then .ended
    else .waiting ⟨subscribedEpoch, last.seq, some (last.seq + 1)⟩

def give (run : RedisRun) (entry : Entry) : RedisRun :=
  { run with given := run.given ++ [⟨entry, run.redis.stream⟩] }

def perform (run : RedisRun) : RedisAction → RedisRun
  | .publish event blockHeight candidate trimmed =>
    { (run.replace (run.redis.publish event blockHeight candidate run.clock trimmed)).draw candidate with
      clock := run.clock + 1 }
  | .bumpEpoch newEpoch => (run.replace (run.redis.bumpEpoch newEpoch)).draw newEpoch
  | .initEpoch candidate => (run.replace (run.redis.setNx candidate)).draw candidate
  | .lose => run.replace Redis.empty
  | .restore snapshot => run.replace snapshot
  | .subscribe =>
    match run.stage, run.redis.epoch with
    | .ended, none => run.goTo .minting
    | .ended, some epoch => run.goTo (run.accept epoch)
    | _, _ => run
  | .setNx candidate =>
    match run.stage with
    | .minting => ((run.replace (run.redis.setNx candidate)).draw candidate).goTo .minted
    | _ => run
  | .getEpoch =>
    match run.stage, run.redis.epoch with
    | .minted, none => run.goTo .ended
    | .minted, some epoch => run.goTo (run.accept epoch)
    | _, _ => run
  | .checkRetained =>
    match run.stage with
    | .accepted subscribedEpoch => run.goTo (run.openStream subscribedEpoch)
    | _ => run
  | .checkEpoch =>
    match run.stage with
    | .waiting subscription =>
      run.goTo (if epochUnchanged run.redis subscription.subscribedEpoch then .reading subscription
        else .ended)
    | _ => run
  | .xread =>
    match run.stage with
    | .reading subscription =>
      run.goTo (.yielding subscription (run.redis.xread subscription.lastId))
    | _ => run
  | .yield =>
    match run.stage with
    | .yielding subscription [] => run.goTo (.waiting subscription)
    | .yielding subscription (entry :: batch) =>
      if isSeqGap subscription.expectedSeq entry.seq then run.goTo .ended
      else (run.goTo (.yielding ⟨subscription.subscribedEpoch, entry.seq, some (entry.seq + 1)⟩
        batch)).give entry
    | _ => run
  | .fail => run.goTo .ended

/--
A draw never repeats an earlier one, `MAXLEN ~ maxlen` keeps the newest
`maxlen` entries, and a restart comes back from an earlier state of the store.
-/
def Valid (maxlen : Nat) (run : RedisRun) : RedisAction → Prop
  | .publish _ _ candidate trimmed =>
    candidate ∉ run.drawn ∧ trimmed ≤ run.redis.stream.length + 1 - maxlen
  | .bumpEpoch candidate => candidate ∉ run.drawn
  | .initEpoch candidate => candidate ∉ run.drawn
  | .setNx candidate => candidate ∉ run.drawn
  | .restore snapshot => snapshot ∈ run.history
  | _ => True

end RedisRun

/-- The runs of one outbox with any number of publishers and one subscriber. -/
def redisOutbox (maxlen : Nat) : System RedisRun RedisAction where
  initial run := run = ⟨Redis.empty, [], [], 0, .ended, []⟩
  step before action after := before.Valid maxlen action ∧ after = before.perform action

end EthPayServer.Outbox
