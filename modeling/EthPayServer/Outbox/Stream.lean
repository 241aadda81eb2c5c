import EthPayServer.Outbox.Redis

/-!
# What the Redis stream may pass over

Positions are only comparable within the log of one store.  As long as the last
entry a subscriber was given, and everything it has read, belong to the log of
the store it reads, the next position is the next entry.  The epoch is there to
keep a subscriber from a store of another log; it is compared when the
subscription opens and before each read, so it does not cover a store that
changes while a read is under way, or one that comes back with the same epoch
and a shorter log.
-/

namespace EthPayServer.Outbox

open Lib
open Evm (MonitorEvent)

/-- No entry published between two that were given in a row could still be read. -/
def NeverSkips (given : List Given) : Prop :=
  given.IsChain fun first second =>
    ∀ entry ∈ second.readable, ¬ (first.entry.stamp < entry.stamp ∧ entry.stamp < second.entry.stamp)

instance (given : List Given) : Decidable (NeverSkips given) :=
  inferInstanceAs (Decidable (given.IsChain fun first second =>
    ∀ entry ∈ second.readable, ¬ (first.entry.stamp < entry.stamp ∧ entry.stamp < second.entry.stamp)))

namespace Stage

def epoch : Stage → Option Int
  | .accepted subscribedEpoch => some subscribedEpoch
  | .waiting subscription => some subscription.subscribedEpoch
  | .reading subscription => some subscription.subscribedEpoch
  | .yielding subscription _ => some subscription.subscribedEpoch
  | _ => none

/-- A read is under way: the epoch was compared, and its batch is not yet handed out. -/
def inFlight : Stage → Bool
  | .reading _ => true
  | .yielding _ _ => true
  | _ => false

def batch : Stage → List Entry
  | .yielding _ batch => batch
  | _ => []

/-- The position the stream insists on. -/
def expects : Stage → Option (Option Int)
  | .waiting subscription => some subscription.expectedSeq
  | .reading subscription => some subscription.expectedSeq
  | .yielding subscription _ => some subscription.expectedSeq
  | _ => none

end Stage

variable {entry : Entry} {redis : Redis} {candidate : Int}

namespace RedisRun

/-- The epochs under which the subscriber takes its position to be valid. -/
def trusted (run : RedisRun) : List Int := (run.last.map Entry.epoch).toList ++ run.stage.epoch.toList

/-- The entries the subscriber's position rests on. -/
def held (run : RedisRun) : List Entry := run.last.toList ++ run.stage.batch

/--
A store the subscriber can meet: it has itself published what the subscriber
holds, or no read is under way and its epoch gives it away.
-/
def CanMeet (run : RedisRun) (redis : Redis) : Prop :=
  (∀ entry ∈ run.held, entry ∈ redis.log) ∨
    run.stage.inFlight = false ∧ ∀ epoch ∈ run.trusted, redis.epoch ≠ some epoch

/-- What a lost store or a snapshot has to satisfy when it takes the store's place. -/
def GivenAway (run : RedisRun) : RedisAction → Prop
  | .lose => run.CanMeet Redis.empty
  | .restore snapshot => run.CanMeet snapshot
  | _ => True

/-! ## What holds between any two steps -/

structure Genuine (run : RedisRun) (redis : Redis) : Prop where
  stamped : redis.log.Pairwise fun entry later => entry.stamp < later.stamp
  clocked : ∀ entry ∈ redis.log, entry.stamp < run.clock
  named : ∀ epoch, redis.epoch = some epoch → epoch ∈ run.drawn
  lineage : ∀ entry ∈ redis.log, entry.epoch ∈ run.drawn

/-- The subscriber can meet the store it is connected to. -/
structure Sound (run : RedisRun) : Prop where
  genuine : ∀ redis ∈ run.redis :: run.history, run.Genuine redis
  drawn : ∀ epoch ∈ run.trusted, epoch ∈ run.drawn
  meets : run.CanMeet run.redis
  expecting : ∀ expected, run.stage.expects = some expected → expected = run.last.map (·.seq + 1)
  neverSkips : NeverSkips run.given

variable {run : RedisRun}

theorem mem_trusted {epoch : Int} : epoch ∈ run.trusted ↔
    (∃ last, run.last = some last ∧ last.epoch = epoch) ∨ run.stage.epoch = some epoch := by
  simp [trusted]

theorem mem_held : entry ∈ run.held ↔ run.last = some entry ∨ entry ∈ run.stage.batch := by
  simp [held]

/-- In the log of a genuine store, the order of positions is the order of publication. -/
theorem Genuine.stamp_lt_iff (genuine : run.Genuine redis) {entry' : Entry} (mem : entry ∈ redis.log)
    (mem' : entry' ∈ redis.log) : entry.stamp < entry'.stamp ↔ entry.seq < entry'.seq := by
  let Agree (entry entry' : Entry) : Prop := (entry.stamp < entry'.stamp ↔ entry.seq < entry'.seq) ∧
    (entry'.stamp < entry.stamp ↔ entry'.seq < entry.seq)
  have symmetric : Std.Symm Agree := ⟨fun _ _ agree => ⟨agree.2, agree.1⟩⟩
  have agree : redis.log.Pairwise Agree := by
    refine (genuine.stamped.and redis.ascending).imp ?_
    rintro earlier later ⟨stamps, seqs⟩
    exact ⟨by omega, by omega⟩
  exact (agree.forall_of_forall (fun _ _ => by simp [Agree]) mem mem').1

theorem Genuine.later {after : RedisRun} (genuine : run.Genuine redis) (clock : run.clock ≤ after.clock)
    (drawn : run.drawn ⊆ after.drawn) : after.Genuine redis where
  stamped := genuine.stamped
  clocked entry mem := (genuine.clocked entry mem).trans_le clock
  named epoch isEpoch := drawn (genuine.named epoch isEpoch)
  lineage entry mem := drawn (genuine.lineage entry mem)

/-! ## Changes of the store -/

theorem CanMeet.goOn {redis' : Redis} (meets : run.CanMeet redis)
    (trusted : ∀ epoch ∈ run.trusted, epoch ∈ run.drawn) (grows : redis.log ⊆ redis'.log)
    (named : redis'.epoch = redis.epoch ∨ ∃ fresh ∉ run.drawn, redis'.epoch = some fresh) :
    run.CanMeet redis' := by
  rcases meets with inLog | ⟨atRest, givenAway⟩
  · exact .inl fun entry mem => grows (inLog entry mem)
  refine .inr ⟨atRest, fun epoch mem isEpoch => ?_⟩
  rcases named with same | ⟨fresh, isFresh, isNamed⟩
  · exact givenAway epoch mem (same ▸ isEpoch)
  · rw [isNamed, Option.some.injEq] at isEpoch
    exact isFresh (isEpoch ▸ trusted epoch mem)

/-- Another store takes the store's place. -/
theorem Sound.replace {after : RedisRun} (sound : run.Sound) (stage : after.stage = run.stage)
    (given : after.given = run.given) (history : after.history = run.redis :: run.history)
    (clock : run.clock ≤ after.clock) (drawn : run.drawn ⊆ after.drawn)
    (genuine : after.Genuine after.redis) (meets : run.CanMeet after.redis) : after.Sound := by
  have sameLast : after.last = run.last := by rw [last, last, given]
  have sameTrusted : after.trusted = run.trusted := by rw [trusted, trusted, sameLast, stage]
  have sameHeld : after.held = run.held := by rw [held, held, sameLast, stage]
  refine ⟨?_, ?_, ?_, ?_, ?_⟩
  · intro redis mem
    rw [history] at mem
    rcases List.mem_cons.mp mem with rfl | old
    · exact genuine
    · exact (sound.genuine redis old).later clock drawn
  · rw [sameTrusted]
    exact fun epoch mem => drawn (sound.drawn epoch mem)
  · unfold CanMeet
    rw [sameHeld, sameTrusted, stage]
    exact meets
  · rw [stage, sameLast]
    exact sound.expecting
  · rw [given]
    exact sound.neverSkips

theorem Genuine.setNx (genuine : run.Genuine redis) (candidate : Int) :
    (run.draw candidate).Genuine (redis.setNx candidate) where
  stamped := genuine.stamped
  clocked := genuine.clocked
  named epoch isEpoch := by
    rcases Option.or_eq_some_iff.mp isEpoch with old | ⟨_, new⟩
    · exact List.mem_cons_of_mem _ (genuine.named epoch old)
    · cases new
      exact List.mem_cons_self
  lineage entry mem := List.mem_cons_of_mem _ (genuine.lineage entry mem)

/-- `SET NX` leaves an epoch alone. -/
theorem or_named (epoch : Option Int) (fresh : candidate ∉ run.drawn) :
    epoch.or (some candidate) = epoch ∨ ∃ fresh ∉ run.drawn, epoch.or (some candidate) = some fresh := by
  cases epoch with
  | none => exact .inr ⟨candidate, fresh, rfl⟩
  | some epoch => exact .inl rfl

theorem Sound.initEpoch (sound : run.Sound) (fresh : candidate ∉ run.drawn) :
    (run.perform (.initEpoch candidate)).Sound := by
  have genuine := (sound.genuine run.redis List.mem_cons_self).setNx candidate
  refine sound.replace rfl rfl rfl le_rfl (List.subset_cons_self _ _)
    { genuine with } ?_
  exact sound.meets.goOn sound.drawn (List.Subset.refl _) (or_named _ fresh)

theorem Sound.bumpEpoch (sound : run.Sound) {newEpoch : Int} (fresh : newEpoch ∉ run.drawn) :
    (run.perform (.bumpEpoch newEpoch)).Sound := by
  have genuine := sound.genuine run.redis List.mem_cons_self
  refine sound.replace rfl rfl rfl le_rfl (List.subset_cons_self _ _)
    ⟨genuine.stamped, genuine.clocked, ?_, ?_⟩ ?_
  · intro epoch isEpoch
    cases isEpoch
    exact List.mem_cons_self
  · exact fun entry mem => List.mem_cons_of_mem _ (genuine.lineage entry mem)
  · exact sound.meets.goOn sound.drawn (List.Subset.refl _) (.inr ⟨newEpoch, fresh, rfl⟩)

/-- The entry a publish appends is the latest, under the epoch of the store. -/
theorem Genuine.publish (genuine : run.Genuine redis) (event : MonitorEvent) (blockHeight candidate : Int)
    (trimmed : Nat) :
    Genuine { run.draw candidate with clock := run.clock + 1 }
      (redis.publish event blockHeight candidate run.clock trimmed) where
  stamped := by
    refine List.pairwise_append.mpr ⟨genuine.stamped, List.pairwise_singleton _ _, ?_⟩
    intro entry mem later new
    rw [List.mem_singleton.mp new]
    exact genuine.clocked entry mem
  clocked entry mem := by
    rcases List.mem_append.mp mem with old | new
    · exact (genuine.clocked entry old).trans (Nat.lt_succ_self _)
    · rw [List.mem_singleton.mp new]
      exact Nat.lt_succ_self _
  named := (genuine.setNx candidate).named
  lineage entry mem := by
    rcases List.mem_append.mp mem with old | new
    · exact List.mem_cons_of_mem _ (genuine.lineage entry old)
    · rw [List.mem_singleton.mp new]
      refine (genuine.setNx candidate).named _ ?_
      cases isEpoch : redis.epoch <;> simp [Redis.setNx, Redis.nextEntry, isEpoch]

theorem Sound.publish (sound : run.Sound) (event : MonitorEvent) (blockHeight : Int) (trimmed : Nat)
    (fresh : candidate ∉ run.drawn) : (run.perform (.publish event blockHeight candidate trimmed)).Sound := by
  have genuine := (sound.genuine run.redis List.mem_cons_self).publish event blockHeight candidate trimmed
  refine sound.replace rfl rfl rfl (Nat.le_succ _) (List.subset_cons_self _ _)
    { genuine with } ?_
  exact sound.meets.goOn sound.drawn (List.subset_append_left _ _) (or_named _ fresh)

/-- A lost store, or a snapshot that the subscriber can meet. -/
theorem Sound.exchange (sound : run.Sound) (genuine : run.Genuine redis) (meets : run.CanMeet redis) :
    (run.replace redis).Sound :=
  sound.replace rfl rfl rfl le_rfl (List.Subset.refl _)
    { genuine with } meets

theorem genuine_empty : run.Genuine Redis.empty :=
  ⟨List.Pairwise.nil, by simp [Redis.empty], by simp [Redis.empty], by simp [Redis.empty]⟩

/-! ## Steps of the subscriber -/

theorem Sound.goTo (sound : run.Sound) {stage : Stage}
    (drawn : ∀ epoch, stage.epoch = some epoch → epoch ∈ run.drawn)
    (meets : (run.goTo stage).CanMeet run.redis)
    (expecting : ∀ expected, stage.expects = some expected → expected = run.last.map (·.seq + 1)) :
    (run.goTo stage).Sound := by
  refine ⟨?_, ?_, meets, expecting, sound.neverSkips⟩
  · exact fun redis mem => (sound.genuine redis mem).later le_rfl (List.Subset.refl _)
  · intro epoch mem
    rcases mem_trusted.mp mem with ofLast | ofStage
    · exact sound.drawn epoch (mem_trusted.mpr (.inl ofLast))
    · exact drawn epoch ofStage

/-- A stage without a read under way and with no other epoch. -/
theorem CanMeet.rest (meets : run.CanMeet redis) {stage : Stage} (atRest : stage.inFlight = false)
    (noBatch : stage.batch = []) (epochs : ∀ epoch, stage.epoch = some epoch → run.stage.epoch = some epoch) :
    (run.goTo stage).CanMeet redis := by
  rcases meets with inLog | ⟨_, givenAway⟩
  · refine .inl fun entry mem => ?_
    rcases mem_held.mp mem with isLast | inBatch
    · exact inLog entry (mem_held.mpr (.inl isLast))
    · rw [show (run.goTo stage).stage.batch = [] from noBatch] at inBatch
      cases inBatch
  · refine .inr ⟨atRest, fun epoch mem => ?_⟩
    rcases mem_trusted.mp mem with ofLast | ofStage
    · exact givenAway epoch (mem_trusted.mpr (.inl ofLast))
    · exact givenAway epoch (mem_trusted.mpr (.inr (epochs epoch ofStage)))

theorem Sound.end (sound : run.Sound) : (run.goTo .ended).Sound :=
  sound.goTo (by simp [Stage.epoch]) (sound.meets.rest rfl rfl (by simp [Stage.epoch]))
    (by simp [Stage.expects])

/-- Once the store's epoch is trusted, what the subscriber holds is in the store's log. -/
theorem CanMeet.inLog (meets : run.CanMeet redis) {epoch : Int} (current : redis.epoch = some epoch)
    (isTrusted : epoch ∈ run.trusted) : ∀ entry ∈ run.held, entry ∈ redis.log := by
  rcases meets with inLog | ⟨_, givenAway⟩
  · exact inLog
  · exact absurd current (givenAway epoch isTrusted)

section

variable (sound : run.Sound)
include sound

/-- The comparison with the cursor's epoch. -/
theorem Sound.accept {epoch : Int} (current : run.redis.epoch = some epoch) :
    (run.goTo (run.accept epoch)).Sound := by
  have isDrawn := (sound.genuine run.redis List.mem_cons_self).named epoch current
  have accepted (inLog : ∀ entry, run.last = some entry → entry ∈ run.redis.log) :
      (run.goTo (.accepted epoch)).Sound := by
    refine sound.goTo ?_ (.inl ?_) (by simp [Stage.expects])
    · rintro epoch' ⟨⟩
      exact isDrawn
    · intro entry mem
      rcases mem_held.mp mem with isLast | ⟨⟨⟩⟩
      exact inLog entry isLast
  unfold RedisRun.accept
  split
  next noLast => exact accepted fun entry isLast => by simp [noLast] at isLast
  next last isLast =>
    split
    · exact sound.end
    next same =>
      have isTrusted : epoch ∈ run.trusted := mem_trusted.mpr (.inl ⟨last, isLast, not_not.mp same⟩)
      exact accepted fun entry isLast' =>
        sound.meets.inLog current isTrusted entry (mem_held.mpr (.inl isLast'))

theorem Sound.subscribe : (run.perform .subscribe).Sound := by
  simp only [perform]
  split
  · exact sound.goTo (by simp [Stage.epoch]) (sound.meets.rest rfl rfl (by simp [Stage.epoch]))
      (by simp [Stage.expects])
  next current => exact sound.accept current
  · exact sound

theorem Sound.setNx (fresh : candidate ∉ run.drawn) : (run.perform (.setNx candidate)).Sound := by
  simp only [perform]
  split
  · have initialised := sound.initEpoch fresh
    exact initialised.goTo (by simp [Stage.epoch])
      (initialised.meets.rest rfl rfl (by simp [Stage.epoch])) (by simp [Stage.expects])
  · exact sound

theorem Sound.getEpoch : (run.perform .getEpoch).Sound := by
  simp only [perform]
  split
  · exact sound.end
  next current => exact sound.accept current
  · exact sound

theorem Sound.checkRetained : (run.perform .checkRetained).Sound := by
  simp only [perform]
  split
  next subscribedEpoch isAccepted =>
    have opened (lastId : Int) : (run.goTo (.waiting ⟨subscribedEpoch, lastId,
        run.last.map (·.seq + 1)⟩)).Sound := by
      refine sound.goTo ?_ (sound.meets.rest rfl rfl ?_) ?_
      · rintro epoch ⟨⟩
        exact sound.drawn _ (mem_trusted.mpr (.inr (by rw [isAccepted]; rfl)))
      · rintro epoch ⟨⟩
        rw [isAccepted]
        rfl
      · rintro expected ⟨⟩
        rfl
    unfold openStream
    split
    next noLast =>
      rw [noLast] at opened
      exact opened 0
    next last isLast _ =>
      rw [isLast] at opened
      exact opened _
    next last oldest isLast _ =>
      rw [isLast] at opened
      split
      · exact sound.end
      · exact opened _
  · exact sound

theorem Sound.checkEpoch : (run.perform .checkEpoch).Sound := by
  simp only [perform]
  split
  next subscription isWaiting =>
    split
    next unchanged =>
      have isTrusted : subscription.subscribedEpoch ∈ run.trusted :=
        mem_trusted.mpr (.inr (by rw [isWaiting]; rfl))
      have current : run.redis.epoch = some subscription.subscribedEpoch :=
        of_decide_eq_true unchanged
      refine sound.goTo ?_ (.inl ?_) ?_
      · rintro epoch ⟨⟩
        exact sound.drawn _ isTrusted
      · intro entry mem
        rcases mem_held.mp mem with isLast | ⟨⟨⟩⟩
        exact sound.meets.inLog current isTrusted entry (mem_held.mpr (.inl isLast))
      · rintro expected ⟨⟩
        exact sound.expecting _ (by rw [isWaiting]; rfl)
    · exact sound.end
  · exact sound

end

/-- While a read is under way, what the subscriber holds is in the store's log. -/
theorem CanMeet.inFlight (meets : run.CanMeet redis) (reads : run.stage.inFlight = true) :
    ∀ entry ∈ run.held, entry ∈ redis.log := by
  rcases meets with inLog | ⟨atRest, _⟩
  · exact inLog
  · rw [reads] at atRest
    cases atRest

theorem Sound.xread (sound : run.Sound) : (run.perform .xread).Sound := by
  simp only [perform]
  split
  next subscription isReading =>
    have inLog := sound.meets.inFlight (by rw [isReading]; rfl)
    refine sound.goTo ?_ (.inl ?_) ?_
    · rintro epoch ⟨⟩
      exact sound.drawn _ (mem_trusted.mpr (.inr (by rw [isReading]; rfl)))
    · intro entry mem
      rcases mem_held.mp mem with isLast | inBatch
      · exact inLog entry (mem_held.mpr (.inl isLast))
      · exact Redis.mem_log_of_mem_xread inBatch
    · rintro expected ⟨⟩
      exact sound.expecting _ (by rw [isReading]; rfl)
  · exact sound

theorem Genuine.next (genuine : run.Genuine redis) {last : Entry} (memLast : last ∈ redis.log)
    (mem : entry ∈ redis.log) (next : entry.seq = last.seq + 1) :
    ∀ between ∈ redis.stream, ¬ (last.stamp < between.stamp ∧ between.stamp < entry.stamp) := by
  rintro between memStream ⟨after, before⟩
  have memBetween := redis.retained.subset memStream
  rw [genuine.stamp_lt_iff memLast memBetween] at after
  rw [genuine.stamp_lt_iff memBetween mem] at before
  omega

@[simp] theorem last_give (entry : Entry) : (run.give entry).last = some entry := by
  simp [give, last]

theorem Sound.give (sound : run.Sound) {subscription : Subscription} {batch : List Entry}
    (isYielding : run.stage = .yielding subscription (entry :: batch))
    (noGap : ¬ isSeqGap subscription.expectedSeq entry.seq) :
    ((run.goTo (.yielding ⟨subscription.subscribedEpoch, entry.seq, some (entry.seq + 1)⟩
      batch)).give entry).Sound := by
  have genuine := sound.genuine run.redis List.mem_cons_self
  have inLog := sound.meets.inFlight (by rw [isYielding]; rfl)
  have ofBatch : ∀ read ∈ entry :: batch, read ∈ run.redis.log := fun read mem =>
    inLog read (mem_held.mpr (.inr (by rw [isYielding]; exact mem)))
  refine ⟨?_, ?_, .inl ?_, ?_, ?_⟩
  · exact fun redis mem => (sound.genuine redis mem).later le_rfl (List.Subset.refl _)
  · intro epoch mem
    rcases mem_trusted.mp mem with ⟨last, isLast, rfl⟩ | ofStage
    · rw [last_give] at isLast
      cases isLast
      exact genuine.lineage entry (ofBatch entry List.mem_cons_self)
    · cases ofStage
      exact sound.drawn _ (mem_trusted.mpr (.inr (by rw [isYielding]; rfl)))
  · intro read mem
    rcases mem_held.mp mem with isLast | inBatch
    · rw [last_give] at isLast
      cases isLast
      exact ofBatch entry List.mem_cons_self
    · exact ofBatch read (List.mem_cons_of_mem _ inBatch)
  · rintro expected ⟨⟩
    rw [last_give]
    rfl
  refine List.isChain_append.mpr ⟨sound.neverSkips, List.isChain_singleton _, ?_⟩
  intro given isGiven next isNext
  cases isNext
  have isLast : run.last = some given.entry := by
    rw [last, show run.given.getLast? = some given from isGiven]
    rfl
  have expected := sound.expecting subscription.expectedSeq (by rw [isYielding]; rfl)
  rw [isLast] at expected
  have isNext : entry.seq = given.entry.seq + 1 := by simpa [expected, isSeqGap] using noGap
  exact genuine.next (inLog _ (mem_held.mpr (.inl isLast))) (ofBatch entry List.mem_cons_self) isNext

theorem Sound.yield (sound : run.Sound) : (run.perform .yield).Sound := by
  simp only [perform]
  split
  next subscription isYielding =>
    refine sound.goTo ?_ (sound.meets.rest rfl rfl ?_) ?_
    · rintro epoch ⟨⟩
      exact sound.drawn _ (mem_trusted.mpr (.inr (by rw [isYielding]; rfl)))
    · rintro epoch ⟨⟩
      rw [isYielding]
      rfl
    · rintro expected ⟨⟩
      exact sound.expecting _ (by rw [isYielding]; rfl)
  next subscription entry batch isYielding =>
    split
    · exact sound.end
    next noGap => exact sound.give isYielding noGap
  · exact sound

theorem Sound.step (sound : run.Sound) {maxlen : Nat} {action : RedisAction}
    (valid : run.Valid maxlen action) (condition : run.GivenAway action) : (run.perform action).Sound := by
  cases action with
  | publish event blockHeight candidate trimmed => exact sound.publish event blockHeight trimmed valid.1
  | bumpEpoch newEpoch => exact sound.bumpEpoch valid
  | initEpoch candidate => exact sound.initEpoch valid
  | lose => exact sound.exchange genuine_empty condition
  | restore snapshot => exact sound.exchange (sound.genuine _ (List.mem_cons_of_mem _ valid)) condition
  | subscribe => exact sound.subscribe
  | setNx candidate => exact sound.setNx valid
  | getEpoch => exact sound.getEpoch
  | checkRetained => exact sound.checkRetained
  | checkEpoch => exact sound.checkEpoch
  | xread => exact sound.xread
  | yield => exact sound.yield
  | fail => exact sound.end

end RedisRun

/--
In every run in which each lost or restored store has itself published what the
subscriber holds, or meets it between two reads and under an epoch it does not
trust, nothing readable is passed over.
-/
theorem stream_never_skips (maxlen : Nat) {run : RedisRun}
    (reached : ((redisOutbox maxlen).restrict RedisRun.GivenAway).Reachable run) :
    NeverSkips run.given := by
  have sound : run.Sound := by
    refine reached.invariant (I := RedisRun.Sound) ?_ ?_
    · rintro start rfl
      refine ⟨?_, by simp [RedisRun.trusted, RedisRun.last, Stage.epoch],
        .inl (by simp [RedisRun.held, RedisRun.last, Stage.batch]), by simp [Stage.expects],
        List.IsChain.nil⟩
      intro redis mem
      rw [List.mem_singleton.mp mem]
      exact RedisRun.genuine_empty
    · rintro before action after _ sound ⟨⟨valid, rfl⟩, condition⟩
      exact sound.step valid condition
  exact sound.neverSkips

/-! ## A snapshot the subscriber can meet, and two stores it cannot -/

def performs (run : RedisRun) (actions : List RedisAction) : RedisRun :=
  actions.foldl RedisRun.perform run

def freshOutbox : RedisRun := performs ⟨Redis.empty, [], [], 0, .ended, []⟩ [.initEpoch 1]

/-- The next notice of chain 1 is published, with an epoch drawn in vain. -/
def publishNotice (candidate : Int) : RedisAction := .publish (.notice 1) 0 candidate 0

/-- The subscriber opens a stream and is given the first entry of its first read. -/
def subscribeAndRead : List RedisAction := [.subscribe, .checkRetained, .checkEpoch, .xread, .yield]

/-- One entry is published and given to the subscriber, whose stream then ends. -/
def firstGiven : RedisRun := performs freshOutbox (publishNotice 2 :: subscribeAndRead ++ [.fail])

/-- The store comes back with the one entry, and the next one is published and given. -/
def resumedOutbox : RedisRun :=
  performs firstGiven
    ([publishNotice 3, .restore firstGiven.redis, publishNotice 4] ++ subscribeAndRead)

theorem freshOutbox_reachable : ((redisOutbox 1).restrict RedisRun.GivenAway).Reachable freshOutbox :=
  (System.Reachable.of_initial rfl).snoc (a := .initEpoch 1) ⟨⟨by simp [RedisRun.Valid], rfl⟩, trivial⟩

theorem firstGiven_reachable : ((redisOutbox 1).restrict RedisRun.GivenAway).Reachable firstGiven := by
  refine freshOutbox_reachable.run (System.Path.run ?_)
  repeat' apply And.intro
  all_goals trivial

theorem stream_never_skips_resumed :
    resumedOutbox.given.map (fun given => given.entry.stamp) = [0, 2] ∧
      NeverSkips resumedOutbox.given := by
  refine ⟨by decide +kernel, stream_never_skips 1 (firstGiven_reachable.run (System.Path.run ?_))⟩
  repeat' apply And.intro
  all_goals first | trivial | exact List.mem_cons_self | exact .inl (by decide +kernel)

/-- The keyspace is lost after the epoch was compared for the second read and before `XREAD` answers. -/
def lostWhileReading : RedisRun :=
  performs freshOutbox (publishNotice 2 :: subscribeAndRead ++ [.yield, .checkEpoch, .lose, publishNotice 3,
    publishNotice 4, .xread, .yield])

/-- The store comes back with the same epoch and without the entry that was given. -/
def restoredShorter : RedisRun :=
  performs firstGiven ([.restore freshOutbox.redis, publishNotice 3, publishNotice 4] ++ subscribeAndRead)

/-- The entry before the second one given is in the stream and was never given. -/
theorem readable_entry_skipped :
    ((redisOutbox 1).Reachable lostWhileReading ∧ ¬ NeverSkips lostWhileReading.given) ∧
      (redisOutbox 1).Reachable restoredShorter ∧ ¬ NeverSkips restoredShorter.given := by
  refine ⟨⟨freshOutbox_reachable.of_restrict.run (System.Path.run ?_), by decide +kernel⟩,
    firstGiven_reachable.of_restrict.run (System.Path.run ?_), by decide +kernel⟩
  · repeat' apply And.intro
    all_goals trivial
  · repeat' apply And.intro
    all_goals first | trivial | exact List.mem_cons_self

end EthPayServer.Outbox
