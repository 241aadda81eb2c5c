import EthPayServer.Outbox.Cursors
import EthPayServer.Consumer.Handlers
import EthPayServer.Lib.Transition

/-!
# Consumers that share one cursor table

Within one epoch the outbox numbers its entries one after the other, across all
chains.  A consumer loads the cursor table, resumes after the highest position
in it, and then applies and commits entry by entry.  Loads, applications and
commits of different consumers interleave in any way, each may fail, and a
consumer may die between any two of them.  A consumer that finds the table
empty resumes from the oldest entry the outbox still retains.
-/

namespace EthPayServer.Outbox

open Lib Data Consumer
open Evm (Time MonitorEvent)

/-- A monitor event with its position in the outbox. -/
structure Envelope where
  chainId : Nat
  cursor : EventCursor
  event : MonitorEvent

inductive Position where
  /-- subscribed without a cursor; nothing read yet -/
  | oldest
  /-- subscribed without a cursor; the first entry was read and is not delivered yet -/
  | first (seq : Int)
  | next (seq : Int)

/-- How far `run` has got. -/
inductive Phase where
  | stopped
  | loaded (cursors : Cursors)
  | subscribed (cursors : Cursors) (position : Position)
  | delivered (cursors : Cursors) (envelope : Envelope)
  | applied (cursors : Cursors) (envelope : Envelope)

structure Fleet where
  /-- every entry of the epoch, oldest first, and how many of them are no longer retained -/
  published : List Envelope
  trimmed : Nat
  db : Db
  cursors : Cursors
  phases : Nat → Phase
  /-- the positions delivered to each consumer since it last started -/
  sessions : Nat → List Int
  /-- the first position ever delivered -/
  first : Option Int
  /-- positions whose event was applied, and those skipped as listed by the operator -/
  applied : List Int
  skipped : List Int

inductive FleetAction where
  | publish (event : MonitorEvent) (blockHeight : Int) (trimmed : Nat)
  /-- a stopped consumer starts and loads the cursor table -/
  | start (consumer : Nat)
  /-- reconcile the loaded cursors and subscribe -/
  | subscribe (consumer : Nat) (acceptLineageBreak : Bool) (order : Nat → Nat)
      (world : World RunError Reply)
  /-- the first read of a subscription without a cursor -/
  | read (consumer : Nat)
  | deliver (consumer : Nat)
  | apply (consumer : Nat) (skipEvents : List (Nat × Int × Int)) (delivery : Delivery)
      (world : World EventConsumerError Time)
  | commit (consumer : Nat) (world : World RunError Reply)
  /-- a failed load, the end of the stream, or the end of the process -/
  | stop (consumer : Nat)

namespace Fleet

/-- The oldest entry the outbox retains. -/
def oldestRetained (fleet : Fleet) : Option Envelope := fleet.published[fleet.trimmed]?

/-- The entry at a position. -/
def envelopeAt (fleet : Fleet) (seq : Int) : Option Envelope :=
  fleet.published.find? fun envelope => envelope.cursor.seq = seq

/-- `subscribe_from`: a cursor behind the retained entries is out of range. -/
def subscribeFrom (fleet : Fleet) : Option EventCursor → Option Position
  | none => some .oldest
  | some cursor =>
    match fleet.oldestRetained with
    | some oldest =>
      if cursor.seq + 1 < oldest.cursor.seq then none else some (.next (cursor.seq + 1))
    | none => some (.next (cursor.seq + 1))

/-- The tables a start works on. -/
def cursorDb (fleet : Fleet) : CursorDb := ⟨fleet.cursors, fleet.db.watchedAddresses, []⟩

def goTo (fleet : Fleet) (consumer : Nat) (phase : Phase) : Fleet :=
  { fleet with phases := Function.update fleet.phases consumer phase }

/-- Hand an entry to a consumer. -/
def give (fleet : Fleet) (consumer : Nat) (cursors : Cursors) (envelope : Envelope) : Fleet :=
  { fleet.goTo consumer (.delivered cursors envelope) with
    sessions := Function.update fleet.sessions consumer
      (fleet.sessions consumer ++ [envelope.cursor.seq])
    first := fleet.first.or (some envelope.cursor.seq) }

def deliverAt (fleet : Fleet) (consumer : Nat) (cursors : Cursors) (seq : Int) : Fleet :=
  match fleet.envelopeAt seq with
  | some envelope => fleet.give consumer cursors envelope
  | none => fleet

def perform (divide : Division) (epoch : Int) (fleet : Fleet) : FleetAction → Fleet
  | .publish event blockHeight trimmed => { fleet with
      published := fleet.published ++
        [⟨event.chainId, ⟨epoch, fleet.published.length + 1, blockHeight⟩, event⟩]
      trimmed }
  | .start consumer =>
    match fleet.phases consumer with
    | .stopped => { fleet.goTo consumer (.loaded fleet.cursors) with
        sessions := Function.update fleet.sessions consumer [] }
    | _ => fleet
  | .subscribe consumer acceptLineageBreak order world =>
    match fleet.phases consumer with
    | .loaded cursors =>
      let outcome := reconcileCursors acceptLineageBreak order cursors epoch world 0 fleet.cursorDb
      { fleet.goTo consumer (match outcome.result with
          | .error _ => .stopped
          | .ok (resume, left) =>
            match fleet.subscribeFrom resume with
            | none => .stopped
            | some position => .subscribed left position) with
        cursors := outcome.state.cursors }
    | _ => fleet
  | .read consumer =>
    match fleet.phases consumer, fleet.oldestRetained with
    | .subscribed cursors .oldest, some envelope =>
      fleet.goTo consumer (.subscribed cursors (.first envelope.cursor.seq))
    | _, _ => fleet
  | .deliver consumer =>
    match fleet.phases consumer with
    | .subscribed cursors (.first seq) => fleet.deliverAt consumer cursors seq
    | .subscribed cursors (.next seq) => fleet.deliverAt consumer cursors seq
    | _ => fleet
  | .apply consumer skipEvents delivery world =>
    match fleet.phases consumer with
    | .delivered cursors envelope =>
      if (envelope.chainId, envelope.cursor.epoch, envelope.cursor.seq) ∈ skipEvents then
        { fleet.goTo consumer (.applied cursors envelope) with
          skipped := fleet.skipped ++ [envelope.cursor.seq] }
      else
        let outcome := handleEvent divide delivery envelope.event world 0 fleet.db
        if outcome.result = .ok () then
          { fleet.goTo consumer (.applied cursors envelope) with
            db := outcome.state
            applied := fleet.applied ++ [envelope.cursor.seq] }
        else { fleet.goTo consumer .stopped with db := outcome.state }
    | _ => fleet
  | .commit consumer world =>
    match fleet.phases consumer with
    | .applied cursors envelope =>
      let outcome := applyEnvelope true epoch envelope.chainId envelope.cursor.seq
        envelope.cursor.blockHeight cursors world 0 fleet.cursorDb
      { fleet.goTo consumer (match outcome.result with
          | .error _ => .stopped
          | .ok left => .subscribed left (.next (envelope.cursor.seq + 1))) with
        cursors := outcome.state.cursors }
    | _ => fleet
  | .stop consumer => fleet.goTo consumer .stopped

/-- `MAXLEN ~ maxlen` keeps at least the newest `maxlen` entries. -/
def Valid (maxlen : Nat) (fleet : Fleet) : FleetAction → Prop
  | .publish _ _ trimmed => fleet.trimmed ≤ trimmed ∧
    trimmed ≤ max fleet.trimmed (fleet.published.length + 1 - maxlen)
  | _ => True

structure IsInitial (fleet : Fleet) : Prop where
  published : fleet.published = []
  trimmed : fleet.trimmed = 0
  cursors : fleet.cursors = Table.empty
  phases : ∀ consumer, fleet.phases consumer = .stopped
  sessions : ∀ consumer, fleet.sessions consumer = []
  first : fleet.first = none
  applied : fleet.applied = []
  skipped : fleet.skipped = []

/--
The first entry given to a consumer that subscribed without a cursor is not
above the first entry ever delivered.
-/
def FromTheFirst (fleet : Fleet) : FleetAction → Prop
  | .deliver consumer => ∀ cursors seq, fleet.phases consumer = .subscribed cursors (.first seq) →
    ∀ first, fleet.first = some first → seq ≤ first
  | _ => True

end Fleet

/-- The runs of publishers and consumers within one epoch. -/
def fleet (divide : Division) (maxlen : Nat) (epoch : Int) : System Fleet FleetAction where
  initial := Fleet.IsInitial
  step before action after := before.Valid maxlen action ∧ after = before.perform divide epoch action

/-- Resuming loses nothing and skips nothing that is not listed. -/
structure ExactResume (fleet : Fleet) : Prop where
  complete : ∀ first, fleet.first = some first → ∀ stored ∈ fleet.cursors.rows,
    ∀ envelope ∈ fleet.published, first ≤ envelope.cursor.seq → envelope.cursor.seq ≤ stored.2.seq →
      envelope.cursor.seq ∈ fleet.applied ∨ envelope.cursor.seq ∈ fleet.skipped
  consecutive : ∀ consumer, (fleet.sessions consumer).IsChain fun seq seq' => seq' = seq + 1

/-- No stored position is lost or moved back. -/
def KeepsPositions (before after : Cursors) : Prop :=
  ∀ stored ∈ before.rows, ∃ stored' ∈ after.rows, stored'.1 = stored.1 ∧ stored.2.seq ≤ stored'.2.seq

/-! ## Start and commit within one epoch -/

variable {cursors : Cursors}

/-- With no row of another epoch a start writes nothing. -/
theorem reconcileCursors_current {accept : Bool} {order : Nat → Nat}
    (current : ∀ stored ∈ cursors.rows, stored.2.epoch = epoch) (world : World RunError Reply) (i : Nat)
    (db : CursorDb) : reconcileCursors accept order cursors epoch world i db =
      ⟨.ok (resumePoint cursors epoch, cursors), i, db⟩ := by
  have none : mismatched cursors epoch order = [] := by
    refine List.eq_nil_iff_forall_not_mem.mpr fun chainId mem => ?_
    obtain ⟨cursor, memRow, outdated⟩ := mem_mismatched.mp mem
    exact outdated (current _ memRow)
  unfold reconcileCursors
  by_cases empty : cursors.rows.isEmpty
  · have noRows := List.isEmpty_iff.mp empty
    simp [noRows, resumePoint]
  · simp [empty, none]

theorem KeepsPositions.refl (cursors : Cursors) : KeepsPositions cursors cursors :=
  fun stored mem => ⟨stored, mem, rfl, le_rfl⟩

/-- Within one epoch the upsert only moves forward. -/
theorem keepsPositions_commit (current : ∀ stored ∈ cursors.rows, stored.2.epoch = epoch) (chainId : Nat)
    (seq blockHeight : Int) : KeepsPositions cursors (cursors.commit chainId ⟨epoch, seq, blockHeight⟩) := by
  have moved : ∀ stored ∈ cursors.rows, stored.1 = chainId → stored.2.seq ≤ seq →
      KeepsPositions cursors (cursors.put (chainId, ⟨epoch, seq, blockHeight⟩)) := by
    intro stored mem isChain low other memOther
    by_cases same : other.1 = chainId
    · have isStored : other = stored := Table.eq_of_key memOther mem (same.trans isChain.symm)
      rw [isStored]
      exact ⟨_, Table.mem_put_self _ _, isChain.symm, low⟩
    · exact ⟨other, Table.mem_put_of_ne memOther same, rfl, le_rfl⟩
  unfold Cursors.commit
  split
  next unknown =>
    intro other memOther
    have differs := Table.find?_eq_none.mp unknown other memOther
    exact ⟨other, Table.mem_put_of_ne memOther differs, rfl, le_rfl⟩
  next stored known =>
    obtain ⟨mem, isChain⟩ := Table.find?_eq_some.mp known
    split
    next forward =>
      refine moved stored mem isChain ?_
      rcases forward with outdated | behind
      · exact absurd (current stored mem) outdated
      · exact behind.le
    · exact KeepsPositions.refl cursors

/-! ## Every run -/

variable {consumer : Nat} {phase : Phase} {envelope : Envelope}

namespace Fleet

/-- Every entry from the first delivered one up to a position is applied or skipped. -/
def Reached (fleet : Fleet) (seq : Int) : Prop :=
  seq ≤ fleet.published.length ∧ ∀ first, fleet.first = some first →
    ∀ envelope ∈ fleet.published, first ≤ envelope.cursor.seq → envelope.cursor.seq ≤ seq →
      envelope.cursor.seq ∈ fleet.applied ∨ envelope.cursor.seq ∈ fleet.skipped

def Settled (epoch : Int) (fleet : Fleet) (cursors : Cursors) : Prop :=
  ∀ stored ∈ cursors.rows, stored.2.epoch = epoch ∧ fleet.first.isSome ∧ fleet.Reached stored.2.seq

def Relies (epoch : Int) (fleet : Fleet) (session : List Int) : Phase → Prop
  | .stopped => True
  | .loaded cursors => session = [] ∧ fleet.Settled epoch cursors
  | .subscribed _ .oldest => session = []
  | .subscribed _ (.first _) => session = []
  | .subscribed _ (.next seq) => fleet.first.isSome ∧ fleet.Reached (seq - 1) ∧
    ∀ last ∈ session.getLast?, seq = last + 1
  | .delivered _ envelope => fleet.first.isSome ∧ envelope.cursor.seq ≤ fleet.published.length ∧
    fleet.Reached (envelope.cursor.seq - 1) ∧ session.getLast? = some envelope.cursor.seq
  | .applied _ envelope => fleet.first.isSome ∧ fleet.Reached envelope.cursor.seq ∧
    session.getLast? = some envelope.cursor.seq

/-- What holds between any two steps. -/
structure Sound (epoch : Int) (fleet : Fleet) : Prop where
  numbered : ∀ envelope ∈ fleet.published, envelope.cursor.seq ≤ fleet.published.length
  table : fleet.Settled epoch fleet.cursors
  relies : ∀ consumer, fleet.Relies epoch (fleet.sessions consumer) (fleet.phases consumer)
  consecutive : ∀ consumer, (fleet.sessions consumer).IsChain fun seq seq' => seq' = seq + 1

/-- What a step leaves of the past. -/
structure Grows (before after : Fleet) : Prop where
  length : before.published.length ≤ after.published.length
  published : ∀ envelope ∈ after.published, envelope ∈ before.published ∨
    before.published.length < envelope.cursor.seq
  first : ∀ first, before.first = some first → after.first = some first
  applied : before.applied ⊆ after.applied
  skipped : before.skipped ⊆ after.skipped

variable {before after : Fleet}

theorem Reached.grow {seq : Int} (reached : before.Reached seq) (started : before.first.isSome)
    (grows : before.Grows after) : after.Reached seq := by
  obtain ⟨first, isFirst⟩ := Option.isSome_iff_exists.mp started
  refine ⟨reached.1.trans (by exact_mod_cast grows.length), ?_⟩
  intro first' isFirst' envelope mem low high
  rw [grows.first first isFirst] at isFirst'
  cases isFirst'
  rcases grows.published envelope mem with old | new
  · exact (reached.2 first isFirst envelope old low high).imp (fun h => grows.applied h)
      fun h => grows.skipped h
  · have := reached.1
    omega

theorem isSome_grow (started : before.first.isSome) (grows : before.Grows after) :
    after.first.isSome := by
  obtain ⟨first, isFirst⟩ := Option.isSome_iff_exists.mp started
  rw [grows.first first isFirst]
  rfl

theorem Settled.grow (settled : before.Settled epoch cursors) (grows : before.Grows after) :
    after.Settled epoch cursors := by
  intro stored mem
  obtain ⟨current, started, reached⟩ := settled stored mem
  exact ⟨current, isSome_grow started grows, reached.grow started grows⟩

theorem Relies.grow {session : List Int} (relies : before.Relies epoch session phase)
    (grows : before.Grows after) : after.Relies epoch session phase := by
  cases phase with
  | stopped => trivial
  | loaded cursors => exact ⟨relies.1, relies.2.grow grows⟩
  | subscribed cursors position =>
    cases position with
    | oldest => exact relies
    | first seq => exact relies
    | next seq =>
      obtain ⟨started, reached, last⟩ := relies
      exact ⟨isSome_grow started grows, reached.grow started grows, last⟩
  | delivered cursors envelope =>
    obtain ⟨started, bound, reached, last⟩ := relies
    exact ⟨isSome_grow started grows, bound.trans (by exact_mod_cast grows.length),
      reached.grow started grows, last⟩
  | applied cursors envelope =>
    obtain ⟨started, reached, last⟩ := relies
    exact ⟨isSome_grow started grows, reached.grow started grows, last⟩

section

variable (sound : before.Sound epoch)
include sound

theorem Sound.move {session : List Int} (grows : before.Grows after)
    (published : after.published = before.published) (table : after.Settled epoch after.cursors)
    (phases : after.phases = Function.update before.phases consumer phase)
    (sessions : after.sessions = Function.update before.sessions consumer session)
    (relies : after.Relies epoch session phase) (consecutive : session.IsChain fun seq seq' => seq' = seq + 1) :
    after.Sound epoch := by
  refine ⟨?_, table, ?_, ?_⟩
  · rw [published]
    exact sound.numbered
  · intro other
    rw [phases, sessions]
    by_cases same : other = consumer
    · subst same
      simpa using relies
    · simpa [same] using (sound.relies other).grow grows
  intro other
  rw [sessions]
  by_cases same : other = consumer
  · subst same
    simpa using consecutive
  · simpa [same] using sound.consecutive other

/-- A step that only moves one consumer to another phase. -/
theorem Sound.goTo (relies : before.Relies epoch (before.sessions consumer) phase) :
    (before.goTo consumer phase).Sound epoch := by
  have grows : before.Grows (before.goTo consumer phase) :=
    ⟨le_rfl, fun _ => .inl, fun _ => id, List.Subset.refl _, List.Subset.refl _⟩
  exact sound.move grows rfl (sound.table.grow grows) rfl (Function.update_eq_self _ _).symm
    (relies.grow grows) (sound.consecutive consumer)

theorem Sound.publish (event : MonitorEvent) (blockHeight : Int) (trimmed : Nat) (divide : Division) :
    (before.perform divide epoch (.publish event blockHeight trimmed)).Sound epoch := by
  have grows : before.Grows (before.perform divide epoch (.publish event blockHeight trimmed)) := by
    refine ⟨by simp [perform], ?_, fun _ => id, List.Subset.refl _, List.Subset.refl _⟩
    intro envelope mem
    rcases List.mem_append.mp mem with old | new
    · exact .inl old
    · rw [List.mem_singleton.mp new]
      exact .inr (by simp)
  refine ⟨?_, sound.table.grow grows, fun consumer => (sound.relies consumer).grow grows,
    sound.consecutive⟩
  intro envelope mem
  have longer : (before.perform divide epoch (.publish event blockHeight trimmed)).published.length =
      before.published.length + 1 := by simp [perform]
  rw [longer]
  rcases List.mem_append.mp mem with old | new
  · have := sound.numbered envelope old
    push_cast
    omega
  · rw [List.mem_singleton.mp new]
    push_cast
    exact le_rfl

theorem Sound.start (consumer : Nat) (divide : Division) :
    (before.perform divide epoch (.start consumer)).Sound epoch := by
  simp only [perform]
  split
  · have grows : before.Grows { before.goTo consumer (.loaded before.cursors) with
        sessions := Function.update before.sessions consumer [] } :=
      ⟨le_rfl, fun _ => .inl, fun _ => id, List.Subset.refl _, List.Subset.refl _⟩
    exact sound.move grows rfl (sound.table.grow grows) rfl rfl ⟨rfl, sound.table.grow grows⟩
      List.IsChain.nil
  · exact sound

end

/-- Where a consumer of settled cursors resumes, everything before is done. -/
theorem Settled.relies_subscribed (settled : before.Settled epoch cursors) {position : Position}
    (subscribed : before.subscribeFrom (resumePoint cursors epoch) = some position) :
    before.Relies epoch [] (.subscribed cursors position) := by
  unfold resumePoint at subscribed
  cases highest : (cursors.rows.map fun stored => stored.2.seq).max? with
  | none =>
    rw [highest] at subscribed
    cases subscribed
    rfl
  | some seq =>
    rw [highest] at subscribed
    have isNext : position = .next (seq + 1) := by
      simp only [Option.map_some, subscribeFrom] at subscribed
      split at subscribed
      · split at subscribed
        · cases subscribed
        · exact (Option.some.inj subscribed).symm
      · exact (Option.some.inj subscribed).symm
    obtain ⟨stored, mem, isSeq⟩ := List.mem_map.mp (List.max?_mem highest)
    obtain ⟨_, started, reached⟩ := settled stored mem
    rw [isNext]
    refine ⟨started, ?_, by simp⟩
    rw [add_sub_cancel_right, ← isSeq]
    exact reached

theorem Sound.subscribe (sound : before.Sound epoch) (consumer : Nat) (accept : Bool)
    (order : Nat → Nat) (world : World RunError Reply) (divide : Division) :
    (before.perform divide epoch (.subscribe consumer accept order world)).Sound epoch := by
  simp only [perform]
  split
  next cursors isLoaded =>
    have relies := sound.relies consumer
    rw [isLoaded] at relies
    obtain ⟨fresh, settled⟩ := relies
    rw [reconcileCursors_current fun stored mem => (settled stored mem).1]
    refine sound.goTo ?_
    dsimp only
    cases subscribed : before.subscribeFrom (resumePoint cursors epoch) with
    | none => trivial
    | some position =>
      rw [fresh]
      exact settled.relies_subscribed subscribed
  · exact sound

theorem Sound.read (sound : before.Sound epoch) (consumer : Nat) (divide : Division) :
    (before.perform divide epoch (.read consumer)).Sound epoch := by
  simp only [perform]
  split
  next cursors envelope isOldest _ =>
    have relies := sound.relies consumer
    rw [isOldest] at relies
    exact sound.goTo relies
  · exact sound

/-- Handing out the next entry of a subscription. -/
theorem Sound.give (sound : before.Sound epoch) (mem : envelope ∈ before.published)
    (reached : (before.give consumer cursors envelope).Reached (envelope.cursor.seq - 1))
    (next : ∀ last ∈ (before.sessions consumer).getLast?, envelope.cursor.seq = last + 1) :
    (before.give consumer cursors envelope).Sound epoch := by
  have grows : before.Grows (before.give consumer cursors envelope) := by
    refine ⟨le_rfl, fun _ => .inl, ?_, List.Subset.refl _, List.Subset.refl _⟩
    intro first isFirst
    simp [Fleet.give, isFirst]
  refine sound.move grows rfl (sound.table.grow grows) rfl rfl ⟨?_, sound.numbered envelope mem,
    reached, by simp⟩ ?_
  · simp [Fleet.give]
  · refine List.isChain_append.mpr ⟨sound.consecutive consumer, List.isChain_singleton _, ?_⟩
    intro last isLast seq isSeq
    cases isSeq
    exact next last isLast

theorem envelopeAt_eq_some {seq : Int} (found : before.envelopeAt seq = some envelope) :
    envelope ∈ before.published ∧ envelope.cursor.seq = seq :=
  ⟨List.mem_of_find?_eq_some found, by simpa using List.find?_some found⟩

variable (sound : before.Sound epoch)
include sound

theorem Sound.deliver (condition : before.FromTheFirst (.deliver consumer)) (divide : Division) :
    (before.perform divide epoch (.deliver consumer)).Sound epoch := by
  have relies := sound.relies consumer
  simp only [perform]
  split
  next cursors seq isFirst =>
    rw [isFirst] at relies
    unfold deliverAt
    split
    next envelope found =>
      obtain ⟨mem, rfl⟩ := envelopeAt_eq_some found
      refine sound.give mem ?_ (by rw [show before.sessions consumer = [] from relies]; simp)
      have bound := sound.numbered envelope mem
      refine ⟨show envelope.cursor.seq - 1 ≤ (before.published.length : Int) by omega, ?_⟩
      -- nothing lies between the first entry ever delivered and this one
      intro first isFirst' other _ low high
      have below : envelope.cursor.seq ≤ first := by
        cases before' : before.first with
        | none =>
          simp only [Fleet.give, before', Option.or_some] at isFirst'
          cases isFirst'
          exact le_rfl
        | some first' =>
          have low' := condition cursors _ isFirst first' before'
          simp only [Fleet.give, before', Option.some_or] at isFirst'
          cases isFirst'
          exact low'
      omega
    · exact sound
  next cursors seq isNext =>
    rw [isNext] at relies
    obtain ⟨started, reached, last⟩ := relies
    unfold deliverAt
    split
    next envelope found =>
      obtain ⟨mem, rfl⟩ := envelopeAt_eq_some found
      refine sound.give mem (reached.grow started ?_) last
      refine ⟨le_rfl, fun _ => .inl, ?_, List.Subset.refl _, List.Subset.refl _⟩
      intro first isFirst
      simp [Fleet.give, isFirst]
    · exact sound
  · exact sound

theorem Sound.done (isDelivered : before.phases consumer = .delivered cursors envelope) {db : Db}
    {applied skipped : List Int} (moreApplied : before.applied ⊆ applied)
    (moreSkipped : before.skipped ⊆ skipped)
    (isDone : envelope.cursor.seq ∈ applied ∨ envelope.cursor.seq ∈ skipped) :
    Sound epoch { before.goTo consumer (.applied cursors envelope) with db, applied, skipped } := by
  have relies := sound.relies consumer
  rw [isDelivered] at relies
  obtain ⟨started, bound, reached, last⟩ := relies
  have grows : before.Grows { before.goTo consumer (.applied cursors envelope) with
      db, applied, skipped } :=
    ⟨le_rfl, fun _ => .inl, fun _ => id, moreApplied, moreSkipped⟩
  refine sound.move grows rfl (sound.table.grow grows) rfl (Function.update_eq_self _ _).symm
    ⟨started, ⟨bound, ?_⟩, last⟩ (sound.consecutive consumer)
  intro first isFirst other mem low high
  by_cases this : other.cursor.seq = envelope.cursor.seq
  · rw [this]
    exact isDone
  · exact (reached.grow started grows).2 first isFirst other mem low (by omega)

theorem Sound.apply (consumer : Nat) (skipEvents : List (Nat × Int × Int)) (delivery : Delivery)
    (world : World EventConsumerError Time) (divide : Division) :
    (before.perform divide epoch (.apply consumer skipEvents delivery world)).Sound epoch := by
  simp only [perform]
  split
  next cursors envelope isDelivered =>
    split
    · exact sound.done isDelivered (List.Subset.refl _) (List.subset_append_left _ _)
        (.inr (by simp))
    split
    · exact sound.done isDelivered (List.subset_append_left _ _) (List.Subset.refl _)
        (.inl (by simp))
    · have stopped : (before.goTo consumer .stopped).Sound epoch := sound.goTo trivial
      exact { stopped with }
  · exact sound

theorem Sound.commit (consumer : Nat) (world : World RunError Reply) (divide : Division) :
    (before.perform divide epoch (.commit consumer world)).Sound epoch := by
  simp only [perform]
  split
  next cursors envelope isApplied =>
    have relies := sound.relies consumer
    rw [isApplied] at relies
    obtain ⟨started, reached, last⟩ := relies
    have table := @applyEnvelope_state true epoch envelope.chainId envelope.cursor.seq
      envelope.cursor.blockHeight cursors world 0 before.cursorDb
    generalize applyEnvelope true epoch envelope.chainId envelope.cursor.seq
      envelope.cursor.blockHeight cursors world 0 before.cursorDb = outcome at *
    have settled : before.Settled epoch outcome.state.cursors := by
      rcases table with same | committed
      · rw [same]
        exact sound.table
      intro stored mem
      rw [committed] at mem
      rcases Cursors.mem_commit mem with rfl | old
      · exact ⟨rfl, started, reached⟩
      · exact sound.table stored old
    have unmoved := (Function.update_eq_self consumer before.sessions).symm
    refine sound.move ⟨le_rfl, fun _ => .inl, fun _ => id, List.Subset.refl _, List.Subset.refl _⟩ rfl
      settled rfl unmoved ?_ (sound.consecutive consumer)
    cases outcome.result with
    | error e => trivial
    | ok left =>
      refine ⟨started, ?_, ?_⟩
      · rw [add_sub_cancel_right]
        exact reached
      · intro seq isLast
        rw [last] at isLast
        cases isLast
        rfl
  · exact sound

theorem Sound.step {action : FleetAction} (condition : before.FromTheFirst action) (divide : Division) :
    (before.perform divide epoch action).Sound epoch := by
  cases action with
  | publish event blockHeight trimmed => exact sound.publish event blockHeight trimmed divide
  | start consumer => exact sound.start consumer divide
  | subscribe consumer accept order world => exact sound.subscribe consumer accept order world divide
  | read consumer => exact sound.read consumer divide
  | deliver consumer => exact sound.deliver condition divide
  | apply consumer skipEvents delivery world => exact sound.apply consumer skipEvents delivery world divide
  | commit consumer world => exact sound.commit consumer world divide
  | stop consumer => exact sound.goTo trivial

/-- A step keeps every stored position. -/
theorem Sound.keepsPositions (action : FleetAction) (divide : Division) :
    KeepsPositions before.cursors (before.perform divide epoch action).cursors := by
  have same := KeepsPositions.refl before.cursors
  cases action with
  | publish event blockHeight trimmed => exact same
  | start consumer =>
    simp only [perform]
    split <;> exact same
  | subscribe consumer accept order world =>
    simp only [perform]
    split
    next cursors isLoaded =>
      have relies := sound.relies consumer
      rw [isLoaded] at relies
      rw [reconcileCursors_current fun stored mem => (relies.2 stored mem).1]
      exact same
    · exact same
  | read consumer =>
    simp only [perform]
    split <;> exact same
  | deliver consumer =>
    simp only [perform, deliverAt]
    split
    · split <;> exact same
    · split <;> exact same
    · exact same
  | apply consumer skipEvents delivery world =>
    simp only [perform]
    split
    · split
      · exact same
      · split <;> exact same
    · exact same
  | commit consumer world =>
    simp only [perform]
    split
    next cursors envelope _ =>
      rcases @applyEnvelope_state true epoch envelope.chainId envelope.cursor.seq
        envelope.cursor.blockHeight cursors world 0 before.cursorDb with unchanged | committed
      · rw [unchanged]
        exact same
      · rw [committed]
        exact keepsPositions_commit (fun stored mem => (sound.table stored mem).1) _ _ _
    · exact same
  | stop consumer => exact same

end Fleet

/--
In every run in which no consumer that subscribed without a cursor begins above
the first entry ever delivered, everything from that entry up to each stored
position is applied or skipped, each consumer is given consecutive positions
from one start to the next, and no step moves a stored position back.
-/
theorem resume_exact_from_the_first (divide : Division) (maxlen : Nat) (epoch : Int) {after : Fleet}
    (reached : ((fleet divide maxlen epoch).restrict Fleet.FromTheFirst).Reachable after) :
    ExactResume after ∧ ∀ action next,
      ((fleet divide maxlen epoch).restrict Fleet.FromTheFirst).step after action next →
        KeepsPositions after.cursors next.cursors := by
  have sound : after.Sound epoch := by
    refine reached.invariant (I := Fleet.Sound epoch) ?_ ?_
    · intro start initial
      refine ⟨by simp [initial.published], by simp [Fleet.Settled, initial.cursors], ?_, ?_⟩
      · intro consumer
        rw [initial.phases]
        trivial
      · intro consumer
        rw [initial.sessions]
        exact List.IsChain.nil
    · rintro before action after _ sound ⟨⟨_, rfl⟩, condition⟩
      exact sound.step condition divide
  refine ⟨⟨?_, sound.consecutive⟩, ?_⟩
  · intro first isFirst stored mem
    exact (sound.table stored mem).2.2.2 first isFirst
  · rintro action next ⟨⟨_, rfl⟩, _⟩
    exact sound.keepsPositions action divide

/-! ## A first entry that is applied, and one that is trimmed away -/

/-- An outbox of epoch 1 without entries, and consumers that have not started. -/
def idleFleet : Fleet := ⟨[], 0, Db.empty, Table.empty, fun _ => .stopped, fun _ => [], none, [], []⟩

theorem idleFleet_initial : idleFleet.IsInitial := ⟨rfl, rfl, rfl, fun _ => rfl, fun _ => rfl, rfl, rfl, rfl⟩

def answeringStore : World RunError Reply := Proc.uninterrupted fun _ => .done

/-- Consumer 0 starts with an empty cursor table and is given its first entry. -/
def coldStart : List FleetAction :=
  [.start 0, .subscribe 0 false id answeringStore, .read 0, .deliver 0]

/-- Consumer 0 applies what it was given; the database answers or is down. -/
def applyFirst (world : World EventConsumerError Time) : FleetAction :=
  .apply 0 [] ⟨1, 0, id⟩ world

def acts (fleet : Fleet) (actions : List FleetAction) : Fleet :=
  actions.foldl (Fleet.perform (· / ·) 1) fleet

/--
Consumer 0 stops before it applies the first entry, starts again with an empty
table, and once more when it has committed the entry.
-/
def committedFleet : Fleet :=
  acts idleFleet (.publish (.notice 1) 0 0 :: coldStart ++ .stop 0 :: coldStart ++
    [applyFirst (Proc.uninterrupted fun _ => 0), .commit 0 answeringStore, .stop 0, .publish (.notice 1) 0 0,
      .start 0, .subscribe 0 false id answeringStore, .deliver 0,
      applyFirst (Proc.uninterrupted fun _ => 0), .commit 0 answeringStore])

theorem resume_exact_committed :
    committedFleet.first = some 1 ∧ committedFleet.cursors.rows = [(1, ⟨1, 2, 0⟩)] ∧
      committedFleet.applied = [1, 2] ∧ committedFleet.sessions 0 = [2] ∧ ExactResume committedFleet := by
  refine ⟨by decide +kernel, by decide +kernel, by decide +kernel, by decide +kernel, ?_⟩
  have reached : ((fleet (· / ·) 1 1).restrict Fleet.FromTheFirst).Reachable committedFleet := by
    refine (System.Reachable.of_initial idleFleet_initial).run (System.Path.run ?_)
    repeat' apply And.intro
    all_goals first | trivial | decide +kernel | (rintro cursors seq ⟨⟩ first ⟨⟩; try decide)
  exact (resume_exact_from_the_first _ _ _ reached).1

def firstPayment : MonitorEvent :=
  .paymentDetected ⟨1, 1, 5, 1, 7, 1, 101, none, true, none, 6, 1, 2, 0⟩

/--
The application of the first entry fails and the consumer stops; the entry leaves
the outbox, and the consumer starts again with an empty table.
-/
def skippingFleet : Fleet :=
  acts idleFleet (.publish firstPayment 1 0 :: coldStart ++
    [applyFirst fun _ => .error .stopped, .publish (.notice 1) 0 1] ++ coldStart ++
    [applyFirst (Proc.uninterrupted fun _ => 0), .commit 0 answeringStore])

/-- The position after the failed payment is committed, and the payment is never applied. -/
theorem first_entry_skipped :
    (fleet (· / ·) 1 1).Reachable skippingFleet ∧ skippingFleet.first = some 1 ∧
      skippingFleet.cursors.rows = [(1, ⟨1, 2, 0⟩)] ∧ skippingFleet.applied = [2] ∧
      skippingFleet.skipped = [] ∧ ¬ ExactResume skippingFleet := by
  have isFirst : skippingFleet.first = some 1 := by decide +kernel
  have stored : skippingFleet.cursors.rows = [(1, ⟨1, 2, 0⟩)] := by decide +kernel
  have applied : skippingFleet.applied = [2] := by decide +kernel
  have skipped : skippingFleet.skipped = [] := by decide +kernel
  refine ⟨?_, isFirst, stored, applied, skipped, ?_⟩
  · refine (System.Reachable.of_initial idleFleet_initial).run (System.Path.run ?_)
    repeat' apply And.intro
    all_goals trivial
  intro exact
  have entries : skippingFleet.published =
      [⟨1, ⟨1, 1, 1⟩, firstPayment⟩, ⟨1, ⟨1, 2, 0⟩, .notice 1⟩] := rfl
  have done := exact.complete 1 isFirst (1, ⟨1, 2, 0⟩) (by simp [stored])
    ⟨1, ⟨1, 1, 1⟩, firstPayment⟩ (by simp [entries]) (by decide) (by decide)
  rw [applied, skipped] at done
  simp at done

end EthPayServer.Outbox
