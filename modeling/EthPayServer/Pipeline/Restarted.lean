import EthPayServer.Pipeline.Completeness

/-!
# A monitor over several lifetimes

The cursor, its hash and the pending payments are fields of `ChainMonitor` and
nothing else: a process that starts again has the watched keys it restores from
Redis, no cursor and nothing pending.  The block stream starts at the head, so
the blocks mined while the process was down are behind the first block it
processes, and a payment that was waiting for confirmations is not counted any
further.
-/

namespace EthPayServer.Pipeline

open Lib Evm

/-- A call of the event loop of `start`; `view` is as much of the chain as is mined then. -/
inductive MonitorCall where
  | process (block : Block) (now : Time) (view : Chain) (world : World EvmError Chain)
  | confirm (order : Nat → Nat) (now : Time) (world : World EvmError Chain)

namespace MonitorCall

def Valid (chain : Chain) : MonitorCall → Prop
  | .process block _ view world =>
    view.blocks <+: chain.blocks ∧ block ∈ view.blocks ∧ Truthful (· = view) world
  | .confirm _ _ world => Truthful (fun view => view.blocks <+: chain.blocks) world

def run (monitor : ChainMonitor) : MonitorCall → ChainMonitor
  | .process block now _ world =>
    (ChainMonitor.processBlock block.notification now world 0 monitor).state
  | .confirm order now world => (ChainMonitor.checkConfirmations order now world 0 monitor).state

end MonitorCall

/-- Put the persisted watches back: `restore_watched_addresses`. -/
def restoreWatchedAddresses (persisted : List (Address × Uuid × Option Address)) (now : Time)
    (monitor : ChainMonitor) : ChainMonitor :=
  persisted.foldl (fun monitor (address, invoiceId, tokenContract) =>
    monitor.watch ⟨address, invoiceId, none, tokenContract, now⟩) monitor

structure Lifetimes where
  /-- the running monitor; its events are those of every lifetime -/
  monitor : ChainMonitor
  /-- the first and the highest block processed over all lifetimes -/
  span : Option (Nat × Nat)
  /-- the watched set at each call of `process_block` -/
  snapshots : List WatchedSet

inductive LifetimesAction where
  | call (call : MonitorCall)
  | watch (watched : WatchedAddress)
  | unwatch (address : Address) (tokenContract : Option Address)
  /-- the process stops, perhaps inside a call that has sent `count` events, and starts again -/
  | restart (during : Option MonitorCall) (count : Nat) (now : Time)

namespace Lifetimes

/-- The first and the highest processed block after a call for a block. -/
def extend (span : Option (Nat × Nat)) (number : Nat) (cursor : Option Nat) : Option (Nat × Nat) :=
  match span, cursor with
  | span, none => span
  | none, some cursor => some (number, cursor)
  | some (first, highest), some cursor => some (first, max highest cursor)

/-- Everything sent by the time the process stops. -/
def sentUntil (life : Lifetimes) (during : Option MonitorCall) (count : Nat) : List MonitorEvent :=
  life.monitor.events ++ match during with
    | none => []
    | some call => ((call.run life.monitor).events.drop life.monitor.events.length).take count

/-- The watches Redis holds for the chain. -/
def persisted (life : Lifetimes) : List (Address × Uuid × Option Address) :=
  life.monitor.watched.rows.map fun entry => (entry.1.1, entry.2.invoiceId, entry.1.2)

def Valid (chain : Chain) : LifetimesAction → Prop
  | .call call => call.Valid chain
  | .restart during _ _ => ∀ call, during = some call → call.Valid chain
  | _ => True

def perform (life : Lifetimes) : LifetimesAction → Lifetimes
  | .call (.process block now view world) =>
    let after := (MonitorCall.process block now view world).run life.monitor
    ⟨after, extend life.span block.number after.lastBlock, life.snapshots ++ [life.monitor.watched]⟩
  | .call (.confirm order now world) =>
    { life with monitor := (MonitorCall.confirm order now world).run life.monitor }
  | .watch watched => { life with monitor := life.monitor.watch watched }
  | .unwatch address tokenContract =>
    { life with monitor := life.monitor.unwatch address tokenContract }
  | .restart during count now =>
    let created := ChainMonitor.new life.monitor.chainId life.monitor.config
    { life with
      monitor := restoreWatchedAddresses life.persisted now
        { created with events := life.sentUntil during count } }

/-- The key was watched whenever a block was processed. -/
def StayedWatched (life : Lifetimes) (key : WatchKey) : Prop :=
  ∀ snapshot ∈ life.snapshots, (snapshot.find? key).isSome

structure IsFresh (life : Lifetimes) : Prop where
  detects : DetectsAll life.monitor
  lastBlock : life.monitor.lastBlock = none
  pending : life.monitor.pending = Table.empty
  events : life.monitor.events = []
  span : life.span = none

/--
The process stops only when every payment it announced is confirmed, and the
first block it processes again is at most the one after the highest processed
before.
-/
def Uninterrupted (life : Lifetimes) : LifetimesAction → Prop
  | .call (.process block _ _ _) => life.monitor.lastBlock = none →
    ∀ first highest, life.span = some (first, highest) → block.number ≤ highest + 1
  | .restart during count _ => ∀ event, .paymentDetected event ∈ life.sentUntil during count →
    IsConfirmed (life.sentUntil during count) event
  | _ => True

end Lifetimes

/-- The runs of the monitor of one chain that is never replaced, with stops and restarts. -/
def lifetimes (chain : Chain) : System Lifetimes LifetimesAction where
  initial := Lifetimes.IsFresh
  step before action after := Lifetimes.Valid chain action ∧ after = before.perform action

/--
A payment waits in `pending`, and the next check under a head that is deep
enough confirms it.
-/
def AwaitsConfirmation (monitor : ChainMonitor) (event : PaymentDetected) : Prop :=
  monitor.IsTracked event ∧ ∀ head order now,
    event.requiredConfirmations ≤ head - event.blockNumber + 1 →
      IsConfirmed (monitor.confirmAt head order now).events event

/-- What no restart should lose. -/
structure NothingLost (chain : Chain) (life : Lifetimes) : Prop where
  announced : ∀ first highest, life.span = some (first, highest) →
    AnnouncedBelow chain life.monitor.events life.StayedWatched first (highest + 1)
  awaits : ∀ event, .paymentDetected event ∈ life.monitor.events →
    IsConfirmed life.monitor.events event ∨ AwaitsConfirmation life.monitor event

/-! ## One call -/

variable {view chain : Chain}

theorem blockAt?_of_isPrefix (mined : view.blocks <+: chain.blocks) {number : Nat}
    (here : view.blockAt? number = some block) : chain.blockAt? number = some block := by
  obtain ⟨rest, isChain⟩ := mined
  have bound := (List.getElem?_eq_some_iff.mp here).1
  unfold Chain.blockAt? at here ⊢
  rw [← isChain, List.getElem?_append_left bound, here]

theorem blockAt?_view (mined : view.blocks <+: chain.blocks) {top : Block} (mem : top ∈ view.blocks)
    {number : Nat} (low : number ≤ top.number) (here : chain.blockAt? number = some block) :
    view.blockAt? number = some block := by
  have atTop := Chain.le_head_of_blockAt? (Chain.blockAt?_of_mem mem)
  obtain ⟨block', here'⟩ := Chain.exists_blockAt? (low.trans atTop)
  rw [blockAt?_of_isPrefix mined here'] at here
  cases here
  exact here'

section Process

variable {chain view : Chain} {monitor : ChainMonitor}

/-- A call for a block of the chain announces everything up to the cursor it leaves. -/
theorem announcedBelow_process {keys : WatchKey → Prop} {first next : Nat}
    (valid : (MonitorCall.process block now view world).Valid chain) (detects : DetectsAll monitor)
    (watched : ∀ key, keys key → (monitor.watched.find? key).isSome)
    (announced : AnnouncedBelow chain monitor.events keys first next)
    (behind : ∀ last, monitor.lastBlock = some last → last < next)
    (starts : monitor.lastBlock = none → block.number ≤ next) :
    ∃ next', next ≤ next' ∧
      AnnouncedBelow chain ((MonitorCall.process block now view world).run monitor).events keys first
        next' ∧
      ∀ last, ((MonitorCall.process block now view world).run monitor).lastBlock = some last →
        last < next' := by
  obtain ⟨mined, mem, truthful⟩ := valid
  have agree : ∀ number scanned, number ≤ block.notification.number →
      chain.blockAt? number = some scanned → view.blockAt? number = some scanned :=
    fun number scanned low here => blockAt?_view mined mem low here
  have joins : monitor.scanFrom block.notification.number ≤ next := by
    unfold ChainMonitor.scanFrom
    split
    next last isLast =>
      have := behind last isLast
      omega
    next none => exact starts none
  obtain ⟨next', grown, announced', reached⟩ := announced.processBlock truthful watched (fun _ same => same)
    detects agree joins
  refine ⟨next', grown, announced', fun last isLast => ?_⟩
  by_cases same : ((MonitorCall.process block now view world).run monitor).lastBlock = monitor.lastBlock
  · exact (behind last (same.symm.trans isLast)).trans_le grown
  · obtain ⟨cursor, isCursor, below⟩ := reached (.inr same)
    obtain rfl := Option.some.inj (isCursor.symm.trans isLast)
    exact below

end Process

/-! ## Payments on their way to a confirmation -/

theorem DetectedIn.of_isPrefix (mined : view.blocks <+: chain.blocks) {required : Nat} {event : PaymentDetected}
    (detected : DetectedIn [view] required event) : DetectedIn [chain] required event := by
  obtain ⟨view', mem, block, here, rest⟩ := detected.block
  rw [List.mem_singleton.mp mem] at here
  exact ⟨⟨chain, List.mem_singleton_self _, block, blockAt?_of_isPrefix mined here, rest⟩,
    detected.required⟩

/-- Every announced payment is confirmed or tracked, and so is every entry of `pending`. -/
structure Accounted (chain : Chain) (monitor : ChainMonitor) : Prop where
  keyed : ChainMonitor.Keyed monitor
  pending : ∀ entry ∈ monitor.pending.rows,
    DetectedIn [chain] monitor.config.requiredConfirmations entry.2.event
  detected : ∀ event, .paymentDetected event ∈ monitor.events →
    DetectedIn [chain] monitor.config.requiredConfirmations event ∧
      (IsConfirmed monitor.events event ∨ monitor.IsTracked event)

theorem MonitorCall.tracking_process {chain view : Chain} {monitor : ChainMonitor}
    (valid : (MonitorCall.process block now view world).Valid chain) :
    ChainMonitor.Tracking monitor ((MonitorCall.process block now view world).run monitor) := by
  obtain ⟨reported, mid, report, phase, phase', stops, _⟩ :=
    ChainMonitor.processBlock_phases valid.2.2 block.notification now 0 monitor
  exact ChainMonitor.Processing.tracking ⟨reported, mid, report, phase, phase', stops⟩

theorem MonitorCall.run_confirm {chain : Chain} {order : Nat → Nat}
    (valid : (MonitorCall.confirm order now world).Valid chain) (monitor : ChainMonitor) :
    (MonitorCall.confirm order now world).run monitor = monitor ∨
      ∃ head, (MonitorCall.confirm order now world).run monitor = monitor.confirmAt head order now := by
  rcases ChainMonitor.checkConfirmations_cases valid order now 0 monitor with
    same | ⟨view, _, confirmed⟩
  · exact .inl same
  · exact .inr ⟨view.head, confirmed⟩

namespace Accounted

variable {chain : Chain} {monitor : ChainMonitor}

section

variable (accounted : Accounted chain monitor)
include accounted

/-- A tracked payment is confirmed by the next check that is deep enough. -/
theorem awaits {event : PaymentDetected} (mem : .paymentDetected event ∈ monitor.events)
    (tracked : monitor.IsTracked event) : AwaitsConfirmation monitor event := by
  refine ⟨tracked, fun head order now deep => ?_⟩
  obtain ⟨txIndex, isIndex, known⟩ := tracked
  obtain ⟨entry, memEntry, isKey⟩ := Table.mem_keys.mp known
  obtain ⟨⟨⟨_, here, block, atBlock, _, tx, memTx, sameHash⟩, required⟩, _⟩ :=
    accounted.detected event mem
  obtain ⟨⟨_, here', block', atBlock', _, tx', memTx', sameHash'⟩, required'⟩ :=
    accounted.pending entry memEntry
  rw [List.mem_singleton.mp here] at atBlock
  rw [List.mem_singleton.mp here'] at atBlock'
  -- the entry is of the same transaction, so of the same block
  have isHash : entry.2.event.txHash = event.txHash := by
    rw [← accounted.keyed entry memEntry, isKey]
  have sameNumber := Chain.number_unique atBlock atBlock' memTx memTx'
    (by rw [sameHash, sameHash', isHash])
  obtain ⟨confirmed, sent, isEntry⟩ := ChainMonitor.confirmAt_confirms accounted.keyed memEntry
    (by rw [required', ← required, ← sameNumber]; exact deep) order now
  rw [isKey, Prod.mk.injEq] at isEntry
  exact ⟨confirmed, sent, isEntry.1, by rw [isIndex, isEntry.2]⟩

theorem process {view : Chain} (valid : (MonitorCall.process block now view world).Valid chain) :
    Accounted chain ((MonitorCall.process block now view world).run monitor) := by
  have tracking : ChainMonitor.Tracking monitor
      ((MonitorCall.process block now view world).run monitor) := MonitorCall.tracking_process valid
  obtain ⟨mined, mem, truthful⟩ := valid
  let node : Node := ⟨view, [view], monitor⟩
  have serves : Truthful (node.Serves []) world :=
    ⟨fun answered => List.mem_singleton.mpr (truthful.answers answered), truthful.faults⟩
  obtain ⟨setup, reports, found, isSent, _, sound, pending⟩ :=
    ChainMonitor.processBlock_effect serves block.notification now 0 monitor
  have canonical : (view.blockAt? block.number).map Block.notification = some block.notification := by
    rw [Chain.blockAt?_of_mem mem]
    rfl
  have onChain : ∀ event ∈ found, DetectedIn [chain] monitor.config.requiredConfirmations event := by
    intro event memFound
    have inView : DetectedIn node.history node.monitor.config.requiredConfirmations event :=
      detectedIn_of_sound canonical (List.mem_singleton_self _) (sound event memFound)
    exact inView.of_isPrefix mined
  have sameConfig : ((MonitorCall.process block now view world).run monitor).config = monitor.config :=
    setup.config
  have kept : ∀ event, .paymentDetected event ∈ monitor.events →
      DetectedIn [chain] monitor.config.requiredConfirmations event ∧
        (IsConfirmed ((MonitorCall.process block now view world).run monitor).events event ∨
          ((MonitorCall.process block now view world).run monitor).IsTracked event) := by
    intro event old
    obtain ⟨isOn, resolved⟩ := accounted.detected event old
    refine ⟨isOn, resolved.imp (fun confirmed => confirmed.mono tracking.events) ?_⟩
    rintro ⟨txIndex, isIndex, known⟩
    exact ⟨txIndex, isIndex, tracking.keys known⟩
  refine ⟨?_, ?_, ?_⟩
  · intro entry memEntry
    rcases pending entry memEntry with old | ⟨event, _, txIndex, _, rfl⟩
    · exact accounted.keyed entry old
    · rfl
  · intro entry memEntry
    rw [sameConfig]
    rcases pending entry memEntry with old | ⟨event, memFound, txIndex, _, rfl⟩
    · exact accounted.pending entry old
    · exact onChain event memFound
  intro event memEvent
  rw [sameConfig]
  have isSent' : ((MonitorCall.process block now view world).run monitor).events = _ := isSent
  rcases tracking.detected event memEvent with old | tracked
  · exact kept event old
  rw [isSent', List.append_assoc] at memEvent
  rcases List.mem_append.mp memEvent with old | new
  · exact kept event old
  · have memFound : event ∈ found := by simpa using new
    obtain ⟨txIndex, isIndex⟩ := (sound event memFound).txIndex
    exact ⟨onChain event memFound, .inr ⟨txIndex, isIndex, tracked txIndex isIndex⟩⟩

theorem confirmAt (head : Nat) (order : Nat → Nat) (now : Time) :
    Accounted chain (monitor.confirmAt head order now) := by
  refine ⟨?_, ?_, ?_⟩
  · intro entry mem
    obtain ⟨old, memOld, rfl⟩ := List.mem_map.mp (List.mem_filter.mp mem).1
    exact accounted.keyed old memOld
  · intro entry mem
    obtain ⟨old, memOld, isEvent⟩ := mem_countConfirmations (List.mem_filter.mp mem).1
    obtain ⟨inBlock, required⟩ := accounted.pending old memOld
    rw [isEvent]
    exact ⟨inBlock, required⟩
  intro event mem
  have old : .paymentDetected event ∈ monitor.events := by
    simpa [ChainMonitor.confirmAt] using mem
  obtain ⟨isOn, resolved⟩ := accounted.detected event old
  refine ⟨isOn, ?_⟩
  rcases resolved with confirmed | tracked
  · exact .inl (confirmed.mono (List.subset_append_left _ _))
  · exact ChainMonitor.confirmAt_resolves accounted.keyed tracked head order now

end

theorem call (accounted : Accounted chain monitor) {call : MonitorCall} (valid : call.Valid chain) :
    Accounted chain (call.run monitor) := by
  cases call with
  | process block now view world => exact accounted.process valid
  | confirm order now world =>
    rcases MonitorCall.run_confirm valid monitor with same | ⟨head, confirmed⟩
    · rw [same]
      exact accounted
    · rw [confirmed]
      exact accounted.confirmAt head order now

end Accounted

/-- What a call leaves alone, whatever its outcome. -/
theorem MonitorCall.keeps {chain : Chain} {call : MonitorCall} (valid : call.Valid chain)
    (monitor : ChainMonitor) :
    monitor.events ⊆ (call.run monitor).events ∧ (call.run monitor).config = monitor.config := by
  cases call with
  | process block now view world =>
    have setup := (ChainMonitor.processBlock_effect valid.2.2 block.notification now 0 monitor).setup
    exact ⟨(MonitorCall.tracking_process valid).events, setup.config⟩
  | confirm order now world =>
    rcases MonitorCall.run_confirm valid monitor with same | ⟨head, confirmed⟩
    · rw [same]
      exact ⟨List.Subset.refl _, rfl⟩
    · rw [confirmed]
      exact ⟨List.subset_append_left _ _, rfl⟩

/-! ## Every run -/

theorem restoreWatchedAddresses_eq (persisted : List (Address × Uuid × Option Address)) (now : Time)
    (monitor : ChainMonitor) :
    restoreWatchedAddresses persisted now monitor =
      { monitor with watched := (restoreWatchedAddresses persisted now monitor).watched } := by
  unfold restoreWatchedAddresses
  induction persisted generalizing monitor with
  | nil => rfl
  | cons watch rest ih =>
    rw [List.foldl_cons, ih]
    rfl

namespace Lifetimes

variable {chain : Chain} {life : Lifetimes}

/-- What holds between any two calls. -/
structure Intact (chain : Chain) (life : Lifetimes) : Prop where
  detects : DetectsAll life.monitor
  behind : ∀ last, life.monitor.lastBlock = some last →
    ∃ first highest, life.span = some (first, highest) ∧ last ≤ highest
  announced : ∀ first highest, life.span = some (first, highest) →
    AnnouncedBelow chain life.monitor.events life.StayedWatched first (highest + 1)
  accounted : Accounted chain life.monitor

theorem Intact.nothingLost (intact : Intact chain life) : NothingLost chain life where
  announced := intact.announced
  awaits := by
    intro event mem
    exact (intact.accounted.detected event mem).2.imp_right (intact.accounted.awaits mem)

theorem Intact.of_initial (fresh : life.IsFresh) : Intact chain life where
  detects := fresh.detects
  behind := by simp [fresh.lastBlock]
  announced := by simp [fresh.span]
  accounted := ⟨by simp [ChainMonitor.Keyed, fresh.pending], by simp [fresh.pending],
    by simp [fresh.events]⟩

theorem stayedWatched_snoc {monitor : ChainMonitor} {span : Option (Nat × Nat)} {watched : WatchedSet}
    {key : WatchKey} :
    StayedWatched ⟨monitor, span, life.snapshots ++ [watched]⟩ key ↔
      life.StayedWatched key ∧ (watched.find? key).isSome := by
  simp [StayedWatched, or_imp, forall_and]

theorem span_extend {number cursor : Nat} {first highest : Nat}
    (span : extend life.span number (some cursor) = some (first, highest)) :
    (life.span = none ∧ first = number ∧ highest = cursor) ∨
      ∃ highest', life.span = some (first, highest') ∧ highest = max highest' cursor := by
  cases before : life.span with
  | none =>
    rw [before] at span
    cases span
    exact .inl ⟨rfl, rfl, rfl⟩
  | some range =>
    obtain ⟨first', highest'⟩ := range
    rw [before] at span
    cases span
    exact .inr ⟨highest', rfl, rfl⟩

/-- The blocks a call for a block may start from, and those it then leaves announced. -/
theorem Intact.announced_process (intact : Intact chain life) {view : Chain} {keys : WatchKey → Prop}
    (valid : (MonitorCall.process block now view world).Valid chain)
    (condition : life.Uninterrupted (.call (.process block now view world)))
    (stayed : ∀ key, keys key → life.StayedWatched key)
    (watched : ∀ key, keys key → (life.monitor.watched.find? key).isSome) :
    (life.span = none → ∃ next,
      AnnouncedBelow chain ((MonitorCall.process block now view world).run life.monitor).events keys
        block.number next ∧
      ∀ last, ((MonitorCall.process block now view world).run life.monitor).lastBlock = some last →
        last < next) ∧
    ∀ first highest, life.span = some (first, highest) → ∃ next, highest < next ∧
      AnnouncedBelow chain ((MonitorCall.process block now view world).run life.monitor).events keys
        first next ∧
      ∀ last, ((MonitorCall.process block now view world).run life.monitor).lastBlock = some last →
        last < next := by
  constructor
  · intro unstarted
    have noCursor : ∀ last, life.monitor.lastBlock = some last → last < block.number := by
      intro last isLast
      obtain ⟨first, highest, span, _⟩ := intact.behind last isLast
      rw [unstarted] at span
      cases span
    have nothing : AnnouncedBelow chain life.monitor.events keys block.number block.number := by
      intro number _ above below
      omega
    obtain ⟨next, _, announced, behind⟩ := announcedBelow_process valid intact.detects watched nothing
      noCursor fun _ => le_rfl
    exact ⟨next, announced, behind⟩
  intro first highest span
  have near : ∀ last, life.monitor.lastBlock = some last → last < highest + 1 := by
    intro last isLast
    obtain ⟨first', highest', span', below⟩ := intact.behind last isLast
    rw [span] at span'
    cases span'
    omega
  have old := (intact.announced first highest span).mono (List.Subset.refl _) stayed le_rfl
  obtain ⟨next, grown, announced, behind⟩ := announcedBelow_process valid intact.detects watched old
    near fun stopped => condition stopped first highest span
  exact ⟨next, grown, announced, behind⟩

theorem Intact.process (intact : Intact chain life) {view : Chain}
    (valid : (MonitorCall.process block now view world).Valid chain)
    (condition : life.Uninterrupted (.call (.process block now view world))) :
    Intact chain (life.perform (.call (.process block now view world))) := by
  have accounted := intact.accounted.call valid
  have sameConfig := (MonitorCall.keeps valid life.monitor).2
  let keys : WatchKey → Prop := fun key =>
    life.StayedWatched key ∧ (life.monitor.watched.find? key).isSome
  have stayed : ∀ key, keys key → life.StayedWatched key := fun _ both => both.1
  obtain ⟨starts, continues⟩ := intact.announced_process valid condition stayed fun _ both => both.2
  simp only [perform]
  generalize (MonitorCall.process block now view world).run life.monitor = after at *
  have detects : DetectsAll after := by
    rw [DetectsAll, sameConfig]
    exact intact.detects
  refine ⟨detects, ?_, ?_, accounted⟩
  · intro last isLast
    change after.lastBlock = some last at isLast
    cases before : life.span with
    | none => exact ⟨block.number, last, by rw [isLast]; rfl, le_rfl⟩
    | some range => exact ⟨range.1, max range.2 last, by rw [isLast]; rfl, le_max_right _ _⟩
  intro first highest span
  change extend life.span block.number after.lastBlock = some (first, highest) at span
  have bound : ∃ next, highest < next ∧ AnnouncedBelow chain after.events keys first next := by
    cases cursor : after.lastBlock with
    | none =>
      rw [cursor] at span
      have same : life.span = some (first, highest) := by
        cases before : life.span <;> rw [before] at span <;> exact span
      obtain ⟨next, grown, announced, _⟩ := continues first highest same
      exact ⟨next, grown, announced⟩
    | some last =>
      rw [cursor] at span
      rcases span_extend span with ⟨unstarted, rfl, rfl⟩ | ⟨highest', before, rfl⟩
      · obtain ⟨next, announced, behind⟩ := starts unstarted
        exact ⟨next, behind highest cursor, announced⟩
      · obtain ⟨next, grown, announced, behind⟩ := continues first highest' before
        exact ⟨next, max_lt grown (behind last cursor), announced⟩
  obtain ⟨next, high, announced⟩ := bound
  exact announced.mono (List.Subset.refl _) (fun _ => stayedWatched_snoc.mp) high

theorem sentUntil_subset (life : Lifetimes) {during : Option MonitorCall} {count : Nat}
    (valid : Valid chain (.restart during count now)) :
    ∃ monitor, life.sentUntil during count ⊆ monitor.events ∧
      (Accounted chain life.monitor → Accounted chain monitor) ∧
      monitor.config = life.monitor.config := by
  cases during with
  | none => exact ⟨life.monitor, by simp [sentUntil], id, rfl⟩
  | some call =>
    obtain ⟨more, sameConfig⟩ := MonitorCall.keeps (valid call rfl) life.monitor
    refine ⟨call.run life.monitor, ?_, fun accounted => accounted.call (valid call rfl), sameConfig⟩
    refine List.append_subset.mpr ⟨more, ?_⟩
    exact List.Subset.trans (List.take_subset _ _) (List.drop_subset _ _)

theorem Intact.restart (intact : Intact chain life) {during : Option MonitorCall} {count : Nat}
    (valid : Valid chain (.restart during count now))
    (condition : life.Uninterrupted (.restart during count now)) :
    Intact chain (life.perform (.restart during count now)) := by
  obtain ⟨monitor, more, stays, sameConfig⟩ := sentUntil_subset life valid
  have accounted := stays intact.accounted
  simp only [perform]
  rw [restoreWatchedAddresses_eq]
  refine ⟨intact.detects, by rintro last ⟨⟩, ?_, ?_⟩
  · intro first highest span
    exact (intact.announced first highest span).mono (List.subset_append_left _ _) (fun _ => id) le_rfl
  refine ⟨by simp [ChainMonitor.Keyed, ChainMonitor.new], by simp [ChainMonitor.new], ?_⟩
  intro event mem
  have isOn := (accounted.detected event (more mem)).1
  rw [sameConfig] at isOn
  exact ⟨isOn, .inl (condition event mem)⟩

theorem Intact.step (intact : Intact chain life) {action : LifetimesAction}
    (valid : Valid chain action) (condition : life.Uninterrupted action) :
    Intact chain (life.perform action) := by
  cases action with
  | call call =>
    cases call with
    | process block now view world => exact intact.process valid condition
    | confirm order now world =>
      have valid' : (MonitorCall.confirm order now world).Valid chain := valid
      obtain ⟨more, sameConfig⟩ := MonitorCall.keeps valid' life.monitor
      have sameCursor : ((MonitorCall.confirm order now world).run life.monitor).lastBlock =
          life.monitor.lastBlock := by
        rcases MonitorCall.run_confirm valid' life.monitor with same | ⟨head, confirmed⟩
        · rw [same]
        · rw [confirmed]
          rfl
      refine ⟨?_, ?_, ?_, intact.accounted.call valid'⟩
      · simp only [perform, DetectsAll, sameConfig]
        exact intact.detects
      · simp only [perform, sameCursor]
        exact intact.behind
      · intro first highest span
        exact (intact.announced first highest span).mono more (fun _ => id) le_rfl
  | watch watched =>
    obtain ⟨keyed, pending, detected⟩ := intact.accounted
    exact ⟨intact.detects, intact.behind, intact.announced, keyed, pending, detected⟩
  | unwatch address tokenContract =>
    obtain ⟨keyed, pending, detected⟩ := intact.accounted
    exact ⟨intact.detects, intact.behind, intact.announced, keyed, pending, detected⟩
  | restart during count now => exact intact.restart valid condition

end Lifetimes

/--
In every run whose restarts lose neither a payment that awaits confirmation nor
a block, every transfer to a key that stayed watched is announced from the first
to the highest processed block, and every announced payment is confirmed or
waits for its confirmation.
-/
theorem nothing_lost_uninterrupted (chain : Chain) {after : Lifetimes}
    (reached : ((lifetimes chain).restrict Lifetimes.Uninterrupted).Reachable after) :
    NothingLost chain after := by
  have intact : after.Intact chain := by
    refine reached.invariant (I := Lifetimes.Intact chain) ?_ ?_
    · intro start fresh
      exact Lifetimes.Intact.of_initial fresh
    · rintro before action after _ intact ⟨⟨valid, rfl⟩, condition⟩
      exact intact.step valid condition
  exact intact.nothingLost

/-! ## Stops that lose nothing, and stops that do -/

def startLife : Lifetimes := ⟨ChainMonitor.new 1 (ChainMonitorConfig.fromChain 2), none, []⟩

theorem startLife_fresh : startLife.IsFresh := ⟨⟨rfl, rfl⟩, rfl, rfl, rfl, rfl⟩

def watchedLife : Lifetimes := startLife.perform (.watch ⟨5, 1, none, none, 0⟩)

/-- A block is announced when `view` is mined. -/
def headBlock (view : Chain) (block : Block) : LifetimesAction :=
  .call (.process block 0 view (answering view))

/-- The process stops between two calls and starts again. -/
def restartIdle : LifetimesAction := .restart none 0 0

theorem headBlock_valid (mined : view.blocks <+: chain.blocks) (mem : block ∈ view.blocks) :
    Lifetimes.Valid chain (headBlock view block) :=
  ⟨mined, mem, answering_truthful rfl⟩

def confirmedLife : Lifetimes :=
  (watchedLife.perform (headBlock paidChain paidBlock)).perform
    (.call (.confirm id 0 (answering paidChain)))

/-- The process stops when the payment is confirmed, and the next block is the first one after it. -/
def resumedLife : Lifetimes :=
  (confirmedLife.perform restartIdle).perform (headBlock paidChain ⟨2, 102, 101, []⟩)

theorem confirmedLife_settled : confirmedLife.Uninterrupted restartIdle := by
  have sent : confirmedLife.sentUntil none 0 =
      [.paymentDetected ⟨1, 1, 5, 1, 7, 1, 101, none, true, none, 6, 1, 2, 0⟩,
        .paymentConfirmed ⟨-1, 1, 1, 5, 1, 7, 1, 2, 0⟩] := by decide +kernel
  intro event mem
  rw [sent] at mem ⊢
  obtain rfl : event = ⟨1, 1, 5, 1, 7, 1, 101, none, true, none, 6, 1, 2, 0⟩ := by simpa using mem
  exact ⟨_, List.mem_cons_of_mem _ (List.mem_singleton_self _), rfl, rfl⟩

theorem nothing_lost_resumed :
    resumedLife.span = some (1, 2) ∧ resumedLife.monitor.events.length = 2 ∧
      NothingLost paidChain resumedLife := by
  refine ⟨by decide +kernel, by decide +kernel, nothing_lost_uninterrupted paidChain ?_⟩
  have started : ((lifetimes paidChain).restrict Lifetimes.Uninterrupted).Reachable startLife :=
    System.Reachable.of_initial startLife_fresh
  have watched : ((lifetimes paidChain).restrict Lifetimes.Uninterrupted).Reachable watchedLife :=
    started.snoc (a := .watch ⟨5, 1, none, none, 0⟩) ⟨⟨trivial, rfl⟩, trivial⟩
  have paid := watched.snoc (a := headBlock paidChain paidBlock)
    ⟨⟨headBlock_valid (List.prefix_refl _) (by decide), rfl⟩, by rintro _ first highest ⟨⟩⟩
  have checks : Lifetimes.Valid paidChain (.call (.confirm id 0 (answering paidChain))) :=
    show Truthful (fun view => view.blocks <+: paidChain.blocks) _ from
      answering_truthful (List.prefix_refl _)
  have confirmed := paid.snoc ⟨⟨checks, rfl⟩, trivial⟩
  have restarted := confirmed.snoc (a := restartIdle)
    ⟨⟨by rintro call ⟨⟩, rfl⟩, confirmedLife_settled⟩
  refine restarted.snoc (a := headBlock paidChain ⟨2, 102, 101, []⟩)
    ⟨⟨headBlock_valid (List.prefix_refl _) (by decide), rfl⟩, ?_⟩
  intro _ first highest span
  have isSpan : (confirmedLife.perform restartIdle).span = some (1, 1) := by decide +kernel
  have isSpan' : some (1, 1) = some (first, highest) := isSpan.symm.trans span
  cases isSpan'
  decide

def stoppedChain : Chain :=
  ⟨[genesis, ⟨1, 101, 100, []⟩], by decide, by decide, by decide, by decide, by decide⟩

/-- The process is down while the block with the payment and the one after it are mined. -/
def skippedLife : Lifetimes :=
  ((watchedLife.perform (headBlock stoppedChain ⟨1, 101, 100, []⟩)).perform restartIdle).perform
    (headBlock lateChain ⟨3, 203, 202, []⟩)

/-- The process stops while the announced payment waits for its second confirmation. -/
def forgottenLife : Lifetimes :=
  (watchedLife.perform (headBlock paidChain paidBlock)).perform restartIdle

theorem watchedLife_reachable (chain : Chain) : (lifetimes chain).Reachable watchedLife :=
  (System.Reachable.of_initial (show (lifetimes chain).initial _ from startLife_fresh)).snoc
    (a := .watch ⟨5, 1, none, none, 0⟩) ⟨trivial, rfl⟩

/-- A payment mined while the process is down is never announced; one that waited is not tracked. -/
theorem lost_on_restart :
    ((lifetimes lateChain).Reachable skippedLife ∧ skippedLife.span = some (1, 3) ∧
      skippedLife.StayedWatched (5, none) ∧ skippedLife.monitor.events = [] ∧
      ¬ NothingLost lateChain skippedLife) ∧
    (lifetimes paidChain).Reachable forgottenLife ∧
      forgottenLife.monitor.events ≠ [] ∧ forgottenLife.monitor.pending.rows = [] ∧
      ¬ NothingLost paidChain forgottenLife := by
  have idle : ∀ chain, Lifetimes.Valid chain restartIdle := by rintro chain call ⟨⟩
  have isSpan : skippedLife.span = some (1, 3) := by decide +kernel
  have stayed : skippedLife.StayedWatched (5, none) := by
    unfold Lifetimes.StayedWatched
    decide +kernel
  have silent : skippedLife.monitor.events = [] := by decide +kernel
  have nothing : forgottenLife.monitor.pending.rows = [] := by decide +kernel
  have sent : forgottenLife.monitor.events =
      [.paymentDetected ⟨1, 1, 5, 1, 7, 1, 101, none, true, none, 6, 1, 2, 0⟩] := by decide +kernel
  refine ⟨⟨?_, isSpan, stayed, silent, ?_⟩, ?_, by simp [sent], nothing, ?_⟩
  · have first := (watchedLife_reachable lateChain).snoc (a := headBlock stoppedChain ⟨1, 101, 100, []⟩)
      ⟨headBlock_valid (by decide) (by decide), rfl⟩
    exact (first.snoc (a := restartIdle) ⟨idle _, rfl⟩).snoc (a := headBlock lateChain ⟨3, 203, 202, []⟩)
      ⟨headBlock_valid (List.prefix_refl _) (by decide), rfl⟩
  · intro kept
    obtain ⟨event, mem, _⟩ := kept.announced 1 3 isSpan 2 lateBlock (by omega) (by omega) (by decide)
      ⟨7, none, none, 6, 5, 1⟩ (by decide) stayed
    rw [silent] at mem
    cases mem
  · have first := (watchedLife_reachable paidChain).snoc (a := headBlock paidChain paidBlock)
      ⟨headBlock_valid (List.prefix_refl _) (by decide), rfl⟩
    exact first.snoc (a := restartIdle) ⟨idle _, rfl⟩
  intro kept
  rcases kept.awaits _ (by rw [sent]; exact List.mem_singleton_self _) with
    ⟨confirmed, mem, _⟩ | ⟨⟨txIndex, _, known⟩, _⟩
  · rw [sent] at mem
    simp at mem
  · simp [Table.keys, nothing] at known

end EthPayServer.Pipeline
