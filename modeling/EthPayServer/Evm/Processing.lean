import EthPayServer.Evm.Detection

/-!
# What processing a block does

One call of `processBlock` reports a reorganisation or not, may close part of a
gap, and may scan the announced block.  Each of these either happens entirely
or leaves the monitor as it was, so a call is a short sequence of `Report` and
`Progress` steps whatever its outcome.
-/

namespace EthPayServer.Evm

open Lib

variable {start last number lastNum first : Nat} {monitor state : ChainMonitor} {block : BlockNotification}
   {now : Time} {watched : WatchedSet} {native : List PaymentDetected}

namespace ChainMonitor

/-! ## Reorganisation reports -/

/-- The fork the monitor notices when its source answers from one chain. -/
def noticedFork (chain : Chain) (monitor : ChainMonitor) (block : BlockNotification) : Option Nat :=
  match monitor.lastBlockHash, monitor.lastBlock with
  | some lastHash, some lastNum =>
    if block.number = lastNum + 1 then
      if block.parentHash ≠ lastHash then some lastNum else none
    else
      match chain.hashAt? lastNum with
      | some hash => if hash ≠ lastHash then some (min lastNum block.number) else none
      | none => none
  | _, _ => none

structure IsReport (served : Chain → Prop) (monitor : ChainMonitor) (block : BlockNotification)
    (report : ReorgDetected) : Prop where
  chainId : report.chainId = monitor.chainId
  verifiable : report.survivorsVerifiable = !monitor.watched.rows.isEmpty
  survived : ∀ txHash ∈ report.survivedTxHashes, ∃ chain, served chain ∧
    chain.Includes block.number txHash
  noticed : ∀ chain, Solely served chain →
    noticedFork chain monitor block = some report.forkBlock

/-- The reorganisation check: silence, or one report. -/
inductive Report (served : Chain → Prop) (block : BlockNotification) (monitor : ChainMonitor) :
    ChainMonitor → Prop
  | quiet
      (unnoticed : ∀ chain, Solely served chain →
        noticedFork chain monitor block = none) :
      Report served block monitor monitor
  | reorg (report : ReorgDetected) (isReport : IsReport served monitor block report) :
      Report served block monitor (monitor.send (.reorgDetected report))

theorem mem_chunkRanges_bounds {chunk fuel : Nat} {range : Nat × Nat}
    (mem : range ∈ chunkRanges chunk fuel start last) : start ≤ range.1 ∧ range.2 ≤ last := by
  induction fuel generalizing start with
  | zero => simp [chunkRanges] at mem
  | succ fuel ih =>
    simp only [chunkRanges] at mem
    split at mem
    · rcases List.mem_cons.mp mem with rfl | later
      · exact ⟨le_refl _, min_le_right _ _⟩
      · split at later
        · cases later
        · obtain ⟨low, high⟩ := ih later
          exact ⟨by omega, high⟩
    · cases mem

section Spec

variable {served : Chain → Prop} {world : World EvmError Chain}

theorem getBlockHash_spec (truthful : Truthful served world) (number : Nat) :
    Finds world monitor (getBlockHash number) fun hash => ∃ chain, served chain ∧ hash = chain.hashAt? number := by
  refine Proc.Triple.read ?_ ?_ ?_
  · intro i e state fault start
    exact ⟨start, truthful.faults fault⟩
  · intro i chain state hash answered start asked
    cases asked
    exact ⟨start, chain, truthful.answers answered, rfl⟩
  · intro i chain state e answered start refused
    cases refused

/-- The transactions a survivor scan reports are in the scanned blocks. -/
def Survivors (served : Chain → Prop) (last : Nat) (txHashes : List B256) : Prop :=
  ∀ txHash ∈ txHashes, ∃ chain, served chain ∧ chain.Includes last txHash

theorem Survivors.append {first second : List B256} (left : Survivors served last first)
    (right : Survivors served last second) : Survivors served last (first ++ second) := by
  intro txHash mem
  rcases List.mem_append.mp mem with inLeft | inRight
  · exact left txHash inLeft
  · exact right txHash inRight

theorem nativeSurvivors_spec (truthful : Truthful served world) {addresses : List Address}
    (some_watched : addresses.isEmpty = false) (low : number ≤ last) :
    Finds world monitor
      (do
        let transfers ← findNativeTransfersTo number addresses
        pure (transfers.map NativeTransfer.txHash))
      (Survivors served last) := by
  refine Proc.Triple.bind _ (findNativeTransfersTo_spec truthful number some_watched) fun transfers => ?_
  refine Proc.Triple.pure ?_
  rintro state ⟨rfl, chain, block, isServed, here, extracted⟩
  refine ⟨rfl, fun txHash mem => ?_⟩
  obtain ⟨transfer, memTransfer, rfl⟩ := List.mem_map.mp mem
  obtain ⟨tx, txIndex, recipient, memTx, _, _, _, rfl⟩ :=
    (mem_extractNativeTransfers extracted).mp memTransfer
  exact ⟨chain, isServed, number, block, low, here, tx, List.fst_mem_of_mem_zipIdx memTx, rfl⟩

theorem mem_logs {block : Block} {entry : B256 × Nat × Log} :
    entry ∈ block.logs ↔ ∃ tx ∈ block.transactions, tx.hash = entry.1 ∧
      tx.logs[entry.2.1]? = some entry.2.2 := by
  obtain ⟨txHash, position, log⟩ := entry
  simp only [Block.logs, List.mem_flatMap, List.mem_map, Prod.exists, Prod.mk.injEq]
  constructor
  · rintro ⟨tx, memTx, log, position, mem, rfl, rfl, rfl⟩
    exact ⟨tx, memTx, rfl, List.mem_zipIdx_iff_getElem?.mp mem⟩
  · rintro ⟨tx, memTx, rfl, here⟩
    exact ⟨tx, memTx, log, position, List.mem_zipIdx_iff_getElem?.mpr here, rfl, rfl, rfl⟩

theorem tokenSurvivors_spec (truthful : Truthful served world) {addresses : List Address} {stop : Nat}
    (low : stop ≤ last) :
    Finds world monitor
      (do
        let logs ← getLogs ((LogFilter.erc20TransfersTo addresses).withBlockRange start stop)
        pure (logs.filterMap RpcLog.transactionHash))
      (Survivors served last) := by
  refine Proc.Triple.bind _ (getLogs_spec truthful _) fun logs => ?_
  refine Proc.Triple.pure ?_
  rintro state ⟨rfl, chain, isServed, rfl⟩
  refine ⟨rfl, fun txHash mem => ?_⟩
  obtain ⟨entry, memEntry, named⟩ := List.mem_filterMap.mp mem
  obtain ⟨_, number, block, _, high, here, memLog⟩ := mem_getLogs_transfers.mp memEntry
  obtain ⟨txHash', position, log, logIndex, memIdx, rfl⟩ := mem_rpcLogs.mp memLog
  cases named
  obtain ⟨tx, memTx, same, _⟩ := mem_logs.mp (List.fst_mem_of_mem_zipIdx memIdx)
  exact ⟨chain, isServed, number, block, by omega, here, tx, memTx, same⟩

/-- A collecting loop whose every iteration finds survivors finds survivors. -/
theorem collectSurvivors_spec {β : Type} {items : List β} {body : β → MonitorM (List B256)}
    (step : ∀ item ∈ items, Finds world monitor (body item) (Survivors served last)) :
    Finds world monitor (Proc.collect items body) (Survivors served last) := by
  induction items with
  | nil => exact Proc.Triple.pure fun state start => ⟨start, by simp [Survivors]⟩
  | cons item rest ih =>
    refine Proc.Triple.bind _ (step item List.mem_cons_self) fun found => ?_
    rintro i state ⟨rfl, here⟩
    refine Outcome.Satisfies.andThen _
      (ih (fun other mem => step other (List.mem_cons_of_mem item mem)) i state rfl) ?_
    rintro more calls after ⟨rfl, later⟩
    exact ⟨rfl, here.append later⟩

section

variable (truthful : Truthful served world)
include truthful

theorem findSurvivedTxHashes_spec (first last : Nat) :
    Finds world monitor (findSurvivedTxHashes first last) fun result =>
      Survivors served last result.1 ∧ result.2 = !monitor.watched.rows.isEmpty := by
  unfold findSurvivedTxHashes
  refine Proc.Triple.get_bind ?_
  rintro i state rfl
  by_cases nothing : state.watched.rows.isEmpty
  · rw [if_pos nothing]
    exact ⟨rfl, by simp [Survivors], by simp [nothing]⟩
  rw [if_neg nothing]
  refine Outcome.Satisfies.andThen (fun found after => after = state ∧ Survivors served last found)
    ?_ fun native calls after => ?_
  · by_cases nobody : (nativeAddresses state.watched).isEmpty
    · rw [if_pos nobody]
      exact ⟨rfl, by simp [Survivors]⟩
    · rw [if_neg nobody]
      refine collectSurvivors_spec (fun number mem => ?_) i state rfl
      exact nativeSurvivors_spec truthful (by simpa using nobody) (mem_blockRange.mp mem).2
  rintro ⟨rfl, nativeFound⟩
  refine Outcome.Satisfies.andThen (fun found after' => after' = after ∧ Survivors served last found)
    ?_ fun tokens calls' after' => ?_
  · by_cases nobody : (erc20Addresses after.watched).isEmpty
    · rw [if_pos nobody]
      exact ⟨rfl, by simp [Survivors]⟩
    · rw [if_neg nobody]
      refine collectSurvivors_spec (fun range mem => ?_) calls after rfl
      exact tokenSurvivors_spec truthful (mem_chunkRanges_bounds mem).2
  rintro ⟨rfl, tokensFound⟩
  exact ⟨rfl, nativeFound.append tokensFound, by simpa using nothing⟩

theorem forkBlock?_spec {lastHash : B256} (hash : monitor.lastBlockHash = some lastHash)
    (number : monitor.lastBlock = some lastNum) (block : BlockNotification) :
    Finds world monitor (forkBlock? lastHash lastNum block) fun fork =>
      ∀ chain, Solely served chain → noticedFork chain monitor block = fork := by
  unfold forkBlock?
  split
  next successor =>
    refine Proc.Triple.pure fun state start => ⟨start, fun chain _ => ?_⟩
    simp [noticedFork, hash, number, successor]
  next jump =>
    refine Proc.Triple.bind _ (getBlockHash_spec truthful lastNum) fun answer => ?_
    rintro i state ⟨rfl, chain, isServed, rfl⟩
    cases here : chain.hashAt? lastNum with
    | none =>
      refine ⟨rfl, fun other only => ?_⟩
      simp [noticedFork, hash, number, jump, ← only chain isServed, here]
    | some current =>
      refine ⟨rfl, fun other only => ?_⟩
      simp [noticedFork, hash, number, jump, ← only chain isServed, here]

theorem handleReorg_spec {forkBlock : Nat} {oldHash : B256}
    (noticed : ∀ chain, Solely served chain → noticedFork chain monitor block = some forkBlock) :
    Proc.Triple world (· = monitor) (handleReorg forkBlock oldHash block now)
      (fun _ state => Report served block monitor state)
      (fun e state => state = monitor ∧ e ≠ .panic) := by
  unfold handleReorg
  refine Proc.Triple.get_bind ?_
  rintro i state rfl
  refine Outcome.Satisfies.andThen _
    (findSurvivedTxHashes_spec truthful forkBlock block.number i state rfl) ?_
  rintro ⟨survived, verifiable⟩ calls after ⟨rfl, sound, isVerifiable⟩
  exact .reorg _ ⟨rfl, isVerifiable, sound, noticed⟩

theorem checkContinuity_spec (block : BlockNotification) (now : Time) :
    Proc.Triple world (· = monitor) (checkContinuity block now)
      (fun _ state => Report served block monitor state)
      (fun e state => state = monitor ∧ e ≠ .panic) := by
  unfold checkContinuity
  refine Proc.Triple.get_bind ?_
  rintro i state rfl
  cases hash : state.lastBlockHash with
  | none => exact .quiet fun chain _ => by simp [noticedFork, hash]
  | some lastHash =>
    cases number : state.lastBlock with
    | none => exact .quiet fun chain _ => by simp [noticedFork, hash, number]
    | some lastNum =>
      refine Outcome.Satisfies.andThen _ (forkBlock?_spec truthful hash number block i state rfl) ?_
      rintro fork calls after ⟨rfl, noticed⟩
      cases fork with
      | none => exact .quiet noticed
      | some forkBlock => exact handleReorg_spec truthful noticed calls after rfl

end

/-! ## Scans of ranges -/

/-- A hash a native payment in the block of a number may be labelled with. -/
def Labels (served : Chain → Prop) (block : BlockNotification) (number : Nat) (hash : B256) : Prop :=
  (number = block.number ∧ hash = block.hash) ∨
    ∃ chain, served chain ∧ chain.hashAt? number = some hash

/-- The native half of a range scan, over the heights visited so far. -/
inductive NativeVisits (served : Chain → Prop) (block : BlockNotification) (monitor : ChainMonitor)
    (watched : WatchedSet) (now : Time) : List Nat → List PaymentDetected → Prop
  | nil : NativeVisits served block monitor watched now [] []
  | snoc {visited : List Nat} {found more : List PaymentDetected} {number : Nat} {hash : B256}
      (before : NativeVisits served block monitor watched now visited found)
      (labels : Labels served block number hash)
      (scan : NativeScan served monitor watched number hash now more) :
      NativeVisits served block monitor watched now (visited ++ [number]) (found ++ more)

theorem NativeVisits.sound {visited : List Nat}
    (visits : NativeVisits served block monitor watched now visited native) :
    ∀ event ∈ native, ∃ chain number scanned hash, served chain ∧ number ∈ visited ∧
      chain.blockAt? number = some scanned ∧ Labels served block number hash ∧
      monitor.NativeDetection watched hash now scanned event := by
  induction visits with
  | nil => simp
  | @snoc visited found more number hash before labels scan ih =>
    refine List.forall_mem_append.mpr ⟨fun event old => ?_, fun event new => ?_⟩
    · obtain ⟨chain, number', scanned, hash', isServed, seen, rest⟩ := ih event old
      exact ⟨chain, number', scanned, hash', isServed, List.mem_append_left _ seen, rest⟩
    · obtain ⟨chain, scanned, isServed, here, detected⟩ := scan.sound event new
      exact ⟨chain, number, scanned, hash, isServed, by simp, here, labels, detected⟩

theorem NativeVisits.complete {visited : List Nat} {chain : Chain} (only : Solely served chain)
    (visits : NativeVisits served block monitor watched now visited native) :
    ∀ number ∈ visited, ∀ scanned, chain.blockAt? number = some scanned →
      ∃ hash, ∀ event, monitor.NativeDetection watched hash now scanned event → event ∈ native := by
  induction visits with
  | nil => simp
  | @snoc visited found more number hash before labels scan ih =>
    refine List.forall_mem_append.mpr ⟨fun number' old scanned here => ?_, ?_⟩
    · obtain ⟨hash', all⟩ := ih number' old scanned here
      exact ⟨hash', fun event detected => List.mem_append_left _ (all event detected)⟩
    · refine List.forall_mem_singleton.mpr fun scanned here => ⟨hash, fun event detected => ?_⟩
      exact List.mem_append_right _ (scan.complete only here event detected)

/-- What a scan of the blocks `first..=last` finds through both detection paths. -/
inductive RangeScan (served : Chain → Prop) (block : BlockNotification) (monitor : ChainMonitor)
    (watched : WatchedSet) (first last : Nat) (now : Time) : List PaymentDetected → Prop
  | parts {native tokens : List PaymentDetected}
      (nativePart : if monitor.config.monitorNative then
        NativeVisits served block monitor watched now (blockRange first last) native else native = [])
      (tokenPart : if monitor.config.monitorErc20 then
        TokenScan served monitor watched first last now tokens else tokens = []) :
      RangeScan served block monitor watched first last now (native ++ tokens)

namespace RangeScan

variable {found : List PaymentDetected} {chain : Chain} {scanned : Block}

variable (scan : RangeScan served block monitor watched first last now found)
include scan

theorem sound :
    ∀ event ∈ found, ∃ chain number scanned hash, served chain ∧ first ≤ number ∧ number ≤ last ∧
      chain.blockAt? number = some scanned ∧ Labels served block number hash ∧
      (monitor.NativeDetection watched hash now scanned event ∨
        monitor.TokenDetection watched now scanned event) := by
  obtain ⟨nativePart, tokenPart⟩ := scan
  refine List.forall_mem_append.mpr ⟨fun event inNative => ?_, fun event inTokens => ?_⟩
  · split at nativePart
    · obtain ⟨chain, number, scanned, hash, isServed, seen, here, labels, detected⟩ :=
        nativePart.sound event inNative
      obtain ⟨low, high⟩ := mem_blockRange.mp seen
      exact ⟨chain, number, scanned, hash, isServed, low, high, here, labels, .inl detected⟩
    · rw [nativePart] at inNative
      cases inNative
  split at tokenPart
  · obtain ⟨chain, number, scanned, isServed, low, high, here, detected⟩ :=
      tokenPart.sound event inTokens
    refine ⟨chain, number, scanned, scanned.hash, isServed, low, high, here, ?_, .inr detected⟩
    exact .inr ⟨chain, isServed, by simp [Chain.hashAt?, here]⟩
  · rw [tokenPart] at inTokens
    cases inTokens

theorem mem_native (isOn : monitor.config.monitorNative = true) (only : Solely served chain)
    (low : first ≤ number) (high : number ≤ last) (here : chain.blockAt? number = some scanned) :
    ∃ hash, ∀ event, monitor.NativeDetection watched hash now scanned event → event ∈ found := by
  obtain ⟨nativePart, _⟩ := scan
  rw [if_pos isOn] at nativePart
  obtain ⟨hash, all⟩ := nativePart.complete only number (mem_blockRange.mpr ⟨low, high⟩) scanned here
  exact ⟨hash, fun event detected => List.mem_append_left _ (all event detected)⟩

theorem mem_tokens (isOn : monitor.config.monitorErc20 = true) (only : Solely served chain)
    (low : first ≤ number) (high : number ≤ last) (here : chain.blockAt? number = some scanned) :
    ∀ event, monitor.TokenDetection watched now scanned event → event ∈ found := by
  obtain ⟨_, tokenPart⟩ := scan
  rw [if_pos isOn] at tokenPart
  intro event detected
  exact List.mem_append_right _ (tokenPart.complete only low high here event detected)

end RangeScan

section

variable (truthful : Truthful served world)
include truthful

theorem blockHashOrErr_spec (number : Nat) :
    Finds world monitor (blockHashOrErr number) fun hash =>
      ∃ chain, served chain ∧ chain.hashAt? number = some hash := by
  refine Proc.Triple.bind _ (getBlockHash_spec truthful number) fun answer => ?_
  rintro i state ⟨rfl, chain, isServed, rfl⟩
  cases here : chain.hashAt? number with
  | none => exact ⟨rfl, by simp⟩
  | some hash => exact ⟨rfl, chain, isServed, here⟩

theorem nativeVisits_spec (block : BlockNotification) (watched : WatchedSet) (now : Time) (heights : List Nat) :
    Finds world monitor
      (Proc.collect heights fun number => do
        let hash ← blockHashOrErr number
        checkNativePayments watched number hash now)
      (NativeVisits served block monitor watched now heights) := by
  refine Proc.Triple.mono (Proc.Triple.collect (fun visited found state => state = monitor ∧
      NativeVisits served block monitor watched now visited found) ?_ [] [])
    (fun s start => ⟨start, .nil⟩) ?_ fun _ _ failed => failed
  · rintro visited number found i state ⟨rfl, before⟩
    refine Outcome.Satisfies.andThen _ (blockHashOrErr_spec truthful number i state rfl) ?_
    rintro hash calls after ⟨rfl, labels⟩
    refine (checkNativePayments_spec truthful watched number hash now calls after rfl).mono ?_
      fun _ _ failed => failed
    rintro more final ⟨rfl, scan⟩
    exact ⟨rfl, before.snoc (.inr labels) scan⟩
  · intro found state holds
    simpa using holds

/-- The native half of a scan, when it is switched on. -/
theorem nativePart_spec (block : BlockNotification) (watched : WatchedSet) (now : Time) (first last : Nat) :
    Finds world monitor
      (if monitor.config.monitorNative then
        Proc.collect (blockRange first last) fun number => do
          let hash ← blockHashOrErr number
          checkNativePayments watched number hash now
      else pure [])
      fun native => if monitor.config.monitorNative then
        NativeVisits served block monitor watched now (blockRange first last) native else native = [] := by
  by_cases isOn : monitor.config.monitorNative
  · simp only [isOn, if_true]
    exact nativeVisits_spec truthful block watched now (blockRange first last)
  · simp only [isOn, Bool.false_eq_true, if_false]
    exact Proc.Triple.pure fun state start => ⟨start, rfl⟩

theorem tokenPart_spec (watched : WatchedSet) (now : Time) (first last : Nat) : Proc.Triple world (· = monitor)
      (if monitor.config.monitorErc20 then checkErc20Payments watched first last now else pure [])
      (fun tokens state => state = monitor ∧ if monitor.config.monitorErc20 then
        TokenScan served monitor watched first last now tokens else tokens = [])
      (fun e state => state = monitor ∧ (e = .panic → OversizedIn served watched first last)) := by
  by_cases isOn : monitor.config.monitorErc20
  · simp only [isOn, if_true]
    exact checkErc20Payments_spec truthful watched first last now
  · simp only [isOn, Bool.false_eq_true, if_false]
    exact Proc.Triple.pure fun state start => ⟨start, rfl⟩

theorem backfillMissedBlocks_spec (block : BlockNotification) (watched : WatchedSet) (first last : Nat)
    (now : Time) :
    Proc.Triple world (· = monitor) (backfillMissedBlocks watched first last now)
      (fun result state => state = monitor ∧
        RangeScan served block monitor watched first last now result.2 ∧
        ∃ chain, served chain ∧ chain.hashAt? last = some result.1)
      (fun e state => state = monitor ∧ (e = .panic → OversizedIn served watched first last)) := by
  unfold backfillMissedBlocks
  refine Proc.Triple.get_bind ?_
  rintro i state rfl
  refine Outcome.Satisfies.andThen _ ((nativePart_spec truthful block watched now first last i state
    rfl).mono (fun _ _ holds => holds) fun e s failed => ⟨failed.1, fun p => absurd p failed.2⟩) ?_
  rintro native calls after ⟨rfl, nativeFound⟩
  refine Outcome.Satisfies.andThen _ (tokenPart_spec truthful watched now first last calls after rfl) ?_
  rintro tokens calls' after' ⟨rfl, tokensFound⟩
  refine Outcome.Satisfies.andThen _ ((blockHashOrErr_spec truthful last calls' after' rfl).mono
    (fun _ _ holds => holds) fun e s failed => ⟨failed.1, fun p => absurd p failed.2⟩) ?_
  rintro hash calls'' after'' ⟨rfl, labels⟩
  exact ⟨rfl, .parts nativeFound tokensFound, labels⟩

end

/-! ## Progress of the cursor -/

/-- What a phase of `processBlock` that moves the cursor does to the monitor. -/
inductive Advance (served : Chain → Prop) (block : BlockNotification) (now : Time)
    (monitor : ChainMonitor) : ChainMonitor → Prop
  | unwatched (nothing : monitor.watched.rows = []) :
      Advance served block now monitor (monitor.setCursor block.number block.hash)
  | chunk (lastNum chunkTo : Nat) (hash : B256) (found : List PaymentDetected)
      (cursor : monitor.lastBlock = some lastNum) (gap : lastNum + 1 < block.number)
      (stop : chunkTo = min (block.number - 1) (lastNum + backfillMaxBlocks))
      (scan : RangeScan served block monitor monitor.watched (lastNum + 1) chunkTo now found)
      (label : ∃ chain, served chain ∧ chain.hashAt? chunkTo = some hash) :
      Advance served block now monitor
        ((found.foldl recordDetected monitor).setCursor chunkTo hash)
  | block (found : List PaymentDetected)
      (noGap : ∀ lastNum, monitor.lastBlock = some lastNum → block.number ≤ lastNum + 1)
      (scan : RangeScan served block monitor monitor.watched block.number block.number now found) :
      Advance served block now monitor
        ((found.foldl recordDetected monitor).setCursor block.number block.hash)

/-- A phase moves the cursor or leaves the monitor as it was. -/
def Progress (served : Chain → Prop) (block : BlockNotification) (now : Time)
    (monitor state : ChainMonitor) : Prop :=
  state = monitor ∨ Advance served block now monitor state

theorem backfillChunk_spec (truthful : Truthful served world) (block : BlockNotification) (now : Time)
    (cursor : monitor.lastBlock = some lastNum) (gap : lastNum + 1 < block.number) :
    Proc.Triple world (· = monitor)
      (backfillChunk monitor.watched (lastNum + 1) (block.number - 1) now)
      (fun caughtUp state => Advance served block now monitor state ∧
        ∃ chunkTo, state.lastBlock = some chunkTo ∧ chunkTo < block.number ∧
          (caughtUp = true → chunkTo + 1 = block.number))
      (fun e state => state = monitor ∧
        (e = .panic → OversizedIn served monitor.watched (lastNum + 1) block.number)) := by
  unfold backfillChunk
  rintro i state rfl
  have stop : min (block.number - 1) (lastNum + 1 + backfillMaxBlocks - 1) =
      min (block.number - 1) (lastNum + backfillMaxBlocks) := rfl
  rw [stop]
  refine Outcome.Satisfies.andThen _ ((backfillMissedBlocks_spec truthful block state.watched _ _ now i
    state rfl).mono (fun _ _ holds => holds) ?_) ?_
  · rintro e s ⟨start, panics⟩
    refine ⟨start, fun isPanic => ?_⟩
    obtain ⟨chain, number, scanned, isServed, low, high, rest⟩ := panics isPanic
    exact ⟨chain, number, scanned, isServed, low, by omega, rest⟩
  rintro ⟨hash, found⟩ calls after ⟨rfl, scan, label⟩
  refine ⟨.chunk lastNum _ hash found cursor gap rfl scan label, _, rfl, by omega, ?_⟩
  intro caughtUp
  have reached := of_decide_eq_true caughtUp
  omega

theorem nativeVisits_announced (scan : NativeScan served monitor watched block.number block.hash now native) :
    NativeVisits served block monitor watched now (blockRange block.number block.number) native := by
  have one := NativeVisits.nil.snoc (.inl ⟨rfl, rfl⟩) scan
  simpa [blockRange] using one

theorem scanBlock_spec (truthful : Truthful served world) (block : BlockNotification) (now : Time)
    (noGap : ∀ lastNum, monitor.lastBlock = some lastNum → block.number ≤ lastNum + 1) :
    Proc.Triple world (· = monitor) (scanBlock monitor.watched block now)
      (fun _ state => Advance served block now monitor state)
      (fun e state => state = monitor ∧
        (e = .panic → OversizedIn served monitor.watched block.number block.number)) := by
  unfold scanBlock
  refine Proc.Triple.get_bind ?_
  rintro i state rfl
  refine Outcome.Satisfies.andThen (fun native after => after = state ∧
    if state.config.monitorNative then NativeVisits served block state state.watched now
      (blockRange block.number block.number) native else native = []) ?_ ?_
  · by_cases isOn : state.config.monitorNative
    · simp only [isOn, if_true]
      refine (checkNativePayments_spec truthful state.watched block.number block.hash now i state
        rfl).mono ?_ fun e s failed => ⟨failed.1, fun p => absurd p failed.2⟩
      rintro native after ⟨rfl, scan⟩
      exact ⟨rfl, nativeVisits_announced scan⟩
    · simp only [isOn, Bool.false_eq_true, if_false]
      exact ⟨rfl, rfl⟩
  rintro native calls after ⟨rfl, nativeFound⟩
  refine Outcome.Satisfies.andThen _
    (tokenPart_spec truthful after.watched now block.number block.number calls after rfl) ?_
  rintro tokens calls' after' ⟨rfl, tokensFound⟩
  exact .block _ noGap (.parts nativeFound tokensFound)

/-! ## The whole call -/

/-- The first height a call for a block may scan. -/
def scanFrom (monitor : ChainMonitor) (number : Nat) : Nat :=
  match monitor.lastBlock with
  | some lastNum => min (lastNum + 1) number
  | none => number

theorem OversizedIn.widen {first' last' : Nat} (oversized : OversizedIn served watched first last)
    (low : first' ≤ first) (high : last ≤ last') : OversizedIn served watched first' last' := by
  obtain ⟨chain, number, scanned, isServed, above, below, rest⟩ := oversized
  exact ⟨chain, number, scanned, isServed, by omega, by omega, rest⟩

/-- A phase left the monitor as it was, or its cursor before the block. -/
def StopsBefore (block : BlockNotification) (monitor state : ChainMonitor) : Prop :=
  state = monitor ∨ ∀ cursor, state.lastBlock = some cursor → cursor < block.number

/-- What a call did, whatever its outcome: a report or silence, then two phases. -/
def Processing (served : Chain → Prop) (block : BlockNotification) (now : Time)
    (monitor state : ChainMonitor) : Prop :=
  ∃ reported mid, (reported = monitor ∨ Report served block monitor reported) ∧
    Progress served block now reported mid ∧ Progress served block now mid state ∧
    StopsBefore block reported mid

@[simp] theorem setup_recordDetected (monitor : ChainMonitor) (event : PaymentDetected) :
    (monitor.recordDetected event).watched = monitor.watched ∧
      (monitor.recordDetected event).config = monitor.config ∧
      (monitor.recordDetected event).chainId = monitor.chainId := by
  unfold recordDetected
  split <;> simp [send]

/-- Recording payments changes neither the watched set nor the configuration. -/
theorem setup_foldl (found : List PaymentDetected) (monitor : ChainMonitor) :
    (found.foldl recordDetected monitor).watched = monitor.watched ∧
      (found.foldl recordDetected monitor).config = monitor.config ∧
      (found.foldl recordDetected monitor).chainId = monitor.chainId := by
  induction found generalizing monitor with
  | nil => simp
  | cons event rest ih => simp [ih]

theorem Report.setup (report : Report served block monitor state) :
    state.watched = monitor.watched ∧ state.config = monitor.config ∧
      state.chainId = monitor.chainId ∧ state.lastBlock = monitor.lastBlock ∧
      state.lastBlockHash = monitor.lastBlockHash ∧ state.pending = monitor.pending := by
  cases report <;> simp [send]

theorem Advance.setup (advance : Advance served block now monitor state) :
    state.watched = monitor.watched ∧ state.config = monitor.config ∧
      state.chainId = monitor.chainId := by
  cases advance <;> simp [setCursor, setup_foldl]

theorem Progress.setup (progress : Progress served block now monitor state) :
    state.watched = monitor.watched ∧ state.config = monitor.config ∧
      state.chainId = monitor.chainId := by
  rcases progress with rfl | advance
  · exact ⟨rfl, rfl, rfl⟩
  · exact advance.setup

variable (truthful : Truthful served world)
include truthful

theorem closeGap_spec (block : BlockNotification) (now : Time) :
    Proc.Triple world (· = monitor) (closeGap monitor.watched monitor.lastBlock block now)
      (fun caughtUp state => Progress served block now monitor state ∧
        StopsBefore block monitor state ∧
        (caughtUp = true → ∀ lastNum, state.lastBlock = some lastNum → block.number ≤ lastNum + 1) ∧
        (caughtUp = false → Advance served block now monitor state))
      (fun e state => state = monitor ∧ (e = .panic →
        OversizedIn served monitor.watched (monitor.scanFrom block.number) block.number)) := by
  rintro i state rfl
  unfold closeGap
  cases cursor : state.lastBlock with
  | none => exact ⟨.inl rfl, .inl rfl, by simp [cursor], by simp⟩
  | some lastNum =>
    by_cases gap : lastNum + 1 < block.number
    · simp only [gap, if_true]
      refine (backfillChunk_spec truthful block now cursor gap i state rfl).mono ?_ ?_
      · rintro caughtUp after ⟨advance, chunkTo, moved, below, reached⟩
        refine ⟨.inr advance, .inr ?_, ?_, fun _ => advance⟩
        · intro cursor' moved'
          rw [moved] at moved'
          cases moved'
          exact below
        intro isCaughtUp lastNum' moved'
        rw [moved] at moved'
        cases moved'
        have := reached isCaughtUp
        omega
      · rintro e after ⟨rfl, panics⟩
        refine ⟨rfl, fun isPanic => (panics isPanic).widen ?_ le_rfl⟩
        simp [scanFrom, cursor]
    simp only [gap, if_false]
    refine ⟨.inl rfl, .inl rfl, ?_, by simp⟩
    intro _ lastNum' same
    have same' : some lastNum = some lastNum' := cursor.symm.trans same
    cases same'
    omega

/-- The part of `processBlock` after the reorganisation check. -/
theorem scan_spec (block : BlockNotification) (now : Time) :
    Proc.Triple world (· = monitor)
      (do
        if ← closeGap monitor.watched monitor.lastBlock block now then
          scanBlock monitor.watched block now
        else pure ())
      (fun _ state => ∃ mid, Progress served block now monitor mid ∧
        Advance served block now mid state ∧ StopsBefore block monitor mid)
      (fun e state => (∃ mid, Progress served block now monitor mid ∧
          Progress served block now mid state ∧ StopsBefore block monitor mid) ∧ (e = .panic →
        OversizedIn served monitor.watched (monitor.scanFrom block.number) block.number)) := by
  rintro i state rfl
  refine Outcome.Satisfies.andThen _ ((closeGap_spec truthful block now i state rfl).mono
    (fun _ _ holds => holds) ?_) ?_
  · rintro e after ⟨rfl, panics⟩
    exact ⟨⟨_, .inl rfl, .inl rfl, .inl rfl⟩, panics⟩
  rintro caughtUp calls mid ⟨progress, stops, noGap, advances⟩
  cases caughtUp with
  | false => exact ⟨state, .inl rfl, advances rfl, .inl rfl⟩
  | true =>
    have sameWatched := progress.setup.1
    rw [← sameWatched]
    refine (scanBlock_spec truthful block now (noGap rfl) calls mid rfl).mono ?_ ?_
    · intro _ after scanned
      exact ⟨mid, progress, scanned, stops⟩
    · rintro e after ⟨rfl, panics⟩
      refine ⟨⟨_, progress, .inl rfl, stops⟩, fun isPanic => (panics isPanic).widen ?_ le_rfl⟩
      unfold scanFrom
      split <;> omega

theorem processBlock_spec (block : BlockNotification) (now : Time) :
    Proc.Triple world (· = monitor) (processBlock block now)
      (fun _ state => ∃ reported mid, Report served block monitor reported ∧
        Progress served block now reported mid ∧ Advance served block now mid state ∧
        StopsBefore block reported mid)
      (fun e state => Processing served block now monitor state ∧
        (e = .panic →
          OversizedIn served monitor.watched (monitor.scanFrom block.number) block.number)) := by
  rintro i state rfl
  refine Outcome.Satisfies.andThen _ ((checkContinuity_spec truthful block now i state rfl).mono
    (fun _ _ holds => holds) ?_) ?_
  · rintro e s ⟨rfl, notPanic⟩
    exact ⟨⟨_, _, .inl rfl, .inl rfl, .inl rfl, .inl rfl⟩, fun isPanic => absurd isPanic notPanic⟩
  intro _ calls reported report
  obtain ⟨sameWatched, _, _, sameCursor, _, _⟩ := report.setup
  have sameRange : state.scanFrom block.number = reported.scanFrom block.number := by
    simp [scanFrom, sameCursor]
  rw [← sameWatched, sameRange]
  by_cases nothing : reported.watched.rows.isEmpty
  · simp only [Proc.bind_apply, Proc.get_apply, Outcome.andThen_ok, if_pos nothing]
    exact ⟨reported, reported, report, .inl rfl, .unwatched (List.isEmpty_iff.mp nothing), .inl rfl⟩
  simp only [Proc.bind_apply, Proc.get_apply, Outcome.andThen_ok, if_neg nothing]
  refine (scan_spec truthful block now calls reported rfl).mono ?_ ?_
  · rintro _ after ⟨mid, first, second, stops⟩
    exact ⟨reported, mid, report, first, second, stops⟩
  · rintro e after ⟨⟨mid, first, second, stops⟩, panics⟩
    exact ⟨⟨reported, mid, .inr report, first, second, stops⟩, panics⟩

/-- The phases of a call, and what more is known of them from how it ends. -/
theorem processBlock_phases (block : BlockNotification) (now : Time) (i : Nat) (monitor : ChainMonitor) :
    let outcome := processBlock block now world i monitor
    ∃ reported mid, (reported = monitor ∨ Report served block monitor reported) ∧
      Progress served block now reported mid ∧ Progress served block now mid outcome.state ∧
      StopsBefore block reported mid ∧
      (outcome.result = .ok () → Report served block monitor reported ∧
        Advance served block now mid outcome.state) ∧
      (outcome.result = .error .panic →
        OversizedIn served monitor.watched (monitor.scanFrom block.number) block.number) := by
  intro outcome
  rcases (processBlock_spec truthful block now).ends world i monitor with
    ⟨_, isOk, reported, mid, report, first, second, stops⟩ |
    ⟨_, isError, ⟨reported, mid, report, first, second, stops⟩, panics⟩
  · refine ⟨reported, mid, .inr report, first, .inr second, stops, fun _ => ⟨report, second⟩, ?_⟩
    rw [isOk]
    nofun
  · refine ⟨reported, mid, report, first, second, stops, ?_, ?_⟩
    · rw [isError]
      nofun
    · rw [isError]
      rintro ⟨⟩
      exact panics rfl

end Spec

end ChainMonitor

end EthPayServer.Evm
