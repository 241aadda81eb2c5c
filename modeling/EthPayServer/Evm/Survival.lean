import EthPayServer.Evm.Effects

/-!
# Survivor scans

A reorganisation is reported only after the whole range from the fork to the
new head was scanned.  The chunks of the token scan cover that range for every
chunk size, so a transaction in it that pays a watched key is reported, and a
scan that fails part way reports nothing.
-/

namespace EthPayServer.Evm

open Lib

/-- What a scan for a key can see of a transaction: value sent to the address, or a Transfer log. -/
def Tx.ShowsPayment (tx : Tx) (key : WatchKey) : Prop :=
  match key.2 with
  | none => tx.recipient = some key.1 ∧ tx.value ≠ 0
  | some _ => ∃ log ∈ tx.logs, log.topics.head? = some transferTopic

/-- Whatever the calls `first, …, last - 1` are answered, they are answered from the chain. -/
def AnswersFrom (chain : Chain) (world : World EvmError Chain) (first last : Nat) : Prop :=
  ∀ i, first ≤ i → i < last → ∀ answer, world i = .ok answer → answer = chain

variable {last number i j first forkBlock : Nat} {state after : ChainMonitor} {found : List B256}
   {R : ChainMonitor → ChainMonitor → Prop}

namespace ChainMonitor

/-! ## Chunks -/

theorem exists_chunkRange {chunk fuel start : Nat} (positive : 0 < chunk) (enough : last + 1 - start ≤ fuel)
    (low : start ≤ number) (high : number ≤ last) :
    ∃ range ∈ chunkRanges chunk fuel start last, range.1 ≤ number ∧ number ≤ range.2 := by
  induction fuel generalizing start with
  | zero => omega
  | succ fuel ih =>
    have inRange : start ≤ last := low.trans high
    simp only [chunkRanges, inRange, if_true]
    by_cases here : number ≤ min (start + (chunk - 1)) last
    · exact ⟨_, List.mem_cons_self, low, here⟩
    · have unfinished : min (start + (chunk - 1)) last ≠ last := by omega
      obtain ⟨range, mem, above, below⟩ :=
        @ih (min (start + (chunk - 1)) last + 1) (by omega) (by omega)
      exact ⟨range, List.mem_cons_of_mem _ (by rwa [if_neg unfinished]), above, below⟩

/-! ## Complete scans -/

variable (watched : WatchedSet)

section Scan

variable {chain : Chain} {world : World EvmError Chain} {monitor : ChainMonitor}

theorem findNativeTransfersTo_advances (number : Nat) (addresses : List Address) :
    Proc.Advances (findNativeTransfersTo number addresses : MonitorM (List NativeTransfer)) := by
  unfold findNativeTransfersTo
  split
  · exact Proc.Advances.pure _
  · exact Proc.Advances.read _

/-- The scan of a block for native transfers reports each transaction that pays a watched address. -/
theorem mem_nativeSurvivors {addresses : List Address} {address : Address} (isWatched : address ∈ addresses)
    (done : (do
        let transfers ← findNativeTransfersTo number addresses
        pure (transfers.map NativeTransfer.txHash) : MonitorM (List B256)) world i state =
      ⟨.ok found, j, after⟩) (steady : AnswersFrom chain world i j) (here : chain.blockAt? number = some block)
    (mem : tx ∈ block.transactions) (pays : tx.recipient = some address ∧ tx.value ≠ 0) : tx.hash ∈ found := by
  obtain ⟨transfers, mid, state', asked, returned⟩ := Proc.bind_eq_mk_ok done
  cases returned
  unfold findNativeTransfersTo at asked
  rw [if_neg (by simpa using List.ne_nil_of_mem isWatched)] at asked
  obtain ⟨answer, answered, extracted, rfl, rfl⟩ := Proc.read_eq_mk_ok asked
  obtain rfl := steady i le_rfl (Nat.lt_succ_self i) answer answered
  simp only [Chain.getBlockWithTxs, here, Option.map_some] at extracted
  obtain ⟨txIndex, isTx⟩ := List.mem_iff_getElem?.mp mem
  exact List.mem_map.mpr ⟨_, (mem_extractNativeTransfers extracted).mpr ⟨tx, txIndex, address,
    List.mem_zipIdx_iff_getElem?.mpr isTx, pays.1, isWatched, pays.2, rfl⟩, rfl⟩

theorem mem_tokenSurvivors {addresses : List Address}
    (done : (do
        let logs ← getLogs ((LogFilter.erc20TransfersTo addresses).withBlockRange first last)
        pure (logs.filterMap RpcLog.transactionHash) : MonitorM (List B256)) world i state =
      ⟨.ok found, j, after⟩) (steady : AnswersFrom chain world i j) (low : first ≤ number)
    (high : number ≤ last) (here : chain.blockAt? number = some block) (mem : tx ∈ block.transactions)
    {log : Log} (memLog : log ∈ tx.logs) (isTransfer : log.topics.head? = some transferTopic) :
    tx.hash ∈ found := by
  obtain ⟨logs, mid, state', asked, returned⟩ := Proc.bind_eq_mk_ok done
  cases returned
  obtain ⟨answer, answered, isAnswer, rfl, rfl⟩ := Proc.read_eq_mk_ok asked
  cases isAnswer
  obtain rfl := steady i le_rfl (Nat.lt_succ_self i) answer answered
  obtain ⟨position, isLog⟩ := List.mem_iff_getElem?.mp memLog
  have inBlock : (tx.hash, position, log) ∈ block.logs := mem_logs.mpr ⟨tx, mem, rfl, isLog⟩
  obtain ⟨logIndex, isIndex⟩ := List.mem_iff_getElem?.mp inBlock
  refine List.mem_filterMap.mpr ⟨_, mem_getLogs_transfers.mpr ⟨isTransfer, number, block, low, high, here,
    mem_rpcLogs.mpr ⟨tx.hash, position, log, logIndex, List.mem_zipIdx_iff_getElem?.mpr isIndex, rfl⟩⟩,
    rfl⟩

theorem nativePart_advances (first last : Nat) :
    Proc.Advances (if (nativeAddresses watched).isEmpty then pure [] else
      Proc.collect (blockRange first last) fun number => do
        let transfers ← findNativeTransfersTo number (nativeAddresses watched)
        pure (transfers.map NativeTransfer.txHash) : MonitorM (List B256)) := by
  split
  · exact Proc.Advances.pure _
  · exact Proc.Advances.collect fun number =>
      Proc.Advances.bind (findNativeTransfersTo_advances number _) fun _ => Proc.Advances.pure _

theorem tokenPart_advances (ranges : List (Nat × Nat)) :
    Proc.Advances (if (erc20Addresses watched).isEmpty then pure [] else
      Proc.collect ranges fun range => do
        let logs ← getLogs ((LogFilter.erc20TransfersTo (erc20Addresses watched)).withBlockRange
          range.1 range.2)
        pure (logs.filterMap RpcLog.transactionHash) : MonitorM (List B256)) := by
  split
  · exact Proc.Advances.pure _
  · exact Proc.Advances.collect fun range =>
      Proc.Advances.bind (Proc.Advances.read _) fun _ => Proc.Advances.pure _

/-- A scan that succeeded found every transaction of its range that shows a payment to a watched key. -/
theorem mem_survived {verifiable : Bool}
    (done : findSurvivedTxHashes first last world i monitor = ⟨.ok (found, verifiable), j, after⟩)
    (steady : AnswersFrom chain world i j) {key : WatchKey} (isWatched : key ∈ monitor.watched.keys)
    (low : first ≤ number) (high : number ≤ last) (here : chain.blockAt? number = some block)
    (mem : tx ∈ block.transactions) (shows : tx.ShowsPayment key) : tx.hash ∈ found := by
  obtain ⟨watch, isWatch⟩ := Table.exists_find? isWatched
  have someWatched : ¬ monitor.watched.rows.isEmpty = true := by
    simpa using List.ne_nil_of_mem (Table.find?_eq_some.mp isWatch).1
  obtain ⟨_, _, _, got, scans⟩ := Proc.bind_eq_mk_ok done
  cases got
  rw [if_neg someWatched] at scans
  obtain ⟨native, mid, state, nativeDone, rest⟩ := Proc.bind_eq_mk_ok scans
  obtain ⟨tokens, last', state', tokensDone, returned⟩ := Proc.bind_eq_mk_ok rest
  cases returned
  -- each part keeps to its own calls
  have nativeAdvances : i ≤ mid := by
    have advances := nativePart_advances monitor.watched first last world i monitor
    rwa [nativeDone] at advances
  have tokensAdvance : mid ≤ j := by
    have advances := tokenPart_advances monitor.watched
      (chunkRanges (max monitor.config.maxBlocksPerScan 1) (last + 1 - first) first last) world mid state
    rwa [tokensDone] at advances
  obtain ⟨address, token⟩ := key
  cases token with
  | none =>
    have isAddress : address ∈ nativeAddresses monitor.watched := mem_nativeAddresses.mpr ⟨watch, isWatch⟩
    rw [if_neg (by simpa using List.ne_nil_of_mem isAddress)] at nativeDone
    obtain ⟨part, from', to', _, _, ran, above, below, inside⟩ := Proc.collect_eq_mk_ok
      (fun number => Proc.Advances.bind (findNativeTransfersTo_advances number _)
        fun _ => Proc.Advances.pure _) nativeDone (mem_blockRange.mpr ⟨low, high⟩)
    have steady' : AnswersFrom chain world from' to' :=
      fun k after before => steady k (by omega) (by omega)
    exact List.mem_append_left _ (inside (mem_nativeSurvivors isAddress ran steady' here mem shows))
  | some token =>
    obtain ⟨log, memLog, isTransfer⟩ := shows
    rw [if_neg (by simpa using List.ne_nil_of_mem (mem_erc20Addresses isWatch))] at tokensDone
    obtain ⟨range, memRange, above, below⟩ := exists_chunkRange
      (lt_of_lt_of_le Nat.one_pos (le_max_right monitor.config.maxBlocksPerScan 1)) le_rfl low high
    obtain ⟨part, from', to', _, _, ran, after, before, inside⟩ := Proc.collect_eq_mk_ok
      (fun range => Proc.Advances.bind (Proc.Advances.read _) fun _ => Proc.Advances.pure _)
      tokensDone memRange
    have steady' : AnswersFrom chain world from' to' :=
      fun k after' before' => steady k (by omega) (by omega)
    exact List.mem_append_right _ (inside
      (mem_tokenSurvivors ran steady' above below here mem memLog isTransfer))

/-- A scan with a watched key can tell what is absent; one without cannot. -/
theorem verifiable_of_scan {verifiable : Bool}
    (done : findSurvivedTxHashes first last world i monitor = ⟨.ok (found, verifiable), j, after⟩) :
    verifiable = !monitor.watched.rows.isEmpty := by
  obtain ⟨_, _, _, got, scans⟩ := Proc.bind_eq_mk_ok done
  cases got
  by_cases nothing : monitor.watched.rows.isEmpty
  · rw [if_pos nothing] at scans
    cases scans
    rw [nothing]
    rfl
  rw [if_neg nothing] at scans
  obtain ⟨_, _, _, _, rest⟩ := Proc.bind_eq_mk_ok scans
  obtain ⟨_, _, _, _, returned⟩ := Proc.bind_eq_mk_ok rest
  cases returned
  rw [Bool.not_eq_true] at nothing
  rw [nothing]
  rfl

end Scan

/-! ## Which scans are reported -/

def sent (monitor after : ChainMonitor) : List MonitorEvent :=
  after.events.drop monitor.events.length

/-- The call notices a fork and starts its survivor scan with call `i`. -/
def Notices (world : World EvmError Chain) (monitor : ChainMonitor) (block : BlockNotification)
    (forkBlock i : Nat) : Prop :=
  ∃ lastHash lastNum, monitor.lastBlockHash = some lastHash ∧ monitor.lastBlock = some lastNum ∧
    forkBlock? lastHash lastNum block world 0 monitor = ⟨.ok (some forkBlock), i, monitor⟩

/-- The report is what a whole survivor scan, from call `i` to before call `j`, found. -/
structure Scanned (world : World EvmError Chain) (monitor : ChainMonitor) (block : BlockNotification)
    (report : ReorgDetected) (i j : Nat) : Prop where
  notices : Notices world monitor block report.forkBlock i
  scan : findSurvivedTxHashes report.forkBlock block.number world i monitor =
    ⟨.ok (report.survivedTxHashes, report.survivorsVerifiable), j, monitor⟩
  chainId : report.chainId = monitor.chainId

def Announcing (monitor after : ChainMonitor) : Prop :=
  ∃ found : List PaymentDetected,
    after.events = monitor.events ++ found.map MonitorEvent.paymentDetected

section Reports

variable {world : World EvmError Chain} {monitor : ChainMonitor} {block : BlockNotification} {now : Time}

theorem announcing_of_writes {α : Type} {p : MonitorM α} (writes : Proc.Writes Announcing p) (i : Nat) :
    Announcing monitor (p world i monitor).state := by
  refine writes.preserves (I := Announcing monitor) ?_ world i ⟨[], by simp⟩
  rintro state after ⟨more, isMore⟩ ⟨found, isFound⟩
  exact ⟨found ++ more, by rw [isMore, isFound, List.map_append, List.append_assoc]⟩

theorem announcing_record (found : List PaymentDetected) (number : Nat) (hash : B256) (monitor : ChainMonitor) :
    Relation.ReflTransGen Announcing monitor ((found.foldl recordDetected monitor).setCursor number hash) :=
  Relation.ReflTransGen.single ⟨found, events_foldl found monitor⟩

theorem findNativeTransfersTo_writes (number : Nat) (addresses : List Address) :
    Proc.Writes R (findNativeTransfersTo number addresses : MonitorM (List NativeTransfer)) := by
  unfold findNativeTransfersTo
  split
  · exact Proc.Writes.pure _
  · exact Proc.Writes.read _

theorem checkNativePayments_writes (number : Nat) (hash : B256) (now : Time) :
    Proc.Writes R (checkNativePayments watched number hash now) := by
  refine Proc.Writes.bind Proc.Writes.get fun read => ?_
  split
  · exact Proc.Writes.pure _
  · exact Proc.Writes.bind (findNativeTransfersTo_writes _ _) fun _ => Proc.Writes.pure _

theorem checkErc20Payments_writes (first last : Nat) (now : Time) :
    Proc.Writes R (checkErc20Payments watched first last now) := by
  refine Proc.Writes.bind Proc.Writes.get fun read => ?_
  split
  · exact Proc.Writes.pure _
  · exact Proc.Writes.bind (Proc.Writes.read _) fun _ => Proc.Writes.ofExcept _

theorem blockHashOrErr_writes (number : Nat) : Proc.Writes R (blockHashOrErr number) := by
  refine Proc.Writes.bind (Proc.Writes.read _) fun answer => ?_
  cases answer with
  | none => exact Proc.Writes.fail _
  | some hash => exact Proc.Writes.pure _

theorem backfillMissedBlocks_writes (first last : Nat) (now : Time) :
    Proc.Writes R (backfillMissedBlocks watched first last now) := by
  refine Proc.Writes.bind Proc.Writes.get fun read => Proc.Writes.bind ?_ fun native =>
    Proc.Writes.bind ?_ fun tokens => Proc.Writes.bind (blockHashOrErr_writes _) fun _ => Proc.Writes.pure _
  · split
    · exact Proc.Writes.collect fun number => Proc.Writes.bind (blockHashOrErr_writes _) fun hash =>
        checkNativePayments_writes _ _ _ _
    · exact Proc.Writes.pure _
  · split
    · exact checkErc20Payments_writes _ _ _ _
    · exact Proc.Writes.pure _

theorem closeGap_announcing (lastBlock : Option Nat) (block : BlockNotification) (now : Time) :
    Proc.Writes Announcing (closeGap watched lastBlock block now) := by
  unfold closeGap
  split
  · split
    · exact Proc.Writes.bind (backfillMissedBlocks_writes _ _ _ _) fun result =>
        Proc.Writes.bind (Proc.Writes.modify fun s => announcing_record _ _ _ s) fun _ => Proc.Writes.pure _
    · exact Proc.Writes.pure _
  · exact Proc.Writes.pure _

theorem scanBlock_announcing (block : BlockNotification) (now : Time) :
    Proc.Writes Announcing (scanBlock watched block now) := by
  refine Proc.Writes.bind Proc.Writes.get fun read => Proc.Writes.bind ?_ fun native =>
    Proc.Writes.bind ?_ fun tokens => Proc.Writes.modify fun s => announcing_record _ _ _ s
  · split
    · exact checkNativePayments_writes _ _ _ _
    · exact Proc.Writes.pure _
  · split
    · exact checkErc20Payments_writes _ _ _ _
    · exact Proc.Writes.pure _

/-- After the reorganisation check a call announces payments only. -/
theorem afterCheck_announcing (block : BlockNotification) (now : Time) :
    Proc.Writes Announcing (do
      let monitor ← Proc.get
      if monitor.watched.rows.isEmpty then
        Proc.modify fun monitor => monitor.setCursor block.number block.hash
      else do
        if ← closeGap monitor.watched monitor.lastBlock block now then
          scanBlock monitor.watched block now
        else pure () : MonitorM Unit) := by
  refine Proc.Writes.bind Proc.Writes.get fun read => ?_
  split
  · exact Proc.Writes.modify fun s => announcing_record [] _ _ s
  · refine Proc.Writes.bind (closeGap_announcing _ _ _ _) fun caughtUp => ?_
    split
    · exact scanBlock_announcing _ _ _
    · exact Proc.Writes.pure _

/-- A survivor scan changes nothing. -/
theorem state_findSurvivedTxHashes (first last i : Nat) :
    (findSurvivedTxHashes first last world i monitor).state = monitor := by
  have writes : Proc.Writes (fun _ _ => False) (findSurvivedTxHashes first last) := by
    refine Proc.Writes.bind Proc.Writes.get fun read => ?_
    split
    · exact Proc.Writes.pure _
    refine Proc.Writes.bind ?_ fun native => Proc.Writes.bind ?_ fun tokens => Proc.Writes.pure _
    · split
      · exact Proc.Writes.pure _
      · exact Proc.Writes.collect fun number =>
          Proc.Writes.bind (findNativeTransfersTo_writes _ _) fun _ => Proc.Writes.pure _
    · split
      · exact Proc.Writes.pure _
      · exact Proc.Writes.collect fun range =>
          Proc.Writes.bind (Proc.Writes.read _) fun _ => Proc.Writes.pure _
  exact writes.preserves (I := (· = monitor)) (fun never _ => never.elim) world i rfl

theorem state_forkBlock? (lastHash : B256) (lastNum i : Nat) :
    (forkBlock? lastHash lastNum block world i monitor).state = monitor := by
  have writes : Proc.Writes (fun _ _ => False) (forkBlock? lastHash lastNum block) := by
    unfold forkBlock?
    split
    · exact Proc.Writes.pure _
    · refine Proc.Writes.bind (Proc.Writes.read _) fun answer => ?_
      cases answer <;> exact Proc.Writes.pure _
  exact writes.preserves (I := (· = monitor)) (fun never _ => never.elim) world i rfl

/-- The report of a scan's result. -/
def reorgReport (monitor : ChainMonitor) (forkBlock : Nat) (oldHash : B256) (block : BlockNotification)
    (now : Time) (result : List B256 × Bool) : ReorgDetected where
  chainId := monitor.chainId
  forkBlock := forkBlock
  oldHash := oldHash
  newHash := block.hash
  depth := block.number - forkBlock + 1
  affectedInvoices := (monitor.pending.rows.filter fun entry =>
    decide (forkBlock ≤ entry.2.event.blockNumber)).map fun entry => entry.2.event.invoiceId
  survivedTxHashes := result.1
  survivorsVerifiable := result.2
  detectedAt := now

theorem handleReorg_eq {oldHash : B256} {result : Except EvmError (List B256 × Bool)}
    (scan : findSurvivedTxHashes forkBlock block.number world i monitor = ⟨result, j, monitor⟩) :
    handleReorg forkBlock oldHash block now world i monitor =
      match result with
      | .ok found => ⟨.ok (), j,
          monitor.send (.reorgDetected (reorgReport monitor forkBlock oldHash block now found))⟩
      | .error e => ⟨.error e, j, monitor⟩ := by
  cases result <;> simp [handleReorg, scan, reorgReport]

theorem checkContinuity_eq {lastHash : B256} {lastNum : Nat} {fork : Except EvmError (Option Nat)}
    (isHash : monitor.lastBlockHash = some lastHash) (isNumber : monitor.lastBlock = some lastNum)
    (forked : forkBlock? lastHash lastNum block world i monitor = ⟨fork, j, monitor⟩) :
    checkContinuity block now world i monitor =
      match fork with
      | .ok (some forkBlock) => handleReorg forkBlock lastHash block now world j monitor
      | .ok none => ⟨.ok (), j, monitor⟩
      | .error e => ⟨.error e, j, monitor⟩ := by
  rcases fork with e | _ | forkBlock <;> simp [checkContinuity, isHash, isNumber, forked]

/-- A scan that fails ends the call, and the monitor stays as it was. -/
theorem processBlock_of_failed_scan (notices : Notices world monitor block forkBlock i) {e : EvmError}
    (failed : (findSurvivedTxHashes forkBlock block.number world i monitor).result = .error e) :
    (processBlock block now world 0 monitor).result = .error e ∧
      (processBlock block now world 0 monitor).state = monitor := by
  obtain ⟨lastHash, lastNum, isHash, isNumber, forked⟩ := notices
  have unchanged := @state_findSurvivedTxHashes world monitor forkBlock block.number i
  rcases scan : findSurvivedTxHashes forkBlock block.number world i monitor with ⟨result, j, state⟩
  rw [scan] at failed unchanged
  obtain rfl : result = .error e := failed
  obtain rfl : state = monitor := unchanged
  have checked : checkContinuity block now world 0 state = ⟨.error e, j, state⟩ := by
    rw [checkContinuity_eq isHash isNumber forked]
    exact handleReorg_eq scan
  simp [processBlock, checked]

/-- The reorganisation check reports nothing, or what a whole scan found. -/
theorem checkContinuity_state :
    (checkContinuity block now world 0 monitor).state = monitor ∨
    ∃ report i j, Scanned world monitor block report i j ∧
      (checkContinuity block now world 0 monitor).state = monitor.send (.reorgDetected report) := by
  cases isHash : monitor.lastBlockHash with
  | none => exact .inl (by simp [checkContinuity, isHash])
  | some lastHash =>
    cases isNumber : monitor.lastBlock with
    | none => exact .inl (by simp [checkContinuity, isHash, isNumber])
    | some lastNum =>
      have still := @state_forkBlock? world monitor block lastHash lastNum 0
      rcases forked : forkBlock? lastHash lastNum block world 0 monitor with ⟨fork, i, state⟩
      rw [forked] at still
      obtain rfl : state = monitor := still
      rw [checkContinuity_eq isHash isNumber forked]
      rcases fork with e | _ | forkBlock
      · exact .inl rfl
      · exact .inl rfl
      have unchanged := @state_findSurvivedTxHashes world state forkBlock block.number i
      rcases scan : findSurvivedTxHashes forkBlock block.number world i state with ⟨result, j, after⟩
      rw [scan] at unchanged
      obtain rfl : after = state := unchanged
      simp only [handleReorg_eq scan]
      cases result with
      | error e => exact .inl rfl
      | ok found =>
        exact .inr ⟨_, i, j, ⟨⟨lastHash, lastNum, isHash, isNumber, forked⟩, scan, rfl⟩, rfl⟩

/-- Every report a call sends is what a whole scan found. -/
theorem scanned_of_sent {report : ReorgDetected}
    (isSent : .reorgDetected report ∈ sent monitor (processBlock block now world 0 monitor).state) :
    ∃ i j, Scanned world monitor block report i j := by
  have later : Announcing (checkContinuity block now world 0 monitor).state
      (processBlock block now world 0 monitor).state := by
    unfold processBlock
    rw [Proc.bind_apply]
    rcases checkContinuity block now world 0 monitor with ⟨result, calls, state⟩
    cases result with
    | error e => exact ⟨[], by simp⟩
    | ok _ => exact announcing_of_writes (afterCheck_announcing block now) calls
  obtain ⟨found, isFound⟩ := later
  rw [sent, isFound] at isSent
  rcases @checkContinuity_state world monitor block now with same | ⟨reported, i, j, scanned, same⟩
  · rw [same] at isSent
    simp at isSent
  rw [same] at isSent
  simp only [send, List.append_assoc, List.drop_left, List.singleton_append, List.mem_cons,
    MonitorEvent.reorgDetected.injEq, List.mem_map, reduceCtorEq, and_false, exists_false, or_false] at isSent
  subst isSent
  exact ⟨i, j, scanned⟩

end Reports

end ChainMonitor

end EthPayServer.Evm
