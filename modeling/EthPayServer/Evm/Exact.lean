import EthPayServer.Evm.Survival

/-!
# Exactly what a scan announces

Over one chain a scan that succeeds announces, block by block, the transfers of
the block to the keys it was given, each once.  Announcements are compared by
the number of their block and the transfer they carry.
-/

namespace EthPayServer.Evm

open Lib

/-! ## Transfers and announcements -/

/-- Value sent by the transactions of the block; their receipts are not consulted. -/
def Block.sentNative (block : Block) : List Transfer :=
  block.transactions.filterMap fun tx =>
    if tx.value ≠ 0 then
      tx.recipient.map fun recipient => ⟨tx.hash, none, none, tx.sender, recipient, tx.value⟩
    else none

/-- What a scan of the block can announce. -/
def Block.sentTransfers (block : Block) : List Transfer := block.sentNative ++ block.tokenTransfers

namespace Transfer

def key (transfer : Transfer) : WatchKey := (transfer.recipient, transfer.token)

/-- The transfer as an announcement carries it, with its log index cut to `u32`. -/
def announced (transfer : Transfer) : Transfer :=
  { transfer with logIndex := transfer.logIndex.map asU32 }

/-- Whether the transfer goes to a key of the snapshot. -/
def isTo (watched : WatchedSet) (transfer : Transfer) : Bool := (watched.find? transfer.key).isSome

end Transfer

def PaymentDetected.transfer (event : PaymentDetected) : Transfer :=
  ⟨event.txHash, event.logIndex, event.tokenAddress, event.fromAddress, event.paymentAddress, event.amount⟩

def PaymentDetected.announcement (event : PaymentDetected) : Nat × Transfer :=
  (event.blockNumber, event.transfer)

def announcements (events : List MonitorEvent) : List (Nat × Transfer) :=
  events.filterMap fun
    | .paymentDetected event => some event.announcement
    | _ => none

/-- The transfers announced as transfers of one block. -/
def announcedIn (number : Nat) (events : List MonitorEvent) : List Transfer :=
  ((announcements events).filter fun announcement => announcement.1 = number).map Prod.snd

@[simp] theorem announcements_append (events more : List MonitorEvent) :
    announcements (events ++ more) = announcements events ++ announcements more :=
  List.filterMap_append

@[simp] theorem announcedIn_append (number : Nat) (events more : List MonitorEvent) :
    announcedIn number (events ++ more) = announcedIn number events ++ announcedIn number more := by
  simp [announcedIn]

theorem announcements_detected (found : List PaymentDetected) :
    announcements (found.map MonitorEvent.paymentDetected) = found.map PaymentDetected.announcement := by
  simp [announcements, List.filterMap_map]

variable {watched : WatchedSet} {number first last : Nat} {chain : Chain}

namespace Chain

/-- The picked transfers of a block to the keys of a snapshot, with their block. -/
def sentTo (chain : Chain) (pick : Block → List Transfer) (watched : WatchedSet) (number : Nat) :
    List (Nat × Transfer) :=
  match chain.blockAt? number with
  | some block => ((pick block).filter (Transfer.isTo watched)).map fun transfer =>
    (number, transfer.announced)
  | none => []

/-- The transfers of a block to the keys of a snapshot, as they are announced. -/
def transfersTo (chain : Chain) (watched : WatchedSet) (number : Nat) : List Transfer :=
  match chain.blockAt? number with
  | some block => (block.sentTransfers.filter (Transfer.isTo watched)).map Transfer.announced
  | none => []

theorem fst_of_mem_sentTo {pick : Block → List Transfer} {announcement : Nat × Transfer}
    (mem : announcement ∈ chain.sentTo pick watched number) : announcement.1 = number := by
  unfold sentTo at mem
  split at mem
  · obtain ⟨_, _, rfl⟩ := List.mem_map.mp mem
    rfl
  · cases mem

theorem sentTo_append (chain : Chain) (watched : WatchedSet) (number : Nat) :
    ((chain.sentTo Block.sentNative watched number) ++
      (chain.sentTo Block.tokenTransfers watched number)).map Prod.snd =
        chain.transfersTo watched number := by
  unfold sentTo transfersTo
  cases chain.blockAt? number with
  | none => rfl
  | some block => simp [Block.sentTransfers, Function.comp_def]

theorem transfersTo_nil (nothing : watched.rows = []) (number : Nat) :
    chain.transfersTo watched number = [] := by
  have nowhere : ∀ transfer, Transfer.isTo watched transfer = false := by
    intro transfer
    simp [Transfer.isTo, Table.find?, nothing]
  unfold transfersTo
  cases chain.blockAt? number with
  | none => rfl
  | some block => simp [nowhere]

end Chain

theorem filter_flatMap_tagged {ι τ : Type} [DecidableEq ι] {keys : List ι} (nodup : keys.Nodup)
    {entries : ι → List (ι × τ)} (tagged : ∀ k, ∀ entry ∈ entries k, entry.1 = k) (k : ι) :
    (keys.flatMap entries).filter (fun entry => entry.1 = k) = if k ∈ keys then entries k else [] := by
  induction keys with
  | nil => rfl
  | cons head rest ih =>
    obtain ⟨fresh, nodupRest⟩ := List.nodup_cons.mp nodup
    rw [List.flatMap_cons, List.filter_append, ih nodupRest]
    by_cases here : k = head
    · subst here
      have all : (entries k).filter (fun entry => entry.1 = k) = entries k :=
        List.filter_eq_self.mpr fun entry mem => by simpa using tagged k entry mem
      simp [all, fresh]
    · have none : (entries head).filter (fun entry => entry.1 = k) = [] := by
        refine List.filter_eq_nil_iff.mpr fun entry mem => ?_
        simpa [tagged head entry mem] using Ne.symm here
      simp [none, here]

theorem announcedIn_scan {native tokens : List PaymentDetected}
    (isNative : native.map PaymentDetected.announcement =
      (blockRange first last).flatMap (chain.sentTo Block.sentNative watched))
    (isTokens : tokens.map PaymentDetected.announcement =
      (blockRange first last).flatMap (chain.sentTo Block.tokenTransfers watched)) (number : Nat) :
    announcedIn number ((native ++ tokens).map MonitorEvent.paymentDetected) =
      if first ≤ number ∧ number ≤ last then chain.transfersTo watched number else [] := by
  have nodup : (blockRange first last).Nodup := List.nodup_range'
  have tagged : ∀ pick : Block → List Transfer, ∀ k, ∀ entry ∈ chain.sentTo pick watched k, entry.1 = k :=
    fun _ _ _ mem => Chain.fst_of_mem_sentTo mem
  rw [announcedIn, announcements_detected, List.map_append, isNative, isTokens, List.filter_append,
    filter_flatMap_tagged nodup (tagged _), filter_flatMap_tagged nodup (tagged _)]
  simp only [mem_blockRange]
  split
  · exact chain.sentTo_append watched number
  · rfl

variable {found : List PaymentDetected} {block : Block} {middle after : ChainMonitor}

namespace ChainMonitor

/-! ## The two detection paths -/

theorem announcement_nativePayments (monitor : ChainMonitor) (watched : WatchedSet) (hash : B256) (now : Time)
    {transfers : List NativeTransfer}
    (done : extractNativeTransfers (.full block.transactions) (nativeAddresses watched) = .ok transfers) :
    (transfers.filterMap fun transfer => (watched.find? (transfer.recipient, none)).map fun entry =>
        monitor.nativePayment number hash now transfer entry.2.invoiceId).map PaymentDetected.announcement =
      (block.sentNative.filter (Transfer.isTo watched)).map fun transfer => (number, transfer.announced) := by
  simp only [extractNativeTransfers, Except.ok.injEq] at done
  subst done
  have unindexed : block.sentNative = block.transactions.zipIdx.filterMap fun entry =>
      if entry.1.value ≠ 0 then
        entry.1.recipient.map fun recipient =>
          (⟨entry.1.hash, none, none, entry.1.sender, recipient, entry.1.value⟩ : Transfer)
      else none := by
    conv_lhs => rw [Block.sentNative, ← List.zipIdx_map_fst 0 block.transactions, List.filterMap_map]
    rfl
  rw [unindexed, List.filterMap_filterMap, List.map_filterMap, List.filter_filterMap, List.map_filterMap]
  refine List.filterMap_congr fun entry _ => ?_
  obtain ⟨tx, txIndex⟩ := entry
  cases tx.recipient with
  | none => simp
  | some recipient =>
    by_cases nonzero : tx.value = 0#256
    · simp [nonzero]
    cases isWatch : watched.find? (recipient, none) with
    | none =>
      have unwatched : recipient ∉ nativeAddresses watched := by
        simp [mem_nativeAddresses, isWatch]
      simp [nonzero, unwatched, Transfer.isTo, Transfer.key, isWatch]
    | some watch =>
      have isWatched : recipient ∈ nativeAddresses watched := mem_nativeAddresses.mpr ⟨watch, isWatch⟩
      simp [nonzero, isWatched, Transfer.isTo, Transfer.key, isWatch,
        PaymentDetected.announcement, PaymentDetected.transfer, nativePayment, Transfer.announced]

/-- The transfer of a log to a key of the snapshot, with its block. -/
def watchedTransfer (watched : WatchedSet) (entry : RpcLog) : Option (Nat × Transfer) :=
  entry.log.transfer?.bind fun (sender, recipient, amount) =>
    if (watched.find? (recipient, some entry.log.address)).isSome then
      some (entry.blockNumber.getD 0, ⟨entry.transactionHash.getD 0, entry.logIndex.map asU32,
        some entry.log.address, sender, recipient, amount⟩)
    else none

theorem announcement_erc20Payment {monitor : ChainMonitor} {now : Time} {entry : RpcLog}
    {payment : Option PaymentDetected} (isTransfer : entry.log.topics.head? = some transferTopic)
    (done : monitor.erc20Payment watched first last now entry = .ok payment) :
    payment.map PaymentDetected.announcement = watchedTransfer watched entry := by
  unfold erc20Payment at done
  split at done
  next signature senderTopic recipientTopic rest isTopics =>
    rw [isTopics] at isTransfer
    cases isTransfer
    cases isWatch : watched.find? (addressOfTopic recipientTopic, some entry.log.address) with
    | none =>
      simp only [isWatch] at done
      cases done
      cases isAmount : fromBeSlice entry.log.data <;>
        simp [watchedTransfer, Log.transfer?, isTopics, isAmount, isWatch]
    | some watch =>
      cases isAmount : fromBeSlice entry.log.data with
      | none => simp [isWatch, isAmount] at done
      | some amount =>
        cases isNumber : entry.blockNumber with
        | none => simp [isWatch, isAmount, isNumber] at done
        | some number =>
          simp only [isWatch, isAmount, isNumber] at done
          cases done
          simp [watchedTransfer, Log.transfer?, isTopics, isAmount, isWatch, isNumber,
            PaymentDetected.announcement, PaymentDetected.transfer]
  next short =>
    cases done
    cases isTopics : entry.log.topics with
    | nil => simp [watchedTransfer, Log.transfer?, isTopics]
    | cons signature rest =>
      cases rest with
      | nil => simp [watchedTransfer, Log.transfer?, isTopics]
      | cons sender rest =>
        cases rest with
        | nil => simp [watchedTransfer, Log.transfer?, isTopics]
        | cons recipient rest => exact absurd isTopics (short signature sender recipient rest)

theorem watchedTransfers_rpcLogs (watched : WatchedSet) (block : Block) :
    block.rpcLogs.filterMap (watchedTransfer watched) =
      (block.tokenTransfers.filter (Transfer.isTo watched)).map fun transfer =>
        (block.number, transfer.announced) := by
  rw [Block.rpcLogs, List.filterMap_map, Block.tokenTransfers, List.filter_filterMap, List.map_filterMap]
  refine List.filterMap_congr fun entry _ => ?_
  obtain ⟨⟨txHash, position, log⟩, logIndex⟩ := entry
  cases decoded : log.transfer? with
  | none => simp [watchedTransfer, decoded]
  | some moved =>
    obtain ⟨sender, recipient, amount⟩ := moved
    cases isWatch : watched.find? (recipient, some log.address) <;>
      simp [watchedTransfer, decoded, isWatch, Transfer.isTo, Transfer.key, Transfer.announced]

theorem watchedTransfer_of_not_transfer {entry : RpcLog} (other : entry.log.topics.head? ≠ some transferTopic) :
    watchedTransfer watched entry = none := by
  have nothing : entry.log.transfer? = none := by
    unfold Log.transfer?
    split
    next signature _ _ _ isTopics =>
      rw [isTopics] at other
      exact if_neg fun same => other (congrArg some same)
    · rfl
  simp [watchedTransfer, nothing]

theorem announcement_erc20Payments {monitor : ChainMonitor} {now : Time}
    (done : tryFilterMap (monitor.erc20Payment watched first last now)
      (transferLogs chain watched first last) = .ok found) :
    found.map PaymentDetected.announcement =
      (blockRange first last).flatMap (chain.sentTo Block.tokenTransfers watched) := by
  have each : found.map PaymentDetected.announcement =
      (transferLogs chain watched first last).filterMap (watchedTransfer watched) := by
    refine map_tryFilterMap done fun entry mem payment paid => ?_
    exact announcement_erc20Payment (mem_getLogs_transfers.mp mem).1 paid
  have unfiltered : (transferLogs chain watched first last).filterMap (watchedTransfer watched) =
      (chain.logsIn first last).filterMap (watchedTransfer watched) := by
    rw [transferLogs, Chain.getLogs, List.filterMap_filter]
    refine List.filterMap_congr fun entry _ => ?_
    split
    · rfl
    next rejected =>
      rw [admits_erc20TransfersTo] at rejected
      exact (watchedTransfer_of_not_transfer rejected).symm
  rw [each, unfiltered, Chain.logsIn, List.filterMap_flatMap]
  refine List.flatMap_congr fun number _ => ?_
  unfold Chain.sentTo
  cases here : chain.blockAt? number with
  | none => rfl
  | some block =>
    rw [← Chain.number_of_blockAt? here]
    exact watchedTransfers_rpcLogs watched block

section Scans

variable {served : Chain → Prop} {monitor : ChainMonitor} {now : Time}

/-- Transfers that all go to addresses nobody watches under their kind of key are not announced. -/
theorem Chain.sentTo_nowhere {pick : Block → List Transfer}
    (nowhere : ∀ block, ∀ transfer ∈ pick block, (watched.find? transfer.key).isSome = false) (number : Nat) :
    chain.sentTo pick watched number = [] := by
  unfold Chain.sentTo
  cases chain.blockAt? number with
  | none => rfl
  | some block =>
    have none : (pick block).filter (Transfer.isTo watched) = [] :=
      List.filter_eq_nil_iff.mpr fun transfer mem => by simpa [Transfer.isTo] using nowhere block transfer mem
    simp [none]

theorem NativeScan.exact {hash : B256} (only : Solely served chain)
    (scan : NativeScan served monitor watched number hash now found) :
    found.map PaymentDetected.announcement = chain.sentTo Block.sentNative watched number := by
  cases scan with
  | nobody nobody =>
    refine (Chain.sentTo_nowhere (fun block transfer mem => ?_) number).symm
    obtain ⟨tx, _, isSent⟩ := List.mem_filterMap.mp mem
    have isNative : transfer.token = none := by
      split at isSent
      · obtain ⟨recipient, _, rfl⟩ := Option.map_eq_some_iff.mp isSent
        rfl
      · cases isSent
    by_contra isTo
    obtain ⟨watch, isWatch⟩ := Option.isSome_iff_exists.mp (Bool.not_eq_false _ ▸ isTo)
    rw [Transfer.key, isNative] at isWatch
    have isWatched := mem_nativeAddresses.mpr ⟨watch, isWatch⟩
    rw [nobody] at isWatched
    cases isWatched
  | block isServed here extracted =>
    obtain rfl := only _ isServed
    rw [announcement_nativePayments monitor watched hash now extracted]
    simp [Chain.sentTo, here]

theorem TokenScan.exact (only : Solely served chain)
    (scan : TokenScan served monitor watched first last now found) :
    found.map PaymentDetected.announcement =
      (blockRange first last).flatMap (chain.sentTo Block.tokenTransfers watched) := by
  cases scan with
  | nobody nobody =>
    refine (List.flatMap_eq_nil_iff.mpr fun number _ => Chain.sentTo_nowhere (fun block transfer mem => ?_)
      number).symm
    obtain ⟨⟨⟨txHash, position, log⟩, logIndex⟩, _, isSent⟩ := List.mem_filterMap.mp mem
    obtain ⟨moved, _, rfl⟩ := Option.map_eq_some_iff.mp isSent
    by_contra isTo
    obtain ⟨watch, isWatch⟩ := Option.isSome_iff_exists.mp (Bool.not_eq_false _ ▸ isTo)
    have isWatched := mem_erc20Addresses isWatch
    rw [nobody] at isWatched
    cases isWatched
  | logs isServed scanned =>
    obtain rfl := only _ isServed
    exact announcement_erc20Payments scanned

theorem NativeVisits.exact {block : BlockNotification} {visited : List Nat} (only : Solely served chain)
    (visits : NativeVisits served block monitor watched now visited found) :
    found.map PaymentDetected.announcement = visited.flatMap (chain.sentTo Block.sentNative watched) := by
  induction visits with
  | nil => rfl
  | snoc before labels scan ih =>
    rw [List.map_append, ih, scan.exact only]
    simp

theorem RangeScan.exact {block : BlockNotification} (only : Solely served chain)
    (native : monitor.config.monitorNative = true) (erc20 : monitor.config.monitorErc20 = true)
    (scan : RangeScan served block monitor watched first last now found) (number : Nat) :
    announcedIn number (found.map MonitorEvent.paymentDetected) =
      if first ≤ number ∧ number ≤ last then chain.transfersTo watched number else [] := by
  obtain ⟨nativePart, tokenPart⟩ := scan
  rw [if_pos native] at nativePart
  rw [if_pos erc20] at tokenPart
  exact announcedIn_scan (nativePart.exact only) (tokenPart.exact only) number

/-! ## The stretch a call passes -/

/-- Between two states the cursor passed the blocks `first..=last` under one snapshot. -/
structure PassedOver (chain : Chain) (watched : WatchedSet) (first last : Nat)
    (monitor after : ChainMonitor) : Prop where
  setup : SameSetup monitor after
  ordered : first ≤ last
  lastBlock : after.lastBlock = some last
  lastBlockHash : after.lastBlockHash = chain.hashAt? last
  known : (chain.blockAt? last).isSome
  announced : ∀ number, announcedIn number after.events = announcedIn number monitor.events ++
    if first ≤ number ∧ number ≤ last then chain.transfersTo watched number else []

structure StoodStill (monitor after : ChainMonitor) : Prop where
  setup : SameSetup monitor after
  lastBlock : after.lastBlock = monitor.lastBlock
  lastBlockHash : after.lastBlockHash = monitor.lastBlockHash
  announced : ∀ number, announcedIn number after.events = announcedIn number monitor.events

theorem StoodStill.refl (monitor : ChainMonitor) : StoodStill monitor monitor :=
  ⟨⟨rfl, rfl, rfl⟩, rfl, rfl, fun _ => rfl⟩

/-- Consecutive stretches under the same snapshot are one stretch. -/
theorem PassedOver.trans {mid : Nat} (early : PassedOver chain watched first mid monitor middle)
    (late : PassedOver chain watched (mid + 1) last middle after) :
    PassedOver chain watched first last monitor after where
  setup := early.setup.trans late.setup
  ordered := by
    have := early.ordered
    have := late.ordered
    omega
  __ := late
  announced := by
    intro number
    have := early.ordered
    have := late.ordered
    rw [late.announced, early.announced, List.append_assoc]
    by_cases inEarly : first ≤ number ∧ number ≤ mid
    · rw [if_pos inEarly, if_neg (by omega), if_pos (by omega), List.append_nil]
    · by_cases inLate : mid + 1 ≤ number ∧ number ≤ last
      · rw [if_neg inEarly, if_pos inLate, if_pos (by omega), List.nil_append]
      · rw [if_neg inEarly, if_neg inLate, if_neg (by omega), List.append_nil]

theorem PassedOver.of_stood (passed : PassedOver chain watched first last middle after)
    (stood : StoodStill monitor middle) :
    PassedOver chain watched first last monitor after :=
  ⟨stood.setup.trans passed.setup, passed.ordered, passed.lastBlock, passed.lastBlockHash, passed.known,
    fun number => by rw [passed.announced, stood.announced]⟩

/-- Announcing what a scan found and moving the cursor behind it. -/
theorem passedOver_record (ordered : first ≤ last) {hash : B256} (isHash : chain.hashAt? last = some hash)
    (exact : ∀ number, announcedIn number (found.map MonitorEvent.paymentDetected) =
      if first ≤ number ∧ number ≤ last then chain.transfersTo watched number else []) :
    PassedOver chain watched first last monitor
      ((found.foldl recordDetected monitor).setCursor last hash) where
  setup := ⟨(setup_foldl found monitor).1, (setup_foldl found monitor).2.1, (setup_foldl found monitor).2.2⟩
  ordered := ordered
  lastBlock := rfl
  lastBlockHash := isHash.symm
  known := by
    unfold Chain.hashAt? at isHash
    obtain ⟨block, here, _⟩ := Option.map_eq_some_iff.mp isHash
    simp [here]
  announced := by
    intro number
    change announcedIn number (found.foldl recordDetected monitor).events = _
    rw [events_foldl, announcedIn_append, exact]

/-- The reorganisation check announces nothing and leaves the cursor. -/
theorem Report.stands {block : BlockNotification} (report : Report served block monitor after) :
    StoodStill monitor after := by
  cases report with
  | quiet _ => exact StoodStill.refl _
  | reorg report _ =>
    exact ⟨⟨rfl, rfl, rfl⟩, rfl, rfl, fun number => by simp [send, announcedIn, announcements]⟩

/-- A stretch passed with nothing watched needs no scan. -/
theorem passedOver_unwatched (nothing : monitor.watched.rows = []) (mem : block ∈ chain.blocks)
    (ordered : first ≤ block.number) :
    PassedOver chain monitor.watched first block.number monitor
      (monitor.setCursor block.number block.hash) where
  setup := ⟨rfl, rfl, rfl⟩
  ordered := ordered
  lastBlock := rfl
  lastBlockHash := by
    rw [Chain.hashAt?, Chain.blockAt?_of_mem mem]
    rfl
  known := by simp [Chain.blockAt?_of_mem mem]
  announced := by
    intro number
    rw [Chain.transfersTo_nil nothing, ite_self, List.append_nil]
    rfl

/-- A phase that moves the cursor passes a stretch that starts behind it. -/
theorem Advance.passes (only : Solely served chain) (native : monitor.config.monitorNative = true)
    (erc20 : monitor.config.monitorErc20 = true) (mem : block ∈ chain.blocks)
    (ahead : ∀ lastNum, monitor.lastBlock = some lastNum → lastNum < block.number)
    (advance : Advance served block.notification now monitor after) :
    ∃ stop, stop ≤ block.number ∧
      PassedOver chain monitor.watched (monitor.scanFrom block.number) stop monitor after := by
  have isHash : chain.hashAt? block.number = some block.hash := by
    rw [Chain.hashAt?, Chain.blockAt?_of_mem mem]
    rfl
  cases advance with
  | unwatched nothing =>
    exact ⟨block.number, le_rfl, passedOver_unwatched nothing mem (scanFrom_le_number monitor block.number)⟩
  | chunk lastNum chunkTo hash found cursor gap stop scan label =>
    have start : monitor.scanFrom block.number = lastNum + 1 := by
      simp only [scanFrom, cursor]
      exact min_eq_left (ahead lastNum cursor)
    obtain ⟨other, isServed, isHash'⟩ := label
    obtain rfl := only other isServed
    have bound : backfillMaxBlocks = 200 := rfl
    change lastNum + 1 < block.number at gap
    change chunkTo = min (block.number - 1) (lastNum + backfillMaxBlocks) at stop
    rw [start]
    exact ⟨chunkTo, by omega, passedOver_record (by omega) isHash' (scan.exact only native erc20)⟩
  | block found noGap scan =>
    have start : monitor.scanFrom block.number = block.number := by
      unfold scanFrom
      split
      next lastNum cursor => exact min_eq_right (noGap lastNum cursor)
      · rfl
    rw [start]
    exact ⟨block.number, le_rfl, passedOver_record le_rfl isHash (scan.exact only native erc20)⟩

/--
A call for a block of the chain ahead of the cursor leaves the cursor where it
was and announces nothing, or passes a stretch that starts behind the cursor.
-/
theorem processBlock_passes {world : World EvmError Chain} (truthful : Truthful (· = chain) world) (now : Time)
    (native : monitor.config.monitorNative = true) (erc20 : monitor.config.monitorErc20 = true)
    (mem : block ∈ chain.blocks)
    (ahead : ∀ lastNum, monitor.lastBlock = some lastNum → lastNum < block.number) :
    StoodStill monitor (processBlock block.notification now world 0 monitor).state ∨
    ∃ stop, stop ≤ block.number ∧ PassedOver chain monitor.watched (monitor.scanFrom block.number) stop
      monitor (processBlock block.notification now world 0 monitor).state := by
  have only : Solely (· = chain) chain := fun _ same => same
  obtain ⟨reported, mid, report, first, second, stops, _⟩ :=
    processBlock_phases truthful block.notification now 0 monitor
  have stands : StoodStill monitor reported := report.elim (· ▸ .refl monitor) Report.stands
  have sameStart : reported.scanFrom block.number = monitor.scanFrom block.number := by
    simp [scanFrom, stands.lastBlock]
  have native' : reported.config.monitorNative = true := by rw [stands.setup.config]; exact native
  have erc20' : reported.config.monitorErc20 = true := by rw [stands.setup.config]; exact erc20
  have ahead' : ∀ lastNum, reported.lastBlock = some lastNum → lastNum < block.number := by
    rw [stands.lastBlock]
    exact ahead
  have aheadMid : ∀ lastNum, mid.lastBlock = some lastNum → lastNum < block.number := by
    rcases stops with rfl | before
    · exact ahead'
    · exact before
  -- the second phase begins where the first one stopped
  have passes : (processBlock block.notification now world 0 monitor).state = reported ∨
      ∃ stop, stop ≤ block.number ∧ PassedOver chain reported.watched (reported.scanFrom block.number) stop
        reported (processBlock block.notification now world 0 monitor).state := by
    rcases first with rfl | advance
    · exact second.imp id (Advance.passes only native' erc20' mem ahead')
    obtain ⟨stop, bound, passed⟩ := advance.passes only native' erc20' mem ahead'
    rcases second with same | advance'
    · rw [same]
      exact .inr ⟨stop, bound, passed⟩
    obtain ⟨stop', bound', passed'⟩ := advance'.passes only (passed.setup.config ▸ native')
      (passed.setup.config ▸ erc20') mem aheadMid
    have start : mid.scanFrom block.number = stop + 1 := by
      simp only [scanFrom, passed.lastBlock]
      exact min_eq_left (aheadMid stop passed.lastBlock)
    rw [start, passed.setup.watched] at passed'
    exact .inr ⟨stop', bound', passed.trans passed'⟩
  rcases passes with same | ⟨stop, bound, passed⟩
  · rw [same]
    exact .inl stands
  · rw [stands.setup.watched, sameStart] at passed
    exact .inr ⟨stop, bound, passed.of_stood stands⟩

/-- With something watched the cursor moves only on an answer. -/
theorem Advance.answered {block : BlockNotification} (native : monitor.config.monitorNative = true)
    (erc20 : monitor.config.monitorErc20 = true) (watches : monitor.watched.rows ≠ [])
    (advance : Advance served block now monitor after) : ∃ chain, served chain := by
  cases advance with
  | unwatched nothing => exact absurd nothing watches
  | chunk lastNum chunkTo hash found cursor gap stop scan label => exact label.imp fun _ isServed => isServed.1
  | block found noGap scan =>
    obtain ⟨nativePart, tokenPart⟩ := scan
    rw [if_pos native] at nativePart
    rw [if_pos erc20] at tokenPart
    obtain ⟨entry, mem⟩ := List.exists_mem_of_ne_nil _ watches
    cases token : entry.1.2 with
    | none =>
      generalize isRange : blockRange _ _ = visited at nativePart
      cases nativePart with
      | nil => simp [blockRange] at isRange
      | snoc before labels scan =>
        cases scan with
        | nobody nobody => simpa [token] using List.filter_eq_nil_iff.mp (List.map_eq_nil_iff.mp nobody) entry mem
        | block isServed here extracted => exact ⟨_, isServed⟩
    | some address =>
      cases tokenPart with
      | nobody nobody => simpa [token] using List.filter_eq_nil_iff.mp (List.map_eq_nil_iff.mp nobody) entry mem
      | logs isServed scanned => exact ⟨_, isServed⟩

/-- The source that answers nothing. -/
def unanswered : World EvmError Chain := fun _ => .error (.rpc "")

theorem processBlock_unanswered (native : monitor.config.monitorNative = true)
    (erc20 : monitor.config.monitorErc20 = true) (watches : monitor.watched.rows ≠ [])
    (block : BlockNotification) (now : Time) :
    (processBlock block now unanswered 0 monitor).state.lastBlock = monitor.lastBlock := by
  have truthful : Truthful (fun _ => False) unanswered :=
    ⟨nofun, by rintro i e ⟨⟩ ⟨⟩⟩
  obtain ⟨reported, mid, report, first, second, -⟩ := processBlock_phases truthful block now 0 monitor
  have stands : StoodStill monitor reported := report.elim (· ▸ .refl monitor) Report.stands
  have still {before after : ChainMonitor} (same : SameSetup monitor before)
      (progress : Progress (fun _ => False) block now before after) : after = before := by
    refine progress.resolve_right fun advance => ?_
    obtain ⟨_, answered⟩ := advance.answered (same.config ▸ native) (same.config ▸ erc20) (same.watched ▸ watches)
    exact answered
  obtain rfl := still stands.setup first
  rw [still stands.setup second, stands.lastBlock]

end Scans

end ChainMonitor

end EthPayServer.Evm
