import EthPayServer.Evm.Monitor

/-!
# What a scan finds

A scan reads blocks of chains its source may answer from.  Everything it finds
is a payment in one of them to a watched key, and when the source answers from
one chain only, it finds every payment of the blocks it reads.
-/

namespace EthPayServer.Evm

open Lib

/--
A source that answers every call from a chain of the given set, or fails it
with an RPC error.
-/
structure Truthful (served : Chain → Prop) (world : World EvmError Chain) : Prop where
  answers : ∀ {i chain}, world i = .ok chain → served chain
  faults : ∀ {i e}, world i = .error e → e ≠ .panic

/-- The source answers from one chain throughout. -/
def Solely (served : Chain → Prop) (chain : Chain) : Prop := ∀ other, served other → other = chain

structure PaymentDetected.Announces (event : PaymentDetected) (number : Nat) (transfer : Transfer) :
    Prop where
  blockNumber : event.blockNumber = number
  txHash : event.txHash = transfer.txHash
  logIndex : event.logIndex = transfer.logIndex.map asU32
  isNative : event.isNative = transfer.token.isNone
  paymentAddress : event.paymentAddress = transfer.recipient
  tokenAddress : event.tokenAddress = transfer.token
  amount : event.amount = transfer.value

variable {watched : WatchedSet} {served : Chain → Prop} {world : World EvmError Chain} {monitor : ChainMonitor}
   {addresses : List Address} {first last : Nat} {chain : Chain}

namespace ChainMonitor

/-- The payment of a top-level transfer, in the block of that number. -/
def NativeDetection (monitor : ChainMonitor) (watched : WatchedSet) (hash : B256) (now : Time)
    (block : Block) (event : PaymentDetected) : Prop :=
  ∃ tx ∈ block.transactions, ∃ recipient watch,
    tx.recipient = some recipient ∧ tx.value ≠ 0 ∧
    watched.find? (recipient, none) = some watch ∧
    event = monitor.nativePayment block.number hash now
      ⟨tx.hash, tx.sender, recipient, tx.value, 0⟩ watch.2.invoiceId

def tokenPayment (monitor : ChainMonitor) (block : Block) (now : Time) (txHash : B256)
    (logIndex : Nat) (token sender recipient : Address) (amount : U256) (invoiceId : Uuid) :
    PaymentDetected where
  chainId := monitor.chainId
  invoiceId := invoiceId
  paymentAddress := recipient
  amount := amount
  txHash := txHash
  blockNumber := block.number
  blockHash := block.hash
  logIndex := some (asU32 logIndex)
  isNative := false
  tokenAddress := some token
  fromAddress := sender
  confirmations := 1
  requiredConfirmations := monitor.config.requiredConfirmations
  detectedAt := now

def TokenDetection (monitor : ChainMonitor) (watched : WatchedSet) (now : Time)
    (block : Block) (event : PaymentDetected) : Prop :=
  ∃ txHash position log logIndex, ((txHash, position, log), logIndex) ∈ block.logs.zipIdx ∧
    ∃ sender recipient amount watch,
      log.transfer? = some (sender, recipient, amount) ∧
      watched.find? (recipient, some log.address) = some watch ∧
      event = monitor.tokenPayment block now txHash logIndex log.address sender recipient amount
        watch.2.invoiceId

/-- A Transfer log to a watched key whose data is longer than an amount can be. -/
def Oversized (watched : WatchedSet) (log : Log) : Prop :=
  ∃ senderTopic recipientTopic rest, log.topics = transferTopic :: senderTopic :: recipientTopic :: rest ∧
    (watched.find? (addressOfTopic recipientTopic, some log.address)).isSome ∧
    32 < log.data.length

/-! ## Native transfers -/

theorem mem_extractNativeTransfers {txs : List Tx} {watched : List Address}
    {found : List NativeTransfer} (done : extractNativeTransfers (.full txs) watched = .ok found)
    {transfer : NativeTransfer} :
    transfer ∈ found ↔ ∃ tx txIndex recipient, (tx, txIndex) ∈ txs.zipIdx ∧
      tx.recipient = some recipient ∧ recipient ∈ watched ∧ tx.value ≠ 0 ∧
      transfer = ⟨tx.hash, tx.sender, recipient, tx.value, txIndex⟩ := by
  simp only [extractNativeTransfers, Except.ok.injEq] at done
  subst done
  simp only [List.mem_filterMap, Prod.exists]
  constructor
  · rintro ⟨tx, txIndex, mem, found⟩
    cases goes : tx.recipient with
    | none => simp [goes] at found
    | some recipient =>
      simp only [goes, Option.ite_none_right_eq_some, Option.some.injEq] at found
      exact ⟨tx, txIndex, recipient, mem, goes, found.1.1, found.1.2, found.2.symm⟩
  · rintro ⟨tx, txIndex, recipient, mem, goes, isWatched, nonzero, rfl⟩
    exact ⟨tx, txIndex, mem, by simpa [goes, isWatched] using nonzero⟩

theorem mem_nativeAddresses {address : Address} :
    address ∈ nativeAddresses watched ↔ ∃ watch, watched.find? (address, none) = some watch := by
  simp only [nativeAddresses, List.mem_map, List.mem_filter, Table.find?_eq_some]
  constructor
  · rintro ⟨⟨⟨address, token⟩, watch⟩, ⟨mem, isNative⟩, rfl⟩
    cases token with
    | none => exact ⟨_, mem, rfl⟩
    | some token => simp at isNative
  · rintro ⟨⟨key, watch⟩, mem, rfl⟩
    exact ⟨_, ⟨mem, rfl⟩, rfl⟩

theorem mem_erc20Addresses {address token : Address} {watch : WatchKey × WatchedAddress}
    (found : watched.find? (address, some token) = some watch) : address ∈ erc20Addresses watched := by
  obtain ⟨mem, same⟩ := Table.find?_eq_some.mp found
  simp only [erc20Addresses, List.mem_map, List.mem_filter]
  exact ⟨watch, ⟨mem, by rw [same]; rfl⟩, by rw [same]⟩

/-- What a scan of one block for native transfers finds, where an address is watched and where none is. -/
inductive NativeScan (served : Chain → Prop) (monitor : ChainMonitor) (watched : WatchedSet)
    (number : Nat) (hash : B256) (now : Time) : List PaymentDetected → Prop
  | nobody (nobody : nativeAddresses watched = []) : NativeScan served monitor watched number hash now []
  | block {chain : Chain} {block : Block} {transfers : List NativeTransfer} (isServed : served chain)
      (here : chain.blockAt? number = some block)
      (extracted : extractNativeTransfers (.full block.transactions) (nativeAddresses watched) = .ok transfers) :
      NativeScan served monitor watched number hash now (transfers.filterMap fun transfer =>
        (watched.find? (transfer.recipient, none)).map fun entry =>
          monitor.nativePayment number hash now transfer entry.2.invoiceId)

variable {block : Block} {log : Log}

namespace NativeScan

variable {number : Nat} {hash : B256} {now : Time} {found : List PaymentDetected}

theorem sound (scan : NativeScan served monitor watched number hash now found) :
    ∀ event ∈ found, ∃ chain block, served chain ∧ chain.blockAt? number = some block ∧
      monitor.NativeDetection watched hash now block event := by
  cases scan with
  | nobody nobody => simp
  | @block chain block transfers isServed here extracted =>
    intro event mem
    obtain ⟨transfer, memTransfer, paid⟩ := List.mem_filterMap.mp mem
    obtain ⟨tx, txIndex, recipient, memTx, goes, _, nonzero, rfl⟩ :=
      (mem_extractNativeTransfers extracted).mp memTransfer
    obtain ⟨watch, isWatched, rfl⟩ := Option.map_eq_some_iff.mp paid
    refine ⟨chain, block, isServed, here, tx, (List.mem_zipIdx' memTx).2 ▸ List.getElem_mem _,
      recipient, watch, goes, nonzero, isWatched, ?_⟩
    rw [Chain.number_of_blockAt? here]
    rfl

theorem complete (scan : NativeScan served monitor watched number hash now found) (only : Solely served chain)
    (here : chain.blockAt? number = some block) :
    ∀ event, monitor.NativeDetection watched hash now block event → event ∈ found := by
  rintro event ⟨tx, memTx, recipient, watch, goes, nonzero, isWatched, rfl⟩
  have memAddress := mem_nativeAddresses.mpr ⟨watch, isWatched⟩
  cases scan with
  | nobody nobody =>
    rw [nobody] at memAddress
    cases memAddress
  | @block chain' block' transfers isServed here' extracted =>
    obtain rfl : chain' = chain := only chain' isServed
    rw [here] at here'
    cases here'
    obtain ⟨txIndex, bound, atIndex⟩ := List.mem_iff_getElem.mp memTx
    refine List.mem_filterMap.mpr ⟨⟨tx.hash, tx.sender, recipient, tx.value, txIndex⟩, ?_, ?_⟩
    · refine (mem_extractNativeTransfers extracted).mpr ⟨tx, txIndex, recipient, ?_, goes, memAddress,
        nonzero, rfl⟩
      exact List.mem_zipIdx_iff_getElem?.mpr (by rw [List.getElem?_eq_getElem bound, atIndex])
    · simp [isWatched, Chain.number_of_blockAt? here, nativePayment]

end NativeScan

/-- The monitor stays as it is; the program ends with what `post` says or with a fault that is no panic. -/
abbrev Finds (world : World EvmError Chain) (monitor : ChainMonitor) (program : MonitorM α) (post : α → Prop) :
    Prop :=
  Proc.Triple world (· = monitor) program (fun found state => state = monitor ∧ post found)
    (fun e state => state = monitor ∧ e ≠ .panic)

theorem findNativeTransfersTo_spec (truthful : Truthful served world) (number : Nat)
    (some_watched : addresses.isEmpty = false) :
    Finds world monitor (findNativeTransfersTo number addresses) fun transfers => ∃ chain block, served chain ∧
      chain.blockAt? number = some block ∧
        extractNativeTransfers (.full block.transactions) addresses = .ok transfers := by
  unfold findNativeTransfersTo
  rw [some_watched]
  refine Proc.Triple.read ?_ ?_ ?_
  · intro i e state fault start
    exact ⟨start, truthful.faults fault⟩
  · intro i chain state transfers answered start read
    cases here : chain.blockAt? number with
    | none => simp [Chain.getBlockWithTxs, here] at read
    | some block =>
      simp only [Chain.getBlockWithTxs, here, Option.map_some] at read
      exact ⟨start, chain, block, truthful.answers answered, here, read⟩
  intro i chain state e answered start refused
  refine ⟨start, ?_⟩
  cases here : chain.blockAt? number with
  | none =>
    simp only [Chain.getBlockWithTxs, here, Option.map_none, Except.error.injEq] at refused
    rw [← refused]
    simp
  | some block => simp [Chain.getBlockWithTxs, here, extractNativeTransfers] at refused

theorem checkNativePayments_spec (truthful : Truthful served world) (watched : WatchedSet) (number : Nat)
    (hash : B256) (now : Time) :
    Finds world monitor (checkNativePayments watched number hash now)
      (NativeScan served monitor watched number hash now) := by
  unfold checkNativePayments
  refine Proc.Triple.get_bind ?_
  rintro i state rfl
  by_cases nobody : (nativeAddresses watched).isEmpty
  · rw [if_pos nobody]
    exact ⟨rfl, .nobody (List.isEmpty_iff.mp nobody)⟩
  rw [if_neg nobody]
  refine Outcome.Satisfies.andThen _
    (findNativeTransfersTo_spec truthful number (by simpa using nobody) i state rfl) ?_
  rintro transfers calls after ⟨rfl, chain, block, isServed, here, extracted⟩
  exact ⟨rfl, .block isServed here extracted⟩

/-! ## Token transfers -/

/-- A served block of the range holds an oversized Transfer log to a watched key. -/
def OversizedIn (served : Chain → Prop) (watched : WatchedSet) (first last : Nat) : Prop :=
  ∃ chain number block, served chain ∧ first ≤ number ∧ number ≤ last ∧
    chain.blockAt? number = some block ∧
    ∃ entry ∈ block.logs, Oversized watched entry.2.2

theorem mem_rpcLogs {entry : RpcLog} :
    entry ∈ block.rpcLogs ↔ ∃ txHash position log logIndex,
      ((txHash, position, log), logIndex) ∈ block.logs.zipIdx ∧
      entry = ⟨log, some block.number, some block.hash, some txHash, some logIndex⟩ := by
  simp only [Block.rpcLogs, List.mem_map, Prod.exists]
  constructor
  · rintro ⟨txHash, position, log, logIndex, mem, rfl⟩
    exact ⟨txHash, position, log, logIndex, mem, rfl⟩
  · rintro ⟨txHash, position, log, logIndex, mem, rfl⟩
    exact ⟨txHash, position, log, logIndex, mem, rfl⟩

theorem admits_erc20TransfersTo :
    ((LogFilter.erc20TransfersTo addresses).withBlockRange first last).admits log = true ↔
      log.topics.head? = some transferTopic := by
  simp [LogFilter.admits, LogFilter.withBlockRange, LogFilter.erc20TransfersTo,
    List.head?_eq_getElem?]

theorem mem_getLogs_transfers {entry : RpcLog} :
    entry ∈ chain.getLogs ((LogFilter.erc20TransfersTo addresses).withBlockRange first last) ↔
      entry.log.topics.head? = some transferTopic ∧
      ∃ number block, first ≤ number ∧ number ≤ last ∧ chain.blockAt? number = some block ∧
        entry ∈ block.rpcLogs := by
  simp only [Chain.getLogs, List.mem_filter, admits_erc20TransfersTo]
  rw [and_comm]
  simp [LogFilter.withBlockRange, LogFilter.erc20TransfersTo, Chain.mem_logsIn]

theorem erc20Payment_cases (monitor : ChainMonitor) (watched : WatchedSet) (first last : Nat) (now : Time)
    (block : Block) (txHash : B256) (logIndex : Nat) (isTransfer : log.topics.head? = some transferTopic) :
    let entry : RpcLog := ⟨log, some block.number, some block.hash, some txHash, some logIndex⟩
    (∃ sender recipient amount watch, log.transfer? = some (sender, recipient, amount) ∧
      watched.find? (recipient, some log.address) = some watch ∧
      monitor.erc20Payment watched first last now entry = .ok (some (monitor.tokenPayment block now
        txHash logIndex log.address sender recipient amount watch.2.invoiceId))) ∨
    (monitor.erc20Payment watched first last now entry = .ok none ∧
      ∀ sender recipient amount, log.transfer? = some (sender, recipient, amount) →
        watched.find? (recipient, some log.address) = none) ∨
    (monitor.erc20Payment watched first last now entry = .error .panic ∧
      Oversized watched log ∧ log.transfer? = none) := by
  intro entry
  match topics : log.topics with
  | [] => simp [topics] at isTransfer
  | [_] => exact .inr (.inl (by simp [entry, erc20Payment, Log.transfer?, topics]))
  | [_, _] => exact .inr (.inl (by simp [entry, erc20Payment, Log.transfer?, topics]))
  | signature :: senderTopic :: recipientTopic :: rest =>
    simp only [topics, List.head?_cons, Option.some.injEq] at isTransfer
    subst isTransfer
    cases isWatched : watched.find? (addressOfTopic recipientTopic, some log.address) with
    | none =>
      refine .inr (.inl ⟨by simp [entry, erc20Payment, topics, isWatched], ?_⟩)
      intro sender recipient amount decoded
      simp only [Log.transfer?, topics, if_true, Option.map_eq_some_iff, Prod.mk.injEq] at decoded
      obtain ⟨_, _, _, rfl, _⟩ := decoded
      exact isWatched
    | some watch =>
      cases read : fromBeSlice log.data with
      | none =>
        refine .inr (.inr ⟨by simp [entry, erc20Payment, topics, isWatched, read], ?_, ?_⟩)
        · refine ⟨senderTopic, recipientTopic, rest, topics, by simp [isWatched], ?_⟩
          simpa [fromBeSlice] using read
        · simp [Log.transfer?, topics, read]
      | some amount =>
        refine .inl ⟨addressOfTopic senderTopic, addressOfTopic recipientTopic, amount, watch,
          by simp [Log.transfer?, topics, read], isWatched, ?_⟩
        simp [entry, erc20Payment, topics, isWatched, read, tokenPayment]

theorem head?_of_transfer? {decoded : Address × Address × U256} (isTransfer : log.transfer? = some decoded) :
    log.topics.head? = some transferTopic := by
  unfold Log.transfer? at isTransfer
  split at isTransfer
  next topics =>
    split at isTransfer
    next signature => rw [topics, List.head?_cons, signature]
    · cases isTransfer
  · cases isTransfer

/-- The Transfer logs of a range, as the source reports them for one chain. -/
def transferLogs (chain : Chain) (watched : WatchedSet) (first last : Nat) : List RpcLog :=
  chain.getLogs ((LogFilter.erc20TransfersTo (erc20Addresses watched)).withBlockRange first last)

/-- What a scan of a range for token transfers finds, where an address is watched and where none is. -/
inductive TokenScan (served : Chain → Prop) (monitor : ChainMonitor) (watched : WatchedSet)
    (first last : Nat) (now : Time) : List PaymentDetected → Prop
  | nobody (nobody : erc20Addresses watched = []) : TokenScan served monitor watched first last now []
  | logs {chain : Chain} {found : List PaymentDetected} (isServed : served chain)
      (scanned : tryFilterMap (monitor.erc20Payment watched first last now)
        (transferLogs chain watched first last) = .ok found) :
      TokenScan served monitor watched first last now found

namespace TokenScan

variable {now : Time} {found : List PaymentDetected}

theorem sound (scan : TokenScan served monitor watched first last now found) :
    ∀ event ∈ found, ∃ chain number block, served chain ∧ first ≤ number ∧ number ≤ last ∧
      chain.blockAt? number = some block ∧ monitor.TokenDetection watched now block event := by
  cases scan with
  | nobody nobody => simp
  | @logs chain _ isServed scanned =>
    intro event memEvent
    obtain ⟨entry, memEntry, pays⟩ := ((tryFilterMap_ok scanned).2 event).mp memEvent
    obtain ⟨isTransfer, number, block, low, high, here, memLog⟩ := mem_getLogs_transfers.mp memEntry
    obtain ⟨txHash, position, log, logIndex, memIdx, rfl⟩ := mem_rpcLogs.mp memLog
    refine ⟨chain, number, block, isServed, low, high, here, txHash, position, log, logIndex,
      memIdx, ?_⟩
    rcases erc20Payment_cases monitor watched first last now block txHash logIndex isTransfer with
      ⟨sender, recipient, amount, watch, decoded, isWatched, paid⟩ | ⟨paid, _⟩ | ⟨paid, _⟩
    all_goals
      rw [paid] at pays
      cases pays
    exact ⟨sender, recipient, amount, watch, decoded, isWatched, rfl⟩

theorem complete (scan : TokenScan served monitor watched first last now found) (only : Solely served chain)
    {number : Nat} (low : first ≤ number) (high : number ≤ last) (here : chain.blockAt? number = some block) :
    ∀ event, monitor.TokenDetection watched now block event → event ∈ found := by
  rintro event ⟨txHash, position, log, logIndex, memIdx, sender, recipient, amount, watch, decoded,
    isWatched, rfl⟩
  cases scan with
  | nobody nobody =>
    have mem := mem_erc20Addresses isWatched
    rw [nobody] at mem
    cases mem
  | @logs chain' _ isServed scanned =>
    obtain rfl : chain' = chain := only chain' isServed
    have isTransfer := head?_of_transfer? decoded
    refine ((tryFilterMap_ok scanned).2 _).mpr ⟨_, mem_getLogs_transfers.mpr ⟨isTransfer, number, block,
      low, high, here, mem_rpcLogs.mpr ⟨txHash, position, log, logIndex, memIdx, rfl⟩⟩, ?_⟩
    rcases erc20Payment_cases monitor watched first last now block txHash logIndex isTransfer with
      ⟨_, _, _, _, decoded', isWatched', paid⟩ | ⟨_, unwatched⟩ | ⟨_, _, unread⟩
    · rw [decoded] at decoded'
      cases decoded'
      rw [isWatched] at isWatched'
      cases isWatched'
      exact paid
    · rw [unwatched sender recipient amount decoded] at isWatched
      cases isWatched
    · rw [decoded] at unread
      cases unread

end TokenScan

theorem oversizedIn_of_panic {now : Time} (isServed : served chain)
    (failed : tryFilterMap (monitor.erc20Payment watched first last now)
      (transferLogs chain watched first last) = .error .panic) : OversizedIn served watched first last := by
  obtain ⟨entry, memEntry, fails⟩ := tryFilterMap_error failed
  obtain ⟨isTransfer, number, block, low, high, here, memLog⟩ := mem_getLogs_transfers.mp memEntry
  obtain ⟨txHash, position, log, logIndex, memIdx, rfl⟩ := mem_rpcLogs.mp memLog
  rcases erc20Payment_cases monitor watched first last now block txHash logIndex isTransfer with
    ⟨_, _, _, _, _, _, paid⟩ | ⟨paid, _⟩ | ⟨_, oversized, _⟩
  · rw [paid] at fails
    cases fails
  · rw [paid] at fails
    cases fails
  · exact ⟨chain, number, block, isServed, low, high, here, (txHash, position, log),
      List.fst_mem_of_mem_zipIdx memIdx, oversized⟩

theorem getLogs_spec (truthful : Truthful served world) (filter : LogFilter) :
    Finds world monitor (getLogs filter) fun logs => ∃ chain, served chain ∧ logs = chain.getLogs filter := by
  refine Proc.Triple.read ?_ ?_ ?_
  · intro i e state fault start
    exact ⟨start, truthful.faults fault⟩
  · intro i chain state logs answered start asked
    cases asked
    exact ⟨start, chain, truthful.answers answered, rfl⟩
  · intro i chain state e answered start refused
    cases refused

theorem checkErc20Payments_spec (truthful : Truthful served world) (watched : WatchedSet) (first last : Nat)
    (now : Time) :
    Proc.Triple world (· = monitor) (checkErc20Payments watched first last now)
      (fun found state => state = monitor ∧
        TokenScan served monitor watched first last now found)
      (fun e state => state = monitor ∧ (e = .panic → OversizedIn served watched first last)) := by
  unfold checkErc20Payments
  refine Proc.Triple.get_bind ?_
  rintro i state rfl
  by_cases nobody : (erc20Addresses watched).isEmpty
  · rw [if_pos nobody]
    exact ⟨rfl, .nobody (List.isEmpty_iff.mp nobody)⟩
  rw [if_neg nobody]
  refine Outcome.Satisfies.andThen _ ((getLogs_spec truthful _ i state rfl).mono
    (fun _ _ holds => holds) fun e s failed => ⟨failed.1, fun isPanic => absurd isPanic failed.2⟩) ?_
  rintro logs calls after ⟨rfl, chain, isServed, rfl⟩
  change Outcome.Satisfies ⟨tryFilterMap (after.erc20Payment watched first last now)
    (transferLogs chain watched first last), calls, after⟩ _ _
  cases scanned : tryFilterMap (after.erc20Payment watched first last now)
      (transferLogs chain watched first last) with
  | ok found => exact ⟨rfl, .logs isServed scanned⟩
  | error e =>
    refine ⟨rfl, fun isPanic => ?_⟩
    subst isPanic
    exact oversizedIn_of_panic isServed scanned

end ChainMonitor

end EthPayServer.Evm
