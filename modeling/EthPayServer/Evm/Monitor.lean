import EthPayServer.Evm.Source
import EthPayServer.Lib.Table

/-!
# The chain monitor

`ChainMonitor` scans each announced block for transfers to the watched keys,
closes gaps in the block stream chunk by chunk, compares the one block hash it
keeps with the chain to notice a reorganisation, and counts confirmations of
the payments it still tracks.
-/

namespace EthPayServer.Evm

open Lib

/-! ## Events -/

/-- `as u32`. -/
def asU32 (n : Nat) : Nat := n % 2 ^ 32

/-- `as i32` of a `u32`. -/
def asI32 (n : Nat) : Int := if n < 2 ^ 31 then n else (n : Int) - 2 ^ 32

structure PaymentDetected where
  chainId : Nat
  invoiceId : Uuid
  paymentAddress : Address
  amount : U256
  txHash : B256
  blockNumber : Nat
  blockHash : B256
  logIndex : Option Nat
  isNative : Bool
  tokenAddress : Option Address
  fromAddress : Address
  confirmations : Nat
  requiredConfirmations : Nat
  detectedAt : Time
deriving DecidableEq, Repr

/-- Which transfer of the transaction this is: the log index, or -1 for a native one. -/
def PaymentDetected.txIndex (event : PaymentDetected) : Option Int :=
  if event.isNative then some (-1) else event.logIndex.map asI32

structure PaymentConfirmed where
  txIndex : Int
  chainId : Nat
  invoiceId : Uuid
  paymentAddress : Address
  amount : U256
  txHash : B256
  blockNumber : Nat
  confirmations : Nat
  confirmedAt : Time
deriving DecidableEq, Repr

structure ReorgDetected where
  chainId : Nat
  forkBlock : Nat
  oldHash : B256
  newHash : B256
  depth : Nat
  affectedInvoices : List Uuid
  survivedTxHashes : List B256
  survivorsVerifiable : Bool
  detectedAt : Time
deriving DecidableEq, Repr

inductive MonitorEvent where
  | paymentDetected (event : PaymentDetected)
  | paymentConfirmed (event : PaymentConfirmed)
  | reorgDetected (event : ReorgDetected)
  /-- lifecycle, watch and status events -/
  | notice (chainId : Nat)
deriving DecidableEq, Repr

def MonitorEvent.chainId : MonitorEvent → Nat
  | paymentDetected event => event.chainId
  | paymentConfirmed event => event.chainId
  | reorgDetected event => event.chainId
  | notice chainId => chainId

/-! ## State -/

structure ChainMonitorConfig where
  requiredConfirmations : Nat
  maxBlocksPerScan : Nat
  monitorNative : Bool
  monitorErc20 : Bool
deriving DecidableEq, Repr

namespace ChainMonitorConfig

def default : ChainMonitorConfig where
  requiredConfirmations := 12
  maxBlocksPerScan := 100
  monitorNative := true
  monitorErc20 := true

/-- `from_chain`: the chain's own number of confirmations, every other default. -/
def fromChain (confirmationsRequired : Nat) : ChainMonitorConfig :=
  { default with requiredConfirmations := confirmationsRequired }

end ChainMonitorConfig

structure WatchedAddress where
  address : Address
  invoiceId : Uuid
  expectedAmount : Option U256
  tokenContract : Option Address
  createdAt : Time
deriving DecidableEq, Repr

/-- Address and token; no token is the native currency. -/
abbrev WatchKey : Type := Address × Option Address

abbrev WatchedSet : Type := HashMap WatchKey WatchedAddress

structure PendingPayment where
  event : PaymentDetected
  lastCheckBlock : Nat
deriving DecidableEq, Repr

structure ChainMonitor where
  chainId : Nat
  config : ChainMonitorConfig
  watched : WatchedSet
  pending : HashMap (B256 × Int) PendingPayment
  lastBlock : Option Nat
  lastBlockHash : Option B256
  /-- everything sent on the event channel, oldest first -/
  events : List MonitorEvent

structure BlockNotification where
  number : Nat
  hash : B256
  parentHash : B256
deriving DecidableEq, Repr

/-- What the block stream announces for a block. -/
def Block.notification (block : Block) : BlockNotification :=
  ⟨block.number, block.hash, block.parentHash⟩

abbrev MonitorM : Type → Type := Proc Chain EvmError ChainMonitor

namespace ChainMonitor

def new (chainId : Nat) (config : ChainMonitorConfig) : ChainMonitor where
  chainId := chainId
  config := config
  watched := Table.empty
  pending := Table.empty
  lastBlock := none
  lastBlockHash := none
  events := []

def watch (monitor : ChainMonitor) (watched : WatchedAddress) : ChainMonitor :=
  { monitor with
    watched := monitor.watched.put ((watched.address, watched.tokenContract), watched) }

def unwatch (monitor : ChainMonitor) (address : Address) (tokenContract : Option Address) :
    ChainMonitor :=
  { monitor with watched := monitor.watched.filter fun entry => entry.1 ≠ (address, tokenContract) }

def send (monitor : ChainMonitor) (event : MonitorEvent) : ChainMonitor :=
  { monitor with events := monitor.events ++ [event] }

def setCursor (monitor : ChainMonitor) (number : Nat) (hash : B256) : ChainMonitor :=
  { monitor with lastBlock := some number, lastBlockHash := some hash }

def recordDetected (monitor : ChainMonitor) (event : PaymentDetected) : ChainMonitor :=
  let tracked := match event.txIndex with
    | some txIndex =>
      { monitor with pending := monitor.pending.put ((event.txHash, txIndex),
          ⟨event, event.blockNumber⟩) }
    -- a token log without an index is announced but not tracked
    | none => monitor
  tracked.send (.paymentDetected event)

/-! ## Detection -/

def nativeAddresses (watched : WatchedSet) : List Address :=
  (watched.rows.filter fun entry => entry.1.2.isNone).map fun entry => entry.1.1

def erc20Addresses (watched : WatchedSet) : List Address :=
  (watched.rows.filter fun entry => entry.1.2.isSome).map fun entry => entry.1.1

def nativePayment (monitor : ChainMonitor) (blockNumber : Nat) (blockHash : B256) (now : Time)
    (transfer : NativeTransfer) (invoiceId : Uuid) : PaymentDetected where
  chainId := monitor.chainId
  invoiceId := invoiceId
  paymentAddress := transfer.recipient
  amount := transfer.value
  txHash := transfer.txHash
  blockNumber := blockNumber
  blockHash := blockHash
  logIndex := none
  isNative := true
  tokenAddress := none
  fromAddress := transfer.sender
  confirmations := 1
  requiredConfirmations := monitor.config.requiredConfirmations
  detectedAt := now

def checkNativePayments (watched : WatchedSet) (blockNumber : Nat) (blockHash : B256)
    (now : Time) : MonitorM (List PaymentDetected) := do
  let monitor ← Proc.get
  if (nativeAddresses watched).isEmpty then pure [] else do
    let transfers ← findNativeTransfersTo blockNumber (nativeAddresses watched)
    pure <| transfers.filterMap fun transfer =>
      (watched.find? (transfer.recipient, none)).map fun entry =>
        monitor.nativePayment blockNumber blockHash now transfer entry.2.invoiceId

/-- The payment a Transfer log announces, if it goes to a watched key. -/
def erc20Payment (monitor : ChainMonitor) (watched : WatchedSet) (first last : Nat) (now : Time)
    (entry : RpcLog) : Except EvmError (Option PaymentDetected) :=
  match entry.log.topics with
  | _ :: senderTopic :: recipientTopic :: _ =>
    let recipient := addressOfTopic recipientTopic
    match watched.find? (recipient, some entry.log.address) with
    | none => .ok none
    | some watch =>
      match fromBeSlice entry.log.data with
      | none => .error .panic
      | some amount =>
        match entry.blockNumber with
        | none => .error (.rpc s!"transfer log in blocks {first}..={last} has no block number")
        | some logBlock => .ok <| some
            { chainId := monitor.chainId
              invoiceId := watch.2.invoiceId
              paymentAddress := recipient
              amount := amount
              txHash := entry.transactionHash.getD 0
              blockNumber := logBlock
              blockHash := entry.blockHash.getD 0
              logIndex := entry.logIndex.map asU32
              isNative := false
              tokenAddress := some entry.log.address
              fromAddress := addressOfTopic senderTopic
              confirmations := 1
              requiredConfirmations := monitor.config.requiredConfirmations
              detectedAt := now }
  -- fewer than three topics: not a transfer between accounts
  | _ => .ok none

/-- Check for token payments in the blocks `first..=last`. -/
def checkErc20Payments (watched : WatchedSet) (first last : Nat) (now : Time) :
    MonitorM (List PaymentDetected) := do
  let monitor ← Proc.get
  if (erc20Addresses watched).isEmpty then pure [] else do
    let logs ← getLogs
      ((LogFilter.erc20TransfersTo (erc20Addresses watched)).withBlockRange first last)
    Proc.ofExcept (tryFilterMap (monitor.erc20Payment watched first last now) logs)

/-! ## Closing gaps -/

/-- Most blocks scanned to close a gap in one `processBlock` call. -/
def backfillMaxBlocks : Nat := 200

def blockHashOrErr (number : Nat) : MonitorM B256 := do
  match ← getBlockHash number with
  | some hash => pure hash
  | none => Proc.fail (.rpc s!"block {number} not available while backfilling a gap")

/-- Scan skipped blocks `first..=last`; the hash of the last one and what was found. -/
def backfillMissedBlocks (watched : WatchedSet) (first last : Nat) (now : Time) :
    MonitorM (B256 × List PaymentDetected) := do
  let monitor ← Proc.get
  let native ← (if monitor.config.monitorNative then
      Proc.collect (blockRange first last) fun number => do
        let hash ← blockHashOrErr number
        checkNativePayments watched number hash now
    else pure [])
  let tokens ← (if monitor.config.monitorErc20 then checkErc20Payments watched first last now
    else pure [])
  let hash ← blockHashOrErr last
  pure (hash, native ++ tokens)

/-- Read one bounded chunk of a gap, announce what it held and move the cursor to its end. -/
def backfillChunk (watched : WatchedSet) (first last : Nat) (now : Time) : MonitorM Bool := do
  let chunkTo := min last (first + backfillMaxBlocks - 1)
  let (chunkHash, detected) ← backfillMissedBlocks watched first chunkTo now
  Proc.modify fun monitor => (detected.foldl recordDetected monitor).setCursor chunkTo chunkHash
  pure (decide (last ≤ chunkTo))

/-! ## Reorganisations -/

/-- The ranges `[start, to]` is scanned in, `chunk` blocks at a time; the fuel bounds their number. -/
def chunkRanges (chunk : Nat) : Nat → Nat → Nat → List (Nat × Nat)
  | 0, _, _ => []
  | fuel + 1, start, last =>
    if start ≤ last then
      let stop := min (start + (chunk - 1)) last
      (start, stop) :: (if stop = last then [] else chunkRanges chunk fuel (stop + 1) last)
    else []

/-- Transactions still on chain in `first..=last`, and whether the scan could look at all. -/
def findSurvivedTxHashes (first last : Nat) : MonitorM (List B256 × Bool) := do
  let monitor ← Proc.get
  if monitor.watched.rows.isEmpty then pure ([], false) else do
    let chunk := max monitor.config.maxBlocksPerScan 1
    let native ← (if (nativeAddresses monitor.watched).isEmpty then pure [] else
      Proc.collect (blockRange first last) fun number => do
        let transfers ← findNativeTransfersTo number (nativeAddresses monitor.watched)
        pure (transfers.map NativeTransfer.txHash))
    let tokens ← (if (erc20Addresses monitor.watched).isEmpty then pure [] else
      Proc.collect (chunkRanges chunk (last + 1 - first) first last) fun range => do
        let logs ← getLogs ((LogFilter.erc20TransfersTo (erc20Addresses monitor.watched)).withBlockRange
          range.1 range.2)
        pure (logs.filterMap RpcLog.transactionHash))
    pure (native ++ tokens, true)

/-- Report a reorganisation with the transactions that survived it. -/
def handleReorg (forkBlock : Nat) (oldHash : B256) (newBlock : BlockNotification) (now : Time) :
    MonitorM Unit := do
  let monitor ← Proc.get
  let affected := (monitor.pending.rows.filter fun entry =>
    decide (forkBlock ≤ entry.2.event.blockNumber)).map fun entry => entry.2.event.invoiceId
  let (survivedTxHashes, survivorsVerifiable) ← findSurvivedTxHashes forkBlock newBlock.number
  Proc.modify fun monitor => monitor.send <| .reorgDetected
    { chainId := monitor.chainId
      forkBlock := forkBlock
      oldHash := oldHash
      newHash := newBlock.hash
      depth := newBlock.number - forkBlock + 1
      affectedInvoices := affected
      survivedTxHashes := survivedTxHashes
      survivorsVerifiable := survivorsVerifiable
      detectedAt := now }

/-- Where the monitor believes the chain forked, if it noticed that it did. -/
def forkBlock? (lastHash : B256) (lastNum : Nat) (block : BlockNotification) :
    MonitorM (Option Nat) :=
  if block.number = lastNum + 1 then
    pure (if block.parentHash ≠ lastHash then some lastNum else none)
  else do
    match ← getBlockHash lastNum with
    | some hash => pure (if hash ≠ lastHash then some (min lastNum block.number) else none)
    | none => pure none

/-- The reorganisation check at the head of `processBlock`. -/
def checkContinuity (block : BlockNotification) (now : Time) : MonitorM Unit := do
  let monitor ← Proc.get
  match monitor.lastBlockHash, monitor.lastBlock with
  | some lastHash, some lastNum => do
    match ← forkBlock? lastHash lastNum block with
    | some forkBlock => handleReorg forkBlock lastHash block now
    | none => pure ()
  | _, _ => pure ()

/-! ## Processing a block -/

/-- Close the gap before a block, if there is one; whether the block itself is next. -/
def closeGap (watched : WatchedSet) (lastBlock : Option Nat) (block : BlockNotification)
    (now : Time) : MonitorM Bool :=
  match lastBlock with
  | some lastNum =>
    if lastNum + 1 < block.number then
      backfillChunk watched (lastNum + 1) (block.number - 1) now
    else pure true
  | none => pure true

/-- Scan the announced block itself and move the cursor onto it. -/
def scanBlock (watched : WatchedSet) (block : BlockNotification) (now : Time) : MonitorM Unit := do
  let monitor ← Proc.get
  let native ← (if monitor.config.monitorNative then
      checkNativePayments watched block.number block.hash now
    else pure [])
  let tokens ← (if monitor.config.monitorErc20 then
      checkErc20Payments watched block.number block.number now
    else pure [])
  Proc.modify fun monitor =>
    ((native ++ tokens).foldl recordDetected monitor).setCursor block.number block.hash

def processBlock (block : BlockNotification) (now : Time) : MonitorM Unit := do
  checkContinuity block now
  let monitor ← Proc.get
  if monitor.watched.rows.isEmpty then
    Proc.modify fun monitor => monitor.setCursor block.number block.hash
  else do
    if ← closeGap monitor.watched monitor.lastBlock block now then
      scanBlock monitor.watched block now
    else pure ()

/-! ## Confirmations -/

def countConfirmations (monitor : ChainMonitor) (currentBlock : Nat) :
    HashMap (B256 × Int) PendingPayment :=
  monitor.pending.update (fun entry => (entry.1,
    { entry.2 with event :=
      { entry.2.event with confirmations := currentBlock - entry.2.event.blockNumber + 1 } }))
    fun _ => rfl

def PendingPayment.isRipe (payment : PendingPayment) : Bool :=
  decide (payment.event.requiredConfirmations ≤ payment.event.confirmations)

def confirmedEvent (now : Time) (entry : (B256 × Int) × PendingPayment) : PaymentConfirmed where
  txIndex := entry.1.2
  chainId := entry.2.event.chainId
  invoiceId := entry.2.event.invoiceId
  paymentAddress := entry.2.event.paymentAddress
  amount := entry.2.event.amount
  txHash := entry.2.event.txHash
  blockNumber := entry.2.event.blockNumber
  confirmations := entry.2.event.confirmations
  confirmedAt := now

/-- Confirm what is deep enough under a head; `order` is the map's iteration order. -/
def confirmAt (monitor : ChainMonitor) (currentBlock : Nat) (order : Nat → Nat) (now : Time) :
    ChainMonitor :=
  let counted := monitor.countConfirmations currentBlock
  let ripe := (arrange order counted.rows).filter fun entry => PendingPayment.isRipe entry.2
  { monitor with
    pending := counted.filter fun entry => !PendingPayment.isRipe entry.2
    events := monitor.events ++ ripe.map fun entry => .paymentConfirmed (confirmedEvent now entry) }

/-- Check confirmation status of pending payments. -/
def checkConfirmations (order : Nat → Nat) (now : Time) : MonitorM Unit := do
  let currentBlock ← getBlockNumber
  Proc.modify fun monitor => monitor.confirmAt currentBlock order now

end ChainMonitor

end EthPayServer.Evm
