import EthPayServer.Evm.Chain
import EthPayServer.Lib.Proc

/-!
# The block source

The calls a monitor makes to a node, and the answers of a node that reports
the canonical chain truthfully.  The types keep what the wire format leaves
open (a log without a block number, a block with hashes for transactions), so
the monitor's error paths stay in the model.
-/

namespace EthPayServer.Evm

open Lib

/-- How a monitor call ends without a value: an RPC error, or an unwinding panic. -/
inductive EvmError where
  | rpc (message : String)
  | panic
deriving DecidableEq, Repr

/-- One entry of an `eth_getLogs` answer. -/
structure RpcLog where
  log : Log
  blockNumber : Option Nat
  blockHash : Option B256
  transactionHash : Option B256
  logIndex : Option Nat
deriving DecidableEq, Repr

/-- The transaction list of a block answer. -/
inductive BlockTransactions where
  | full (transactions : List Tx)
  | hashes (hashes : List B256)
  | uncle

/-- A native transfer found in a block. -/
structure NativeTransfer where
  txHash : B256
  sender : Address
  recipient : Address
  value : U256
  txIndex : Nat
deriving DecidableEq, Repr

/-- Pull the transfers to `watched` out of a block the node returned. -/
def extractNativeTransfers (transactions : BlockTransactions) (watched : List Address) :
    Except EvmError (List NativeTransfer) :=
  match transactions with
  | .hashes _ => .error (.rpc ("block came back with transaction hashes instead of full " ++
      "transactions; refusing to read it as having no payments"))
  | .uncle => .ok []
  | .full txs => .ok <| txs.zipIdx.filterMap fun (tx, txIndex) =>
    -- a contract creation has no recipient; the receipt's status is not consulted
    match tx.recipient with
    | none => none
    | some recipient =>
      if recipient ∈ watched ∧ tx.value ≠ 0 then
        some ⟨tx.hash, tx.sender, recipient, tx.value, txIndex⟩
      else none

/-- `keccak256("Transfer(address,address,uint256)")`. -/
def transferTopic : B256 := 0xddf252ad1be2c89b69c2b068fc378daa952ba7f163c4a11628f55a4df523b3ef#256

/-- Which logs a query asks for. -/
structure LogFilter where
  addresses : List Address
  topics : List (Option B256)
  fromBlock : Option Nat
  toBlock : Option Nat

namespace LogFilter

/-- Transfer logs of every token contract: the recipient is matched after the query. -/
def erc20TransfersTo (_addresses : List Address) : LogFilter where
  addresses := []
  topics := [some transferTopic, none]
  fromBlock := none
  toBlock := none

def withBlockRange (filter : LogFilter) (first last : Nat) : LogFilter :=
  { filter with fromBlock := some first, toBlock := some last }

/-- The node's reading of a filter: listed contracts, and each named topic at its position. -/
def admits (filter : LogFilter) (log : Log) : Bool :=
  (filter.addresses.isEmpty || log.address ∈ filter.addresses) &&
    filter.topics.zipIdx.all fun (topic, position) =>
      topic.isNone || log.topics[position]? = topic

end LogFilter

/-- The numbers `first..=last`. -/
def blockRange (first last : Nat) : List Nat := List.range' first (last + 1 - first)

theorem mem_blockRange {first last number : Nat} :
    number ∈ blockRange first last ↔ first ≤ number ∧ number ≤ last := by
  simp only [blockRange, List.mem_range'_1]
  omega

/-- A block's logs as `eth_getLogs` reports them, with their block-wide index. -/
def Block.rpcLogs (block : Block) : List RpcLog :=
  block.logs.zipIdx.map fun (entry, logIndex) =>
    ⟨entry.2.2, some block.number, some block.hash, some entry.1, some logIndex⟩

namespace Chain

def logsIn (chain : Chain) (first last : Nat) : List RpcLog :=
  (blockRange first last).flatMap fun number =>
    match chain.blockAt? number with
    | some block => block.rpcLogs
    | none => []

/-- A truthful `eth_getLogs`; a range end that is not given is the newest block. -/
def getLogs (chain : Chain) (filter : LogFilter) : List RpcLog :=
  (chain.logsIn (filter.fromBlock.getD chain.head) (filter.toBlock.getD chain.head)).filter
    fun entry => filter.admits entry.log

/-- A truthful `eth_getBlockByNumber` with full transactions. -/
def getBlockWithTxs (chain : Chain) (number : Nat) : Option BlockTransactions :=
  (chain.blockAt? number).map fun block => .full block.transactions

/-- The hash of the canonical block at a height. -/
def hashAt? (chain : Chain) (number : Nat) : Option B256 :=
  (chain.blockAt? number).map Block.hash

theorem mem_logsIn {chain : Chain} {first last : Nat} {entry : RpcLog} :
    entry ∈ chain.logsIn first last ↔
      ∃ number block, first ≤ number ∧ number ≤ last ∧ chain.blockAt? number = some block ∧
        entry ∈ block.rpcLogs := by
  simp only [logsIn, List.mem_flatMap, mem_blockRange]
  constructor
  · rintro ⟨number, ⟨low, high⟩, mem⟩
    cases here : chain.blockAt? number with
    | none => simp [here] at mem
    | some block => exact ⟨number, block, low, high, here, by simpa [here] using mem⟩
  · rintro ⟨number, block, low, high, here, mem⟩
    exact ⟨number, ⟨low, high⟩, by simpa [here] using mem⟩

end Chain

/-! ## Source calls -/

section Calls

variable {σ : Type}

def getBlockNumber : Proc Chain EvmError σ Nat := Proc.read fun chain _ => .ok chain.head

def getBlockHash (number : Nat) : Proc Chain EvmError σ (Option B256) :=
  Proc.read fun chain _ => .ok (chain.hashAt? number)

def getLogs (filter : LogFilter) : Proc Chain EvmError σ (List RpcLog) :=
  Proc.read fun chain _ => .ok (chain.getLogs filter)

/-- The transfers to `addresses` in a block; a block the node does not have is an error. -/
def findNativeTransfersTo (blockNumber : Nat) (addresses : List Address) :
    Proc Chain EvmError σ (List NativeTransfer) :=
  if addresses.isEmpty then pure []
  else Proc.read fun chain _ =>
    match chain.getBlockWithTxs blockNumber with
    | none => .error (.rpc s!"block {blockNumber} was announced but this endpoint has not imported it yet; refusing to treat it as empty")
    | some transactions => extractNativeTransfers transactions addresses

end Calls

/-! ## Value that moved -/

/-- A transfer of the native currency or of a token that took effect. -/
structure Transfer where
  txHash : B256
  /-- the block-wide index of the log; `none` for the native currency -/
  logIndex : Option Nat
  token : Option Address
  sender : Address
  recipient : Address
  value : U256
deriving DecidableEq, Repr

/-- The address in the low bytes of a topic: `Address::from_slice(&topic[12..])`. -/
def addressOfTopic (topic : B256) : Address := topic.setWidth 160

def Log.transfer? (log : Log) : Option (Address × Address × U256) :=
  match log.topics with
  | signature :: sender :: recipient :: _ =>
    if signature = transferTopic then
      (fromBeSlice log.data).map fun amount =>
        (addressOfTopic sender, addressOfTopic recipient, amount)
    else none
  | _ => none

namespace Block

/-- Top-level transfers of the native currency: only a transaction that succeeded moves value. -/
def nativeTransfers (block : Block) : List Transfer :=
  block.transactions.filterMap fun tx =>
    if tx.succeeded ∧ tx.value ≠ 0 then
      tx.recipient.map fun recipient => ⟨tx.hash, none, none, tx.sender, recipient, tx.value⟩
    else none

def tokenTransfers (block : Block) : List Transfer :=
  block.logs.zipIdx.filterMap fun (entry, logIndex) =>
    entry.2.2.transfer?.map fun (sender, recipient, amount) =>
      ⟨entry.1, some logIndex, some entry.2.2.address, sender, recipient, amount⟩

def transfers (block : Block) : List Transfer := block.nativeTransfers ++ block.tokenTransfers

end Block

end EthPayServer.Evm
