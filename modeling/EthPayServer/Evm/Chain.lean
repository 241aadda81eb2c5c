import EthPayServer.Lib.Hex
import Mathlib.Data.List.Chain
import Mathlib.Data.List.Range
import Mathlib.Data.BitVec

/-!
# Blocks, transactions and the canonical chain

A chain is the list of its blocks by height, with the facts every node
enforces as fields: blocks carry their height and their parent's hash, and no
transaction is included twice.  A failed transaction sits in its block with
its recipient and value, and has no logs.
-/

namespace EthPayServer.Evm

open Lib

abbrev Address : Type := BitVec 160
abbrev B256 : Type := BitVec 256
abbrev U256 : Type := BitVec 256

/-- Seconds on the server's clock. -/
abbrev Time : Type := Nat

/-- A generated identifier. -/
abbrev Uuid : Type := Nat

/-- `format!("{:#x}", address)`. -/
def addressText (address : Address) : Text := hexText 40 address.toNat

/-- `format!("{:#x}", hash)`. -/
def hashText (hash : B256) : Text := hexText 64 hash.toNat

/-- `str::parse::<Address>`. -/
def parseAddress (text : Text) : Option Address := (parseHex 40 text).map (BitVec.ofNat 160)

/-- `str::parse::<B256>`. -/
def parseHash (text : Text) : Option B256 := (parseHex 64 text).map (BitVec.ofNat 256)

theorem parseHash_hashText (hash : B256) : parseHash (hashText hash) = some hash := by
  have fits : hash.toNat < 16 ^ 64 := hash.isLt
  simp [parseHash, hashText, parseHex_hexText fits]

theorem parseAddress_addressText (address : Address) : parseAddress (addressText address) = some address := by
  have fits : address.toNat < 16 ^ 40 := address.isLt
  simp [parseAddress, addressText, parseHex_hexText fits]

theorem parseAddress_lower {text : Text} {address : Address} (read : parseAddress text = some address) :
    parseAddress (lower text) = some address := by
  obtain ⟨value, isValue, isAddress⟩ := Option.map_eq_some_iff.mp read
  rw [parseAddress, parseHex_lower isValue, Option.map_some, isAddress]

theorem addressText_injective {address address' : Address}
    (same : addressText address = addressText address') : address = address' :=
  BitVec.eq_of_toNat_eq (hexText_injective address.isLt address'.isLt same)

/-- `U256::from_be_slice`: `none` is its panic on more than 32 bytes. -/
def fromBeSlice (bytes : List UInt8) : Option U256 :=
  if bytes.length ≤ 32 then
    some (BitVec.ofNat 256 (bytes.foldl (fun value byte => 256 * value + byte.toNat) 0))
  else none

/-- An event log as its contract emitted it. -/
structure Log where
  address : Address
  topics : List B256
  data : List UInt8
deriving DecidableEq, Repr

/-- A transaction as it was included in its block. -/
structure Tx where
  hash : B256
  sender : Address
  recipient : Option Address
  value : U256
  succeeded : Bool
  logs : List Log
  failed_logs : succeeded = false → logs = []
deriving DecidableEq

structure Block where
  number : Nat
  hash : B256
  parentHash : B256
  transactions : List Tx
deriving DecidableEq

namespace Block

/-- Every log of the block with its transaction and its position inside that transaction. -/
def logs (block : Block) : List (B256 × Nat × Log) :=
  block.transactions.flatMap fun tx =>
    tx.logs.zipIdx.map fun entry => (tx.hash, entry.2, entry.1)

end Block

structure Chain where
  blocks : List Block
  nonempty : blocks ≠ []
  numbered : blocks.map Block.number = List.range blocks.length
  linked : blocks.IsChain fun parent child => child.parentHash = parent.hash
  heights : blocks.length ≤ 2 ^ 63
  distinct : ((blocks.flatMap Block.transactions).map Tx.hash).Nodup

variable {chain : Chain} {number : Nat} {block : Block}

namespace Chain

/-- The number of the newest block. -/
def head (chain : Chain) : Nat := chain.blocks.length - 1

/-- The canonical block at a height. -/
def blockAt? (chain : Chain) (number : Nat) : Option Block := chain.blocks[number]?

theorem number_of_blockAt? (here : chain.blockAt? number = some block) : block.number = number := by
  have named : (chain.blocks.map Block.number)[number]? = some block.number := by
    rw [List.getElem?_map]
    simpa [blockAt?] using congrArg (Option.map Block.number) here
  rw [chain.numbered] at named
  obtain ⟨_, same⟩ := List.getElem?_eq_some_iff.mp named
  simpa using same.symm

theorem mem_of_blockAt? (here : chain.blockAt? number = some block) : block ∈ chain.blocks :=
  List.mem_of_getElem? here

theorem blockAt?_of_mem (mem : block ∈ chain.blocks) : chain.blockAt? block.number = some block := by
  obtain ⟨number, here⟩ := List.mem_iff_getElem?.mp mem
  have atHeight : chain.blockAt? number = some block := here
  rw [number_of_blockAt? atHeight]
  exact atHeight

theorem le_head_of_blockAt? (here : chain.blockAt? number = some block) : number ≤ chain.head := by
  have bound := (List.getElem?_eq_some_iff.mp here).1
  unfold head
  omega

theorem exists_blockAt? (low : number ≤ chain.head) : ∃ block, chain.blockAt? number = some block := by
  have positive := List.length_pos_iff.mpr chain.nonempty
  have bound : number < chain.blocks.length := by
    unfold head at low
    omega
  exact ⟨_, List.getElem?_eq_getElem bound⟩

/-- The transaction is in a block of the chain at or below a height. -/
def Includes (chain : Chain) (upTo : Nat) (txHash : B256) : Prop :=
  ∃ number block, number ≤ upTo ∧ chain.blockAt? number = some block ∧
    ∃ tx ∈ block.transactions, tx.hash = txHash

end Chain

def CollisionFree (chains : List Chain) : Prop :=
  ∀ chain ∈ chains, ∀ chain' ∈ chains, ∀ block ∈ chain.blocks, ∀ block' ∈ chain'.blocks,
    block.hash = block'.hash → block = block'

theorem CollisionFree.mono {chains chains' : List Chain} (free : CollisionFree chains')
    (more : chains ⊆ chains') : CollisionFree chains :=
  fun chain mem chain' mem' => free chain (more mem) chain' (more mem')

instance (chains : List Chain) : Decidable (CollisionFree chains) := by
  unfold CollisionFree
  infer_instance

end EthPayServer.Evm
