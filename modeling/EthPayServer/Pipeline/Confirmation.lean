import EthPayServer.Pipeline.Node

/-!
# What a confirmation vouches for

`check_confirmations` counts the blocks above the number a payment was detected
at and never asks whether that block is still canonical.  A confirmation is
right when the payments that are deep enough sit in blocks that are.
-/

namespace EthPayServer.Pipeline

open Lib Evm

/--
The transaction of a confirmation is in the canonical block of its number, and
the head is deep enough above it.
-/
def ConfirmedSoundly (node : Node) (event : PaymentConfirmed) : Prop :=
  (∃ block, node.chain.blockAt? event.blockNumber = some block ∧
    ∃ tx ∈ block.transactions, tx.hash = event.txHash) ∧
  event.blockNumber + node.monitor.config.requiredConfirmations ≤ node.chain.head + 1

/--
No block is replaced under the monitor: an announced block is canonical for the
whole of its call, and a pending payment that is deep enough at the head was
detected in a block that is still canonical.
-/
def Steady (node : Node) : NodeAction → Prop
  | .process block _ during _ => during = [] ∧
    (node.chain.blockAt? block.number).map Block.notification = some block
  | .confirm _ _ _ => ∀ entry ∈ (node.monitor.countConfirmations node.chain.head).rows,
    ChainMonitor.PendingPayment.isRipe entry.2 = true →
      node.chain.hashAt? entry.2.event.blockNumber = some entry.2.event.blockHash
  | _ => True

instance (node : Node) (action : NodeAction) : Decidable (Steady node action) := by
  cases action <;> unfold Steady <;> infer_instance

structure DetectedIn (history : List Chain) (required : Nat) (event : PaymentDetected) : Prop where
  block : ∃ chain ∈ history, ∃ block, chain.blockAt? event.blockNumber = some block ∧
    block.hash = event.blockHash ∧ ∃ tx ∈ block.transactions, tx.hash = event.txHash
  required : event.requiredConfirmations = required

theorem DetectedIn.mono {history history' : List Chain} {required : Nat} {event : PaymentDetected}
    (detected : DetectedIn history required event) (more : history ⊆ history') :
    DetectedIn history' required event := by
  obtain ⟨chain, mem, rest⟩ := detected.block
  exact ⟨⟨chain, more mem, rest⟩, detected.required⟩

variable {before : Node}

/-- What a steady call detects sits in the canonical block it is labelled with. -/
theorem detectedIn_of_sound {block : BlockNotification}
    (canonical : (before.chain.blockAt? block.number).map Block.notification = some block)
    (inHistory : before.chain ∈ before.history) {event : PaymentDetected}
    (sound : ChainMonitor.Sound (before.Serves []) block before.monitor now event) :
    DetectedIn before.history before.monitor.config.requiredConfirmations event := by
  obtain ⟨chain, number, scanned, hash, isServed, _, _, here, labels, detected⟩ := sound
  obtain rfl : chain = before.chain := List.mem_singleton.mp isServed
  have isNumber := Chain.number_of_blockAt? here
  rcases detected with ⟨tx, memTx, recipient, watch, _, _, _, rfl⟩ |
    ⟨txHash, position, log, logIndex, memLog, sender, recipient, amount, watch, _, _, rfl⟩
  · -- the label of a native payment is the announced hash or the one the source gave
    have isHash : scanned.hash = hash := by
      rcases labels with ⟨rfl, rfl⟩ | ⟨chain, isServed', isHash⟩
      · rw [here, Option.map_some, Option.some.injEq] at canonical
        rw [← canonical]
        rfl
      · rw [List.mem_singleton.mp isServed', Chain.hashAt?, here, Option.map_some,
          Option.some.injEq] at isHash
        exact isHash
    exact ⟨⟨before.chain, inHistory, scanned, by rw [← isNumber] at here; exact here, isHash, tx, memTx,
      rfl⟩, rfl⟩
  · obtain ⟨tx, memTx, sameHash, _⟩ := ChainMonitor.mem_logs.mp (List.fst_mem_of_mem_zipIdx memLog)
    exact ⟨⟨before.chain, inHistory, scanned, by rw [← isNumber] at here; exact here, rfl, tx, memTx,
      sameHash⟩, rfl⟩

theorem mem_countConfirmations {monitor : ChainMonitor} {head : Nat}
    {entry : (B256 × Int) × PendingPayment}
    (mem : entry ∈ (monitor.countConfirmations head).rows) :
    ∃ old ∈ monitor.pending.rows, entry.2.event = { old.2.event with
      confirmations := head - old.2.event.blockNumber + 1 } := by
  obtain ⟨old, memOld, rfl⟩ := List.mem_map.mp mem
  exact ⟨old, memOld, rfl⟩

/-- Every pending payment was detected in a block that was canonical then. -/
def TracksDetected (node : Node) : Prop :=
  node.chain ∈ node.history ∧ ∀ entry ∈ node.monitor.pending.rows,
    DetectedIn node.history node.monitor.config.requiredConfirmations entry.2.event

theorem TracksDetected.process {block : BlockNotification} {during : List Chain} {world : World EvmError Chain}
    (tracks : TracksDetected before) (valid : before.Valid (.process block now during world))
    (steady : Steady before (.process block now during world)) :
    TracksDetected (before.perform (.process block now during world)) := by
  obtain ⟨rfl, canonical⟩ := steady
  obtain ⟨setup, reports, found, _, _, sound, pending⟩ :=
    ChainMonitor.processBlock_effect valid.1 block now 0 before.monitor
  have sameHistory : (before.perform (.process block now [] world)).history = before.history :=
    List.append_nil _
  refine ⟨by rw [sameHistory]; exact tracks.1, ?_⟩
  intro entry mem
  have sameConfig : (before.perform (.process block now [] world)).monitor.config =
      before.monitor.config := setup.config
  rw [sameHistory, sameConfig]
  rcases pending entry mem with old | ⟨event, memEvent, txIndex, _, rfl⟩
  · exact tracks.2 entry old
  · exact detectedIn_of_sound canonical tracks.1 (sound event memEvent)

theorem TracksDetected.confirm {order : Nat → Nat} {world : World EvmError Chain}
    (tracks : TracksDetected before) (valid : before.Valid (.confirm order now world)) :
    TracksDetected (before.perform (.confirm order now world)) := by
  refine ⟨tracks.1, ?_⟩
  intro entry mem
  simp only [Node.perform] at mem ⊢
  rcases Node.checkConfirmations_cases valid with same | confirmed
  · rw [same] at mem ⊢
    exact tracks.2 entry mem
  rw [confirmed] at mem ⊢
  -- what is not ripe stays, with its confirmations counted
  obtain ⟨memCounted, _⟩ := List.mem_filter.mp mem
  obtain ⟨old, memOld, isEvent⟩ := mem_countConfirmations memCounted
  obtain ⟨inBlock, required⟩ := tracks.2 old memOld
  rw [isEvent]
  exact ⟨inBlock, required⟩

theorem tracksDetected {after : Node} (reached : (node.restrict Steady).Reachable after) :
    TracksDetected after := by
  refine reached.invariant (I := TracksDetected) ?_ ?_
  · intro start fresh
    refine ⟨by rw [fresh.history]; exact List.mem_singleton_self _, ?_⟩
    intro entry mem
    rw [fresh.pending] at mem
    cases mem
  rintro before action after _ tracks ⟨⟨valid, rfl⟩, steady⟩
  cases action with
  | replace chain =>
    refine ⟨by simp [Node.perform], fun entry mem => ?_⟩
    exact (tracks.2 entry mem).mono (List.subset_append_left _ _)
  | process block now during world => exact tracks.process valid steady
  | confirm order now world => exact tracks.confirm valid
  | watch watched => exact tracks
  | unwatch address tokenContract => exact tracks

/--
In every run whose steps are all steady, each confirmation that is sent is for a
transaction in the canonical block of its number, deep enough under the head.
-/
theorem confirmed_soundly {before after : Node}
    (reached : (node.restrict Steady).Reachable before) (free : CollisionFree before.history)
    {order : Nat → Nat} {now : Time} {world : World EvmError Chain}
    (step : (node.restrict Steady).step before (.confirm order now world) after) :
    ∃ sent, after.monitor.events = before.monitor.events ++ sent ∧
      ∀ event, .paymentConfirmed event ∈ sent → ConfirmedSoundly before event := by
  obtain ⟨⟨valid, rfl⟩, steady⟩ := step
  obtain ⟨inHistory, tracks⟩ := tracksDetected reached
  simp only [Node.perform]
  rcases Node.checkConfirmations_cases valid with same | confirmed
  · rw [same]
    exact ⟨[], by simp, by simp⟩
  rw [confirmed]
  refine ⟨_, rfl, fun event mem => ?_⟩
  obtain ⟨entry, memRipe, isEvent⟩ := List.mem_map.mp mem
  cases isEvent
  obtain ⟨memArranged, isRipe⟩ := List.mem_filter.mp memRipe
  have memCounted := mem_arrange.mp memArranged
  have canonical := steady entry memCounted isRipe
  obtain ⟨old, memOld, isCounted⟩ := mem_countConfirmations memCounted
  obtain ⟨⟨chain, memChain, block, here, isHash, tx, memTx, sameHash⟩, required⟩ := tracks old memOld
  obtain ⟨current, isCurrent, sameBlockHash⟩ := Option.map_eq_some_iff.mp canonical
  -- the canonical block of that hash is the block of the detection
  have sameBlock : current = block := free before.chain inHistory chain memChain current
    (Chain.mem_of_blockAt? isCurrent) block (Chain.mem_of_blockAt? here) (by
      rw [sameBlockHash, isHash, isCounted])
  refine ⟨⟨current, isCurrent, tx, by rw [sameBlock]; exact memTx, ?_⟩, ?_⟩
  · rw [sameHash, ChainMonitor.confirmedEvent, isCounted]
  have below := Chain.le_head_of_blockAt? isCurrent
  have ripe : entry.2.event.requiredConfirmations ≤ entry.2.event.confirmations :=
    of_decide_eq_true isRipe
  rw [isCounted] at ripe below
  change old.2.event.blockNumber ≤ before.chain.head at below
  simp only [ChainMonitor.confirmedEvent, isCounted]
  simp only [required] at ripe
  omega

/-! ## A payment whose block is replaced -/

def genesis : Block := ⟨0, 100, 0, []⟩

/-- A transfer of `value` to the watched address 5. -/
def samplePayment (hash : B256) (value : U256) (succeeded : Bool) : Tx :=
  ⟨hash, 6, some 5, value, succeeded, [], fun _ => rfl⟩

def paidBlock : Block := ⟨1, 101, 100, [samplePayment 7 1 true]⟩

/-- The payment's block and one block on top of it. -/
def paidChain : Chain :=
  ⟨[genesis, paidBlock, ⟨2, 102, 101, []⟩], by decide, by decide, by decide, by decide, by decide⟩

def replacedChain : Chain :=
  ⟨[genesis, ⟨1, 201, 100, []⟩, ⟨2, 202, 201, []⟩], by decide, by decide, by decide, by decide, by decide⟩

/-- A monitor that watches address 5 and waits for two confirmations. -/
def sampleNode : Node :=
  ⟨paidChain, [paidChain], (ChainMonitor.new 1 (ChainMonitorConfig.fromChain 2)).watch
    ⟨5, 1, none, none, 0⟩⟩

def answering (chain : Chain) : World EvmError Chain := Proc.uninterrupted fun _ => chain

def sampleScan : NodeAction := .process paidBlock.notification 0 [] (answering paidChain)

def sampleCheck (chain : Chain) : NodeAction := .confirm id 0 (answering chain)

theorem answering_truthful {served : Chain → Prop} {chain : Chain} (isServed : served chain) :
    Truthful served (answering chain) := by
  constructor
  · intro i other answered
    cases answered
    exact isServed
  · intro i e failed
    cases failed

theorem sampleNode_fresh : sampleNode.IsFresh := ⟨rfl, rfl, rfl, rfl, rfl⟩

theorem sampleScan_valid : sampleNode.Valid sampleScan :=
  ⟨answering_truthful (List.mem_singleton_self _),
    ⟨paidChain, List.mem_singleton_self _, paidBlock, by decide, rfl⟩⟩

theorem confirmed_soundly_unreplaced :
    ((sampleNode.perform sampleScan).perform (sampleCheck paidChain)).monitor.events ≠
      (sampleNode.perform sampleScan).monitor.events ∧
    ∃ sent, ((sampleNode.perform sampleScan).perform (sampleCheck paidChain)).monitor.events =
        (sampleNode.perform sampleScan).monitor.events ++ sent ∧
      ∀ event, .paymentConfirmed event ∈ sent →
        ConfirmedSoundly (sampleNode.perform sampleScan) event := by
  refine ⟨by decide +kernel, confirmed_soundly ?_ ?_ ⟨⟨answering_truthful rfl, rfl⟩, by decide +kernel⟩⟩
  · exact (System.Reachable.of_initial sampleNode_fresh).snoc
      ⟨⟨sampleScan_valid, rfl⟩, by decide +kernel⟩
  · decide +kernel

/-- The monitor confirms the payment on a chain that does not have it. -/
theorem confirmed_after_replacement :
    let reorganised := (sampleNode.perform sampleScan).perform (.replace replacedChain)
    node.Reachable reorganised ∧ reorganised.Valid (sampleCheck replacedChain) ∧
      ∃ event, .paymentConfirmed event ∈
          (reorganised.perform (sampleCheck replacedChain)).monitor.events ∧
        .paymentConfirmed event ∉ reorganised.monitor.events ∧ ¬ ConfirmedSoundly reorganised event := by
  intro reorganised
  refine ⟨?_, answering_truthful rfl, ⟨-1, 1, 1, 5, 1, 7, 1, 2, 0⟩, by decide +kernel,
    by decide +kernel, ?_⟩
  · have scanned := (System.Reachable.of_initial sampleNode_fresh).snoc
      (show node.step sampleNode sampleScan _ from ⟨sampleScan_valid, rfl⟩)
    exact scanned.snoc (show node.step _ (.replace replacedChain) _ from ⟨trivial, rfl⟩)
  rintro ⟨⟨block, here, tx, memTx, _⟩, _⟩
  have isBlock : replacedChain.blockAt? 1 = some ⟨1, 201, 100, []⟩ := by decide
  rw [show reorganised.chain = replacedChain from rfl, isBlock] at here
  cases here
  cases memTx

end EthPayServer.Pipeline
