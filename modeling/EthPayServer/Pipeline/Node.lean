import EthPayServer.Evm.Tracking
import EthPayServer.Lib.Transition

/-!
# One monitor on one chain

The canonical chain may be replaced at any time, also while the monitor is in
the middle of a call; every call of its source is answered from a chain that is
canonical then.  Block announcements may be late: the announced block was
canonical at some time.
-/

namespace EthPayServer.Pipeline

open Lib Evm

structure Node where
  chain : Chain
  history : List Chain
  monitor : ChainMonitor

inductive NodeAction where
  /-- the canonical chain grows or is replaced -/
  | replace (chain : Chain)
  /-- `process_block`; the chains become canonical one after the other during the call -/
  | process (block : BlockNotification) (now : Time) (during : List Chain)
      (world : World EvmError Chain)
  /-- `check_confirmations` -/
  | confirm (order : Nat → Nat) (now : Time) (world : World EvmError Chain)
  | watch (watched : WatchedAddress)
  | unwatch (address : Address) (tokenContract : Option Address)

variable {now : Time} {world : World EvmError Chain}

namespace Node

def Serves (node : Node) (during : List Chain) (chain : Chain) : Prop :=
  chain ∈ node.chain :: during

def Announces (chains : List Chain) (block : BlockNotification) : Prop :=
  ∃ chain ∈ chains, ∃ announced ∈ chain.blocks, block = announced.notification

/-- How a call of `processBlock` ends. -/
def processed (node : Node) (block : BlockNotification) (now : Time) (world : World EvmError Chain) :
    Outcome EvmError ChainMonitor Unit :=
  ChainMonitor.processBlock block now world 0 node.monitor

/-- What an action needs: a truthful source, and an announced block that was canonical once. -/
def Valid (node : Node) : NodeAction → Prop
  | .process block _ during world =>
    Truthful (node.Serves during) world ∧ Announces (node.history ++ during) block
  | .confirm _ _ world => Truthful (· = node.chain) world
  | _ => True

def perform (node : Node) : NodeAction → Node
  | .replace chain => { node with chain := chain, history := node.history ++ [chain] }
  | .process block now during world =>
    { chain := during.getLast?.getD node.chain
      history := node.history ++ during
      monitor := (node.processed block now world).state }
  | .confirm order now world =>
    { node with monitor := (ChainMonitor.checkConfirmations order now world 0 node.monitor).state }
  | .watch watched => { node with monitor := node.monitor.watch watched }
  | .unwatch address tokenContract => { node with monitor := node.monitor.unwatch address tokenContract }

theorem Serves.mem_history {node : Node} {during : List Chain} {chain : Chain}
    (isServed : node.Serves during chain) (current : node.chain ∈ node.history) {block : BlockNotification} :
    chain ∈ (node.perform (.process block now during world)).history := by
  rcases List.mem_cons.mp isServed with rfl | replaced
  · exact List.mem_append_left _ current
  · exact List.mem_append_right _ replaced

structure IsFresh (node : Node) : Prop where
  history : node.history = [node.chain]
  lastBlock : node.monitor.lastBlock = none
  lastBlockHash : node.monitor.lastBlockHash = none
  pending : node.monitor.pending = Table.empty
  events : node.monitor.events = []

end Node

def node : System Node NodeAction where
  initial := Node.IsFresh
  step before action after := before.Valid action ∧ after = before.perform action

variable {order : Nat → Nat} {action : NodeAction}

namespace Node

variable {before after : Node}

theorem chain_mem_perform (mem : before.chain ∈ before.history) (action : NodeAction) :
    (before.perform action).chain ∈ (before.perform action).history := by
  cases action with
  | replace chain => simp [perform]
  | process block now during world =>
    simp only [perform, List.mem_append]
    cases last : during.getLast? with
    | none => exact .inl mem
    | some chain => exact .inr (List.mem_of_getLast? last)
  | confirm order now world => exact mem
  | watch watched => exact mem
  | unwatch address tokenContract => exact mem

/-- Every chain that was canonical stays in the history. -/
theorem history_mono (before : Node) (action : NodeAction) :
    before.history ⊆ (before.perform action).history := by
  cases action with
  | replace chain => exact List.subset_append_left _ _
  | process block now during world => exact List.subset_append_left _ _
  | confirm order now world => exact List.Subset.refl _
  | watch watched => exact List.Subset.refl _
  | unwatch address tokenContract => exact List.Subset.refl _

/-! ## What a step sends -/

/-- What `check_confirmations` does: nothing, or a confirmation at the canonical head. -/
theorem checkConfirmations_cases {before : Node} (truthful : Truthful (· = before.chain) world) :
    (ChainMonitor.checkConfirmations order now world 0 before.monitor).state = before.monitor ∨
      (ChainMonitor.checkConfirmations order now world 0 before.monitor).state =
        before.monitor.confirmAt before.chain.head order now := by
  rcases ChainMonitor.checkConfirmations_cases truthful order now 0 before.monitor with
    same | ⟨chain, rfl, confirmed⟩
  · exact .inl same
  · exact .inr confirmed

/-- A confirmation check moves neither the cursor nor the watched set. -/
theorem confirm_keeps {node : Node} (valid : node.Valid (.confirm order now world)) :
    (node.perform (.confirm order now world)).monitor.lastBlock = node.monitor.lastBlock ∧
      ChainMonitor.SameSetup node.monitor (node.perform (.confirm order now world)).monitor ∧
      node.monitor.events ⊆ (node.perform (.confirm order now world)).monitor.events := by
  simp only [Node.perform]
  rcases checkConfirmations_cases valid with same | confirmed
  · rw [same]
    exact ⟨rfl, ⟨rfl, rfl, rfl⟩, List.Subset.refl _⟩
  · rw [confirmed]
    exact ⟨rfl, ⟨rfl, rfl, rfl⟩, List.subset_append_left _ _⟩

/-- The payments and reorganisations among the events a step sends, with where they come from. -/
structure Sent (before : Node) (action : NodeAction) (sent : List MonitorEvent) : Prop where
  detected : ∀ event, .paymentDetected event ∈ sent → ∃ block now during world,
    action = .process block now during world ∧
      ChainMonitor.Sound (before.Serves during) block before.monitor now event
  reorg : ∀ report, .reorgDetected report ∈ sent → ∃ block now during world,
    action = .process block now during world ∧
      ChainMonitor.IsReport (before.Serves during) before.monitor block report

/-- What a step does to a monitor, apart from its cursor and its pending payments. -/
structure Changed (before : Node) (action : NodeAction) (after : Node) : Prop where
  chainId : after.monitor.chainId = before.monitor.chainId
  config : after.monitor.config = before.monitor.config
  watched : ∀ entry ∈ after.monitor.watched.rows, entry ∈ before.monitor.watched.rows ∨
    ∃ watched, action = .watch watched ∧ entry = ((watched.address, watched.tokenContract), watched)
  events : ∃ sent, after.monitor.events = before.monitor.events ++ sent ∧ before.Sent action sent

/-- A step that sends nothing and keeps the watched set. -/
theorem Changed.silent (monitor : after.monitor = before.monitor) : before.Changed action after := by
  refine ⟨by rw [monitor], by rw [monitor], ?_, [], by rw [monitor, List.append_nil], by simp, by simp⟩
  intro entry mem
  rw [monitor] at mem
  exact .inl mem

theorem changed_process {block : BlockNotification} {during : List Chain}
    (valid : before.Valid (.process block now during world)) :
    before.Changed (.process block now during world)
      (before.perform (.process block now during world)) := by
  obtain ⟨setup, reports, found, isSent, areReports, areSound, _⟩ :=
    ChainMonitor.processBlock_effect valid.1 block now 0 before.monitor
  refine ⟨setup.chainId, setup.config, ?_,
    reports.map MonitorEvent.reorgDetected ++ found.map MonitorEvent.paymentDetected, ?_, ?_, ?_⟩
  · intro entry mem
    have mem' : entry ∈ (before.processed block now world).state.watched.rows := mem
    rw [processed, setup.watched] at mem'
    exact .inl mem'
  · rw [← List.append_assoc]
    exact isSent
  · intro event mem
    rcases List.mem_append.mp mem with inReports | inFound
    · obtain ⟨_, _, isReport⟩ := List.mem_map.mp inReports
      cases isReport
    · obtain ⟨found, memFound, isEvent⟩ := List.mem_map.mp inFound
      cases isEvent
      exact ⟨block, now, during, world, rfl, areSound event memFound⟩
  intro report mem
  rcases List.mem_append.mp mem with inReports | inFound
  · obtain ⟨found, memFound, isReport⟩ := List.mem_map.mp inReports
    cases isReport
    exact ⟨block, now, during, world, rfl, areReports report memFound⟩
  · obtain ⟨_, _, isEvent⟩ := List.mem_map.mp inFound
    cases isEvent

theorem changed_confirm (valid : before.Valid (.confirm order now world)) :
    before.Changed (.confirm order now world) (before.perform (.confirm order now world)) := by
  rcases checkConfirmations_cases valid with same | confirmed
  · exact Changed.silent same
  have isMonitor : (before.perform (.confirm order now world)).monitor =
      before.monitor.confirmAt before.chain.head order now := confirmed
  refine ⟨by rw [isMonitor]; rfl, by rw [isMonitor]; rfl, ?_, ?_⟩
  · intro entry mem
    rw [isMonitor] at mem
    exact .inl mem
  refine ⟨_, (congrArg ChainMonitor.events isMonitor).trans rfl, ?_, ?_⟩
  · intro event mem
    obtain ⟨_, _, isEvent⟩ := List.mem_map.mp mem
    cases isEvent
  · intro report mem
    obtain ⟨_, _, isReport⟩ := List.mem_map.mp mem
    cases isReport

theorem changed_of_valid (valid : before.Valid action) : before.Changed action (before.perform action) := by
  cases action with
  | replace chain => exact Changed.silent rfl
  | process block now during world => exact changed_process valid
  | confirm order now world => exact changed_confirm valid
  | watch watched =>
    refine ⟨rfl, rfl, ?_, [], by simp [perform, ChainMonitor.watch], by simp, by simp⟩
    intro entry mem
    rcases Table.mem_put mem with isNew | ⟨old, _⟩
    · exact .inr ⟨watched, rfl, isNew⟩
    · exact .inl old
  | unwatch address tokenContract =>
    refine ⟨rfl, rfl, ?_, [], by simp [perform, ChainMonitor.unwatch], by simp, by simp⟩
    intro entry mem
    exact .inl (List.mem_filter.mp mem).1

theorem detected_of_step {P : PaymentDetected → Prop} (valid : before.Valid action)
    (onSound : ∀ block now during world event, action = .process block now during world →
      ChainMonitor.Sound (before.Serves during) block before.monitor now event → P event)
    (old : ∀ event, .paymentDetected event ∈ before.monitor.events → P event) {event : PaymentDetected}
    (mem : .paymentDetected event ∈ (before.perform action).monitor.events) : P event := by
  obtain ⟨sent, isSent, sentBy⟩ := (changed_of_valid valid).events
  rw [isSent] at mem
  rcases List.mem_append.mp mem with earlier | new
  · exact old event earlier
  · obtain ⟨block, now, during, world, isAction, sound⟩ := sentBy.detected event new
    exact onSound block now during world event isAction sound

end Node

end EthPayServer.Pipeline
