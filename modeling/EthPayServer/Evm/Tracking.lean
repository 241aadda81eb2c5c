import EthPayServer.Evm.Effects

/-!
# What stays tracked

A detected payment is put into `pending` under its transaction and index, and
only `check_confirmations` takes an entry out, when it announces the
confirmation.  So within one lifetime of a monitor every announced payment is
tracked until it is confirmed.
-/

namespace EthPayServer.Evm

open Lib

/-- The blocks at two heights have no transaction in common. -/
theorem Chain.not_mem_above {chain : Chain} {low high : Nat} {block block' : Block}
    (here : chain.blockAt? low = some block) (here' : chain.blockAt? high = some block')
    (below : low < high) {tx : Tx} (mem : tx ∈ block.transactions) : tx ∉ block'.transactions := by
  obtain ⟨bound, rfl⟩ := List.getElem?_eq_some_iff.mp here
  obtain ⟨bound', rfl⟩ := List.getElem?_eq_some_iff.mp here'
  have apart := (List.nodup_flatMap.mp (List.Nodup.of_map Tx.hash chain.distinct)).2
  exact List.pairwise_iff_getElem.mp apart low high bound bound' below mem

theorem Chain.number_unique {chain : Chain} {number number' : Nat} {block block' : Block}
    (here : chain.blockAt? number = some block) (here' : chain.blockAt? number' = some block')
    {tx tx' : Tx} (mem : tx ∈ block.transactions) (mem' : tx' ∈ block'.transactions)
    (same : tx.hash = tx'.hash) : number = number' := by
  have memAll : tx ∈ chain.blocks.flatMap Block.transactions :=
    List.mem_flatMap.mpr ⟨block, Chain.mem_of_blockAt? here, mem⟩
  have memAll' : tx' ∈ chain.blocks.flatMap Block.transactions :=
    List.mem_flatMap.mpr ⟨block', Chain.mem_of_blockAt? here', mem'⟩
  obtain rfl : tx = tx' := List.inj_on_of_nodup_map chain.distinct memAll memAll' same
  rcases Nat.lt_trichotomy number number' with below | equal | above
  · exact absurd mem' (Chain.not_mem_above here here' below mem)
  · exact equal
  · exact absurd mem (Chain.not_mem_above here' here above mem')

def IsConfirmed (events : List MonitorEvent) (event : PaymentDetected) : Prop :=
  ∃ confirmed, .paymentConfirmed confirmed ∈ events ∧ confirmed.txHash = event.txHash ∧
    event.txIndex = some confirmed.txIndex

theorem IsConfirmed.mono {events events' : List MonitorEvent} {event : PaymentDetected}
    (isConfirmed : IsConfirmed events event) (more : events ⊆ events') : IsConfirmed events' event := by
  obtain ⟨confirmed, mem, rest⟩ := isConfirmed
  exact ⟨confirmed, more mem, rest⟩

namespace ChainMonitor

variable (monitor : ChainMonitor)

/-- The payment has an entry in `pending`. -/
def IsTracked (monitor : ChainMonitor) (event : PaymentDetected) : Prop :=
  ∃ txIndex, event.txIndex = some txIndex ∧ (event.txHash, txIndex) ∈ monitor.pending.keys

/-- What a phase of a call does to the tracked payments: none is dropped, each new one is added. -/
structure Tracking (monitor state : ChainMonitor) : Prop where
  events : monitor.events ⊆ state.events
  keys : monitor.pending.keys ⊆ state.pending.keys
  detected : ∀ event, .paymentDetected event ∈ state.events → .paymentDetected event ∈ monitor.events ∨
    ∀ txIndex, event.txIndex = some txIndex → (event.txHash, txIndex) ∈ state.pending.keys

namespace Tracking

theorem refl : Tracking monitor monitor :=
  ⟨List.Subset.refl _, List.Subset.refl _, fun _ => .inl⟩

theorem trans {monitor mid state : ChainMonitor} (first : Tracking monitor mid)
    (second : Tracking mid state) : Tracking monitor state where
  events := List.Subset.trans first.events second.events
  keys := List.Subset.trans first.keys second.keys
  detected := by
    intro event mem
    rcases second.detected event mem with early | late
    · rcases first.detected event early with old | new
      · exact .inl old
      · exact .inr fun txIndex isIndex => second.keys (new txIndex isIndex)
    · exact .inr late

theorem recordDetected (event : PaymentDetected) :
    Tracking monitor (monitor.recordDetected event) where
  events := by
    rw [events_recordDetected]
    exact List.subset_append_left _ _
  keys := by
    intro key known
    unfold ChainMonitor.recordDetected
    split
    · exact Table.mem_keys_put.mpr (.inr known)
    · exact known
  detected := by
    intro other mem
    rw [events_recordDetected, List.mem_append, List.mem_singleton] at mem
    rcases mem with old | isNew
    · exact .inl old
    · cases isNew
      refine .inr fun txIndex isIndex => ?_
      simp only [ChainMonitor.recordDetected, isIndex]
      exact Table.mem_keys_put.mpr (.inl rfl)

theorem foldl (found : List PaymentDetected) (monitor : ChainMonitor) :
    Tracking monitor (found.foldl ChainMonitor.recordDetected monitor) := by
  induction found generalizing monitor with
  | nil => exact refl monitor
  | cons event rest ih => exact (recordDetected monitor event).trans (ih _)

theorem setCursor {monitor state : ChainMonitor} (tracking : Tracking monitor state) (number : Nat)
    (hash : B256) : Tracking monitor (state.setCursor number hash) :=
  ⟨tracking.events, tracking.keys, tracking.detected⟩

end Tracking

section Call

variable {served : Chain → Prop} {block : BlockNotification} {now : Time}
  {monitor state : ChainMonitor}

theorem Report.tracking (report : Report served block monitor state) : Tracking monitor state := by
  cases report with
  | quiet _ => exact Tracking.refl _
  | reorg report _ =>
    refine ⟨List.subset_append_left _ _, List.Subset.refl _, fun event mem => .inl ?_⟩
    simpa [send] using mem

theorem Progress.tracking (progress : Progress served block now monitor state) :
    Tracking monitor state := by
  rcases progress with rfl | advance
  · exact Tracking.refl _
  cases advance with
  | unwatched nothing => exact (Tracking.refl monitor).setCursor _ _
  | chunk lastNum chunkTo hash found cursor gap stop scan label =>
    exact (Tracking.foldl found monitor).setCursor _ _
  | block found noGap scan => exact (Tracking.foldl found monitor).setCursor _ _

theorem Processing.tracking (processing : Processing served block now monitor state) :
    Tracking monitor state := by
  obtain ⟨reported, mid, report, first, second, _⟩ := processing
  refine Tracking.trans ?_ (first.tracking.trans second.tracking)
  rcases report with rfl | report
  · exact Tracking.refl _
  · exact report.tracking

/-- A payment that a truthful source showed has an index. -/
theorem Sound.txIndex {event : PaymentDetected} (sound : Sound served block monitor now event) :
    ∃ txIndex, event.txIndex = some txIndex := by
  obtain ⟨_, _, _, _, _, _, _, _, _, detected⟩ := sound
  rcases detected with ⟨tx, _, recipient, watch, _, _, _, rfl⟩ |
    ⟨_, _, _, logIndex, _, _, recipient, _, watch, _, _, rfl⟩
  · exact ⟨-1, rfl⟩
  · exact ⟨asI32 (asU32 logIndex), rfl⟩

end Call

/-! ## Confirmation -/

def Keyed (monitor : ChainMonitor) : Prop :=
  ∀ entry ∈ monitor.pending.rows, entry.1.1 = entry.2.event.txHash

theorem confirmAt_confirms {monitor : ChainMonitor} (keyed : Keyed monitor)
    {entry : (B256 × Int) × PendingPayment} (mem : entry ∈ monitor.pending.rows) {head : Nat}
    (deep : entry.2.event.requiredConfirmations ≤ head - entry.2.event.blockNumber + 1)
    (order : Nat → Nat) (now : Time) :
    ∃ confirmed, .paymentConfirmed confirmed ∈ (monitor.confirmAt head order now).events ∧
      (confirmed.txHash, confirmed.txIndex) = entry.1 := by
  have counted : (entry.1, { entry.2 with event := { entry.2.event with
      confirmations := head - entry.2.event.blockNumber + 1 } }) ∈
        (monitor.countConfirmations head).rows := List.mem_map_of_mem mem
  refine ⟨_, List.mem_append_right _ (List.mem_map.mpr ⟨_, List.mem_filter.mpr
    ⟨mem_arrange.mpr counted, decide_eq_true deep⟩, rfl⟩), ?_⟩
  simp [confirmedEvent, ← keyed entry mem]

theorem confirmAt_resolves {monitor : ChainMonitor} (keyed : Keyed monitor) {event : PaymentDetected}
    (tracked : monitor.IsTracked event) (head : Nat) (order : Nat → Nat) (now : Time) :
    IsConfirmed (monitor.confirmAt head order now).events event ∨
      (monitor.confirmAt head order now).IsTracked event := by
  obtain ⟨txIndex, isIndex, known⟩ := tracked
  obtain ⟨entry, mem, isKey⟩ := Table.mem_keys.mp known
  by_cases deep : entry.2.event.requiredConfirmations ≤ head - entry.2.event.blockNumber + 1
  · obtain ⟨confirmed, sent, isEntry⟩ := confirmAt_confirms keyed mem deep order now
    rw [isKey, Prod.mk.injEq] at isEntry
    exact .inl ⟨confirmed, sent, isEntry.1, by rw [isIndex, isEntry.2]⟩
  · refine .inr ⟨txIndex, isIndex, Table.mem_keys.mpr ⟨_, List.mem_filter.mpr
      ⟨List.mem_map_of_mem mem, ?_⟩, isKey⟩⟩
    simpa [PendingPayment.isRipe] using deep

theorem checkConfirmations_cases {served : Chain → Prop} {world : World EvmError Chain}
    (truthful : Truthful served world) (order : Nat → Nat) (now : Time) (i : Nat)
    (monitor : ChainMonitor) :
    (checkConfirmations order now world i monitor).state = monitor ∨
      ∃ chain, served chain ∧ (checkConfirmations order now world i monitor).state =
        monitor.confirmAt chain.head order now := by
  unfold checkConfirmations getBlockNumber
  rw [Proc.bind_apply]
  cases answered : world i with
  | error e =>
    rw [Proc.read_of_fault answered, Outcome.andThen_error]
    exact .inl rfl
  | ok chain =>
    rw [Proc.read_of_ok answered, Outcome.andThen_ok]
    exact .inr ⟨chain, truthful.answers answered, rfl⟩

end ChainMonitor

end EthPayServer.Evm
