import EthPayServer.Pipeline.Counted
import EthPayServer.Consumer.Acceptance

/-!
# What stops the pipeline

The consumer halts on the first event it cannot apply, and a panic ends the
monitor.  A token contract can cause either: by the length of a log's data, or
by an amount too large for the columns.  So can a reorganisation after which a
payment is confirmed a second time.  Nothing else does.
-/

namespace EthPayServer.Pipeline

open Lib Data Consumer Evm

/-- The database answers every statement, the commit of the cursor included. -/
def Answering (_ : Platform) : PlatformAction → Prop
  | .apply _ _ world commits => (∃ clock, world = Proc.uninterrupted clock) ∧ commits = true
  | _ => True

/--
No scanned block holds a Transfer log to a watched key with more than 32 bytes
of data; the credit of an applied payment fits beside the other payments of its
invoice; and no applied confirmation finds a payment that is confirmed already.
-/
def Digestible (platform : Platform) : PlatformAction → Prop
  | .node chainId (.process block _ during _) =>
    ¬ ChainMonitor.OversizedIn ((platform.nodes chainId).Serves during)
      (platform.nodes chainId).monitor.watched
      ((platform.nodes chainId).monitor.scanFrom block.number) block.number
  | .apply chainId _ _ _ =>
    (∀ event, platform.next? chainId = some (.paymentDetected event) → HasRoom event platform.db) ∧
    ∀ event, platform.next? chainId = some (.paymentConfirmed event) → ∀ payment,
      getByTxIndex event.invoiceId (hashText event.txHash) event.txIndex platform.db = some payment →
        payment.confirmedAt = none
  | _ => True

/-- The monitor does not panic, and the consumer applies the event without an error. -/
def Proceeds (divide : Division) (platform : Platform) : PlatformAction → Prop
  | .node chainId (.process block now _ world) =>
    ((platform.nodes chainId).processed block now world).result ≠ .error .panic
  | .apply chainId delivery world _ => ∀ event, platform.next? chainId = some event →
    (platform.handled divide delivery event world).result = .ok ()
  | _ => True

/-! ## What holds before every step -/

/-- Announced payments are transfers, and what invoices received fits its column. -/
structure Storable (platform : Platform) : Prop where
  transfers : ∀ chainId event, .paymentDetected event ∈ (platform.nodes chainId).monitor.events →
    IsTransfer event
  fit : CreditsFit platform.db

theorem isTransfer_of_sound {served : Chain → Prop} {block : BlockNotification} {monitor : ChainMonitor}
    {now : Time} {event : PaymentDetected} (sound : ChainMonitor.Sound served block monitor now event) :
    IsTransfer event := by
  obtain ⟨_, _, _, _, _, _, _, _, _, detected⟩ := sound
  rcases detected with ⟨_, _, _, _, _, _, _, rfl⟩ | ⟨_, _, _, _, _, _, _, _, _, _, _, rfl⟩
  · exact ⟨fun _ => rfl, nofun⟩
  · exact ⟨nofun, fun _ => ⟨rfl, rfl⟩⟩

section Step

variable {divide : Division} {before after : Platform} {action : PlatformAction}

theorem Storable.step (divides : Divides divide) (storable : Storable before) (grounded : before.Grounded)
    (step : (platform divide).step before action after) : Storable after := by
  refine ⟨?_, ?_⟩
  · intro chainId event mem
    rcases Platform.node_of_step step chainId with same | ⟨nodeAction, _, valid, isNode, _⟩
    · rw [same] at mem
      exact storable.transfers chainId event mem
    · rw [isNode] at mem
      refine Node.detected_of_step valid ?_ (storable.transfers chainId) mem
      intro block now during world event _ sound
      exact isTransfer_of_sound sound
  have both : Catalog after.db ∧ CreditsFit after.db := by
    refine Platform.db_of_step (I := fun db => Catalog db ∧ CreditsFit db) step ?_ ?_
      ⟨grounded.catalog, storable.fit⟩
    · rintro _ _ _ db db' write ⟨catalog, fit⟩
      exact ⟨catalog.write write, fit.write divides catalog.rates write⟩
    · rintro db db' write ⟨catalog, fit⟩
      exact ⟨catalog.admin write, fit.of_samePayments write.samePayments⟩
  exact both.2

theorem storable {condition : Platform → PlatformAction → Prop} (divides : Divides divide)
    (reached : ((platform divide).restrict condition).Reachable after) : Storable after := by
  refine reached.invariant (I := Storable) ?_ ?_
  · intro start isInitial
    refine ⟨?_, by rw [isInitial.db]; exact CreditsFit.empty⟩
    intro chainId event mem
    rw [(isInitial.fresh chainId).events] at mem
    cases mem
  · intro before action after reached storable step
    exact storable.step divides (Platform.grounded reached) step.1

/-! ## Every step -/

theorem process_proceeds {node : Node} {block : BlockNotification} {now : Time} {during : List Chain}
    {world : World EvmError Chain} (valid : node.Valid (.process block now during world))
    (digestible : ¬ ChainMonitor.OversizedIn (node.Serves during) node.monitor.watched
      (node.monitor.scanFrom block.number) block.number) :
    (node.processed block now world).result ≠ .error .panic := by
  intro panics
  obtain ⟨_, _, _, _, _, _, _, oversized⟩ := ChainMonitor.processBlock_phases valid.1 block now 0 node.monitor
  exact digestible (oversized panics)

theorem apply_proceeds (divides : Divides divide) (grounded : before.Grounded)
    (storable : Storable before) {chainId : Nat} {delivery : Delivery} {clock : Nat → Time}
    {commits : Bool} (fresh : delivery.paymentId ∉ before.db.payments.keys)
    (digestible : Digestible before (.apply chainId delivery (Proc.uninterrupted clock) commits))
    {event : MonitorEvent} (isNext : before.next? chainId = some event) :
    (before.handled divide delivery event (Proc.uninterrupted clock)).result = .ok () := by
  have sent := Platform.mem_of_next? isNext
  cases event with
  | paymentDetected event =>
    obtain ⟨isChain, option, memOption, _, isInvoice, _⟩ := grounded.detected chainId event sent
    refine detected_succeeds divides storable.fit grounded.catalog.rates
      (storable.transfers chainId event sent) fresh ?_ ?_ (digestible.1 event isNext) clock
    · rw [← isInvoice]
      exact before.db.optionInvoice option memOption
    · intro id resolved
      exact optionFor_some grounded.catalog resolved
  | paymentConfirmed event => exact confirmed_succeeds storable.fit (digestible.2 event isNext) clock
  | reorgDetected event => exact reorg_succeeds storable.fit delivery event clock
  | notice _ => rfl

end Step

/--
In every run with a database that answers, in which no scanned block holds an
oversized Transfer log, every credit fits and no payment is confirmed twice, no
call of a monitor panics and every event is applied without an error.
-/
theorem never_halts {divide : Division} (divides : Divides divide) {start final : Platform}
    {steps : List (Platform × PlatformAction × Platform)} (isInitial : start.IsInitial)
    (trace : ((platform divide).restrict fun before action =>
      Answering before action ∧ Digestible before action).Trace start steps final) :
    ∀ taken ∈ steps, Proceeds divide taken.1 taken.2.1 := by
  refine trace.forall_reachable isInitial ?_
  rintro before action after reached ⟨⟨valid, _⟩, answering, digestible⟩
  have grounded := Platform.grounded reached
  have storable := storable divides reached
  cases action with
  | admin action => trivial
  | apply chainId delivery world commits =>
    obtain ⟨⟨clock, rfl⟩, _⟩ := answering
    intro event isNext
    exact apply_proceeds divides grounded storable valid digestible isNext
  | node chainId action =>
    cases action with
    | process block now during world => exact process_proceeds valid.1 digestible
    | _ => trivial

/-! ## Runs that go through and runs that stop -/

instance (event : PaymentDetected) (db : Db) : Decidable (HasRoom event db) := by
  unfold HasRoom
  infer_instance

def oneCoinDetected : PaymentDetected :=
  ((oneCoinStart true).nodes 1).monitor.nativePayment 1 101 0 ⟨7, 6, 5, 10 ^ 18, 0⟩ 1

def oneCoinScanned : Platform :=
  (oneCoinStart true).perform (· / ·) (scan (oneCoinChain true) (oneCoinBlock true))

theorem oneCoinScanned_reachable :
    ((platform (· / ·)).restrict fun before action =>
      Answering before action ∧ Digestible before action).Reachable oneCoinScanned := by
  have noLogs : ∀ block ∈ (oneCoinChain true).blocks, block.logs = [] := by decide
  have quoted : ((platform (· / ·)).restrict fun before action =>
      Answering before action ∧ Digestible before action).Reachable (oneCoinStart true) := by
    refine quotedPlatform_reachable (oneCoinChain true) sampleOption_quoted (by decide +kernel) ?_
    intro platform action noProcess noApply
    cases action with
    | admin action => exact ⟨trivial, trivial⟩
    | apply chainId delivery world commits => exact absurd rfl (noApply chainId delivery world commits)
    | node chainId action =>
      cases action with
      | process block now during world => exact absurd rfl (noProcess chainId block now during world)
      | _ => exact ⟨trivial, trivial⟩
  refine Platform.reachable_perform quoted _ (scan_valid rfl (List.mem_singleton_self _) (by decide))
    ⟨trivial, ?_⟩
  rintro ⟨chain, number, block, isServed, _, _, here, entry, memEntry, _⟩
  obtain rfl : chain = oneCoinChain true := List.mem_singleton.mp isServed
  rw [noLogs block (Chain.mem_of_blockAt? here)] at memEntry
  cases memEntry

theorem proceeds_with_one_coin :
    oneCoinScanned.next? 1 = some (.paymentDetected oneCoinDetected) ∧
      Proceeds (· / ·) oneCoinScanned (applyNext 1) := by
  have isNext : oneCoinScanned.next? 1 = some (.paymentDetected oneCoinDetected) := by decide +kernel
  obtain ⟨start, steps, isInitial, trace⟩ := oneCoinScanned_reachable.trace
  have fresh : oneCoinScanned.Valid (applyNext 1) := by
    change 1 ∉ (AdminAction.perform (.createInvoice sampleInvoice [sampleOption]) Db.empty).payments.keys
    decide +kernel
  have digestible : Digestible oneCoinScanned (applyNext 1) := by
    constructor
    · intro event isEvent
      rw [isNext] at isEvent
      cases isEvent
      decide +kernel
    · intro event isEvent
      rw [isNext] at isEvent
      cases isEvent
  refine ⟨isNext, ?_⟩
  have applied : ((platform (· / ·)).restrict fun before action =>
      Answering before action ∧ Digestible before action).step oneCoinScanned (applyNext 1)
        (oneCoinScanned.perform (· / ·) (applyNext 1)) :=
    ⟨⟨fresh, rfl⟩, ⟨⟨_, rfl⟩, rfl⟩, digestible⟩
  exact never_halts divides_exact isInitial (trace.snoc applied) (oneCoinScanned, applyNext 1, _)
    (List.mem_append_right _ (List.mem_singleton_self _))

def oversizedTx : Tx :=
  ⟨7, 6, some 9, 0, true, [⟨9, [transferTopic, 6, 5], List.replicate 33 0⟩], by simp⟩

def oversizedBlock : Block := ⟨1, 101, 100, [oversizedTx]⟩

def oversizedChain : Chain :=
  ⟨[genesis, oversizedBlock], by decide, by decide, by decide, by decide, by decide⟩

/-- The token's log has one byte more than an amount. -/
def oversizedPlatform : Platform := quotedPlatform tokenOption ⟨5, 1, none, some 9, 0⟩ oversizedChain

theorem panics_on_oversized_log :
    ((platform (· / ·)).restrict Answering).Reachable oversizedPlatform ∧
      oversizedPlatform.Valid (scan oversizedChain oversizedBlock) ∧
      ¬ Proceeds (· / ·) oversizedPlatform (scan oversizedChain oversizedBlock) := by
  refine ⟨?_, scan_valid rfl (List.mem_singleton_self _) (by decide), ?_⟩
  · refine quotedPlatform_reachable oversizedChain tokenOption_quoted (by decide +kernel) ?_
    intro platform action _ other
    cases action with
    | apply chainId delivery world commits => exact absurd rfl (other chainId delivery world commits)
    | _ => trivial
  · intro proceeds
    exact proceeds (by decide +kernel)

end EthPayServer.Pipeline
