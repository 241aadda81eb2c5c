import EthPayServer.Consumer.Backing
import EthPayServer.Pipeline.Counted

/-!
# Value behind a status

A native transfer of nothing is no payment, but a Transfer log of nothing is
filed like any other, and its row moves the invoice to processing.  Where no such
log to a watched key is scanned, an invoice that shows a payment under way has
received value.
-/

namespace EthPayServer.Pipeline

open Lib Data Consumer Evm

/-- Every invoice that shows a payment under way has a live payment of a positive amount. -/
def PaidInValue (db : Db) : Prop :=
  ∀ invoice ∈ db.invoices.rows, IsUnderWay invoice.status →
    ∃ row ∈ db.payments.rows, row.invoiceId = invoice.id ∧ row.reorged = false ∧ 0 < row.amount.toRat

/-- No block that the call may scan holds a Transfer log of amount zero to a watched key. -/
def NoZeroTransfer (node : Node) : NodeAction → Prop
  | .process block _ during _ => ∀ chain, node.Serves during chain → ∀ number scanned,
    node.monitor.scanFrom block.number ≤ number → number ≤ block.number →
    chain.blockAt? number = some scanned → ∀ entry ∈ scanned.logs, ∀ sender recipient,
      entry.2.2.transfer? = some (sender, recipient, 0) →
        node.monitor.watched.find? (recipient, some entry.2.2.address) = none
  | _ => True

/--
No monitor scans a Transfer of nothing to a key it watches, and no application of
a reorganisation is cut where it loses a status.  Beside the event consumer only
a cancellation writes a status.
-/
def BringsValue (platform : Platform) : PlatformAction → Prop
  | .node chainId action => NoZeroTransfer (platform.nodes chainId) action
  | .admin action => ∀ id status, action = .updateStatus id status → status = .cancelled
  | .apply chainId delivery world _ => ∀ report, platform.next? chainId = some (.reorgDetected report) →
    KeepsStatus delivery report world platform.db

theorem value_of_sound {node : Node} {block : BlockNotification} {now : Time} {during : List Chain}
    {world : World EvmError Chain} (clean : NoZeroTransfer node (.process block now during world))
    {event : PaymentDetected}
    (sound : ChainMonitor.Sound (node.Serves during) block node.monitor now event) :
    event.amount ≠ 0 := by
  obtain ⟨chain, number, scanned, hash, isServed, low, high, here, _, detected⟩ := sound
  rcases detected with ⟨tx, _, recipient, watch, _, nonzero, _, rfl⟩ |
    ⟨txHash, position, log, logIndex, memLog, sender, recipient, amount, watch, decoded, isWatched, rfl⟩
  · exact nonzero
  rintro (rfl : amount = 0)
  have unwatched := clean chain isServed number scanned low high here (txHash, position, log)
    (List.fst_mem_of_mem_zipIdx memLog) sender recipient decoded
  rw [unwatched] at isWatched
  cases isWatched

/-! ## What the rows are worth -/

def AnnouncesValue (platform : Platform) : Prop :=
  ∀ chainId event, .paymentDetected event ∈ (platform.nodes chainId).monitor.events → event.amount ≠ 0

def RowsOfValue (db : Db) : Prop := ∀ row ∈ db.payments.rows, 0 < row.amount.toRat

theorem RowsOfValue.write {divide : Division} {event : MonitorEvent} {db db' : Db}
    (rows : RowsOfValue db) (valued : ∀ detected, event = .paymentDetected detected → detected.amount ≠ 0)
    (write : Write divide event db db') : RowsOfValue db' := by
  intro row mem
  rcases write.rows mem with ⟨old, memOld, same⟩ | ⟨detected, delivery, payment, txIndex, isEvent,
    isDescribed, isRow⟩
  · rw [same.amount]
    exact rows old memOld
  obtain ⟨_, asset, _, rfl⟩ := described_ok isDescribed
  have isAmount : row.amount.toRat = detected.amount.toNat :=
    toRat_of_nat (PaymentData.toRow_ok isRow).amount
  have nonzero : detected.amount.toNat ≠ 0 := by
    intro isZero
    exact valued detected isEvent (BitVec.eq_of_toNat_eq (by simpa using isZero))
  rw [isAmount, Nat.cast_pos]
  exact Nat.pos_of_ne_zero nonzero

/-! ## The other actions -/

/-- An invoice is created pending, and neither a cancellation nor an expiry shows a payment under way. -/
theorem backed_admin {action : AdminAction} {db : Db} (backed : Backed db)
    (cancels : ∀ id status, action = .updateStatus id status → status = .cancelled) :
    Backed (action.perform db) := by
  cases action with
  | createInvoice invoice options =>
    simp only [AdminAction.perform]
    cases done : createInvoiceWithOptions invoice options db with
    | error e => exact backed
    | ok created =>
      refine createInvoiceWithOptions_preserves done backed ?_ ?_
      · intro db db' added backed invoice mem underWay
        obtain ⟨row, _, isPending, isInvoices⟩ := added.invoices
        rw [isInvoices] at mem
        rcases List.mem_append.mp mem with old | new
        · exact (backed invoice old underWay).of_same added.payments
        · rw [List.mem_singleton.mp new, isPending] at underWay
          exact absurd underWay (by decide)
      · intro option _ db db' added backed invoice mem underWay
        rw [added.invoices] at mem
        exact (backed invoice mem underWay).of_same added.payments
  | updateStatus id status =>
    simp only [AdminAction.perform]
    cases done : Data.updateStatus id status db with
    | error e => exact backed
    | ok result =>
      have written := updateStatus_ok (show Data.updateStatus id status db = .ok ((), result.2) from done)
      rw [cancels id status rfl] at written
      exact backed.statusWritten (fun underWay => absurd underWay (by decide)) written
  | expire id =>
    intro invoice mem underWay
    rcases mem_expire mem with old | isExpired
    · exact backed invoice old underWay
    · rw [isExpired] at underWay
      exact absurd underWay (by decide)
  | setTolerance _ => exact backed
  | clearTolerance _ => exact backed
  | setTokens _ => exact backed
  | deactivate _ _ _ => exact backed

/-! ## Every run -/

section Step

variable {divide : Division} {before after : Platform} {action : PlatformAction}

theorem AnnouncesValue.step (announces : AnnouncesValue before)
    (step : (platform divide).step before action after) (brings : BringsValue before action) :
    AnnouncesValue after := by
  intro chainId event mem
  rcases Platform.node_of_step step chainId with same | ⟨nodeAction, isAction, valid, isNode, _⟩
  · rw [same] at mem
    exact announces chainId event mem
  rw [isNode] at mem
  refine Node.detected_of_step valid ?_ (announces chainId) mem
  rintro block now during world event rfl sound
  have clean : NoZeroTransfer (before.nodes chainId) (.process block now during world) := by
    rw [isAction] at brings
    exact brings
  exact value_of_sound clean sound

theorem rowsOfValue_step (rows : RowsOfValue before.db) (announces : AnnouncesValue before)
    (step : (platform divide).step before action after) : RowsOfValue after.db := by
  refine Platform.db_of_step (I := RowsOfValue) step ?_ ?_ rows
  · intro chainId event memEvent db db' write rows
    refine rows.write ?_ write
    rintro detected rfl
    exact announces chainId detected memEvent
  · intro db db' write rows row mem
    rw [write.samePayments] at mem
    exact rows row mem

theorem backed_step (backed : Backed before.db) (step : (platform divide).step before action after)
    (brings : BringsValue before action) : Backed after.db := by
  obtain ⟨_, rfl⟩ := step
  cases action with
  | node chainId action => exact backed
  | admin action => exact backed_admin backed brings
  | apply chainId delivery world commits =>
    cases isNext : before.next? chainId with
    | none =>
      simp only [Platform.perform, isNext]
      exact backed
    | some event =>
      rw [Platform.db_perform_apply before delivery world commits isNext]
      refine backed.event fun report isReport => ?_
      rw [isReport] at isNext
      exact brings report isNext

end Step

/--
In every run in which no monitor scans a Transfer of nothing to a key it watches
and no cut of a reorganisation loses a status, every invoice that shows a payment
under way has a live payment of a positive amount.
-/
theorem under_way_in_value (divide : Division) {after : Platform}
    (reached : ((platform divide).restrict BringsValue).Reachable after) : PaidInValue after.db := by
  have all : AnnouncesValue after ∧ RowsOfValue after.db ∧ Backed after.db := by
    refine reached.invariant
      (I := fun after => AnnouncesValue after ∧ RowsOfValue after.db ∧ Backed after.db) ?_ ?_
    · intro start isInitial
      refine ⟨?_, ?_, ?_⟩
      · intro chainId event mem
        rw [(isInitial.fresh chainId).events] at mem
        cases mem
      · intro row mem
        rw [isInitial.db] at mem
        cases mem
      · intro invoice mem
        rw [isInitial.db] at mem
        cases mem
    · rintro before action after _ ⟨announces, rows, backed⟩ ⟨step, brings⟩
      exact ⟨announces.step step brings, rowsOfValue_step rows announces step,
        backed_step backed step brings⟩
  obtain ⟨_, rows, backed⟩ := all
  intro invoice mem underWay
  obtain ⟨row, memRow, ofInvoice, live⟩ := backed invoice mem underWay
  exact ⟨row, memRow, ofInvoice, live, rows row memRow⟩

/-! ## A transfer of nothing -/

/-- A transfer of so many units of token 9 to address 5. -/
def unitsBlock (units : UInt8) : Block :=
  ⟨1, 101, 100, [⟨7, 6, some 9, 0, true,
    [⟨9, [transferTopic, 6, 5], List.replicate 31 0 ++ [units]⟩], by simp⟩]⟩

def unitsChain (units : UInt8) : Chain :=
  ⟨[genesis, unitsBlock units], by simp, by rfl, by simp [genesis, unitsBlock], by simp,
    by simp [genesis, unitsBlock]⟩

/-- The token is quoted at address 5 and watched there. -/
def unitsStart (units : UInt8) : Platform :=
  quotedPlatform tokenOption ⟨5, 1, none, some 9, 0⟩ (unitsChain units)

/-- The transfer is scanned and applied. -/
def unitsPlatform (units : UInt8) : Platform :=
  ((unitsStart units).perform (· / ·) (scan (unitsChain units) (unitsBlock units))).perform (· / ·)
    (applyNext 1)

theorem unitsPlatform_reachable (condition : Platform → PlatformAction → Prop) (units : UInt8)
    (creates : ∀ platform, condition platform (.admin (.createInvoice sampleInvoice [tokenOption])))
    (watches : ∀ platform watched, condition platform (.node 1 (.watch watched)))
    (scans : condition (unitsStart units) (scan (unitsChain units) (unitsBlock units)))
    (applies : ∀ platform, condition platform (applyNext 1)) :
    ((platform (· / ·)).restrict condition).Reachable (unitsPlatform units) := by
  exact appliedPlatform_reachable (unitsChain units) tokenOption_quoted (by decide +kernel)
    (creates _) (watches _ _) (by decide +kernel) (List.mem_cons_of_mem _ (List.mem_singleton_self _))
    scans (applies _)

/-- One unit arrived: the invoice is processing and has its payment. -/
theorem under_way_in_value_unit :
    (unitsPlatform 1).db.invoices.rows.map Invoice.status = [.processing] ∧
      PaidInValue (unitsPlatform 1).db := by
  refine ⟨by decide +kernel, under_way_in_value (· / ·) (unitsPlatform_reachable _ 1 ?_ ?_ ?_ ?_)⟩
  · rintro platform id status ⟨⟩
  · intro platform watched
    trivial
  · have valued : ∀ block ∈ (unitsChain 1).blocks, ∀ entry ∈ block.logs,
        (entry.2.2.transfer?.map fun transfer => transfer.2.2) ≠ some 0 := by decide
    intro chain isServed number scanned _ _ here entry mem sender recipient decoded
    obtain rfl : chain = unitsChain 1 := List.mem_singleton.mp isServed
    exact absurd (by rw [decoded]; rfl) (valued scanned (Chain.mem_of_blockAt? here) entry mem)
  · intro platform report _
    exact keepsStatus_of_uninterrupted _

/-- A transfer of nothing moves the invoice to processing. -/
theorem zero_transfer_under_way :
    (platform (· / ·)).Reachable (unitsPlatform 0) ∧ ¬ PaidInValue (unitsPlatform 0).db := by
  constructor
  · exact System.Reachable.of_restrict (unitsPlatform_reachable (fun _ _ => True) 0
      (fun _ => trivial) (fun _ _ => trivial) trivial (fun _ => trivial))
  intro paid
  have processing : ∃ invoice ∈ (unitsPlatform 0).db.invoices.rows, IsUnderWay invoice.status := by
    decide +kernel
  have worthless : ∀ row ∈ (unitsPlatform 0).db.payments.rows, row.amount.units = 0 := by
    decide +kernel
  obtain ⟨invoice, mem, underWay⟩ := processing
  obtain ⟨row, memRow, _, _, positive⟩ := paid invoice mem underWay
  rw [Numeric.toRat, worthless row memRow] at positive
  simp at positive

end EthPayServer.Pipeline
