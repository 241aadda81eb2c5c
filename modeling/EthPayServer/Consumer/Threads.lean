import EthPayServer.Consumer.Effects
import EthPayServer.Lib.Thread

/-!
# The event consumer beside other writers

The handlers of `Consumer.Handlers` once more, as threads: between two of their
statements other requests may write.  Each statement of a thread makes one of
six writes; the writes of a status say which status the handler had read.
-/

namespace EthPayServer.Consumer.Interleaved

open Lib Data
open Evm (Time Uuid MonitorEvent PaymentDetected PaymentConfirmed ReorgDetected addressText hashText)

/-- A handler whose statements interleave with those of others. -/
abbrev ConsumerT : Type → Type := Thread Time EventConsumerError Db

def statement {α : Type} (run : Time → Db → Except RepositoryError (α × Db)) : ConsumerT α :=
  Thread.statement fun now db => (run now db).mapError .database

instance amongOthers : Statements ConsumerT := ⟨statement, Thread.query, Thread.fail⟩

variable (relied : Uuid → InvoiceStatus → Db → Prop) (divide : Division) (delivery : Delivery)
  (event : PaymentDetected) (invoiceId : Uuid) (tokenAddress : Option Text) (amount : Nat) (now : Time)
  (optionId : Option Uuid)

/-! ## The handlers -/

def handlePaymentDetected (divide : Division) (delivery : Delivery) (event : PaymentDetected) :
    ConsumerT Unit := do
  let described ← describePayment divide delivery event
  statement (upsertWithTxIndexAndObligation described.1 described.2 "payment_detected")

/-- Write a status that was decided from a status read before. -/
def decideStatus (invoiceId : Uuid) (seen decided : InvoiceStatus) : ConsumerT Unit :=
  Thread.assuming (relied invoiceId seen) (statement fun _ db => updateStatus invoiceId decided db)

def settleInvoice (invoiceId : Uuid) : ConsumerT Unit := settleWith invoiceId () (decideStatus relied invoiceId)

def handlePaymentConfirmed (event : PaymentConfirmed) : ConsumerT Unit := do
  match ← Thread.query (getByTxIndex event.invoiceId (hashText event.txHash) event.txIndex) with
  | none => pure ()
  | some payment => do
    statement (markConfirmed payment.id event.confirmedAt)
    settleInvoice relied event.invoiceId

def applyReorgStatus (invoiceId : Uuid) (computed : InvoiceStatus) : ConsumerT Unit := do
  match ← Thread.query (getInvoice invoiceId) with
  | none => Thread.fail (.invalidData s!"Invoice not found: {invoiceId}")
  | some current =>
    if isClosed current.status then pure ()
    else decideStatus relied invoiceId current.status computed

def retractGroup (group : Uuid × List Payment) : ConsumerT Unit := do
  forM group.2 fun payment => statement (markPaymentReorged payment.id)
  let hasValid ← Thread.query (hasValidPayments group.1)
  applyReorgStatus relied group.1 (if hasValid then .processing else .pending)

def handleReorgDetected (delivery : Delivery) (event : ReorgDetected) : ConsumerT Unit :=
  if event.survivorsVerifiable then do
    let candidates ← Thread.query (reorgCandidates (.evm event.chainId) event.forkBlock)
    let groups := byInvoice (candidates.filter fun payment => !survived event payment)
    forM (arrange delivery.order groups) (retractGroup relied)
  else pure ()

def handleEvent (divide : Division) (delivery : Delivery) (event : MonitorEvent) : ConsumerT Unit :=
  match event with
  | .paymentDetected event => handlePaymentDetected divide delivery event
  | .paymentConfirmed event => handlePaymentConfirmed relied event
  | .reorgDetected event => handleReorgDetected relied delivery event
  | .notice _ => pure ()

/-! ## What one statement writes -/

/-- The write of one statement of a thread. -/
inductive Call : MonitorEvent → Db → Db → Prop
  /-- the upsert of a detected payment -/
  | filed {event : PaymentDetected} {db db' : Db} {now : Time} {payment : PaymentData} {txIndex : Int}
      (done : upsertWithTxIndexAndObligation payment txIndex "payment_detected" now db = .ok ((), db')) :
      Call (.paymentDetected event) db db'
  /-- the mark of a confirmed payment -/
  | marked {event : PaymentConfirmed} {db db' : Db} {now : Time} {id : Uuid}
      (done : markConfirmed id event.confirmedAt now db = .ok ((), db')) :
      Call (.paymentConfirmed event) db db'
  /-- a shortfall that a tolerance accepted -/
  | noted {event : PaymentConfirmed} {db db' : Db} {now : Time} {shortfall tolerancePercent : ℚ}
      {source : ToleranceSource}
      (done : recordSettlementAllowance event.invoiceId shortfall tolerancePercent source now db =
        .ok ((), db')) : Call (.paymentConfirmed event) db db'
  /-- the status of an invoice that is settled -/
  | settled {event : PaymentConfirmed} {db db' : Db} {seen decided : InvoiceStatus}
      (settles : settledStatus seen = some decided) (premised : relied event.invoiceId seen db)
      (done : updateStatus event.invoiceId decided db = .ok ((), db')) :
      Call (.paymentConfirmed event) db db'
  /-- the retraction of a payment -/
  | retracted {event : ReorgDetected} {db db' : Db} {now : Time} {id : Uuid}
      (done : markPaymentReorged id now db = .ok ((), db')) : Call (.reorgDetected event) db db'
  /-- the status of an invoice that is walked back -/
  | reopened {event : ReorgDetected} {db db' : Db} {invoiceId : Uuid} {seen decided : InvoiceStatus}
      (isOpen : isClosed seen = false) (isStatus : decided = .processing ∨ decided = .pending)
      (premised : relied invoiceId seen db) (done : updateStatus invoiceId decided db = .ok ((), db')) :
      Call (.reorgDetected event) db db'

theorem assetOf_readOnly : (assetOf event : ConsumerT _).ReadOnly := by
  unfold assetOf
  split
  · exact .pure _
  · split
    · exact .fail _
    · exact .bind (.query _) fun _ => .pure _

theorem resolveOption_readOnly : (resolveOption event tokenAddress : ConsumerT _).ReadOnly := by
  refine .bind (.query _) fun found => ?_
  cases found with
  | some id => exact .pure _
  | none => exact .bind (.query _) fun _ => .pure _

theorem creditOf_readOnly : (creditOf divide amount now optionId : ConsumerT _).ReadOnly := by
  cases optionId with
  | none => exact .pure _
  | some id =>
    refine .bind (.query _) fun found => ?_
    cases found <;> exact .pure _

theorem describePayment_readOnly : (describePayment divide delivery event : ConsumerT _).ReadOnly := by
  refine .bind (assetOf_readOnly event) fun asset => ?_
  refine .bind (resolveOption_readOnly event _) fun optionId => ?_
  refine .bind (creditOf_readOnly divide _ _ optionId) fun credit => ?_
  cases event.txIndex with
  | none => exact .fail _
  | some txIndex => exact .pure _

section Writes

variable {relied} {R : Db → Db → Prop} {assumes : Prop} (kept : ∀ db, R db db)
include kept

theorem statement_writes {run : Time → Db → Except RepositoryError (α × Db)} {premise : Db → Prop}
    (write : ∀ {now db a db'}, (assumes → premise db) → run now db = .ok (a, db') → R db db') :
    (Thread.assuming premise (statement run)).Writes R assumes :=
  .statement kept fun premised done => write premised (mapError_eq_ok done)

variable (sure : ∀ id status db, assumes ∨ relied id status db)
include sure

omit sure in
theorem settleWith_writes {idle : α} {move : InvoiceStatus → InvoiceStatus → ConsumerT α}
    (noted : ∀ {shortfall tolerancePercent source now db db'}, recordSettlementAllowance invoiceId shortfall
      tolerancePercent source now db = .ok ((), db') → R db db')
    (moves : ∀ {seen due}, settledStatus seen = some due → (move seen due).Writes R assumes) :
    (settleWith invoiceId idle move).Writes R assumes := by
  refine .bind (.query kept _) fun found => ?_
  cases found with
  | none => exact .fail _
  | some invoice =>
    refine .bind (.query kept _) fun tolerance => ?_
    cases effectiveTolerance tolerance with
    | error message => exact .fail _
    | ok chosen =>
      simp only
      cases settles : settledStatus invoice.status with
      | none => exact .pure _
      | some settled =>
        simp only
        split
        · refine .bind ?_ fun _ => moves settles
          unfold recordAllowanceIfShort
          split
          · exact .pure _
          · exact statement_writes kept fun _ done => noted done
        · exact .pure _

theorem settleInvoice_writes {event : PaymentConfirmed}
    (write : ∀ {db db'}, Call relied (.paymentConfirmed event) db db' → R db db') :
    (settleInvoice relied event.invoiceId).Writes R assumes :=
  settleWith_writes _ kept (fun done => write (.noted done)) fun settles =>
    statement_writes kept fun premised done => write (.settled settles ((sure _ _ _).elim premised id) done)

theorem retractGroup_writes {event : ReorgDetected}
    (write : ∀ {db db'}, Call relied (.reorgDetected event) db db' → R db db')
    (group : Uuid × List Payment) : (retractGroup relied group).Writes R assumes := by
  refine .bind (.forM (fun payment => statement_writes kept fun _ done => write (.retracted done)) _) fun _ => ?_
  refine .bind (.query kept _) fun hasValid => .bind (.query kept _) fun found => ?_
  cases found with
  | none => exact .fail _
  | some current =>
    simp only
    split
    · exact .pure _
    next isOpen =>
      refine statement_writes kept fun premised done =>
        write (.reopened (Bool.eq_false_iff.mpr isOpen) ?_ ((sure _ _ _).elim premised id) done)
      cases hasValid
      · exact .inr rfl
      · exact .inl rfl

/-- An application keeps what each of its writes keeps, whatever comes in between. -/
theorem handleEvent_writes {divide : Division} {event : MonitorEvent}
    (write : ∀ {db db'}, Call relied event db db' → R db db') (delivery : Delivery) :
    (handleEvent relied divide delivery event).Writes R assumes := by
  cases event with
  | paymentDetected event =>
    refine .bind (.readOnly kept (describePayment_readOnly divide delivery event)) fun described => ?_
    exact statement_writes kept fun _ done => write (.filed done)
  | paymentConfirmed event =>
    refine .bind (.query kept _) fun found => ?_
    cases found with
    | none => exact .pure _
    | some payment =>
      refine .bind (statement_writes kept fun _ done => write (.marked done)) fun _ => ?_
      exact settleInvoice_writes kept sure write
  | reorgDetected event =>
    simp only [handleEvent, handleReorgDetected]
    split
    · exact .bind (.query kept _) fun _ => .forM (retractGroup_writes kept sure write) _
    · exact .pure _
  | notice _ => exact .pure _

end Writes

end EthPayServer.Consumer.Interleaved
