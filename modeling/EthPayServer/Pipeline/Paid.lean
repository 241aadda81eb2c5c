import EthPayServer.Pipeline.Server
import EthPayServer.Consumer.Redelivery

/-!
# What a paid invoice was paid with

A confirmation settles an invoice by its received amount, which the trigger sums
over every live payment, confirmed or not.  The confirmed payments alone cover
the invoice when no other live payment with a credit is still unconfirmed.
-/

namespace EthPayServer.Pipeline

open Lib Data Consumer
open Evm (Time Uuid MonitorEvent PaymentConfirmed hashText)

/-- The credits of an invoice's payments that are confirmed and not reorged. -/
def confirmedTotal (payments : List Payment) (invoiceId : Uuid) : Int :=
  (payments.map fun payment =>
    if payment.confirmedAt.isSome then payment.creditTo invoiceId else 0).sum

def CoveredByConfirmed (invoice : Invoice) (db : Db) : Prop :=
  match effectiveTolerance (getSettlementTolerance invoice.storeId db) with
  | .ok (tolerancePercent, _) =>
    invoice.amount.toRat ≤ (confirmedTotal db.payments.rows invoice.id : ℚ) / 10 ^ 18 +
      allowance invoice.amount.toRat tolerancePercent
  | .error _ => False

instance (invoice : Invoice) (db : Db) : Decidable (CoveredByConfirmed invoice db) := by
  unfold CoveredByConfirmed
  split <;> infer_instance

/-- A step that moves an invoice to paid or late paid finds it covered by confirmed money. -/
def PaidByConfirmed (db db' : Db) : Prop :=
  ∀ invoice ∈ db'.invoices.rows, invoice.status = .paid ∨ invoice.status = .latePaid →
    (getInvoice invoice.id db).map Invoice.status ≠ some invoice.status → CoveredByConfirmed invoice db'

instance (db db' : Db) : Decidable (PaidByConfirmed db db') := by
  unfold PaidByConfirmed
  infer_instance

def ConfirmsLast (db : Db) (action : ServerAction) : Prop :=
  ∀ delivery event world, action = .apply delivery (.paymentConfirmed event) world →
    ∀ payment ∈ db.payments.rows, payment.invoiceId = event.invoiceId → payment.reorged = false →
      payment.creditedAmount ≠ none → payment.confirmedAt = none →
      getByTxIndex event.invoiceId (hashText event.txHash) event.txIndex db = some payment

variable {invoice : Invoice} {db db' : Db}

theorem getInvoice_of_map {change : Invoice → Invoice} (keeps : ∀ invoice, (change invoice).id = invoice.id)
    (isInvoices : db'.invoices.rows = db.invoices.rows.map change) (mem : invoice ∈ db'.invoices.rows) :
    ∃ old, getInvoice invoice.id db = some old ∧ invoice = change old := by
  rw [isInvoices] at mem
  obtain ⟨old, memOld, rfl⟩ := List.mem_map.mp mem
  rw [keeps old]
  exact ⟨old, Table.find?_of_mem memOld, rfl⟩

theorem Recorded.status {now : Time} {row : Payment} {rows : List Payment}
    (recorded : Recorded now row rows db db') (mem : invoice ∈ db'.invoices.rows) :
    (getInvoice invoice.id db).map Invoice.status = some invoice.status ∨
      invoice.status = .processing := by
  obtain ⟨total, _, isInvoices⟩ := recorded.invoices
  obtain ⟨old, isOld, rfl⟩ := getInvoice_of_map (fun invoice => by simp) isInvoices mem
  rw [isOld, Option.map_some, Invoice.onPayment]
  split
  · dsimp only
    split
    · exact .inr rfl
    · exact .inl rfl
  · exact .inl rfl

theorem confirmedTotal_eq {payments : List Payment} {invoiceId : Uuid}
    (confirmed : ∀ payment ∈ payments, payment.invoiceId = invoiceId → payment.reorged = false →
      payment.creditedAmount ≠ none → payment.confirmedAt ≠ none) :
    confirmedTotal payments invoiceId = creditedTotal payments invoiceId := by
  unfold confirmedTotal creditedTotal
  refine congrArg List.sum (List.map_congr_left fun payment mem => ?_)
  cases isConfirmed : payment.confirmedAt with
  | some time => rfl
  | none =>
    -- an unconfirmed payment adds nothing: it is another invoice's, reorged, or without a credit
    simp only [Option.isSome_none, Bool.false_eq_true, if_false]
    unfold Payment.creditTo
    split
    next here =>
      by_cases credited : payment.creditedAmount = none
      · simp [credited]
      · exact absurd isConfirmed (confirmed payment mem here.1 here.2 credited)
    · rfl

section Marked

variable {event : PaymentConfirmed} {db marked : Db}

variable (isMarked : Marked event db marked)
include isMarked

theorem marked_received (found : getInvoice event.invoiceId marked = some invoice) :
    invoice.amountReceived.units = creditedTotal marked.payments.rows event.invoiceId := by
  obtain ⟨payment, now, isPayment, done⟩ := isMarked
  obtain ⟨mem, ofInvoice, _⟩ := getByTxIndex_some isPayment
  obtain ⟨row, memRow, sameId, _, recorded⟩ := markConfirmed_ok done
  obtain rfl := db.payments.eq_of_key memRow mem sameId
  obtain ⟨total, isTotal, isInvoices⟩ := recorded.invoices
  obtain ⟨memInvoice, isId⟩ := Table.find?_eq_some.mp found
  obtain ⟨old, isOld, isNew⟩ := getInvoice_of_map (fun invoice => by simp) isInvoices memInvoice
  have here : old.id = (row.confirm event.confirmedAt).invoiceId := by
    have sameOld : old.id = invoice.id := (Table.find?_eq_some.mp isOld).2
    rw [sameOld, isId]
    exact ofInvoice.symm
  rw [isNew, Invoice.onPayment, if_pos here, isTotal, recorded.payments]
  exact congrArg (creditedTotal _) ofInvoice

theorem marked_confirmed {delivery : Delivery} {world : World EventConsumerError Time}
    (last : ConfirmsLast db (.apply delivery (.paymentConfirmed event) world)) :
    ∀ payment ∈ marked.payments.rows, payment.invoiceId = event.invoiceId →
      payment.reorged = false → payment.creditedAmount ≠ none → payment.confirmedAt ≠ none := by
  obtain ⟨named, now, isNamed, done⟩ := isMarked
  obtain ⟨_, _, _, _, recorded⟩ := markConfirmed_ok done
  intro payment mem ofInvoice live credited
  rw [recorded.payments] at mem
  obtain ⟨old, memOld, rfl⟩ := List.mem_map.mp mem
  by_cases here : old.id = named.id
  · rw [if_pos here]
    exact Option.some_ne_none _
  rw [if_neg here] at ofInvoice live credited ⊢
  intro unconfirmed
  have isOld := last delivery event world rfl old memOld ofInvoice live credited unconfirmed
  rw [isNamed, Option.some.injEq] at isOld
  exact here (by rw [isOld])

theorem marked_unpaid (mem : invoice ∈ marked.invoices.rows)
    (isPaid : invoice.status = .paid ∨ invoice.status = .latePaid) :
    (getInvoice invoice.id db).map Invoice.status = some invoice.status := by
  obtain ⟨payment, now, _, done⟩ := isMarked
  obtain ⟨_, _, _, _, recorded⟩ := markConfirmed_ok done
  rcases Recorded.status recorded mem with same | processing
  · exact same
  · rw [processing] at isPaid
    simp at isPaid

end Marked

theorem settled_within {event : PaymentConfirmed} {db marked state : Db} {status : InvoiceStatus}
    (isMarked : Marked event db marked) (decided : settlement event.invoiceId marked = some status)
    (written : StatusWritten event.invoiceId status marked state) (mem : invoice ∈ state.invoices.rows)
    (isId : invoice.id = event.invoiceId) :
    ∃ tolerancePercent source,
      effectiveTolerance (getSettlementTolerance invoice.storeId state) = .ok (tolerancePercent, source) ∧
      invoice.amount.toRat ≤ invoice.amountReceived.toRat + allowance invoice.amount.toRat tolerancePercent ∧
      invoice.amountReceived.units = creditedTotal state.payments.rows invoice.id := by
  obtain ⟨settled, tolerancePercent, source, found, isTolerance, covers, _⟩ := settlement_some decided
  obtain ⟨old, isOld, rfl⟩ := getInvoice_of_map (fun invoice => by simp) written.invoices mem
  rw [isId, found] at isOld
  obtain rfl : settled = old := Option.some.inj isOld
  have sameColumns : (settled.withStatus event.invoiceId status).storeId = settled.storeId ∧
      (settled.withStatus event.invoiceId status).amount = settled.amount ∧
      (settled.withStatus event.invoiceId status).amountReceived = settled.amountReceived := by
    unfold Invoice.withStatus
    split <;> exact ⟨rfl, rfl, rfl⟩
  have sameTolerance : getSettlementTolerance settled.storeId state =
      getSettlementTolerance settled.storeId marked := by
    rw [getSettlementTolerance, written.catalog.settlementSettings, getSettlementTolerance]
  rw [sameColumns.1, sameColumns.2.1, sameColumns.2.2, sameTolerance, isId, written.payments]
  exact ⟨tolerancePercent, source, isTolerance, covers, marked_received isMarked found⟩

/-- An invoice that a confirmation moves to paid or late paid is the one it names, settled after the mark. -/
theorem settled_of_confirmation {event : PaymentConfirmed} {world : World EventConsumerError Time}
    (mem : invoice ∈ (handlePaymentConfirmed event world 0 db).state.invoices.rows)
    (isPaid : invoice.status = .paid ∨ invoice.status = .latePaid)
    (changed : (getInvoice invoice.id db).map Invoice.status ≠ some invoice.status) :
    invoice.id = event.invoiceId ∧ ∃ marked status, Marked event db marked ∧
      settlement event.invoiceId marked = some status ∧
      StatusWritten event.invoiceId status marked (handlePaymentConfirmed event world 0 db).state := by
  have outcome := (handlePaymentConfirmed_spec event).ends world 0 db
  generalize handlePaymentConfirmed event world 0 db = ended at outcome mem ⊢
  have unmoved : ended.state = db → False := by
    intro same
    rw [same] at mem
    exact changed (by rw [getInvoice, Table.find?_of_mem mem, Option.map_some])
  have unsettled : ∀ marked, Marked event db marked → SameMoney marked ended.state → False := by
    intro marked isMarked same
    rw [same.invoices] at mem
    exact changed (marked_unpaid isMarked mem isPaid)
  rcases outcome with ⟨_, _, ⟨_, same⟩ | ⟨marked, isMarked, settles⟩⟩ |
    ⟨_, _, ⟨same, _⟩ | ⟨marked, isMarked, same, _⟩⟩
  · exact (unmoved same).elim
  · unfold Settled at settles
    split at settles
    · exact (unsettled marked isMarked settles).elim
    next status decided =>
      refine ⟨?_, marked, status, isMarked, decided, settles⟩
      by_contra elsewhere
      -- the status of another invoice is what the mark left
      obtain ⟨old, isOld, isNew⟩ := getInvoice_of_map (fun invoice => by simp) settles.invoices mem
      obtain ⟨memOld, sameId⟩ := Table.find?_eq_some.mp isOld
      have unwritten : invoice = old := by
        rw [isNew, Invoice.withStatus, if_neg (by rw [sameId]; exact elsewhere)]
      rw [unwritten] at isPaid changed
      exact absurd (marked_unpaid isMarked memOld isPaid) changed
  · exact (unmoved same).elim
  · exact (unsettled marked isMarked same).elim

/-- A confirmation that meets the condition pays an invoice with confirmed money only. -/
theorem confirmation_paid_by_confirmed (divide : Division) {delivery : Delivery} {event : PaymentConfirmed}
    {world : World EventConsumerError Time}
    (step : ((server divide).restrict ConfirmsLast).step db
      (.apply delivery (.paymentConfirmed event) world) db') : PaidByConfirmed db db' := by
  obtain ⟨⟨_, rfl⟩, last⟩ := step
  intro invoice mem isPaid changed
  obtain ⟨isId, marked, status, isMarked, decided, written⟩ := settled_of_confirmation mem isPaid changed
  obtain ⟨_, _, isTolerance, covers, received⟩ := settled_within isMarked decided written mem isId
  change CoveredByConfirmed invoice (handlePaymentConfirmed event world 0 db).state
  have confirmed := marked_confirmed isMarked last
  rw [← written.payments, ← isId] at confirmed
  rw [CoveredByConfirmed, isTolerance, confirmedTotal_eq confirmed, ← received]
  exact covers

/--
Along every sequence of events and other actions in which each confirmation is
the last one of its invoice, an invoice that becomes paid or late paid by a
confirmation is covered by confirmed money.
-/
theorem paid_by_confirmed (divide : Division) {start final : Db}
    {steps : List (Db × ServerAction × Db)}
    (trace : ((server divide).restrict ConfirmsLast).Trace start steps final) :
    ∀ taken ∈ steps, ∀ delivery event world,
      taken.2.1 = .apply delivery (.paymentConfirmed event) world →
        PaidByConfirmed taken.1 taken.2.2 := by
  refine trace.forall_steps (P := fun db action db' => ∀ delivery event world,
    action = .apply delivery (.paymentConfirmed event) world → PaidByConfirmed db db') ?_
  rintro db action db' step delivery event world rfl
  exact confirmation_paid_by_confirmed divide step

/--
From any state, an invoice that becomes paid or late paid by a confirmation has received
all but at most a thousandth of its amount, in credits of its live payments.
-/
theorem paid_within_thousandth (divide : Division) (delivery : Delivery) (event : PaymentConfirmed)
    (world : World EventConsumerError Time) (db : Db) :
    let after := (ServerAction.apply delivery (.paymentConfirmed event) world).perform divide db
    ∀ invoice ∈ after.invoices.rows, invoice.status = .paid ∨ invoice.status = .latePaid →
      (getInvoice invoice.id db).map Invoice.status ≠ some invoice.status →
      invoice.amount.toRat ≤ invoice.amountReceived.toRat + |invoice.amount.toRat| / 1000 ∧
        invoice.amountReceived.units = creditedTotal after.payments.rows invoice.id := by
  intro after invoice mem isPaid changed
  obtain ⟨isId, marked, status, isMarked, decided, written⟩ := settled_of_confirmation mem isPaid changed
  obtain ⟨_, _, isTolerance, covers, received⟩ := settled_within isMarked decided written mem isId
  exact ⟨covers.trans (add_le_add_right (allowance_le isTolerance _) _), received⟩

/-! ## Two payments, one of them confirmed -/

theorem sampleDb_reachable : (server (· / ·)).Reachable sampleDb := by
  have created : sampleDb = (ServerAction.admin (.createInvoice sampleInvoice [sampleOption])).perform
      (· / ·) Db.empty := by
    simp only [ServerAction.perform, AdminAction.perform, sampleDb_created]
  have start : (server (· / ·)).Reachable Db.empty := System.Reachable.of_initial rfl
  refine start.snoc (show (server (· / ·)).step _ _ _ from ⟨?_, created⟩)
  intro admin isAdmin
  cases isAdmin
  intro option mem
  rw [List.mem_singleton.mp mem]
  exact ⟨by simp [sampleOption], fun _ _ => ⟨5, isHexText_hexText 40 5⟩⟩

/-- An event that arrives at the server, with the database answering. -/
def arrives (id : Nat) (event : MonitorEvent) : ServerAction :=
  .apply (sampleDelivery id) event (Proc.uninterrupted fun _ => 0)

/-- A payment of 0.6 coins comes. -/
def firstPaid : Db :=
  (arrives 1 (.paymentDetected (sampleDetected 7 (6 * 10 ^ 17)))).perform (· / ·) sampleDb

/-- It is confirmed. -/
def firstConfirmed : Db :=
  (arrives 2 (.paymentConfirmed (sampleConfirmed 7 (6 * 10 ^ 17)))).perform (· / ·) firstPaid

/-- One of 0.4 coins comes. -/
def bothPaid : Db :=
  (arrives 3 (.paymentDetected (sampleDetected 9 (4 * 10 ^ 17)))).perform (· / ·) firstConfirmed

/-- The confirmation of the second payment settles the invoice. -/
def sampleSettlement : ServerAction := arrives 4 (.paymentConfirmed (sampleConfirmed 9 (4 * 10 ^ 17)))

theorem arrives_step {db : Db} {id : Nat} {event : MonitorEvent} (last : ConfirmsLast db (arrives id event)) :
    ((server (· / ·)).restrict ConfirmsLast).step db (arrives id event)
      ((arrives id event).perform (· / ·) db) := by
  refine ⟨⟨?_, rfl⟩, last⟩
  rintro admin ⟨⟩

theorem paid_by_second_payment :
    (getInvoice 1 bothPaid).map Invoice.status = some .processing ∧
      (getInvoice 1 (sampleSettlement.perform (· / ·) bothPaid)).map Invoice.status = some .paid ∧
      PaidByConfirmed bothPaid (sampleSettlement.perform (· / ·) bothPaid) := by
  have detected {db : Db} {id : Nat} {event : Evm.PaymentDetected} :
      ConfirmsLast db (arrives id (.paymentDetected event)) := by
    rintro delivery confirmed world ⟨⟩
  have first : ConfirmsLast firstPaid (arrives 2 (.paymentConfirmed (sampleConfirmed 7 (6 * 10 ^ 17)))) := by
    rintro delivery confirmed world ⟨⟩
    decide +kernel
  have second : ConfirmsLast bothPaid sampleSettlement := by
    rintro delivery confirmed world ⟨⟩
    decide +kernel
  have trace := (((System.Trace.nil.snoc (arrives_step (@detected sampleDb _ _))).snoc (arrives_step first)).snoc
    (arrives_step detected)).snoc (arrives_step second)
  exact ⟨by decide +kernel, by decide +kernel,
    paid_by_confirmed (· / ·) trace _ (List.mem_append_right _ (List.mem_singleton_self _)) _ _ _ rfl⟩

theorem paid_within_thousandth_only :
    ∃ invoice ∈ (sampleSettlement.perform (· / ·) bothPaid).invoices.rows, invoice.status = .paid ∧
      invoice.amount.toRat ≤ invoice.amountReceived.toRat + |invoice.amount.toRat| / 1000 := by
  obtain ⟨invoice, mem, isPaid, changed⟩ : ∃ invoice ∈ (sampleSettlement.perform (· / ·)
      bothPaid).invoices.rows, invoice.status = .paid ∧
        (getInvoice invoice.id bothPaid).map Invoice.status ≠ some invoice.status := by
    decide +kernel
  exact ⟨invoice, mem, isPaid,
    (paid_within_thousandth (· / ·) _ _ _ bothPaid invoice mem (.inl isPaid) changed).1⟩

/-- Two payments that cover an invoice together. -/
def sampleSplit : Db :=
  (applied (· / ·) (sampleDelivery 2) (.paymentDetected (sampleDetected 9 (4 * 10 ^ 17))) (fun _ => 0)
    (applied (· / ·) (sampleDelivery 1) (.paymentDetected (sampleDetected 7 (6 * 10 ^ 17)))
      (fun _ => 0) sampleDb).state).state

/-- The confirmation of the first of them writes paid while the second is unconfirmed. -/
theorem paid_by_unconfirmed :
    (getInvoice 1 sampleDb).map Invoice.status = some .pending ∧ sampleDb.payments.rows = [] ∧
    ¬ PaidByConfirmed sampleSplit ((ServerAction.apply (sampleDelivery 3)
      (.paymentConfirmed (sampleConfirmed 7 (6 * 10 ^ 17))) (Proc.uninterrupted fun _ => 0)).perform
        (· / ·) sampleSplit) := by
  decide +kernel

end EthPayServer.Pipeline
