import EthPayServer.Pipeline.Paid
import EthPayServer.Pipeline.Totals

/-!
# Covered invoices are settled

The status of an invoice is written by the trigger, the confirmation handler, the
reorganisation handler and the expiry.  Only the confirmation handler settles, so
a covered invoice whose payments are all confirmed is settled as long as its live
credits stay as the last confirmation left them.  A reorganisation that retracts
one of several payments leaves the invoice processing until the next confirmation,
whether or not the others cover it.
-/

namespace EthPayServer.Pipeline

open Lib Data Consumer
open Evm (Time Uuid MonitorEvent PaymentDetected PaymentConfirmed ReorgDetected hashText)

/-! ## Settling one invoice -/

def AllConfirmed (db : Db) (invoiceId : Uuid) : Prop :=
  ∀ payment ∈ db.payments.rows, payment.invoiceId = invoiceId → payment.reorged = false →
    payment.confirmedAt ≠ none

def Covers (db : Db) (invoice : Invoice) : Prop :=
  match effectiveTolerance (getSettlementTolerance invoice.storeId db) with
  | .ok (tolerancePercent, _) =>
    isFullyPaid invoice.amountReceived.toRat invoice.amount.toRat tolerancePercent = true
  | .error _ => False

def IsSettled (status : InvoiceStatus) : Prop := status = .paid ∨ status = .latePaid

def Disturbs (invoiceId : Uuid) (db db' : Db) : Prop :=
  ∃ payment ∈ db.payments.rows, payment.invoiceId = invoiceId ∧ payment.reorged = false ∧
    ∃ payment' ∈ db'.payments.rows, payment'.id = payment.id ∧
      (payment'.reorged = true ∨ payment'.creditedAmount ≠ payment.creditedAmount)

instance (db : Db) (invoiceId : Uuid) : Decidable (AllConfirmed db invoiceId) := by
  unfold AllConfirmed
  infer_instance

instance (db : Db) (invoice : Invoice) : Decidable (Covers db invoice) := by
  unfold Covers
  split <;> infer_instance

instance (invoiceId : Uuid) (db db' : Db) : Decidable (Disturbs invoiceId db db') := by
  unfold Disturbs
  infer_instance

inductive SettlingAction where
  /-- the application of an event, seeing the given clock -/
  | apply (delivery : Delivery) (event : MonitorEvent) (clock : Nat → Time)
  | expire (id : Uuid)

/--
The database and whether, since the last confirmation of a payment of the
invoice, its live credits were disturbed.
-/
structure Settling where
  db : Db
  disturbed : Bool

namespace SettlingAction

/-- The database an action leaves. -/
def write (divide : Division) (action : SettlingAction) (db : Db) : Db :=
  match action with
  | apply delivery event clock => (applied divide delivery event clock db).state
  | expire id => Data.expire id db

def Confirms (invoiceId : Uuid) (db : Db) : SettlingAction → Prop
  | apply _ (.paymentConfirmed event) _ => event.invoiceId = invoiceId ∧
    getByTxIndex event.invoiceId (hashText event.txHash) event.txIndex db ≠ none
  | _ => False

instance (invoiceId : Uuid) (db : Db) (action : SettlingAction) :
    Decidable (action.Confirms invoiceId db) := by
  unfold Confirms
  split <;> infer_instance

def Succeeds (divide : Division) (db : Db) : SettlingAction → Prop
  | apply delivery event clock => (applied divide delivery event clock db).result = .ok ()
  | expire _ => True

instance (divide : Division) (db : Db) (action : SettlingAction) :
    Decidable (action.Succeeds divide db) := by
  unfold Succeeds
  split <;> infer_instance

end SettlingAction

def Settling.perform (divide : Division) (invoiceId : Uuid) (state : Settling)
    (action : SettlingAction) : Settling where
  db := action.write divide state.db
  disturbed := if action.Confirms invoiceId state.db then false
    else state.disturbed || decide (Disturbs invoiceId state.db (action.write divide state.db))

/-- A new invoice over a positive amount, in a database the server has reached. -/
structure Opened (divide : Division) (invoiceId : Uuid) (db : Db) : Prop where
  reached : (server divide).Reachable db
  invoice : ∃ invoice, getInvoice invoiceId db = some invoice ∧ invoice.status = .pending ∧
    invoice.amountReceived = 0 ∧ 0 < invoice.amount.toRat

/-- Successful applications of events and expiries, from the creation of an invoice on. -/
def settling (divide : Division) (invoiceId : Uuid) : System Settling SettlingAction where
  initial state := Opened divide invoiceId state.db ∧ state.disturbed = false
  step state action state' :=
    action.Succeeds divide state.db ∧ state' = state.perform divide invoiceId action

def InTime (invoiceId : Uuid) (state : Settling) (action : SettlingAction) : Prop :=
  ∀ delivery event clock, action = .apply delivery (.paymentConfirmed event) clock →
    event.invoiceId = invoiceId → ∀ invoice, getInvoice invoiceId state.db = some invoice →
      invoice.status = .pending → ∀ i, clock i ≤ invoice.expiresAt

/-! ## Steps that do not confirm -/

/--
What a step that neither confirms nor disturbs leaves of an invoice: its live
payments, their credits and a settled status.
-/
structure Kept (invoiceId : Uuid) (db db' : Db) : Prop where
  invoice : ∀ {invoice'}, getInvoice invoiceId db' = some invoice' →
    ∃ invoice, getInvoice invoiceId db = some invoice ∧ invoice'.amount = invoice.amount ∧
      invoice'.storeId = invoice.storeId ∧ (IsSettled invoice.status → IsSettled invoice'.status)
  confirmed : AllConfirmed db' invoiceId → AllConfirmed db invoiceId
  total : AllConfirmed db' invoiceId →
    creditedTotal db'.payments.rows invoiceId = creditedTotal db.payments.rows invoiceId
  settings : db'.settlementSettings = db.settlementSettings

variable {change : Invoice → Invoice} {invoice' invoice : Invoice} {now : Time} {row payment : Payment}
   {status : InvoiceStatus} {event : PaymentConfirmed}

section Kept

variable {db db' : Db}

theorem Kept.of_sameMoney (same : SameMoney db db') : Kept invoiceId db db' := by
  refine ⟨?_, ?_, ?_, same.catalog.settlementSettings⟩
  · intro invoice' found
    rw [getInvoice_of_sameMoney same] at found
    exact ⟨invoice', found, rfl, rfl, id⟩
  · intro confirmed
    rwa [AllConfirmed, same.payments] at confirmed
  · intro _
    rw [same.payments]

theorem Kept.trans {db'' : Db} (first : Kept invoiceId db db') (second : Kept invoiceId db' db'') :
    Kept invoiceId db db'' := by
  refine ⟨?_, fun all => first.confirmed (second.confirmed all), ?_,
    second.settings.trans first.settings⟩
  · intro invoice'' found
    obtain ⟨invoice', found', amount', store', settled'⟩ := second.invoice found
    obtain ⟨invoice, isInvoice, amount, store, settled⟩ := first.invoice found'
    exact ⟨invoice, isInvoice, amount'.trans amount, store'.trans store, settled' ∘ settled⟩
  · intro all
    exact (second.total all).trans (first.total (second.confirmed all))

theorem invoice_of_map
    (keeps : ∀ invoice, (change invoice).id = invoice.id ∧ (change invoice).amount = invoice.amount ∧
      (change invoice).storeId = invoice.storeId ∧
      (IsSettled invoice.status → IsSettled (change invoice).status))
    (isInvoices : db'.invoices.rows = db.invoices.rows.map change)
    (found : getInvoice invoiceId db' = some invoice') :
    ∃ invoice, getInvoice invoiceId db = some invoice ∧ invoice'.amount = invoice.amount ∧
      invoice'.storeId = invoice.storeId ∧ (IsSettled invoice.status → IsSettled invoice'.status) := by
  obtain ⟨mem, rfl⟩ := Table.find?_eq_some.mp found
  obtain ⟨old, isOld, rfl⟩ := getInvoice_of_map (fun invoice => (keeps invoice).1) isInvoices mem
  exact ⟨old, isOld, (keeps old).2⟩

/-- The trigger leaves the amount, the store and a settled status alone. -/
theorem onPayment_keeps (now : Time) (row : Payment) (total : Numeric 78 18) (invoice : Invoice) :
    (invoice.onPayment now row total).id = invoice.id ∧
      (invoice.onPayment now row total).amount = invoice.amount ∧
      (invoice.onPayment now row total).storeId = invoice.storeId ∧
      (IsSettled invoice.status → IsSettled (invoice.onPayment now row total).status) := by
  unfold Invoice.onPayment
  split
  · refine ⟨rfl, rfl, rfl, fun settled => ?_⟩
    have moved : ¬ (invoice.status = .pending ∧ row.reorged = false ∧ now ≤ invoice.expiresAt) := by
      rintro ⟨pending, -⟩
      rw [pending] at settled
      rcases settled with wrong | wrong <;> cases wrong
    simp only [if_neg moved]
    exact settled
  · exact ⟨rfl, rfl, rfl, id⟩

/-- A payment was written: what is left to show is about the rows of the invoice. -/
theorem Kept.of_recorded {rows : List Payment} (recorded : Recorded now row rows db db')
    (confirmed : AllConfirmed db' invoiceId → AllConfirmed db invoiceId)
    (total : AllConfirmed db' invoiceId →
      creditedTotal rows invoiceId = creditedTotal db.payments.rows invoiceId) : Kept invoiceId db db' := by
  obtain ⟨sum, _, isInvoices⟩ := recorded.invoices
  refine ⟨invoice_of_map (onPayment_keeps now row sum) isInvoices, confirmed, ?_,
    recorded.catalog.settlementSettings⟩
  intro all
  rw [recorded.payments]
  exact total all

theorem Kept.of_statusWritten {id : Uuid} (other : id ≠ invoiceId) (written : StatusWritten id status db db') :
    Kept invoiceId db db' := by
  refine ⟨?_, ?_, ?_, written.catalog.settlementSettings⟩
  · intro invoice' found
    obtain ⟨mem, isId⟩ := Table.find?_eq_some.mp found
    obtain ⟨old, isOld, isNew⟩ := getInvoice_of_map (fun invoice => by simp) written.invoices mem
    have sameId : old.id = invoice'.id := (Table.find?_eq_some.mp isOld).2
    have unwritten : invoice' = old := by
      rw [isNew, Invoice.withStatus, if_neg]
      rw [sameId, isId]
      exact Ne.symm other
    rw [isId] at isOld
    rw [unwritten]
    exact ⟨old, isOld, rfl, rfl, fun settled => settled⟩
  · intro all
    rwa [AllConfirmed, written.payments] at all
  · intro _
    rw [written.payments]

/-- A detected payment is unconfirmed where it is new, and where it is known changes no live credit. -/
theorem Kept.of_upserted (upserted : Upserted now row db db') (unconfirmed : row.confirmedAt = none)
    (live : row.reorged = false) (calm : ¬ Disturbs invoiceId db db') : Kept invoiceId db db' := by
  cases upserted with
  | updated existing mem same recorded =>
    have memOf : ∀ payment ∈ db.payments.rows,
        (if payment.id = existing.id then payment.absorb row else payment) ∈ db'.payments.rows := by
      intro payment memPayment
      rw [recorded.payments]
      exact List.mem_map_of_mem memPayment
    refine Kept.of_recorded recorded ?_ fun _ => ?_
    · intro all payment memPayment own isLive
      have here := all _ (memOf payment memPayment)
      by_cases changed : payment.id = existing.id
      · rw [if_pos changed] at here
        simpa [Payment.absorb, unconfirmed] using here own isLive
      · rw [if_neg changed] at here
        exact here own isLive
    unfold creditedTotal changeRow
    rw [List.map_map]
    refine congrArg List.sum (List.map_congr_left fun payment memPayment => ?_)
    simp only [Function.comp_apply]
    split
    next changed =>
      unfold Payment.creditTo
      by_cases own : payment.invoiceId = invoiceId ∧ payment.reorged = false
      · have sameCredit : (payment.absorb row).creditedAmount = payment.creditedAmount := by
          by_contra differs
          refine calm ⟨payment, memPayment, own.1, own.2, _, memOf payment memPayment, ?_, ?_⟩
          · rw [if_pos changed]
            rfl
          · rw [if_pos changed]
            exact .inr differs
        rw [sameCredit]
        rfl
      · have own' : ¬ ((payment.absorb row).invoiceId = invoiceId ∧
            (payment.absorb row).reorged = false) := own
        rw [if_neg own, if_neg own']
    · rfl
  | inserted freshKey freshId recorded =>
    refine Kept.of_recorded recorded ?_ fun all => ?_
    · intro all payment memPayment
      refine all payment ?_
      rw [recorded.payments]
      exact List.mem_append_left _ memPayment
    have other : row.invoiceId ≠ invoiceId := by
      intro own
      refine all row ?_ own live unconfirmed
      rw [recorded.payments]
      exact List.mem_append_right _ (List.mem_singleton_self row)
    rw [creditedTotal_append]
    simp [creditedTotal, creditTo_of_ne other]

theorem Kept.of_marked (other : event.invoiceId ≠ invoiceId) (isMarked : Marked event db db') :
    Kept invoiceId db db' := by
  obtain ⟨payment, now, found, done⟩ := isMarked
  obtain ⟨mem, ofInvoice, _⟩ := getByTxIndex_some found
  obtain ⟨row, memRow, sameId, _, recorded⟩ := markConfirmed_ok done
  obtain rfl := db.payments.eq_of_key memRow mem sameId
  have notOwn : row.invoiceId ≠ invoiceId := by rwa [ofInvoice]
  refine Kept.of_recorded recorded ?_ fun _ =>
    creditedTotal_changeRow_of_ne mem (Payment.identity_confirm _) notOwn
  intro all payment memPayment own isLive
  refine all payment ?_ own isLive
  have unchanged : payment.id ≠ row.id := by
    intro same
    rw [db.payments.eq_of_key memPayment mem same] at own
    exact notOwn own
  rw [recorded.payments]
  exact List.mem_map.mpr ⟨payment, memPayment, if_neg unchanged⟩

theorem Kept.of_expire (id : Uuid) : Kept invoiceId db (expire id db) := by
  refine ⟨fun found => invoice_of_map ?_ rfl found, fun all => all, fun _ => rfl, rfl⟩
  intro invoice
  split
  next isOpen =>
    refine ⟨invoice.id_withStatus id .expired, ?_, ?_, ?_⟩
    · unfold Invoice.withStatus
      split <;> rfl
    · unfold Invoice.withStatus
      split <;> rfl
    · intro settled
      rcases settled with paid | late
      · simp [paid] at isOpen
      · simp [late] at isOpen
  · exact ⟨rfl, rfl, rfl, fun settled => settled⟩

theorem id_retractedInvoice (base : Db) (goal written : List Uuid) (received : Uuid → Numeric 78 18)
    (invoice : Invoice) : (retractedInvoice base goal written received invoice).id = invoice.id := rfl

/-- A whole retraction that retracts no live payment of the invoice. -/
theorem Kept.of_retraction {event : ReorgDetected} {delivery : Delivery}
    (state : Retracting db (retractionIds event db)
      ((retractionPlan delivery event db).flatMap groupIds)
      ((retractionPlan delivery event db).flatMap (opened db)) db')
    (calm : ¬ Disturbs invoiceId db db') : Kept invoiceId db db' := by
  have memOf : ∀ payment ∈ db.payments.rows, (if payment.id ∈
      (retractionPlan delivery event db).flatMap groupIds then payment.retract else payment) ∈
        db'.payments.rows := by
    intro payment mem
    rw [state.payments]
    exact List.mem_map_of_mem mem
  -- the retracted payments are live, so none of them is the invoice's
  have notOwn : ∀ payment ∈ retractions event db, payment.invoiceId ≠ invoiceId := by
    intro payment inside own
    obtain ⟨mem, _, _, isLive, _⟩ := mem_retractions.mp inside
    have marked : payment.id ∈ (retractionPlan delivery event db).flatMap groupIds :=
      (mem_planIds delivery).mpr ((mem_retractionIds mem).mpr inside)
    refine calm ⟨payment, mem, own, isLive, _, memOf payment mem, ?_, ?_⟩
    · rw [if_pos marked]
      rfl
    · rw [if_pos marked]
      exact .inl rfl
  have unmarked : ∀ payment ∈ db.payments.rows, payment.invoiceId = invoiceId →
      payment.id ∉ (retractionPlan delivery event db).flatMap groupIds := by
    intro payment mem own marked
    exact notOwn payment ((mem_retractionIds mem).mp ((mem_planIds delivery).mp marked)) own
  refine ⟨?_, ?_, ?_, state.catalog.settlementSettings⟩
  · intro invoice' found
    obtain ⟨received, isInvoices, _⟩ := state.invoices
    obtain ⟨mem, isId⟩ := Table.find?_eq_some.mp found
    obtain ⟨old, isOld, isNew⟩ := getInvoice_of_map
      (fun invoice => id_retractedInvoice db _ _ received invoice) isInvoices mem
    have sameId : old.id = invoiceId := (Table.find?_eq_some.mp isOld).2.trans isId
    have unwritten : old.id ∉ (retractionPlan delivery event db).flatMap (opened db) := by
      intro written
      obtain ⟨⟨payment, inside, own⟩, _⟩ := (mem_planOpened delivery).mp written
      exact notOwn payment inside (own.trans sameId)
    rw [isId] at isOld
    refine ⟨old, isOld, by rw [isNew]; rfl, by rw [isNew]; rfl, fun settled => ?_⟩
    rw [isNew, retractedInvoice]
    simp only [if_neg unwritten]
    exact settled
  · intro all payment mem own isLive
    have here := all _ (memOf payment mem)
    rw [if_neg (unmarked payment mem own)] at here
    exact here own isLive
  intro _
  rw [state.payments]
  unfold creditedTotal retractRows
  rw [List.map_map]
  refine congrArg List.sum (List.map_congr_left fun payment mem => ?_)
  simp only [Function.comp_apply]
  split
  next marked =>
    have other : payment.invoiceId ≠ invoiceId := fun own => unmarked payment mem own marked
    rw [creditTo_retract, creditTo_of_ne other]
  · rfl

end Kept

variable {divide : Division}

theorem kept_of_write {db : Db} {action : SettlingAction} (succeeds : action.Succeeds divide db)
    (silent : ¬ action.Confirms invoiceId db) (calm : ¬ Disturbs invoiceId db (action.write divide db)) :
    Kept invoiceId db (action.write divide db) := by
  cases action with
  | expire id => exact Kept.of_expire id
  | apply delivery event clock =>
    cases event with
    | notice chainId => exact Kept.of_sameMoney (SameMoney.refl db)
    | paymentDetected event =>
      have spec : Proc.Triple (Proc.uninterrupted clock) (· = db)
          (handlePaymentDetected divide delivery event) _ _ :=
        handlePaymentDetected_spec divide delivery event
      obtain ⟨now, payment, txIndex, _, isDescribed, done⟩ := (spec 0 db rfl).of_ok succeeds
      obtain ⟨row, isRow, upserted⟩ := upsertWithTxIndexAndObligation_ok done
      have proposes := PaymentData.toRow_ok isRow
      exact Kept.of_upserted upserted
        (proposes.confirmedAt.trans (confirmedAt_of_described isDescribed)) proposes.reorged calm
    | paymentConfirmed event =>
      have spec : Proc.Triple (Proc.uninterrupted clock) (· = db) (handlePaymentConfirmed event) _ _ :=
        handlePaymentConfirmed_spec event
      rcases (spec 0 db rfl).of_ok succeeds with ⟨_, same⟩ | ⟨marked, isMarked, settles⟩
      · have unchanged : (SettlingAction.apply delivery (.paymentConfirmed event) clock).write divide
            db = db := same
        rw [unchanged]
        exact Kept.of_sameMoney (SameMoney.refl db)
      obtain ⟨payment, now, found, done⟩ := isMarked
      have other : event.invoiceId ≠ invoiceId := by
        intro own
        exact silent ⟨own, by rw [found]; exact Option.some_ne_none payment⟩
      refine (Kept.of_marked other ⟨payment, now, found, done⟩).trans ?_
      unfold Settled at settles
      split at settles
      · exact Kept.of_sameMoney settles
      · exact Kept.of_statusWritten other settles
    | reorgDetected event =>
      by_cases verifiable : event.survivorsVerifiable = true
      · exact Kept.of_retraction (retraction_whole delivery clock verifiable
          (sinks_of_succeeds verifiable succeeds)).2 calm
      have skips : handleReorgDetected delivery event = pure () := by
        simp [handleReorgDetected, verifiable]
      have unchanged : (SettlingAction.apply delivery (.reorgDetected event) clock).write divide
          db = db := by
        simp only [SettlingAction.write, applied, handleEvent, skips]
        rfl
      rw [unchanged]
      exact Kept.of_sameMoney (SameMoney.refl db)

/-! ## Steps that confirm -/

def StaysOpen (invoiceId : Uuid) (db : Db) : Prop :=
  ∀ invoice, getInvoice invoiceId db = some invoice →
    invoice.status ≠ .cancelled ∧ invoice.status ≠ .refunded

section Confirms

variable {db db' : Db}

theorem StaysOpen.of_map (stays : StaysOpen invoiceId db) (keeps : ∀ invoice, (change invoice).id = invoice.id)
    (statuses : ∀ invoice, (change invoice).status = invoice.status ∨
      ((change invoice).status ≠ .cancelled ∧ (change invoice).status ≠ .refunded))
    (isInvoices : db'.invoices.rows = db.invoices.rows.map change) : StaysOpen invoiceId db' := by
  intro invoice' found
  obtain ⟨mem, isId⟩ := Table.find?_eq_some.mp found
  obtain ⟨old, isOld, rfl⟩ := getInvoice_of_map keeps isInvoices mem
  rw [isId] at isOld
  rcases statuses old with same | fine
  · rw [same]
    exact stays old isOld
  · exact fine

theorem StaysOpen.recorded (stays : StaysOpen invoiceId db) {rows : List Payment}
    (recorded : Recorded now row rows db db') : StaysOpen invoiceId db' := by
  obtain ⟨total, _, isInvoices⟩ := recorded.invoices
  refine stays.of_map (by simp) (fun invoice => ?_) isInvoices
  unfold Invoice.onPayment
  split
  · dsimp only
    split
    · exact .inr ⟨nofun, nofun⟩
    · exact .inl rfl
  · exact .inl rfl

theorem StaysOpen.written (stays : StaysOpen invoiceId db) {id : Uuid}
    (fine : status ≠ .cancelled ∧ status ≠ .refunded) (written : StatusWritten id status db db') :
    StaysOpen invoiceId db' := by
  refine stays.of_map (by simp) (fun invoice => ?_) written.invoices
  unfold Invoice.withStatus
  split
  · exact .inr fine
  · exact .inl rfl

theorem isSettled_of_settlement (decided : settlement invoiceId db = some status) : IsSettled status := by
  obtain ⟨_, _, _, _, _, _, settles⟩ := settlement_some decided
  exact (settledStatus_some settles).imp (fun paid => paid.2) fun late => late.2

theorem StaysOpen.write {event : MonitorEvent} (write : Write divide event db db')
    (stays : StaysOpen invoiceId db) : StaysOpen invoiceId db' := by
  rcases write.kinds with ⟨_, _, _, recorded⟩ | ⟨_, _, _, _, _, recorded⟩ |
    ⟨_, _, written, ⟨_, _, decided⟩ | ⟨_, isStatus⟩⟩ | same
  · exact stays.recorded recorded
  · exact stays.recorded recorded
  · refine stays.written ?_ written
    rcases isSettled_of_settlement decided with rfl | rfl <;> exact ⟨nofun, nofun⟩
  · refine stays.written ?_ written
    rcases isStatus with rfl | rfl <;> exact ⟨nofun, nofun⟩
  · intro invoice found
    rw [getInvoice_of_sameMoney same] at found
    exact stays invoice found

theorem StaysOpen.action (action : SettlingAction) (stays : StaysOpen invoiceId db) :
    StaysOpen invoiceId (action.write divide db) := by
  cases action with
  | apply delivery event clock =>
    have writes : Proc.Writes (Write divide event) (handleEvent divide delivery event) :=
      handleEvent_writes delivery event
    exact writes.preserves (fun write stays => StaysOpen.write write stays) _ 0 stays
  | expire id =>
    refine stays.of_map (fun invoice => ?_) (fun invoice => ?_) rfl
    · split
      · exact invoice.id_withStatus id .expired
      · rfl
    split
    · unfold Invoice.withStatus
      split
      · exact .inr ⟨nofun, nofun⟩
      · exact .inl rfl
    · exact .inl rfl

/-- The trigger of the mark opens an invoice that has not run out. -/
theorem not_pending_of_marked
    (found : getByTxIndex event.invoiceId (hashText event.txHash) event.txIndex db = some payment)
    (done : markConfirmed payment.id event.confirmedAt now db = .ok ((), db'))
    (inTime : ∀ invoice, getInvoice event.invoiceId db = some invoice → invoice.status = .pending →
      now ≤ invoice.expiresAt) (isInvoice : getInvoice event.invoiceId db' = some invoice') :
    invoice'.status ≠ .pending := by
  obtain ⟨mem, ofInvoice, _, _, live⟩ := getByTxIndex_some found
  obtain ⟨row, memRow, sameId, _, recorded⟩ := markConfirmed_ok done
  obtain rfl := db.payments.eq_of_key memRow mem sameId
  obtain ⟨total, _, isInvoices⟩ := recorded.invoices
  obtain ⟨memInvoice, isId⟩ := Table.find?_eq_some.mp isInvoice
  obtain ⟨old, isOld, rfl⟩ := getInvoice_of_map (fun invoice => by simp) isInvoices memInvoice
  rw [isId] at isOld
  have here : old.id = (row.confirm event.confirmedAt).invoiceId :=
    (Table.find?_eq_some.mp isOld).2.trans ofInvoice.symm
  rw [Invoice.onPayment, if_pos here]
  by_cases pending : old.status = .pending
  · have moves : old.status = .pending ∧ (row.confirm event.confirmedAt).reorged = false ∧
        now ≤ old.expiresAt := ⟨pending, live, inTime old isOld pending⟩
    simp only [if_pos moves]
    rintro ⟨⟩
  · have stays : ¬ (old.status = .pending ∧ (row.confirm event.confirmedAt).reorged = false ∧
        now ≤ old.expiresAt) := fun moves => pending moves.1
    simp only [if_neg stays]
    exact pending

theorem settlement_of_covers (found : getInvoice invoiceId db = some invoice) (covers : Covers db invoice) :
    settlement invoiceId db = settledStatus invoice.status := by
  unfold Covers at covers
  unfold settlement
  cases isTolerance : effectiveTolerance (getSettlementTolerance invoice.storeId db) with
  | error e => simp [isTolerance] at covers
  | ok result =>
    obtain ⟨tolerancePercent, source⟩ := result
    simp only [isTolerance] at covers
    simp only [found, isTolerance, covers, if_true]

theorem covers_of_sameColumns (settings : db'.settlementSettings = db.settlementSettings)
    (store : invoice'.storeId = invoice.storeId) (amount : invoice'.amount = invoice.amount)
    (received : invoice'.amountReceived = invoice.amountReceived) (covers : Covers db' invoice') :
    Covers db invoice := by
  unfold Covers getSettlementTolerance at covers ⊢
  rwa [settings, store, amount, received] at covers

/-- A successful confirmation leaves its invoice settled if it is covered. -/
theorem settled_of_confirmed {delivery : Delivery} {clock : Nat → Time} (stays : StaysOpen event.invoiceId db)
    (found : getByTxIndex event.invoiceId (hashText event.txHash) event.txIndex db = some payment)
    (inTime : ∀ invoice, getInvoice event.invoiceId db = some invoice → invoice.status = .pending →
      ∀ i, clock i ≤ invoice.expiresAt)
    (succeeds : (applied divide delivery (.paymentConfirmed event) clock db).result = .ok ())
    (isInvoice : getInvoice event.invoiceId
      (applied divide delivery (.paymentConfirmed event) clock db).state = some invoice')
    (covers : Covers (applied divide delivery (.paymentConfirmed event) clock db).state invoice') :
    IsSettled invoice'.status := by
  have reads := confirmed_after_read divide delivery found
    (show (Proc.uninterrupted clock : World EventConsumerError Time) 0 = .ok (clock 0) from rfl)
  rw [applied, reads] at succeeds isInvoice covers
  cases done : markConfirmed payment.id event.confirmedAt (clock 1) db with
  | error e =>
    have refused : statement (markConfirmed payment.id event.confirmedAt)
        (Proc.uninterrupted clock) 1 db = ⟨.error (.database e), 2, db⟩ :=
      Proc.call_of_refused rfl (by rw [done]; rfl)
    rw [refused] at succeeds
    cases succeeds
  | ok result =>
    obtain ⟨_, marked⟩ := result
    have marks : statement (markConfirmed payment.id event.confirmedAt)
        (Proc.uninterrupted clock) 1 db = ⟨.ok (), 2, marked⟩ := statement_of_ok _ rfl done
    rw [marks, Outcome.andThen_ok] at succeeds isInvoice covers
    have written : Write divide (.paymentConfirmed event) db marked :=
      .marked ⟨payment, clock 1, found, done⟩
    have staysMarked : StaysOpen event.invoiceId marked := StaysOpen.write written stays
    have spec : Proc.Triple (Proc.uninterrupted clock) (· = marked) (settleInvoice event.invoiceId) _ _ :=
      settleInvoice_spec event.invoiceId
    have settles := (spec 2 marked rfl).of_ok succeeds
    unfold Settled at settles
    split at settles
    next undecided =>
      rw [getInvoice_of_sameMoney settles] at isInvoice
      have coversMarked := covers_of_sameColumns settles.catalog.settlementSettings rfl rfl rfl covers
      rw [settlement_of_covers isInvoice coversMarked] at undecided
      have notPending := not_pending_of_marked found done
        (fun invoice isOld pending => inTime invoice isOld pending 1) isInvoice
      obtain ⟨notCancelled, notRefunded⟩ := staysMarked invoice' isInvoice
      cases status : invoice'.status <;> simp_all [settledStatus, IsSettled]
    next status decided =>
      obtain ⟨mem, isId⟩ := Table.find?_eq_some.mp isInvoice
      obtain ⟨old, isOld, rfl⟩ := getInvoice_of_map (fun invoice => by simp) settles.invoices mem
      rw [Invoice.id_withStatus] at isId
      rw [Invoice.withStatus, if_pos isId]
      exact isSettled_of_settlement decided

end Confirms

/-! ## Runs -/

/-- What holds in every state of a run whose confirmations are in time. -/
structure SettlesCovered (invoiceId : Uuid) (state : Settling) : Prop where
  exact : TotalsExact state.db
  stays : StaysOpen invoiceId state.db
  settled : state.disturbed = false → ∀ invoice, getInvoice invoiceId state.db = some invoice →
    AllConfirmed state.db invoiceId → Covers state.db invoice → IsSettled invoice.status

variable {state : Settling}

theorem SettlesCovered.of_initial (start : (settling divide invoiceId).initial state) :
    SettlesCovered invoiceId state := by
  obtain ⟨opened, _⟩ := start
  obtain ⟨invoice, found, pending, nothing, positive⟩ := opened.invoice
  refine ⟨totalsExact_of_server opened.reached, ?_, ?_⟩
  · intro other isOther
    obtain rfl : invoice = other := Option.some.inj (found.symm.trans isOther)
    rw [pending]
    exact ⟨nofun, nofun⟩
  -- nothing received does not cover a positive amount
  intro _ other isOther _ covers
  obtain rfl : invoice = other := Option.some.inj (found.symm.trans isOther)
  obtain ⟨tolerance, source, isTolerance, nonneg, bounded⟩ :=
    effectiveTolerance_total invoice.storeId state.db
  rw [Covers, isTolerance] at covers
  have settles := of_decide_eq_true covers
  rw [nothing, Numeric.toRat_zero, zero_add, allowance] at settles
  nlinarith

theorem SettlesCovered.step {invoiceId : Uuid} {state' : Settling} {action : SettlingAction}
    (holds : SettlesCovered invoiceId state)
    (step : ((settling divide invoiceId).restrict (InTime invoiceId)).step state action state') :
    SettlesCovered invoiceId state' := by
  obtain ⟨⟨succeeds, rfl⟩, inTime⟩ := step
  have exact' : TotalsExact (action.write divide state.db) := by
    cases action with
    | apply delivery event clock =>
      have writes : Proc.Writes (Write divide event) (handleEvent divide delivery event) :=
        handleEvent_writes delivery event
      exact writes.preserves (fun write exact => exact.write write) _ 0 holds.exact
    | expire id => exact (Statement.expire id).perform_exact holds.exact
  refine ⟨exact', holds.stays.action action, ?_⟩
  intro undisturbed invoice' found all covers
  by_cases confirms : action.Confirms invoiceId state.db
  · cases action with
    | expire id => exact confirms.elim
    | apply delivery event clock =>
      cases event with
      | paymentConfirmed event =>
        obtain ⟨rfl, isFound⟩ := confirms
        obtain ⟨payment, isPayment⟩ := Option.ne_none_iff_exists'.mp isFound
        exact settled_of_confirmed holds.stays isPayment
          (inTime delivery event clock rfl rfl) succeeds found covers
      | paymentDetected event => exact confirms.elim
      | reorgDetected event => exact confirms.elim
      | notice chainId => exact confirms.elim
  simp only [Settling.perform, if_neg confirms, Bool.or_eq_false_iff, decide_eq_false_iff_not]
    at undisturbed
  have kept := kept_of_write succeeds confirms undisturbed.2
  obtain ⟨invoice, isInvoice, sameAmount, sameStore, staysSettled⟩ := kept.invoice found
  obtain ⟨mem, isId⟩ := Table.find?_eq_some.mp isInvoice
  obtain ⟨mem', isId'⟩ := Table.find?_eq_some.mp found
  have sameReceived : invoice'.amountReceived = invoice.amountReceived := by
    refine Numeric.ext ?_
    rw [exact' invoice' mem', holds.exact invoice mem, isId, isId']
    exact kept.total all
  refine staysSettled (holds.settled undisturbed.1 invoice isInvoice (kept.confirmed all) ?_)
  exact covers_of_sameColumns kept.settings sameStore sameAmount sameReceived covers

/--
In every run whose confirmations are in time, a covered invoice all of whose live
payments are confirmed is settled, or its live credits were disturbed since its
last confirmation: a reorganisation retracted one of its payments, or a repeated
detection changed what one of them credits.
-/
theorem covered_settled (divide : Division) (invoiceId : Uuid) {state : Settling}
    (reached : ((settling divide invoiceId).restrict (InTime invoiceId)).Reachable state)
    {invoice : Invoice} (found : getInvoice invoiceId state.db = some invoice)
    (confirmed : AllConfirmed state.db invoiceId) (covers : Covers state.db invoice) :
    state.disturbed = true ∨ invoice.status = .paid ∨ invoice.status = .latePaid := by
  have holds : SettlesCovered invoiceId state := by
    refine reached.invariant (I := SettlesCovered invoiceId) ?_ ?_
    · intro start isInitial
      exact SettlesCovered.of_initial isInitial
    · intro before action after _ holds step
      exact holds.step step
  cases disturbed : state.disturbed with
  | true => exact .inl rfl
  | false => exact .inr (holds.settled disturbed invoice found confirmed covers)

/-! ## Covered invoices that are left open -/

theorem settling_perform {legal : Settling → SettlingAction → Prop}
    (reached : ((settling divide invoiceId).restrict legal).Reachable state)
    (action : SettlingAction) (succeeds : action.Succeeds divide state.db)
    (isLegal : legal state action) :
    ((settling divide invoiceId).restrict legal).Reachable (state.perform divide invoiceId action) :=
  reached.snoc (show ((settling divide invoiceId).restrict legal).step state action _ from
    ⟨⟨succeeds, rfl⟩, isLegal⟩)

/-- A new invoice over one coin. -/
def openedSample : Settling := ⟨sampleDb, false⟩

/-- A payment of the given amount is reported at the given time. -/
def detects (amount : Evm.U256) (now : Time) : SettlingAction :=
  .apply (sampleDelivery 1) (.paymentDetected (sampleDetected 7 amount)) fun _ => now

def confirms (amount : Evm.U256) (now : Time) : SettlingAction :=
  .apply (sampleDelivery 2) (.paymentConfirmed (sampleConfirmed 7 amount)) fun _ => now

def filedSample (amount : Evm.U256) (now : Time) : Settling :=
  openedSample.perform (· / ·) 1 (detects amount now)

def confirmedSample (amount : Evm.U256) (now : Time) : Settling :=
  (filedSample amount now).perform (· / ·) 1 (confirms amount now)

def overpaidSample : Settling := (confirmedSample (10 ^ 18) 0).perform (· / ·) 1
  (.apply (sampleDelivery 3) (.paymentDetected { sampleDetected 9 1 with blockNumber := 12 }) fun _ => 0)

/-- A reorganisation from block 11 on that drops the second payment. -/
def reopenedSample : Settling := overpaidSample.perform (· / ·) 1
  (.apply (sampleDelivery 4) (.reorgDetected ⟨1, 11, 0, 1, 2, [], [], true, 0⟩) fun _ => 0)

/-- The only payment, over half a coin, is reported again with a whole coin. -/
def recreditedSample : Settling :=
  (confirmedSample (5 * 10 ^ 17) 0).perform (· / ·) 1 (detects (10 ^ 18) 0)

theorem openedSample_reachable {legal : Settling → SettlingAction → Prop} :
    ((settling (· / ·) 1).restrict legal).Reachable openedSample := by
  refine System.Reachable.of_initial ⟨⟨sampleDb_reachable, ?_⟩, rfl⟩
  exact ⟨⟨1, 1, ⟨10 ^ 18, by decide⟩, 0, .pending, 100⟩, by decide +kernel, rfl, rfl, by decide +kernel⟩

theorem confirmedSample_reachable {amount : Evm.U256}
    (files : (detects amount 0).Succeeds (· / ·) sampleDb)
    (marks : (confirms amount 0).Succeeds (· / ·) (filedSample amount 0).db)
    (isOpen : (getInvoice 1 (filedSample amount 0).db).map Invoice.status = some .processing) :
    ((settling (· / ·) 1).restrict (InTime 1)).Reachable (confirmedSample amount 0) := by
  have filed : ((settling (· / ·) 1).restrict (InTime 1)).Reachable (filedSample amount 0) :=
    settling_perform openedSample_reachable _ files (by rintro _ _ _ ⟨⟩)
  refine settling_perform filed _ marks ?_
  -- the detected payment has opened the invoice
  intro delivery event clock isAction _ invoice found pending
  rw [found, Option.map_some, pending] at isOpen
  cases isOpen

theorem settledSample_reachable :
    ((settling (· / ·) 1).restrict (InTime 1)).Reachable (confirmedSample (10 ^ 18) 0) :=
  confirmedSample_reachable (by decide +kernel) (by decide +kernel) (by decide +kernel)

theorem covered_settled_sample : ∃ invoice, getInvoice 1 (confirmedSample (10 ^ 18) 0).db = some invoice ∧
    AllConfirmed (confirmedSample (10 ^ 18) 0).db 1 ∧ Covers (confirmedSample (10 ^ 18) 0).db invoice ∧
    ((confirmedSample (10 ^ 18) 0).disturbed = true ∨ invoice.status = .paid ∨
      invoice.status = .latePaid) := by
  have facts : getInvoice 1 (confirmedSample (10 ^ 18) 0).db =
      some ⟨1, 1, ⟨10 ^ 18, by decide⟩, ⟨10 ^ 18, by decide⟩, .paid, 100⟩ ∧
      AllConfirmed (confirmedSample (10 ^ 18) 0).db 1 ∧ Covers (confirmedSample (10 ^ 18) 0).db
        ⟨1, 1, ⟨10 ^ 18, by decide⟩, ⟨10 ^ 18, by decide⟩, .paid, 100⟩ := by decide +kernel
  obtain ⟨found, confirmed, covers⟩ := facts
  exact ⟨_, found, confirmed, covers,
    covered_settled (· / ·) 1 settledSample_reachable found confirmed covers⟩

/-- The first invoice is covered by confirmed payments and has the given status. -/
def CoveredAs (status : InvoiceStatus) (state : Settling) : Prop :=
  ∃ invoice ∈ state.db.invoices.rows, invoice.id = 1 ∧ AllConfirmed state.db 1 ∧
    Covers state.db invoice ∧ invoice.status = status

instance (status : InvoiceStatus) (state : Settling) : Decidable (CoveredAs status state) := by
  unfold CoveredAs
  infer_instance

/--
A reorganisation and a repeated detection leave a covered invoice open, and so does
a confirmation that comes before the expiry of an overdue invoice.
-/
theorem covered_left_processing :
    ((settling (· / ·) 1).restrict (InTime 1)).Reachable reopenedSample ∧
      CoveredAs .processing reopenedSample ∧
    ((settling (· / ·) 1).restrict (InTime 1)).Reachable recreditedSample ∧
      CoveredAs .processing recreditedSample ∧
    ((settling (· / ·) 1).restrict fun _ _ => True).Reachable (confirmedSample (10 ^ 18) 101) ∧
      CoveredAs .pending (confirmedSample (10 ^ 18) 101) := by
  have half : ((settling (· / ·) 1).restrict (InTime 1)).Reachable (confirmedSample (5 * 10 ^ 17) 0) :=
    confirmedSample_reachable (by decide +kernel) (by decide +kernel) (by decide +kernel)
  refine ⟨settling_perform (settling_perform settledSample_reachable _ ?_ ?_) _ ?_ ?_, by decide +kernel,
    settling_perform half _ ?_ ?_, by decide +kernel,
    settling_perform (settling_perform openedSample_reachable _ ?_ trivial) _ ?_ trivial,
    by decide +kernel⟩
  all_goals first | decide +kernel | rintro _ _ _ ⟨⟩

end EthPayServer.Pipeline
