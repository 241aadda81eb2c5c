import EthPayServer.Consumer.Acceptance
import EthPayServer.Pipeline.Server

/-!
# The received total

`amount_received` is written by the trigger on `payments` alone.  Every statement
that can change the sum of an invoice's live credits writes a row of that invoice,
and so makes the trigger sum it again.
-/

namespace EthPayServer.Pipeline

open Lib Data Consumer
open Evm (Time Uuid)

/-- One statement with its trigger; the creation of an invoice is one transaction. -/
inductive Statement where
  | createInvoice (invoice : InvoiceData) (options : List PaymentOptionData)
  | upsertPayment (payment : PaymentData) (txIndex : Int) (now : Time)
  | markConfirmed (id : Uuid) (confirmedAt now : Time)
  | markPaymentReorged (id : Uuid) (now : Time)
  | updateStatus (id : Uuid) (status : InvoiceStatus)
  | expire (id : Uuid)

variable (statement : Statement)

namespace Statement

def run (statement : Statement) (db : Db) : Except RepositoryError Db :=
  match statement with
  | createInvoice invoice options => createInvoiceWithOptions invoice options db
  | upsertPayment payment txIndex now => (upsertPaymentRow payment txIndex now db).map Prod.snd
  | markConfirmed id confirmedAt now => (Data.markConfirmed id confirmedAt now db).map Prod.snd
  | markPaymentReorged id now => (Data.markPaymentReorged id now db).map Prod.snd
  | updateStatus id status => (Data.updateStatus id status db).map Prod.snd
  | expire id => .ok (Data.expire id db)

/-- A statement that fails changes nothing. -/
def perform (statement : Statement) (db : Db) : Db :=
  match statement.run db with
  | .ok written => written
  | .error _ => db

end Statement

/-- Statements on the payment tables in any order, from the empty tables on. -/
def statements : System Db Statement where
  initial db := db = Db.empty
  step db statement db' := db' = statement.perform db

/-- The credits of an invoice's own payments that are not reorged, in units of the column. -/
def liveCredits (db : Db) (invoiceId : Uuid) : List Int :=
  (db.payments.rows.filter fun payment => payment.invoiceId = invoiceId ∧ payment.reorged = false).map
    fun payment => (payment.creditedAmount.map Numeric.units).getD 0

theorem creditedTotal_eq_sum_liveCredits (invoiceId : Uuid) :
    creditedTotal db.payments.rows invoiceId = (liveCredits db invoiceId).sum := by
  unfold creditedTotal liveCredits
  induction db.payments.rows with
  | nil => rfl
  | cons payment rest ih =>
    rw [List.map_cons, List.sum_cons, ih, Payment.creditTo, List.filter_cons]
    by_cases own : payment.invoiceId = invoiceId ∧ payment.reorged = false
    · rw [if_pos own, if_pos (decide_eq_true own), List.map_cons, List.sum_cons]
    · rw [if_neg own, if_neg (by simpa using own), zero_add]

/-! ## What a statement keeps -/

def TotalsExact (db : Db) : Prop :=
  ∀ invoice ∈ db.invoices.rows,
    invoice.amountReceived.units = creditedTotal db.payments.rows invoice.id

variable {now : Time} {row : Payment} {divide : Division}

namespace TotalsExact

variable {db db' : Db}

theorem empty : TotalsExact Db.empty := by
  intro invoice mem
  cases mem

/-- A statement that writes neither payments nor received amounts. -/
theorem of_invoices (exact : TotalsExact db) {change : Invoice → Invoice}
    (keeps : ∀ invoice, (change invoice).id = invoice.id ∧
      (change invoice).amountReceived = invoice.amountReceived)
    (isInvoices : db'.invoices.rows = db.invoices.rows.map change)
    (samePayments : db'.payments = db.payments) : TotalsExact db' := by
  intro invoice mem
  rw [isInvoices] at mem
  obtain ⟨old, memOld, rfl⟩ := List.mem_map.mp mem
  rw [(keeps old).1, (keeps old).2, samePayments]
  exact exact old memOld

theorem of_sameInvoices (exact : TotalsExact db) (sameInvoices : db'.invoices = db.invoices)
    (samePayments : db'.payments = db.payments) : TotalsExact db' :=
  exact.of_invoices (fun _ => ⟨rfl, rfl⟩) (by rw [sameInvoices, List.map_id']) samePayments

/-- The trigger sums the invoice of the written row; the other totals must not have changed. -/
theorem recorded (exact : TotalsExact db) {rows : List Payment} (recorded : Recorded now row rows db db')
    (others : ∀ invoiceId, row.invoiceId ≠ invoiceId →
      creditedTotal rows invoiceId = creditedTotal db.payments.rows invoiceId) : TotalsExact db' := by
  obtain ⟨total, isTotal, isInvoices⟩ := recorded.invoices
  intro invoice mem
  rw [isInvoices] at mem
  obtain ⟨old, memOld, rfl⟩ := List.mem_map.mp mem
  rw [Invoice.id_onPayment, recorded.payments, Invoice.onPayment]
  by_cases here : old.id = row.invoiceId
  · rw [if_pos here, here]
    exact isTotal
  · rw [if_neg here, others old.id (Ne.symm here)]
    exact exact old memOld

/-- A row that was changed in place belongs to the invoice it belonged to. -/
theorem changed (exact : TotalsExact db) (mem : row ∈ db.payments.rows) {change : Payment → Payment}
    (keeps : ∀ payment, (change payment).identity = payment.identity)
    (isRecorded : Recorded now (change row) (changeRow row.id change db.payments.rows) db db') :
    TotalsExact db' := by
  refine exact.recorded isRecorded fun invoiceId other => ?_
  refine creditedTotal_changeRow_of_ne mem keeps ?_
  rwa [← Db.invoiceId_of_identity (keeps row)]

theorem inserted (exact : TotalsExact db) (isRecorded : Recorded now row (db.payments.rows ++ [row]) db db') :
    TotalsExact db' := by
  refine exact.recorded isRecorded fun invoiceId other => ?_
  rw [creditedTotal_append]
  simp [creditedTotal, creditTo_of_ne other]

theorem upserted (exact : TotalsExact db) (upserted : Upserted now row db db') : TotalsExact db' := by
  cases upserted with
  | updated existing mem same isRecorded =>
    exact exact.changed mem (fun payment => payment.identity_absorb row) isRecorded
  | inserted freshKey freshId isRecorded => exact exact.inserted isRecorded

/-- A new invoice has no payments yet: each payment names an invoice that was there before. -/
theorem added (exact : TotalsExact db) (added : InvoiceAdded db db') : TotalsExact db' := by
  obtain ⟨row, nothing, _, isInvoices⟩ := added.invoices
  have fresh : row.id ∉ db.invoices.keys := by
    have nodup := db'.invoices.nodup
    rw [isInvoices, List.map_append, List.map_singleton] at nodup
    exact fun known => (List.nodup_append.mp nodup).2.2 _ known _ (List.mem_singleton_self _) rfl
  intro invoice mem
  rw [added.payments]
  rw [isInvoices] at mem
  rcases List.mem_append.mp mem with old | new
  · exact exact invoice old
  obtain rfl := List.mem_singleton.mp new
  have unpaid : ∀ payment ∈ db.payments.rows, payment.creditTo invoice.id = 0 := by
    intro payment memPayment
    refine creditTo_of_ne fun same => fresh ?_
    rw [← same]
    exact db.paymentInvoice payment memPayment
  rw [nothing, Numeric.units_zero, creditedTotal, List.map_congr_left unpaid]
  simp

theorem write (exact : TotalsExact db) {event : Evm.MonitorEvent} (write : Write divide event db db') :
    TotalsExact db' := by
  have keeps : ∀ (id : Uuid) (status : InvoiceStatus) (invoice : Invoice),
      (invoice.withStatus id status).id = invoice.id ∧
        (invoice.withStatus id status).amountReceived = invoice.amountReceived := by
    intro id status invoice
    unfold Invoice.withStatus
    split <;> exact ⟨rfl, rfl⟩
  rcases write.kinds with ⟨_, _, _, isRecorded⟩ | ⟨_, row, mem, _, changes, isRecorded⟩ |
    ⟨_, _, written, _⟩ | same
  · exact exact.inserted isRecorded
  · exact exact.changed mem changes.identity isRecorded
  · exact exact.of_invoices (keeps _ _) written.invoices written.payments
  · exact exact.of_sameInvoices same.invoices same.payments

theorem admin (exact : TotalsExact db) (write : AdminWrite db db') : TotalsExact db' := by
  cases write with
  | invoice isAdded => exact exact.added isAdded
  | option data quoted isAdded => exact exact.of_sameInvoices isAdded.invoices isAdded.payments
  | statuses changed =>
    obtain ⟨change, keeps, isInvoices⟩ := changed.invoices
    exact exact.of_invoices (fun invoice => ⟨(keeps invoice).1, (keeps invoice).2.2⟩) isInvoices
      changed.payments
  | settings changed => exact exact.of_sameInvoices changed.invoices changed.payments

end TotalsExact

theorem totalsExact_of_server {db : Db} (reached : (server divide).Reachable db) : TotalsExact db := by
  refine reached.invariant (fun start => ?_) fun _ exact step => ?_
  · rw [start]
    exact TotalsExact.empty
  · exact server_step_preserves (fun write exact => exact.write write)
      (fun write exact => exact.admin write) step exact

namespace Statement

theorem run_exact {statement : Statement} {db db' : Db} (done : statement.run db = .ok db')
    (exact : TotalsExact db) : TotalsExact db' := by
  cases statement with
  | createInvoice invoice options =>
    refine createInvoiceWithOptions_preserves done exact (fun added exact => exact.added added) ?_
    intro option _ db db' added exact
    exact exact.of_sameInvoices added.invoices added.payments
  | upsertPayment payment txIndex now =>
    obtain ⟨⟨id, written⟩, upserted, rfl⟩ := map_eq_ok.mp done
    obtain ⟨row, _, effect⟩ := upsertPaymentRow_ok upserted
    exact exact.upserted effect
  | markConfirmed id confirmedAt now =>
    obtain ⟨⟨_, written⟩, marked, rfl⟩ := map_eq_ok.mp done
    obtain ⟨row, mem, rfl, _, recorded⟩ := markConfirmed_ok marked
    exact exact.changed mem (Payment.identity_confirm _) recorded
  | markPaymentReorged id now =>
    obtain ⟨⟨_, written⟩, marked, rfl⟩ := map_eq_ok.mp done
    rcases markPaymentReorged_ok marked with ⟨rfl, _⟩ | ⟨row, mem, rfl, _, recorded⟩
    · exact exact
    · exact exact.changed mem Payment.identity_retract recorded
  | updateStatus id status =>
    obtain ⟨⟨_, written⟩, updated, rfl⟩ := map_eq_ok.mp done
    have isWritten := updateStatus_ok updated
    refine exact.of_invoices (fun invoice => ?_) isWritten.invoices isWritten.payments
    unfold Invoice.withStatus
    split <;> exact ⟨rfl, rfl⟩
  | expire id =>
    cases done
    refine exact.of_invoices (fun invoice => ?_) rfl rfl
    unfold Invoice.withStatus
    split
    · split <;> exact ⟨rfl, rfl⟩
    · exact ⟨rfl, rfl⟩

theorem perform_exact {db : Db} (exact : TotalsExact db) : TotalsExact (statement.perform db) := by
  unfold perform
  cases done : statement.run db with
  | ok written => exact run_exact done exact
  | error _ => exact exact

end Statement

/--
After every sequence of statements, what an invoice received is the sum of the
credits of its own live payments.
-/
theorem received_exact {db : Db} (reached : statements.Reachable db) {invoice : Invoice}
    (mem : invoice ∈ db.invoices.rows) :
    invoice.amountReceived.units = (liveCredits db invoice.id).sum := by
  have exact : TotalsExact db := by
    refine reached.invariant (fun start => ?_) fun _ exact step => ?_
    · rw [start]
      exact TotalsExact.empty
    · rw [step]
      exact Statement.perform_exact _ exact
  rw [exact invoice mem, creditedTotal_eq_sum_liveCredits]

/-! ## A transfer that is filed again for another invoice -/

theorem statements_reachable (run : List Statement) {db : Db} (reached : statements.Reachable db) :
    statements.Reachable (run.foldl (fun db statement => statement.perform db) db) := by
  induction run generalizing db with
  | nil => exact reached
  | cons statement rest ih =>
    exact ih (System.Reachable.snoc reached (show statements.step db statement _ from rfl))

/-- A payment in transaction `txHash` that credits `credit` to an invoice. -/
def creditOnly (id invoiceId : Uuid) (txHash : Text) (credit : ℚ) : PaymentData where
  id := id
  invoiceId := invoiceId
  paymentOptionId := none
  chainId := .evm 1
  assetType := .native
  amount := 1
  assetSymbol := []
  tokenAddress := none
  txHash := txHash
  blockNumber := none
  detectedAt := 0
  confirmedAt := none
  fromAddress := none
  extra := none
  creditedAmount := some credit
  rateUsed := none
  rateAppliedAt := none

/--
Two invoices; a payment of the first is filed again for the second with another
credit, and a second payment of the first is retracted.
-/
def refiledStatements : List Statement :=
  [.createInvoice ⟨1, 1, 5, 100⟩ [], .createInvoice ⟨2, 1, 5, 100⟩ [],
    .upsertPayment (creditOnly 1 1 [] 3) 0 0, .upsertPayment (creditOnly 2 2 [] 4) 0 0,
    .upsertPayment (creditOnly 3 1 ['a'] 2) 0 0, .markConfirmed 1 0 0, .markPaymentReorged 3 0]

def refiledDb : Db :=
  refiledStatements.foldl (fun db statement => statement.perform db) Db.empty

theorem received_exact_refiled :
    refiledDb.invoices.keys = [1, 2] ∧ liveCredits refiledDb 1 = [4 * 10 ^ 18] ∧
      liveCredits refiledDb 2 = [] ∧
      ∀ invoice ∈ refiledDb.invoices.rows,
        invoice.amountReceived.units = (liveCredits refiledDb invoice.id).sum := by
  have reached : statements.Reachable refiledDb :=
    statements_reachable refiledStatements (System.Reachable.of_initial rfl)
  exact ⟨by decide +kernel, by decide +kernel, by decide +kernel,
    fun invoice mem => received_exact reached mem⟩

end EthPayServer.Pipeline
