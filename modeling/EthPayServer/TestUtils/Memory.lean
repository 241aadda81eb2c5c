import EthPayServer.Api.Closed
import EthPayServer.Lib.Paired
import EthPayServer.Pipeline.Totals

/-!
# The in-memory data service

`test_utils.rs`.  The tests of the server run against maps instead of Postgres.
The maps are written by hand after the SQL: they have its conflict clauses and
its filters, but no constraints, no column types and no triggers.  Times are in
nanoseconds here, as the double keeps them.
-/

namespace EthPayServer.TestUtils

open Lib Data
open Evm (Time Uuid)

deriving instance DecidableEq for PaymentData

/-- A payment as the repositories return it. -/
structure PaymentRecord where
  data : PaymentData
  reorged : Bool
deriving DecidableEq

def PaymentRecord.id (record : PaymentRecord) : Uuid := record.data.id

/-- An invoice as the double keeps it; decimal texts are the numbers they denote. -/
structure InvoiceRecord where
  id : Uuid
  storeId : Uuid
  amount : ℚ
  amountReceived : ℚ
  status : InvoiceStatus
  expiresAt : Time
deriving DecidableEq

/-- The maps that the operations below read or write. -/
structure InMemoryDataService where
  invoices : Table InvoiceRecord.id
  payments : Table PaymentRecord.id
  /-- from chain, transaction and transfer to a payment -/
  paymentTxIndex : HashMap (ChainId × Text × Int) Uuid

namespace PaymentRecord

/-- The fields of the `DO UPDATE` list, where the new payment has them. -/
def absorb (existing : PaymentRecord) (payment : PaymentData) : PaymentRecord :=
  { existing with
    data := { existing.data with
      blockNumber := payment.blockNumber.or existing.data.blockNumber
      confirmedAt := payment.confirmedAt.or existing.data.confirmedAt
      extra := payment.extra.or existing.data.extra
      creditedAmount := payment.creditedAmount.or existing.data.creditedAmount
      rateUsed := payment.rateUsed.or existing.data.rateUsed
      rateAppliedAt := payment.rateAppliedAt.or existing.data.rateAppliedAt } }

def confirm (confirmedAt : Time) (record : PaymentRecord) : PaymentRecord :=
  { record with data := { record.data with confirmedAt := some confirmedAt } }

def retract (record : PaymentRecord) : PaymentRecord :=
  { data := { record.data with confirmedAt := none }, reorged := true }

end PaymentRecord

/-! ## The double -/

namespace InMemoryDataService

def new : InMemoryDataService := ⟨Table.empty, Table.empty, Table.empty⟩

/-- Write a payment found by its id; the change keeps the id. -/
def changePayment (memory : InMemoryDataService) (change : PaymentRecord → PaymentRecord)
    (keeps : ∀ record, (change record).id = record.id) : InMemoryDataService :=
  { memory with payments := memory.payments.update change keeps }

def upsertWithTxIndex (payment : PaymentRecord) (txIndex : Int) (memory : InMemoryDataService) :
    InMemoryDataService :=
  let key := (payment.data.chainId, payment.data.txHash, txIndex)
  let existing := (memory.paymentTxIndex.find? key).bind fun entry => memory.payments.find? entry.2
  match existing with
  | some existing =>
    memory.changePayment
      (fun record => if record.id = existing.id then record.absorb payment.data else record)
      fun record => by split <;> rfl
  | none =>
    { memory with
      paymentTxIndex := memory.paymentTxIndex.put (key, payment.id)
      payments := memory.payments.put payment }

/-- A payment that is missing or confirmed is left alone, and that is no error. -/
def markConfirmed (id : Uuid) (confirmedAt : Time) (memory : InMemoryDataService) : InMemoryDataService :=
  memory.changePayment
    (fun record =>
      if record.id = id ∧ record.data.confirmedAt = none then record.confirm confirmedAt else record)
    fun record => by split <;> rfl

def markPaymentReorged (id : Uuid) (memory : InMemoryDataService) : InMemoryDataService :=
  memory.changePayment (fun record => if record.id = id then record.retract else record)
    fun record => by split <;> rfl

def getByTxIndex (order : Nat → Nat) (invoiceId : Uuid) (txHash : Text) (txIndex : Int)
    (memory : InMemoryDataService) : Option PaymentRecord :=
  ((arrange order memory.paymentTxIndex.rows).filter fun entry =>
      entry.1.2.1 = txHash ∧ entry.1.2.2 = txIndex)
    |>.filterMap (fun entry => memory.payments.find? entry.2)
    |>.find? fun record => record.data.invoiceId = invoiceId ∧ record.reorged = false

/-- `create_invoice_with_options`: the upsert of the invoice; its options are in maps of their own. -/
def createInvoiceWithOptions (invoice : InvoiceData) (memory : InMemoryDataService) : InMemoryDataService :=
  { memory with
    invoices := memory.invoices.put
      ⟨invoice.id, invoice.storeId, invoice.amount, 0, .pending, invoice.expiresAt⟩ }

/-- An invoice that is missing is left missing, and that is no error. -/
def updateStatus (id : Uuid) (status : InvoiceStatus) (memory : InMemoryDataService) : InMemoryDataService :=
  { memory with
    invoices := memory.invoices.update
      (fun invoice => if invoice.id = id then { invoice with status := status } else invoice)
      fun invoice => by split <;> rfl }

def expire (id : Uuid) (memory : InMemoryDataService) : Bool × InMemoryDataService :=
  (memory.invoices.rows.any fun invoice => invoice.id = id ∧ invoice.status = .pending,
    { memory with
      invoices := memory.invoices.update
        (fun invoice => if invoice.id = id ∧ invoice.status = .pending then { invoice with status := .expired }
          else invoice)
        fun invoice => by split <;> rfl })

def streamExpiredPending (order : Nat → Nat) (now : Time) (memory : InMemoryDataService) : List Uuid :=
  ((arrange order memory.invoices.rows).filter fun invoice =>
    invoice.status = .pending ∧ invoice.expiresAt < now).map InvoiceRecord.id

end InMemoryDataService

/-! ## The operations on both -/

/-- `as u64` of an `i64`. -/
def asU64 (n : Int) : Nat := (n % 2 ^ 64).toNat

/-- What Postgres returns of a row. -/
def tryRowToPayment (row : Payment) : PaymentRecord where
  data :=
    { id := row.id
      invoiceId := row.invoiceId
      paymentOptionId := row.paymentOptionId
      chainId := row.chainId
      assetType := row.assetType
      amount := row.amount.toRat
      assetSymbol := row.assetSymbol.val
      tokenAddress := row.tokenAddress.map Subtype.val
      txHash := row.txHash.val
      blockNumber := row.blockNumber.map asU64
      detectedAt := row.detectedAt
      confirmedAt := row.confirmedAt
      fromAddress := row.fromAddress.map Subtype.val
      extra := row.extra
      creditedAmount := row.creditedAmount.map Numeric.toRat
      rateUsed := row.rateUsed.map Numeric.toRat
      rateAppliedAt := row.rateAppliedAt }
  reorged := row.reorged

/-- What a `TIMESTAMPTZ` column keeps: microseconds. -/
def timestamptz (time : Time) : Time := time / 1000 * 1000

/-- What else the server is connected to: the stores, and what a `JSONB` column makes of a document. -/
structure Postgres where
  stores : List Uuid
  jsonb : Text → Except RepositoryError Text

/-- A payment as its bound parameters are stored. -/
def Postgres.bind (postgres : Postgres) (payment : PaymentData) : Except RepositoryError PaymentData := do
  let extra ← nullable postgres.jsonb payment.extra
  pure { payment with
    detectedAt := timestamptz payment.detectedAt
    confirmedAt := payment.confirmedAt.map timestamptz
    extra := extra
    rateAppliedAt := payment.rateAppliedAt.map timestamptz }

inductive Operation where
  | upsertWithTxIndex (payment : PaymentRecord) (txIndex : Int)
  | markConfirmed (id : Uuid) (confirmedAt : Time)
  | markPaymentReorged (id : Uuid)
  | getByTxIndex (invoiceId : Uuid) (txHash : Text) (txIndex : Int)
  | createInvoiceWithOptions (invoice : InvoiceData) (options : List PaymentOptionData)
  | updateStatus (id : Uuid) (status : InvoiceStatus)
  | expire (id : Uuid)
  | streamExpiredPending

inductive Reply where
  | done
  | payment (found : Option PaymentRecord)
  | expired (changed : Bool)
  | invoices (ids : List Uuid)
deriving DecidableEq

def Reply.Same : Reply → Reply → Prop
  | .invoices ids, .invoices ids' => ids.Perm ids'
  | reply, reply' => reply = reply'

namespace Operation

def onPostgres (postgres : Postgres) (now : Time) (operation : Operation) (db : Db) :
    Except RepositoryError (Reply × Db) :=
  match operation with
  | upsertWithTxIndex payment txIndex => do
    let bound ← postgres.bind payment.data
    let (_, written) ← upsertPaymentRow bound txIndex (timestamptz now) db
    pure (.done, written)
  | markConfirmed id confirmedAt =>
    (Data.markConfirmed id (timestamptz confirmedAt) (timestamptz now) db).map fun (_, db) => (.done, db)
  | markPaymentReorged id => (Data.markPaymentReorged id (timestamptz now) db).map fun (_, db) => (.done, db)
  | getByTxIndex invoiceId txHash txIndex =>
    .ok (.payment ((Data.getByTxIndex invoiceId txHash txIndex db).map tryRowToPayment), db)
  | createInvoiceWithOptions invoice options =>
    if invoice.storeId ∈ postgres.stores then
      let bound := { invoice with expiresAt := timestamptz invoice.expiresAt }
      (Data.createInvoiceWithOptions bound options db).map (.done, ·)
    else .error (refused ("insert or update on table \"invoices\" violates foreign key " ++
      "constraint \"invoices_store_id_fkey\""))
  | updateStatus id status => (Data.updateStatus id status db).map fun (_, db) => (.done, db)
  | expire id =>
    .ok (.expired (db.invoices.rows.any fun invoice => invoice.id = id ∧ Api.isPayable invoice.status),
      Data.expire id db)
  | streamExpiredPending => .ok (.invoices (Api.streamExpiredPending (timestamptz now) db), db)

/-- In memory, where nothing fails; `order` is how the map of a read is iterated. -/
def inMemory (order : Nat → Nat) (now : Time) (operation : Operation) (memory : InMemoryDataService) :
    Reply × InMemoryDataService :=
  match operation with
  | upsertWithTxIndex payment txIndex => (.done, memory.upsertWithTxIndex payment txIndex)
  | markConfirmed id confirmedAt => (.done, memory.markConfirmed id confirmedAt)
  | markPaymentReorged id => (.done, memory.markPaymentReorged id)
  | getByTxIndex invoiceId txHash txIndex =>
    (.payment (memory.getByTxIndex order invoiceId txHash txIndex), memory)
  | createInvoiceWithOptions invoice _ => (.done, memory.createInvoiceWithOptions invoice)
  | updateStatus id status => (.done, memory.updateStatus id status)
  | expire id => (.expired (memory.expire id).1, (memory.expire id).2)
  | streamExpiredPending => (.invoices (memory.streamExpiredPending order now), memory)

end Operation

end EthPayServer.TestUtils
