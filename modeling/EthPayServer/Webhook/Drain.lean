import EthPayServer.Consumer.Threads
import EthPayServer.Lib.Interleaving

/-!
# Draining the webhook outbox

The upsert of a detected payment writes an obligation beside it.  Drainers claim
obligations for a while, hand each one's webhook to the delivery queue and mark
it dispatched.  The clock in the claims is the database's.
-/

namespace EthPayServer.Webhook.Drain

open Lib Data Consumer
open Evm (Time Uuid MonitorEvent)

inductive WebhookEventType where
  | paymentDetected
  | paymentConfirmed
  | paymentReorged
  | invoiceExpired
  | invoiceCancelled
  | latePaid
deriving DecidableEq

def WebhookEventType.asStr : WebhookEventType → String
  | .paymentDetected => "payment_detected"
  | .paymentConfirmed => "payment_confirmed"
  | .paymentReorged => "payment_reorged"
  | .invoiceExpired => "invoice_expired"
  | .invoiceCancelled => "invoice_cancelled"
  | .latePaid => "late_paid"

def parseEventType (text : String) : Option WebhookEventType :=
  [.paymentDetected, .paymentConfirmed, .paymentReorged, .invoiceExpired, .invoiceCancelled,
    .latePaid].find? fun eventType : WebhookEventType => eventType.asStr = text

structure StoreWebhook where
  id : Uuid
  storeId : Uuid
  webhookUrl : Text
  webhookSecret : Text
  enabled : Bool

/-- The preferences of a store: by event and channel, where a boolean stands there. -/
structure StoreSettings where
  storeId : Uuid
  notificationPrefs : String → String → Option Bool

/-- A webhook that was handed to the delivery queue. -/
structure Announcement where
  webhook : Uuid
  eventType : WebhookEventType
  invoice : Invoice
  payment : Payment

/-! ## The tables -/

/-- The unique key of an obligation; it names the row in place of its id. -/
def obligationKey (obligation : WebhookObligation) : Uuid × String :=
  (obligation.paymentId, obligation.eventType)

/-- The columns of an obligation that the drainers write. -/
structure OutboxColumns where
  dispatchedAt : Option Time
  claimedUntil : Option Time

/-- What the drainers read and write. -/
structure Books where
  db : Db
  outbox : Uuid × String → OutboxColumns
  webhooks : List StoreWebhook
  settings : List StoreSettings
  announced : List Announcement

/-- A claim that was granted to a call of `drain_once`. -/
structure Grant where
  drainer : Nat
  key : Uuid × String
  deadline : Time

/-- The tables, the tables as drainers saw them before, the grants, and the latest time they name. -/
structure DrainState where
  books : Books
  past : List Books
  grants : List Grant
  clock : Time

def DrainState.write (state : DrainState) (books : Books) : DrainState :=
  { state with books := books, past := books :: state.past }

abbrev DrainT : Type → Type := Thread Time RepositoryError DrainState

def see {α : Type} (read : Books → α) : DrainT α :=
  Thread.statement fun _ state => .ok (read state.books, state.write state.books)

/-! ## The drainer -/

def claimable (now : Time) (books : Books) (obligation : WebhookObligation) : Bool :=
  (books.outbox (obligationKey obligation)).dispatchedAt.isNone &&
    match (books.outbox (obligationKey obligation)).claimedUntil with
    | none => true
    | some claimed => claimed < now

/-- The oldest obligations that are neither dispatched nor under a claim. -/
def claimBatch (limit : Nat) (now : Time) (books : Books) : List WebhookObligation :=
  (books.db.webhookOutbox.filter (claimable now books)).take limit

def Books.stamp (books : Books) (batch : List WebhookObligation) (claimed : Time) : Books :=
  { books with
    outbox := fun key =>
      if key ∈ batch.map obligationKey then { books.outbox key with claimedUntil := some claimed }
      else books.outbox key }

def DrainState.grant (state : DrainState) (drainer limit : Nat) (visibility now : Time) : DrainState :=
  { state with
    books := state.books.stamp (claimBatch limit now state.books) (now + visibility)
    grants := (claimBatch limit now state.books).map (fun obligation =>
      ⟨drainer, obligationKey obligation, now + visibility⟩) ++ state.grants
    clock := max state.clock now }

/-- One statement picks the batch and stamps it. -/
def claimUndispatchedObligations (drainer limit : Nat) (visibility : Time) :
    DrainT (List WebhookObligation) :=
  Thread.statement fun now state =>
    .ok (claimBatch limit now state.books, state.grant drainer limit visibility now)

/-- Errors are logged; the obligation may then be announced again. -/
def markDispatched (obligation : WebhookObligation) : DrainT Unit := do
  let _ ← (Thread.statement fun now state => .ok ((), state.write { state.books with
    outbox := fun key =>
      if key = obligationKey obligation then { state.books.outbox key with dispatchedAt := some now }
      else state.books.outbox key })).attempt
  pure ()

inductive Lookup (α : Type) where
  | found (row : α)
  | giveUp
  | retry

/-- A row that is missing is gone for good; an error of the database is not. -/
def load {α : Type} (read : Books → Option α) : DrainT (Lookup α) := do
  match ← (see read).attempt with
  | .ok (some row) => pure (.found row)
  | .ok none => pure .giveUp
  | .error _ => pure .retry

def loadInvoice (obligation : WebhookObligation) : DrainT (Lookup Invoice) :=
  load fun books => getInvoice obligation.invoiceId books.db

def loadPayment (obligation : WebhookObligation) : DrainT (Lookup Payment) :=
  load fun books => books.db.payments.find? obligation.paymentId

def loadObligationSubject (obligation : WebhookObligation) : DrainT (Lookup (Invoice × Payment)) := do
  match ← loadInvoice obligation with
  | .giveUp => pure .giveUp
  | .retry => pure .retry
  | .found invoice =>
    match ← loadPayment obligation with
    | .giveUp => pure .giveUp
    | .retry => pure .retry
    | .found payment =>
      if payment.reorged then pure .giveUp else pure (.found (invoice, payment))

def suppressed (storeId : Uuid) (event : String) (books : Books) : Bool :=
  match books.settings.find? fun settings => settings.storeId = storeId with
  | none => false
  | some settings => settings.notificationPrefs event "webhook" = some false

def suppressedByPrefs (storeId : Uuid) (event : String) : DrainT Bool := do
  match ← (see (suppressed storeId event)).attempt with
  | .ok suppressed => pure suppressed
  | .error _ => pure false

def getEnabledWebhook (storeId : Uuid) (books : Books) : Option StoreWebhook :=
  books.webhooks.find? fun webhook => webhook.storeId = storeId ∧ webhook.enabled

inductive QueueOutcome where
  | queued
  | skipped
  | failed
deriving DecidableEq

/-- Hand the webhook of a payment event to the delivery queue, if the store wants it. -/
def queueForStore (eventType : WebhookEventType) (invoice : Invoice) (payment : Payment) :
    DrainT QueueOutcome := do
  if ← suppressedByPrefs invoice.storeId eventType.asStr then pure .skipped
  else
    match ← (see (getEnabledWebhook invoice.storeId)).attempt with
    | .ok none => pure .skipped
    | .error _ => pure .failed
    | .ok (some webhook) =>
      match ← (Thread.statement fun _ state => .ok ((), state.write { state.books with
          announced := ⟨webhook.id, eventType, invoice, payment⟩ :: state.books.announced })).attempt with
      | .ok _ => pure .queued
      | .error _ => pure .failed

def dispatchObligation (obligation : WebhookObligation) : DrainT Unit :=
  match parseEventType obligation.eventType with
  | none => markDispatched obligation
  | some eventType => do
    match ← loadObligationSubject obligation with
    | .giveUp => markDispatched obligation
    | .retry => pure ()
    | .found (invoice, payment) =>
      match ← queueForStore eventType invoice payment with
      | .queued => markDispatched obligation
      | .skipped => markDispatched obligation
      | .failed => pure ()

def drainOnce (drainer limit : Nat) (visibility : Time) : DrainT Unit := do
  match ← (claimUndispatchedObligations drainer limit visibility).attempt with
  | .error _ => pure ()
  | .ok batch => forM batch dispatchObligation

/-! ## Drainers beside the event consumer -/

inductive OutboxRequest where
  | apply (delivery : Delivery) (event : MonitorEvent)
  | drainOnce

abbrev OutboxError : Type := EventConsumerError ⊕ RepositoryError

def paymentTables : Thread.View Db EventConsumerError DrainState OutboxError where
  part state := state.books.db
  replace db state := { state with books := { state.books with db := db } }
  fault := Sum.elim id .database
  report := .inl

def drainView : Thread.View DrainState RepositoryError DrainState OutboxError where
  part := id
  replace state _ := state
  fault := Sum.elim (fun _ => refused "stopped") id
  report := .inr

/-- Any number of drainers and of deliveries to the event consumer. -/
def outboxDesk (divide : Division) (limit : Nat) (visibility : Time) :
    Service OutboxRequest Time OutboxError DrainState Unit where
  initial state := state.books.db.webhookOutbox = [] ∧ (∀ key, state.books.outbox key = ⟨none, none⟩) ∧
    state.past = [] ∧ state.grants = []
  legal _ _ := True
  body request drainer :=
    match request with
    | .apply delivery event =>
      (Interleaved.handleEvent (fun _ _ _ => True) divide delivery event).embed paymentTables
    | .drainOnce => (drainOnce drainer limit visibility).embed drainView

end EthPayServer.Webhook.Drain
