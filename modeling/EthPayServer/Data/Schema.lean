import EthPayServer.Evm.Chain
import EthPayServer.Lib.Table
import EthPayServer.Lib.Numeric

/-!
# The payment tables

Rows as the migrations declare them, and a database whose fields state what
Postgres enforces: primary keys, the unique transfer key of `payments`, foreign
keys, column widths and column checks.  A write either keeps all of them or is
refused, so a database that violates one cannot be built.
-/

namespace EthPayServer.Data

open Lib
open Evm (Time Uuid)

/-- A CAIP-2 chain identifier; `evm` is the `eip155` family. -/
inductive ChainId where
  | evm (number : Nat)
  | other (text : String)
deriving DecidableEq, Repr

inductive InvoiceStatus where
  | pending
  | processing
  | partiallyPaid
  | paid
  | expired
  | latePaid
  | cancelled
  | refunded
deriving DecidableEq, Repr

inductive AssetType where
  | native
  | erc20
deriving DecidableEq, Repr

inductive RepositoryError where
  | notFound (message : String)
  | conflict (message : String)
  | database (message : String)
deriving DecidableEq, Repr

/-! ## Columns -/

/-- An error Postgres answers with, as `sqlx_to_repo_error` passes it on. -/
def refused (message : String) : RepositoryError :=
  .database s!"error returned from database: {message}"

/-- `VARCHAR(bound)`. -/
abbrev VarChar (bound : Nat) : Type := { text : Text // text.length ≤ bound }

/-- Write a text to a `VARCHAR(bound)` column. -/
def varChar (bound : Nat) (text : Text) : Except RepositoryError (VarChar bound) :=
  if fits : text.length ≤ bound then .ok ⟨text, fits⟩
  else .error (refused s!"value too long for type character varying({bound})")

theorem varChar_ok {bound : Nat} {text : Text} {stored : VarChar bound} :
    varChar bound text = .ok stored ↔ stored.val = text := by
  unfold varChar
  constructor
  · intro done
    split at done
    · cases done
      rfl
    · cases done
  · rintro rfl
    rw [dif_pos stored.property]

/-- Write a number to a `NUMERIC(precision, scale)` column. -/
def numeric (precision scale : Nat) (value : ℚ) : Except RepositoryError (Numeric precision scale) :=
  match Numeric.ofRat? value with
  | some stored => .ok stored
  | none => .error (refused "numeric field overflow")

/-- Write to a column that may be null. -/
def nullable {α β : Type} (write : α → Except RepositoryError β) :
    Option α → Except RepositoryError (Option β)
  | none => .ok none
  | some value => (write value).map some

/-- `as i64` of a `u64`. -/
def asI64 (n : Nat) : Int :=
  if n % 2 ^ 64 < 2 ^ 63 then (n % 2 ^ 64 : Nat) else (n % 2 ^ 64 : Nat) - 2 ^ 64

/-! ## Rows -/

structure Invoice where
  id : Uuid
  storeId : Uuid
  amount : Numeric 78 18
  amountReceived : Numeric 78 18
  status : InvoiceStatus
  expiresAt : Time
deriving DecidableEq

structure PaymentOption where
  id : Uuid
  invoiceId : Uuid
  paymentMethodId : String × ChainId
  chainId : ChainId
  tokenAddress : Option (VarChar 42)
  decimals : Nat
  paymentAddress : VarChar 42
  rate : Option (Numeric 38 18)
  createdAt : Time

structure WatchedAddressRow where
  invoiceId : Uuid
  paymentOptionId : Uuid
  chainId : ChainId
  address : VarChar 42
  tokenAddress : Option (VarChar 42)
  isActive : Bool
  expiresAt : Time
  monitorNotified : Bool
deriving DecidableEq

structure Token where
  chainId : ChainId
  address : VarChar 128
  tokenId : Option String
  symbol : Option (VarChar 32)

structure Payment where
  id : Uuid
  invoiceId : Uuid
  paymentOptionId : Option Uuid
  chainId : ChainId
  assetType : AssetType
  assetSymbol : VarChar 32
  tokenAddress : Option (VarChar 42)
  amount : Numeric 78 0
  txHash : VarChar 66
  txIndex : Int
  blockNumber : Option Int
  detectedAt : Time
  confirmedAt : Option Time
  fromAddress : Option (VarChar 42)
  reorged : Bool
  extra : Option Text
  creditedAmount : Option (Numeric 78 18)
  rateUsed : Option (Numeric 38 18)
  rateAppliedAt : Option Time
deriving DecidableEq

namespace Payment

/-- The columns of `unique_payment_tx`. -/
def txKey (payment : Payment) : ChainId × Text × Int :=
  (payment.chainId, payment.txHash.val, payment.txIndex)

/-- The columns no update of the server changes. -/
def identity (payment : Payment) : Uuid × (ChainId × Text × Int) × Uuid × Option Uuid :=
  (payment.id, payment.txKey, payment.invoiceId, payment.paymentOptionId)

/-- What the row adds to an invoice's received amount: its credit while it is not reorged. -/
def creditTo (payment : Payment) (invoiceId : Uuid) : Int :=
  if payment.invoiceId = invoiceId ∧ payment.reorged = false then
    (payment.creditedAmount.map Numeric.units).getD 0
  else 0

end Payment

/-- `SUM(credited_amount)` over an invoice's rows that are not reorged, in units of the column. -/
def creditedTotal (payments : List Payment) (invoiceId : Uuid) : Int :=
  (payments.map (Payment.creditTo · invoiceId)).sum

/-- A store's tolerance; the bounds are the column's check. -/
structure StoreTolerance where
  storeId : Uuid
  tolerancePercent : Numeric 78 18
  nonneg : 0 ≤ tolerancePercent.toRat
  bounded : tolerancePercent.toRat ≤ 1 / 10

/-- Whose setting accepted a shortfall. -/
inductive ToleranceSource where
  | store
  | default
deriving DecidableEq, Repr

structure SettlementAllowance where
  invoiceId : Uuid
  shortfall : Numeric 78 18
  tolerancePercent : Numeric 78 18
  source : ToleranceSource
  recordedAt : Time

structure WebhookObligation where
  paymentId : Uuid
  invoiceId : Uuid
  eventType : String
deriving DecidableEq

/-! ## The database -/

/-- The tables the event consumer reads and writes, with their constraints. -/
structure Db where
  invoices : Table Invoice.id
  paymentOptions : Table PaymentOption.id
  watchedAddresses : List WatchedAddressRow
  tokens : List Token
  payments : Table Payment.id
  settlementSettings : Table StoreTolerance.storeId
  settlementAllowances : Table SettlementAllowance.invoiceId
  webhookOutbox : List WebhookObligation
  uniquePaymentTx : (payments.rows.map Payment.txKey).Nodup
  paymentInvoice : ∀ payment ∈ payments.rows, payment.invoiceId ∈ invoices.keys
  paymentOption : ∀ payment ∈ payments.rows, ∀ option, payment.paymentOptionId = some option →
    option ∈ paymentOptions.keys
  optionInvoice : ∀ option ∈ paymentOptions.rows, option.invoiceId ∈ invoices.keys
  watchedOption : ∀ watched ∈ watchedAddresses, watched.paymentOptionId ∈ paymentOptions.keys

variable {payment payment' : Payment}

namespace Db

/-- The database after the migrations ran. -/
def empty : Db where
  invoices := Table.empty
  paymentOptions := Table.empty
  watchedAddresses := []
  tokens := []
  payments := Table.empty
  settlementSettings := Table.empty
  settlementAllowances := Table.empty
  webhookOutbox := []
  uniquePaymentTx := List.nodup_nil
  paymentInvoice := by simp
  paymentOption := by simp
  optionInvoice := by simp
  watchedOption := by simp

/-- Rows of `payments` with the same transfer key are the same row. -/
theorem eq_of_txKey {db : Db} (mem : payment ∈ db.payments.rows) (mem' : payment' ∈ db.payments.rows)
    (same : payment.txKey = payment'.txKey) : payment = payment' :=
  List.inj_on_of_nodup_map db.uniquePaymentTx mem mem' same

def updateWatches (db : Db) (change : WatchedAddressRow → WatchedAddressRow)
    (keeps : ∀ row, (change row).paymentOptionId = row.paymentOptionId) : Db :=
  { db with
    watchedAddresses := db.watchedAddresses.map change
    watchedOption := by
      intro row mem
      obtain ⟨old, memOld, rfl⟩ := List.mem_map.mp mem
      rw [keeps]
      exact db.watchedOption old memOld }

def updateInvoices (db : Db) (change : Invoice → Invoice)
    (keeps : ∀ invoice, (change invoice).id = invoice.id) : Db :=
  { db with
    invoices := db.invoices.update change keeps
    paymentInvoice := by simpa using db.paymentInvoice
    optionInvoice := by simpa using db.optionInvoice }

section

variable (same : payment.identity = payment'.identity)
include same

theorem id_of_identity : payment.id = payment'.id :=
  congrArg Prod.fst same

theorem txKey_of_identity : payment.txKey = payment'.txKey :=
  congrArg (fun columns => columns.2.1) same

theorem invoiceId_of_identity : payment.invoiceId = payment'.invoiceId :=
  congrArg (fun columns => columns.2.2.1) same

theorem optionId_of_identity : payment.paymentOptionId = payment'.paymentOptionId :=
  congrArg (fun columns => columns.2.2.2) same

end

def updatePayments (db : Db) (change : Payment → Payment)
    (keeps : ∀ payment, (change payment).identity = payment.identity) : Db :=
  { db with
    payments := db.payments.update change fun payment => id_of_identity (keeps payment)
    uniquePaymentTx := by
      have sameKeys : (db.payments.rows.map change).map Payment.txKey =
          db.payments.rows.map Payment.txKey := by
        rw [List.map_map]
        exact List.map_congr_left fun payment _ => txKey_of_identity (keeps payment)
      rw [Table.rows_update, sameKeys]
      exact db.uniquePaymentTx
    paymentInvoice := by
      intro payment mem
      obtain ⟨old, memOld, rfl⟩ := List.mem_map.mp mem
      rw [invoiceId_of_identity (keeps old)]
      exact db.paymentInvoice old memOld
    paymentOption := by
      intro payment mem option named
      obtain ⟨old, memOld, rfl⟩ := List.mem_map.mp mem
      rw [optionId_of_identity (keeps old)] at named
      exact db.paymentOption old memOld option named }

/-- Append a payment that meets every constraint of its table. -/
def appendPayment (db : Db) (payment : Payment) (freshId : payment.id ∉ db.payments.keys)
    (freshKey : payment.txKey ∉ db.payments.rows.map Payment.txKey)
    (hasInvoice : payment.invoiceId ∈ db.invoices.keys)
    (hasOption : ∀ option, payment.paymentOptionId = some option →
      option ∈ db.paymentOptions.keys) : Db :=
  { db with
    payments := db.payments.insert payment freshId
    uniquePaymentTx := by
      rw [Table.rows_insert, List.map_append, List.map_singleton]
      exact db.uniquePaymentTx.append (List.nodup_singleton _)
        (by simpa [List.Disjoint] using freshKey)
    paymentInvoice := by
      intro other mem
      rcases List.mem_append.mp mem with old | new
      · exact db.paymentInvoice other old
      · rw [List.mem_singleton.mp new]
        exact hasInvoice
    paymentOption := by
      intro other mem option named
      rcases List.mem_append.mp mem with old | new
      · exact db.paymentOption other old option named
      · rw [List.mem_singleton.mp new] at named
        exact hasOption option named }

end Db

end EthPayServer.Data
