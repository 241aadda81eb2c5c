import EthPayServer.Api.Closed
import EthPayServer.Pipeline.Platform

/-!
# Switching watches off

`cleanup_addresses` of the invoice cleanup service: watches of expired, paid and
cancelled invoices are listed and switched off one by one.  A paid invoice's
watch stays on while one of its payments was confirmed within a grace period.
Times count seconds.
-/

namespace EthPayServer.Watch

open Lib Data Consumer
open Evm (Time Uuid parseAddress)

/-! ## Grace periods -/

/-- `block_time_secs` and `confirmations_required` of the configured chains, mainnets first. -/
def chainTimings : List (Nat × Nat × Nat) :=
  [(1, 12, 12), (137, 2, 128), (42161, 1, 64), (10, 2, 64), (8453, 2, 64), (43114, 2, 12), (56, 3, 15),
    (324, 1, 1), (59144, 2, 20), (534352, 3, 20), (250, 1, 12), (100, 5, 20), (11155111, 12, 3),
    (17000, 12, 3), (80002, 2, 5), (421614, 1, 5), (11155420, 2, 5), (84532, 2, 5), (43113, 2, 3),
    (97, 3, 5), (560048, 12, 3)]

/-- `get_any_chain_config(chain_id).min_paid_unwatch_grace_period_secs()`, or 0 without a configuration. -/
def minPaidUnwatchGracePeriodSecs (chainId : ChainId) : Nat :=
  match chainId with
  | .evm number =>
    ((chainTimings.find? fun entry => entry.1 = number).map fun entry =>
      entry.2.2 * entry.2.1 * 2).getD 0
  | .other _ => 0

structure CleanupConfig where
  unwatchGracePeriodSecs : Nat
  paidUnwatchGracePeriodSecs : Nat

namespace CleanupConfig

def effectivePaidUnwatchGracePeriodSecs (config : CleanupConfig) (chainId : ChainId) : Nat :=
  max config.paidUnwatchGracePeriodSecs (minPaidUnwatchGracePeriodSecs chainId)

/-- `chrono::Duration::seconds`, which panics outside the milliseconds of an `i64`. -/
def durationSeconds? (secs : Int) : Option Int :=
  if -9223372036854775 ≤ secs ∧ secs ≤ 9223372036854775 then some secs else none

/-- Whether one of the payments confirmed within its effective grace period; `none` is a panic. -/
def withinPaidGracePeriod (config : CleanupConfig) (now : Time) : List Payment → Option Bool
  | [] => some false
  | payment :: rest =>
    match payment.confirmedAt with
    | none => withinPaidGracePeriod config now rest
    | some confirmedAt => do
      let grace ← durationSeconds? (asI64 (config.effectivePaidUnwatchGracePeriodSecs payment.chainId))
      if (now : Int) - confirmedAt < grace then some true else withinPaidGracePeriod config now rest

end CleanupConfig

/-! ## Listings -/

structure CleanupAddressInfo where
  address : VarChar 42
  paymentOptionId : Uuid
  invoiceId : Uuid
  chainId : ChainId
  tokenAddress : Option (VarChar 42)

/-- The active watches of the invoices, through the options they point at. -/
def watchesOf (invoices : List Invoice) (db : Db) : List CleanupAddressInfo :=
  invoices.flatMap fun invoice => db.watchedAddresses.filterMap fun row => do
    let option ← getPaymentOption row.paymentOptionId db
    if row.isActive = true ∧ option.invoiceId = invoice.id then
      some ⟨row.address, row.paymentOptionId, option.invoiceId, row.chainId, row.tokenAddress⟩
    else none

def getExpiredForCleanup (gracePeriodSecs : Int) (now : Time) (db : Db) : List CleanupAddressInfo :=
  (watchesOf ((db.invoices.rows.filter fun invoice =>
      invoice.status = .expired ∧ (invoice.expiresAt : Int) < now - gracePeriodSecs)
    |>.insertionSort fun invoice other => invoice.expiresAt ≤ other.expiresAt) db).take 100

/-- Invoices are stored in the order of their `created_at`. -/
def getPaidForCleanup (db : Db) : List CleanupAddressInfo :=
  (watchesOf (db.invoices.rows.filter fun invoice => invoice.status = .paid) db).take 100

def getCancelledForCleanup (db : Db) : List CleanupAddressInfo :=
  (watchesOf (db.invoices.rows.filter fun invoice => invoice.status = .cancelled) db).take 100

/-- All payments of an invoice, the newest first. -/
def getPaymentsForInvoice (invoiceId : Uuid) (db : Db) : List Payment :=
  (db.payments.rows.filter fun payment => payment.invoiceId = invoiceId)
    |>.insertionSort fun payment other => other.detectedAt ≤ payment.detectedAt

/-! ## The pass -/

inductive CleanupError where
  | notAnEvmChain (chainId : ChainId)
  | repository (error : RepositoryError)
  | monitor (message : String)
  | invalidAddress (address : Text)
  /-- the task died -/
  | panicked
deriving DecidableEq, Repr

abbrev CleanupM : Type → Type := Thread Time CleanupError Db

/-- `UPDATE watched_addresses SET is_active = FALSE` for a key in any letter case; whether a row was active. -/
def deactivate (address : Text) (chainId : ChainId) (tokenAddress : Option Text) (db : Db) : Bool × Db :=
  (db.watchedAddresses.any (Pipeline.isDeactivated address chainId tokenAddress),
    (Pipeline.AdminAction.deactivate address chainId tokenAddress).perform db)

/-- Send the unwatch command, then switch the watch off. -/
def unwatchAndDeactivate (info : CleanupAddressInfo) : CleanupM Unit :=
  match parseAddress info.address.val with
  | none => Thread.fail (.invalidAddress info.address.val)
  | some _ =>
    match info.chainId with
    | .other text => Thread.fail (.notAnEvmChain (.other text))
    | .evm _ => do
      -- `unwatch_address_by_chain_id` publishes to Redis
      Thread.query fun _ => ()
      let _ ← Thread.statement fun _ db => .ok (deactivate info.address.val info.chainId
        (info.tokenAddress.map Subtype.val) db)
      pure ()

/-- Switch the listed watches off; an error is logged and the next one tried. -/
def cleanupListed (addresses : List CleanupAddressInfo) : CleanupM Unit :=
  forM addresses fun info => do
    let _ ← (unwatchAndDeactivate info).attempt
    pure ()

def cleanupExpiredAddresses (config : CleanupConfig) : CleanupM Unit := do
  let addresses ← Thread.statement fun now db =>
    .ok (getExpiredForCleanup (asI64 config.unwatchGracePeriodSecs) now db, db)
  cleanupListed addresses

def cleanupPaidAddresses (config : CleanupConfig) : CleanupM Unit := do
  let addresses ← Thread.query getPaidForCleanup
  forM addresses fun info => do
    match ← (Thread.statement fun now db =>
        .ok ((getPaymentsForInvoice info.invoiceId db, now), db)).attempt with
    -- the check failed: the address stays watched
    | .error _ => pure ()
    | .ok (payments, now) =>
      match config.withinPaidGracePeriod now payments with
      | none => Thread.fail .panicked
      | some true => pure ()
      | some false => do
        let _ ← (unwatchAndDeactivate info).attempt
        pure ()

def cleanupCancelledAddresses : CleanupM Unit := do
  let addresses ← Thread.query getCancelledForCleanup
  cleanupListed addresses

def cleanupAddresses (config : CleanupConfig) : CleanupM Unit := do
  cleanupExpiredAddresses config
  cleanupPaidAddresses config
  cleanupCancelledAddresses

end EthPayServer.Watch
