import EthPayServer.Data.Wallet

/-!
# Accounts, stores and what they paid out

The payment tables together with the accounts that own them: users, their
stores, payouts and refunds.  Deleting a user cascades through stores and
invoices into payments; payouts and refunds of a store stand in its way.
-/

namespace EthPayServer.Data

open Lib
open Evm (Time Uuid)

/-! ## Rows -/

structure User where
  id : Uuid
  /-- the role is `ServerAdmin` -/
  isAdmin : Bool
deriving DecidableEq

structure UserStore where
  userId : Uuid
  storeId : Uuid
deriving DecidableEq

inductive PayoutStatus where
  | pending
  | broadcasting
  | confirmed
  | failed
deriving DecidableEq, Repr

structure Payout where
  id : Uuid
  storeId : Uuid
  invoiceIds : List Uuid
  destinationAddress : Text
  chainId : ChainId
  assetType : AssetType
  assetSymbol : Text
  tokenAddress : Option Text
  amount : Nat
  txHash : Option Text
  status : PayoutStatus
  feeAmount : Option Text
  errorMessage : Option Text
  createdAt : Time
  confirmedAt : Option Time
deriving DecidableEq

variable (id : Uuid) (status : PayoutStatus) (txHash feeAmount errorMessage : Option Text)
  (payout : Payout)

/-- The row an update of the status leaves; `COALESCE` keeps a column that gets no value. -/
def Payout.withStatus (id : Uuid) (status : PayoutStatus) (txHash feeAmount errorMessage : Option Text)
    (payout : Payout) : Payout :=
  if payout.id = id then
    { payout with
      status := status
      txHash := txHash.or payout.txHash
      feeAmount := feeAmount.or payout.feeAmount
      errorMessage := errorMessage.or payout.errorMessage }
  else payout

theorem Payout.withStatus_keeps :
    (payout.withStatus id status txHash feeAmount errorMessage).id = payout.id ∧
      (payout.withStatus id status txHash feeAmount errorMessage).storeId = payout.storeId ∧
      (payout.withStatus id status txHash feeAmount errorMessage).invoiceIds = payout.invoiceIds := by
  unfold withStatus
  split <;> exact ⟨rfl, rfl, rfl⟩

/-- The columns of a refund that refer to other tables. -/
structure Refund where
  id : Uuid
  invoiceId : Uuid
  paymentId : Uuid
  storeId : Uuid
deriving DecidableEq

/-- The payment tables and the tables of accounts. -/
structure Ledger where
  db : Db
  users : Table User.id
  stores : Table Store.id
  userStores : List UserStore
  payouts : Table Payout.id
  refunds : Table Refund.id

namespace Ledger

def empty : Ledger where
  db := Db.empty
  users := Table.empty
  stores := Table.empty
  userStores := []
  payouts := Table.empty
  refunds := Table.empty

/-! ## Payouts -/

def getUserStore (userId storeId : Uuid) (ledger : Ledger) : Option UserStore :=
  ledger.userStores.find? fun row => row.userId = userId ∧ row.storeId = storeId

def getPayout (id : Uuid) (ledger : Ledger) : Option Payout := ledger.payouts.find? id

def getValidForInvoice (invoiceId : Uuid) (ledger : Ledger) : List Payment :=
  ledger.db.payments.rows.filter fun payment => payment.invoiceId = invoiceId ∧ payment.reorged = false

/-- Of the ids, those a payout of the store that has not failed names. -/
def invoiceIdsAlreadyClaimed (storeId : Uuid) (invoiceIds : List Uuid) (ledger : Ledger) : List Uuid :=
  ((ledger.payouts.rows.filter fun payout => payout.storeId = storeId ∧ payout.status ≠ .failed).flatMap
    fun payout => payout.invoiceIds.filter (· ∈ invoiceIds)).dedup

theorem mem_invoiceIdsAlreadyClaimed {storeId id : Uuid} {invoiceIds : List Uuid} {ledger : Ledger} :
    id ∈ invoiceIdsAlreadyClaimed storeId invoiceIds ledger ↔
      ∃ payout ∈ ledger.payouts.rows, payout.storeId = storeId ∧ payout.status ≠ .failed ∧
        id ∈ payout.invoiceIds ∧ id ∈ invoiceIds := by
  simp [invoiceIdsAlreadyClaimed, and_assoc]

/-- `PayoutWriter::create_payout`; the store must exist. -/
def createPayout (payout : Payout) (ledger : Ledger) : Except RepositoryError (Unit × Ledger) :=
  if fresh : payout.id ∉ ledger.payouts.keys then
    if payout.storeId ∈ ledger.stores.keys then
      .ok ((), { ledger with payouts := ledger.payouts.insert payout fresh })
    else .error (refused "foreign key constraint payouts_store_id_fkey")
  else .error (refused "duplicate key value violates payouts_pkey")

theorem createPayout_ok {payout : Payout} {ledger after : Ledger} {result : Unit}
    (done : createPayout payout ledger = .ok (result, after)) :
    after.payouts.rows = ledger.payouts.rows ++ [payout] ∧ after.db = ledger.db ∧
      after.refunds = ledger.refunds ∧ payout.id ∉ ledger.payouts.keys := by
  unfold createPayout at done
  split at done
  next fresh =>
    split at done
    · cases done
      exact ⟨rfl, rfl, rfl, fresh⟩
    · cases done
  · cases done

/-- `PayoutWriter::update_payout_status`: no row is locked and no old value is compared. -/
def updatePayoutStatus (id : Uuid) (status : PayoutStatus) (txHash feeAmount errorMessage : Option Text)
    (ledger : Ledger) : Except RepositoryError (Unit × Ledger) :=
  .ok ((), { ledger with
    payouts := ledger.payouts.update (Payout.withStatus id status txHash feeAmount errorMessage)
      fun payout => (payout.withStatus_keeps id status txHash feeAmount errorMessage).1 })

end Ledger

/-! ## Deleting an account -/

/-- The payment tables without some invoices, as the foreign keys cascade. -/
def Db.withoutInvoices (db : Db) (gone : Uuid → Bool) : Db where
  invoices := db.invoices.filter fun invoice => !gone invoice.id
  paymentOptions := db.paymentOptions.filter fun option => !gone option.invoiceId
  watchedAddresses := db.watchedAddresses.filter fun watched =>
    !gone watched.invoiceId &&
      decide (watched.paymentOptionId ∈ (db.paymentOptions.filter fun option => !gone option.invoiceId).keys)
  tokens := db.tokens
  -- a payment of another invoice loses its option, not its row
  payments := (db.payments.filter fun payment => !gone payment.invoiceId).update
    (fun payment => { payment with
      paymentOptionId := payment.paymentOptionId.filter fun option =>
        decide (option ∈ (db.paymentOptions.filter fun option => !gone option.invoiceId).keys) })
    fun _ => rfl
  settlementSettings := db.settlementSettings
  settlementAllowances := db.settlementAllowances.filter fun allowance => !gone allowance.invoiceId
  webhookOutbox := db.webhookOutbox.filter fun obligation =>
    decide (obligation.paymentId ∈ (db.payments.filter fun payment => !gone payment.invoiceId).keys)
  uniquePaymentTx := by
    rw [Table.rows_update, List.map_map]
    exact db.uniquePaymentTx.sublist (List.filter_sublist.map Payment.txKey)
  paymentInvoice := by
    intro payment mem
    obtain ⟨old, memOld, rfl⟩ := List.mem_map.mp mem
    obtain ⟨memOld, kept⟩ := List.mem_filter.mp memOld
    obtain ⟨invoice, memInvoice, isInvoice⟩ := Table.mem_keys.mp (db.paymentInvoice old memOld)
    refine Table.mem_keys.mpr ⟨invoice, List.mem_filter.mpr ⟨memInvoice, ?_⟩, isInvoice⟩
    rw [isInvoice]
    exact kept
  paymentOption := by
    intro payment mem option named
    obtain ⟨old, memOld, rfl⟩ := List.mem_map.mp mem
    exact of_decide_eq_true (Option.filter_eq_some_iff.mp named).2
  optionInvoice := by
    intro option mem
    obtain ⟨memOld, kept⟩ := List.mem_filter.mp mem
    obtain ⟨invoice, memInvoice, isInvoice⟩ := Table.mem_keys.mp (db.optionInvoice option memOld)
    refine Table.mem_keys.mpr ⟨invoice, List.mem_filter.mpr ⟨memInvoice, ?_⟩, isInvoice⟩
    rw [isInvoice]
    exact kept
  watchedOption := by
    intro watched mem
    obtain ⟨-, kept⟩ := List.mem_filter.mp mem
    exact of_decide_eq_true (Bool.and_eq_true_iff.mp kept).2

theorem Db.mem_keys_withoutInvoices {db : Db} {gone : Uuid → Bool} {payment : Payment}
    (mem : payment ∈ db.payments.rows) (kept : gone payment.invoiceId = false) :
    payment.id ∈ (db.withoutInvoices gone).payments.keys := by
  unfold Db.withoutInvoices
  rw [Table.keys_update]
  exact Table.mem_keys.mpr ⟨payment, List.mem_filter.mpr ⟨mem, by simp [kept]⟩, rfl⟩

namespace Ledger

def getUser (id : Uuid) (ledger : Ledger) : Option User := ledger.users.find? id

def getStoresOwnedBy (userId : Uuid) (ledger : Ledger) : List Store :=
  ledger.stores.rows.filter fun store => store.ownerId = userId

def ownsInvoice (userId : Uuid) (ledger : Ledger) (invoiceId : Uuid) : Bool :=
  ledger.db.invoices.rows.any fun invoice => invoice.id = invoiceId ∧
    invoice.storeId ∈ (ledger.getStoresOwnedBy userId).map Store.id

def getActiveWatchedAddressesForStores (storeIds : List Uuid) (ledger : Ledger) : List WatchedAddressRow :=
  ledger.db.watchedAddresses.filter fun row => row.isActive = true ∧
    ledger.db.paymentOptions.rows.any fun option => option.id = row.paymentOptionId ∧
      ledger.db.invoices.rows.any fun invoice => invoice.id = option.invoiceId ∧ invoice.storeId ∈ storeIds

structure AccountDeletionBlockers where
  payments : Nat
  payouts : Nat
  refunds : Nat
deriving DecidableEq

def AccountDeletionBlockers.any (blockers : AccountDeletionBlockers) : Bool :=
  0 < blockers.payments ∨ 0 < blockers.payouts ∨ 0 < blockers.refunds

def accountDeletionBlockers (userId : Uuid) (ledger : Ledger) : AccountDeletionBlockers where
  payments := ledger.db.payments.rows.countP fun payment => ledger.ownsInvoice userId payment.invoiceId
  payouts := ledger.payouts.rows.countP fun payout =>
    payout.storeId ∈ (ledger.getStoresOwnedBy userId).map Store.id
  refunds := ledger.refunds.rows.countP fun refund =>
    refund.storeId ∈ (ledger.getStoresOwnedBy userId).map Store.id

/-- `DELETE FROM users`: payouts and refunds are `NO ACTION`, so a row of theirs refuses it. -/
def deleteUser (id : Uuid) (ledger : Ledger) : Except RepositoryError (Unit × Ledger) :=
  let gone := (ledger.getStoresOwnedBy id).map Store.id
  if ledger.payouts.rows.any fun payout => payout.storeId ∈ gone then
    .error (refused "foreign key constraint payouts_store_id_fkey")
  else if ledger.refunds.rows.any fun refund => refund.storeId ∈ gone then
    .error (refused "foreign key constraint refunds_store_id_fkey")
  else if ledger.refunds.rows.any fun refund => ledger.db.payments.rows.any fun payment =>
      payment.id = refund.paymentId ∧ ledger.ownsInvoice id payment.invoiceId then
    .error (refused "foreign key constraint refunds_payment_id_fkey")
  else
    let left := ledger.db.withoutInvoices (ledger.ownsInvoice id)
    .ok ((), { ledger with
      db := { left with
        settlementSettings := left.settlementSettings.filter fun setting => setting.storeId ∉ gone }
      users := ledger.users.filter fun user => user.id ≠ id
      stores := ledger.stores.filter fun store => store.ownerId ≠ id
      userStores := ledger.userStores.filter fun row => row.userId ≠ id ∧ row.storeId ∉ gone })

/-- What a deletion leaves of the financial history. -/
theorem deleteUser_ok {id : Uuid} {ledger after : Ledger} {result : Unit}
    (done : deleteUser id ledger = .ok (result, after)) :
    after.payouts = ledger.payouts ∧ after.refunds = ledger.refunds ∧
      ∀ payment ∈ ledger.db.payments.rows, ledger.ownsInvoice id payment.invoiceId = false →
        payment.id ∈ after.db.payments.keys := by
  unfold deleteUser at done
  simp only at done
  split at done
  · cases done
  split at done
  · cases done
  · split at done
    · cases done
    · cases done
      exact ⟨rfl, rfl, fun payment mem kept => Db.mem_keys_withoutInvoices mem kept⟩

end Ledger

end EthPayServer.Data
