import EthPayServer.Api.PayoutClaims
import EthPayServer.Data.Accounts
import EthPayServer.Consumer.Threads
import EthPayServer.Consumer.Redelivery
import EthPayServer.Consumer.Writes

/-!
# Deleting an account

`DELETE /users/me` and `DELETE /admin/users/{id}` count what the deletion would
destroy, refuse if there is anything, and then delete the user; the foreign
keys do the rest.  The count and the delete are separate statements, and the
event consumer files payments in between.
-/

namespace EthPayServer.Api

open Lib Data Consumer
open Evm (Time Uuid MonitorEvent)

/-! ## The endpoints -/

/-- An error answer with its text. -/
structure Refusal where
  status : StatusCode
  message : String

abbrev DeletionM : Type → Type := Thread Time Refusal Ledger

/-- What the session says about the caller. -/
structure UserInfo where
  id : Uuid
  email : Option Text

def deletionConfirmationFor (user : UserInfo) : Text :=
  user.email.getD (uuidText user.id)

def deletionConfirmationMatches (expected typed : Text) : Bool :=
  lower (trim typed) = lower (trim expected)

/-- What blocks a deletion, in words. -/
def describe (blockers : Ledger.AccountDeletionBlockers) : String :=
  ", ".intercalate
    ((if 0 < blockers.payments then [s!"{blockers.payments} payment(s)"] else []) ++
      (if 0 < blockers.payouts then [s!"{blockers.payouts} payout(s)"] else []) ++
      (if 0 < blockers.refunds then [s!"{blockers.refunds} refund(s)"] else []))

/-- One read; an error of the database is answered 500. -/
def look {α : Type} (read : Ledger → α) (message : String) : DeletionM α := do
  match ← (Thread.query read).attempt with
  | .ok found => pure found
  | .error _ => Thread.fail ⟨.internalServerError, message⟩

variable (userId : Uuid)

def deleteUser (relied : Ledger → Prop) (userId : Uuid) : DeletionM Unit :=
  Thread.assuming relied (Thread.statement fun _ ledger => (Ledger.deleteUser userId ledger).mapError
    fun _ => ⟨.internalServerError, "Could not delete the account."⟩)

def deleteAccount (relied : Ledger → Prop) (user : UserInfo) (confirm : Text) : DeletionM Unit :=
  if !deletionConfirmationMatches (deletionConfirmationFor user) confirm then
    Thread.fail ⟨.badRequest, "Confirmation did not match this account."⟩
  else do
    let stores ← look (Ledger.getStoresOwnedBy user.id) "Database error"
    let _ ← look (Ledger.getActiveWatchedAddressesForStores (stores.map Store.id))
      "Could not look up watched addresses."
    let blockers ← look (Ledger.accountDeletionBlockers user.id) "Could not check the account."
    if blockers.any then
      Thread.fail ⟨.conflict, s!"This account's stores hold {describe blockers}. Deleting it would " ++
        "destroy that history, so it is refused. Archive the stores instead."⟩
    else deleteUser relied user.id

def ensureNoFinancialBlockers (userId : Uuid) : DeletionM Unit := do
  let blockers ← look (Ledger.accountDeletionBlockers userId) "Could not check the account."
  if blockers.any then
    Thread.fail ⟨.conflict, s!"This account's stores hold {describe blockers}. Deleting it would " ++
      "destroy that history, so it is refused."⟩
  else pure ()

/-- Delete another account, as an administrator; `none` is an id that does not parse. -/
def deleteUserAccount (relied : Ledger → Prop) (userId : Option Uuid) : DeletionM Unit :=
  match userId with
  | none => Thread.fail ⟨.badRequest, "Invalid user ID"⟩
  | some userId => do
    match ← look (Ledger.getUser userId) "Database error" with
    | none => Thread.fail ⟨.notFound, "User not found"⟩
    | some user =>
      if user.isAdmin then
        Thread.fail ⟨.badRequest, "Cannot delete a server admin. Demote the account first."⟩
      else do
        let stores ← look (Ledger.getStoresOwnedBy userId) "Database error"
        let addresses ← look (Ledger.getActiveWatchedAddressesForStores (stores.map Store.id))
          "Could not look up watched addresses."
        if !addresses.isEmpty then
          Thread.fail ⟨.conflict, s!"This account has {addresses.length} still-watched address(es) for " ++
            "a pending invoice. A payment broadcast to one of them may not have confirmed yet, and " ++
            "deleting now would stop watching it with nothing left to credit it to. Refused until the " ++
            "watch is released: that happens once the invoice is paid or cancelled, or shortly after " ++
            "it expires (the watch outlives expiry by a short grace period). If the invoice has " ++
            "already expired, retry in a minute or two."⟩
        else do
          ensureNoFinancialBlockers userId
          deleteUser relied userId

/-- The transaction of invoice creation; the store must exist. -/
def createInvoice {ε : Type} (refuse : RepositoryError → ε) (invoice : InvoiceData)
    (options : List PaymentOptionData) : Thread Time ε Ledger Unit :=
  Thread.statement fun _ ledger =>
    if invoice.storeId ∈ ledger.stores.keys then
      ((createInvoiceWithOptions invoice options ledger.db).map
        fun db => ((), { ledger with db := db })).mapError refuse
    else .error (refuse (refused "foreign key constraint invoices_store_id_fkey"))

/-! ## The deletions beside the other writers -/

inductive AccountRequest where
  | deleteAccount (user : UserInfo) (confirm : Text)
  | deleteUserAccount (userId : Option Uuid)
  | createInvoice (invoice : InvoiceData) (options : List PaymentOptionData)
  | payout (request : PayoutRequest)
  | apply (delivery : Delivery) (event : MonitorEvent)

/-- The errors of the three kinds of requests. -/
inductive AccountError where
  | refusal (error : Refusal)
  | api (error : StatusCode)
  | consumer (error : EventConsumerError)

def deletionView : Thread.View Ledger Refusal Ledger AccountError where
  part := id
  replace ledger _ := ledger
  fault
    | .refusal e => e
    | _ => ⟨.internalServerError, "Database error"⟩
  report := .refusal

def payoutView : Thread.View Ledger StatusCode Ledger AccountError where
  part := id
  replace ledger _ := ledger
  fault _ := .internalServerError
  report := .api

def paymentView : Thread.View Db EventConsumerError Ledger AccountError where
  part := Ledger.db
  replace db ledger := { ledger with db := db }
  fault
    | .consumer e => e
    | _ => .stopped
  report := .consumer

/-- No payment is on record under the user's stores, as the check saw. -/
def NoPayments (userId : Uuid) (ledger : Ledger) : Prop :=
  (ledger.accountDeletionBlockers userId).payments = 0

def accountDesk (divide : Division) : Service AccountRequest Time AccountError Ledger Unit where
  initial _ := True
  legal _ _ := True
  body request _ :=
    match request with
    | .deleteAccount user confirm => (deleteAccount (NoPayments user.id) user confirm).embed deletionView
    | .deleteUserAccount userId =>
      (deleteUserAccount (fun ledger => ∀ id ∈ userId, NoPayments id ledger) userId).embed deletionView
    | .createInvoice invoice options => createInvoice (fun _ => .api .internalServerError) invoice options
    | .payout request => do
      let _ ← (request.thread fun _ => True).embed payoutView
      pure ()
    | .apply delivery event =>
      (Interleaved.handleEvent (fun _ _ _ => True) divide delivery event).embed paymentView

/-! ## What stays on record -/

/-- No row of the financial tables was removed. -/
structure HistoryKept (before after : Ledger) : Prop where
  payments : before.db.payments.keys ⊆ after.db.payments.keys
  payouts : before.payouts.keys ⊆ after.payouts.keys
  refunds : before.refunds.keys ⊆ after.refunds.keys

theorem HistoryKept.refl (ledger : Ledger) : HistoryKept ledger ledger :=
  ⟨List.Subset.refl _, List.Subset.refl _, List.Subset.refl _⟩

theorem HistoryKept.trans {first second third : Ledger} (early : HistoryKept first second)
    (late : HistoryKept second third) : HistoryKept first third where
  payments := List.Subset.trans early.payments late.payments
  payouts := List.Subset.trans early.payouts late.payouts
  refunds := List.Subset.trans early.refunds late.refunds

variable {ledger after : Ledger}

/-- Without payments under the user's stores the cascade reaches no payment. -/
theorem HistoryKept.deleteUser {userId : Uuid} {result : Unit} (none : NoPayments userId ledger)
    (done : Ledger.deleteUser userId ledger = .ok (result, after)) : HistoryKept ledger after := by
  obtain ⟨payouts, refunds, payments⟩ := Ledger.deleteUser_ok done
  refine ⟨?_, by rw [payouts]; exact List.Subset.refl _, by rw [refunds]; exact List.Subset.refl _⟩
  intro id known
  obtain ⟨payment, mem, rfl⟩ := Table.mem_keys.mp known
  refine payments payment mem (Bool.eq_false_iff.mpr ?_)
  exact List.countP_eq_zero.mp none payment mem

theorem HistoryKept.payout {request : PayoutRequest} (write : request.Writes ledger after) :
    HistoryKept ledger after := by
  cases write with
  | created sameStore sameInvoices done =>
    obtain ⟨rows, sameDb, sameRefunds, -⟩ := Ledger.createPayout_ok done
    refine ⟨by rw [sameDb]; exact List.Subset.refl _, ?_, by rw [sameRefunds]; exact List.Subset.refl _⟩
    rw [Table.keys, Table.keys, rows, List.map_append]
    exact List.subset_append_left _ _
  | settled done =>
    cases done
    exact ⟨List.Subset.refl _, by simp, List.Subset.refl _⟩
  | abandoned done =>
    cases done
    exact ⟨List.Subset.refl _, by simp, List.Subset.refl _⟩

variable {db db' : Db}

theorem keys_of_recorded {now : Time} {row : Payment} {rows : List Payment}
    (recorded : Recorded now row rows db db') : db'.payments.keys = rows.map Payment.id := by
  rw [Table.keys, recorded.payments]

theorem keys_of_changed {now : Time} {id : Uuid} {row : Payment} {change : Payment → Payment}
    (recorded : Recorded now row (changeRow id change db.payments.rows) db db')
    (same : ∀ payment, (change payment).id = payment.id) : db'.payments.keys = db.payments.keys := by
  rw [keys_of_recorded recorded, Table.keys, changeRow, List.map_map]
  refine List.map_congr_left fun payment _ => ?_
  simp only [Function.comp]
  split
  · exact same payment
  · rfl

theorem keys_of_call {event : MonitorEvent} {relied : Uuid → InvoiceStatus → Db → Prop}
    (call : Interleaved.Call relied event db db') : db.payments.keys ⊆ db'.payments.keys := by
  cases call with
  | filed done =>
    obtain ⟨row, -, upserted⟩ := upsertWithTxIndexAndObligation_ok done
    cases upserted with
    | updated existing mem same recorded =>
      rw [keys_of_changed recorded fun _ => rfl]
      exact List.Subset.refl _
    | inserted freshKey freshId recorded =>
      rw [keys_of_recorded recorded, List.map_append]
      exact List.subset_append_left _ _
  | marked done =>
    obtain ⟨row, -, -, -, recorded⟩ := markConfirmed_ok done
    rw [keys_of_changed recorded fun _ => rfl]
    exact List.Subset.refl _
  | noted done =>
    rw [(recordSettlementAllowance_ok done).payments]
    exact List.Subset.refl _
  | settled settles premised done =>
    rw [(updateStatus_ok done).payments]
    exact List.Subset.refl _
  | retracted done =>
    rcases markPaymentReorged_ok done with ⟨rfl, -⟩ | ⟨row, -, -, -, recorded⟩
    · exact List.Subset.refl _
    · rw [keys_of_changed recorded fun _ => rfl]
      exact List.Subset.refl _
  | reopened isOpen isStatus premised done =>
    rw [(updateStatus_ok done).payments]
    exact List.Subset.refl _

theorem samePayments_of_create {invoice : InvoiceData} {options : List PaymentOptionData}
    (done : createInvoiceWithOptions invoice options db = .ok db') : db'.payments = db.payments :=
  createInvoiceWithOptions_preserves (I := fun written => written.payments = db.payments) done rfl
    (fun added same => added.payments.trans same) fun _ _ _ _ added same => added.payments.trans same

theorem HistoryKept.ofDb (kept : ledger.db.payments.keys ⊆ db.payments.keys) :
    HistoryKept ledger { ledger with db := db } :=
  ⟨kept, List.Subset.refl _, List.Subset.refl _⟩

/-! ## The threads keep it -/

variable {relied : Ledger → Prop}

theorem look_readOnly {α : Type} (read : Ledger → α) (message : String) : (look read message).ReadOnly := by
  refine .bind (.attempt (.query _)) fun found => ?_
  cases found with
  | ok _ => exact .pure _
  | error _ => exact .fail _

theorem ensureNoFinancialBlockers_readOnly : (ensureNoFinancialBlockers userId).ReadOnly := by
  refine .bind (look_readOnly _ _) fun blockers => ?_
  split
  · exact .fail _
  · exact .pure _

section Writes

variable {R : Ledger → Ledger → Prop} (kept : ∀ ledger, R ledger ledger)
include kept

/-- The `DELETE` keeps what it is known to keep where its premise holds. -/
theorem deleteUser_writes {userId : Uuid} (deletes : ∀ {ledger after}, relied ledger →
      Ledger.deleteUser userId ledger = .ok ((), after) → R ledger after) :
    (deleteUser relied userId).Writes R :=
  .statement kept fun premised done => deletes (premised trivial) (mapError_eq_ok done)

theorem deleteAccount_writes {user : UserInfo} (deletes : ∀ {ledger after}, relied ledger →
      Ledger.deleteUser user.id ledger = .ok ((), after) → R ledger after) (confirm : Text) :
    (deleteAccount relied user confirm).Writes R := by
  unfold deleteAccount
  split
  · exact .fail _
  refine .bind (.readOnly kept (look_readOnly _ _)) fun stores => ?_
  refine .bind (.readOnly kept (look_readOnly _ _)) fun _ => ?_
  refine .bind (.readOnly kept (look_readOnly _ _)) fun blockers => ?_
  split
  · exact .fail _
  · exact deleteUser_writes kept deletes

theorem deleteUserAccount_writes {userId : Option Uuid}
    (deletes : ∀ {id ledger after}, userId = some id → relied ledger →
      Ledger.deleteUser id ledger = .ok ((), after) → R ledger after) :
    (deleteUserAccount relied userId).Writes R := by
  cases userId with
  | none => exact .fail _
  | some userId =>
    refine .bind (.readOnly kept (look_readOnly _ _)) fun user => ?_
    cases user with
    | none => exact .fail _
    | some user =>
      simp only
      split
      · exact .fail _
      refine .bind (.readOnly kept (look_readOnly _ _)) fun _ => ?_
      refine .bind (.readOnly kept (look_readOnly _ _)) fun _ => ?_
      split
      · exact .fail _
      · refine .bind (.readOnly kept (ensureNoFinancialBlockers_readOnly userId)) fun _ => ?_
        exact deleteUser_writes kept fun premised done => deletes rfl premised done

end Writes

/-- What the threads beside a deletion promise. -/
abbrev accountSpec (divide : Division) : Service.Spec (accountDesk divide) :=
  .plain _ (fun _ => True) fun _ => HistoryKept

variable {divide : Division}

theorem createInvoice_meets (invoice : InvoiceData) (options : List PaymentOptionData) (i : Nat)
    (ledger : Ledger) :
    ((accountDesk divide).body (.createInvoice invoice options) i).Respects
      ((accountSpec divide).contract (.createInvoice invoice options) i) ledger := by
  refine .ofWrite HistoryKept.refl ?_ (fun _ _ => trivial) (fun _ _ => trivial) ledger
  intro _ before _ after _ _ done
  simp only at done
  split at done
  · obtain ⟨db, created, isLedger⟩ := map_eq_ok.mp (mapError_eq_ok done)
    cases isLedger
    refine .ofDb ?_
    rw [samePayments_of_create created]
    exact List.Subset.refl _
  · cases done

theorem account_sound (divide : Division) : (accountSpec divide).Sound := by
  refine .plain (fun _ => trivial) (fun _ _ => trivial) ?_
  intro request i ledger _
  cases request with
  | deleteAccount user confirm =>
    exact (deleteAccount_writes HistoryKept.refl HistoryKept.deleteUser confirm).embed_meets (fun _ => id) ledger
  | deleteUserAccount userId =>
    refine (deleteUserAccount_writes HistoryKept.refl ?_).embed_meets (fun _ => id) ledger
    intro id before after isUser premised done
    exact HistoryKept.deleteUser (premised id isUser) done
  | createInvoice invoice options => exact createInvoice_meets invoice options i ledger
  | payout request =>
    simp only [accountDesk]
    rw [Thread.meets_bind]
    exact (request.thread_writes HistoryKept.refl fun _ write => HistoryKept.payout write).embed_meets
      (fun _ => id) ledger
  | apply delivery event =>
    have writes : (Interleaved.handleEvent (fun _ _ _ => True) divide delivery event).Writes
        fun db db' => db.payments.keys ⊆ db'.payments.keys :=
      Interleaved.handleEvent_writes (fun _ => List.Subset.refl _) (by simp) keys_of_call delivery
    exact writes.embed_meets (fun _ kept => HistoryKept.ofDb kept) ledger

/-! ## Every run -/

abbrev AccountPool : Type := Pool AccountRequest Time AccountError Ledger Unit

/--
No row of the payments, payouts and refunds is ever removed, in every run in
which no payment was filed under the user's stores between the check of a
deletion and its `DELETE`.
-/
theorem history_never_destroyed {divide : Division} {pool pool' : AccountPool}
    (reached : (accountDesk divide).timely.Reachable pool)
    (run : (accountDesk divide).timely.Run pool pool') : HistoryKept pool.shared pool'.shared :=
  (account_sound divide).run HistoryKept.refl HistoryKept.trans (fun kept => kept) reached run

def unpaidLedger : Ledger :=
  { Ledger.empty with
    db := sampleDb
    users := ⟨[⟨1, false⟩], by decide⟩
    stores := ⟨[⟨1, 1⟩], by decide⟩ }

/-- The user deletes the account, with the confirmation typed right. -/
def goodbye : AccountRequest := .deleteAccount ⟨1, some ['a', '@', 'b']⟩ ['A', '@', 'b']

/-- The deletion has found no blocker, and the invoice is paid. -/
def paidMeanwhile : AccountPool :=
  (accountDesk (· / ·)).after unpaidLedger
    [.start goodbye, .run 0 (.ok 0), .run 0 (.ok 0), .run 0 (.ok 0),
      .start (.apply (sampleDelivery 1) (.paymentDetected (sampleDetected 7 (10 ^ 18)))),
      .run 1 (.ok 0), .run 1 (.ok 0), .run 1 (.ok 0)]

def deletedAfter : AccountPool :=
  paidMeanwhile.perform (accountDesk (· / ·)).body (.run 0 (.ok 0))

theorem paidMeanwhile_destroyed :
    (accountDesk (· / ·)).system.Reachable paidMeanwhile ∧
      (accountDesk (· / ·)).system.Run paidMeanwhile deletedAfter ∧
      ¬ HistoryKept paidMeanwhile.shared deletedAfter.shared := by
  refine ⟨Service.reachable_of_answered trivial (fun _ => trivial) (by decide), ?_, ?_⟩
  · have step : (accountDesk (· / ·)).system.step paidMeanwhile (.run 0 (.ok 0)) deletedAfter :=
      ⟨trivial, rfl⟩
    exact (System.Run.refl _).snoc step
  · intro kept
    have filed : 1 ∈ paidMeanwhile.shared.db.payments.keys := by decide +kernel
    exact absurd (kept.payments filed) (by decide +kernel)

/-- Another account was paid and pays out; the user's own store has an invoice nobody paid. -/
def paidElsewhere : AccountPool :=
  (accountDesk (· / ·)).after
    { paidLedger with
      db := { paidLedger.db with
        invoices := ⟨⟨2, 1, ⟨12, by decide⟩, 0, .cancelled, 100⟩ :: paidLedger.db.invoices.rows, by decide⟩
        paymentInvoice := by decide
        optionInvoice := by decide }
      users := ⟨[⟨1, false⟩, ⟨2, true⟩], by decide⟩
      stores := ⟨[⟨1, 1⟩, ⟨10, 2⟩], by decide⟩ }
    (.start (.payout (payoutOfOne 51)) :: List.replicate 4 (.run 0 (.ok 40)))

def deletedAlone : AccountPool :=
  (.start goodbye :: List.replicate 4 (.run 1 (.ok 0))).foldl
    (Pool.perform (accountDesk (· / ·)).body) paidElsewhere

theorem deletedAlone_keeps :
    deletedAlone.shared.users.keys = [2] ∧ deletedAlone.shared.db.invoices.keys = [1] ∧
      paidElsewhere.shared.db.payments.keys = [7] ∧ paidElsewhere.shared.payouts.keys = [51] ∧
      HistoryKept paidElsewhere.shared deletedAlone.shared := by
  have reached : (accountDesk (· / ·)).timely.Reachable paidElsewhere := by
    refine Service.timely_of_path trivial ?_
    repeat' apply And.intro
    all_goals first | trivial | (rintro running ⟨⟩; trivial)
  refine ⟨by decide +kernel, by decide +kernel, by decide +kernel, by decide +kernel,
    history_never_destroyed reached (System.Path.run ?_)⟩
  repeat' apply And.intro
  all_goals first | trivial | (rintro running ⟨⟩; trivial)

end EthPayServer.Api
