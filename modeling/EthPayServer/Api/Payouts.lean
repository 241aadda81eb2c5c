import EthPayServer.Data.Ledger
import EthPayServer.Consumer.Handlers
import EthPayServer.Lib.Interleaving

/-!
# Payouts

The endpoints of `api/payouts.rs`, one call per SQL statement.  A payout claims
the invoices it names; settling or abandoning it reads the row, decides, and
then updates without looking at the row again.
-/

namespace EthPayServer.Api

open Lib Data
open Consumer (isWhitespace)
open Evm (Time Uuid)

/-- Answers that end a request early. -/
inductive StatusCode where
  | badRequest
  | notFound
  | conflict
  | internalServerError
deriving DecidableEq, Repr

/-- A request handler: statements against the database. -/
abbrev ApiM : Type → Type := Thread Time StatusCode Ledger

/-- One statement; an error of the database is answered 500. -/
def sql {α : Type} (run : Ledger → Except RepositoryError (α × Ledger)) : ApiM α :=
  Thread.statement fun _ ledger => (run ledger).mapError fun _ => .internalServerError

/-- The database fails a request in one way. -/
def OnlyFaults {ω : Type} (answer : Answer StatusCode ω) : Prop :=
  ∀ e ∈ answer.error?, e = .internalServerError

theorem onlyFaults_of_answered {ω : Type} {answer : Answer StatusCode ω}
    (answered : answer.error? = none) : OnlyFaults answer := by
  intro e mem
  rw [answered] at mem
  cases mem

/-- `str::trim`. -/
def trim (text : Text) : Text :=
  ((text.dropWhile isWhitespace).reverse.dropWhile isWhitespace).reverse

structure CreatePayoutRequest where
  invoiceIds : List Uuid
  destinationAddress : Text
  chainId : ChainId
  assetSymbol : Text
  tokenAddress : Option Text

/-- What a request draws: `Uuid::new_v4()` and `Utc::now()`. -/
structure Draw where
  id : Uuid
  now : Time

/-! ## The endpoints -/

/-- Members of the store, and administrators, may go on. -/
def requireStore (user : User) (storeId : Uuid) : ApiM Unit :=
  if user.isAdmin then pure ()
  else do
    match ← Thread.query (Ledger.getUserStore user.id storeId) with
    | none => Thread.fail .notFound
    | some _ => pure ()

/-- An amount that parses as `U256`. -/
def parseU256 (amount : Int) : Option Nat :=
  if 0 ≤ amount ∧ amount < 2 ^ 256 then some amount.toNat else none

/-- Total of the confirmed payments in an asset; `U256` addition wraps. -/
def sumPayable (payments : List Payment) (chainId : ChainId) (assetSymbol : Text) : Nat :=
  ((payments.filter fun payment => payment.confirmedAt.isSome ∧ payment.reorged = false ∧
      payment.chainId = chainId ∧ payment.assetSymbol.val = assetSymbol).filterMap
    fun payment => parseU256 payment.amount.units).foldl (fun total amount => (total + amount) % 2 ^ 256) 0

/-- What the invoices are worth; one the store does not own ends the request. -/
def payableTotal (storeId : Uuid) (chainId : ChainId) (assetSymbol : Text) :
    List Uuid → Nat → ApiM Nat
  | [], total => pure total
  | invoiceId :: rest, total => do
    match ← Thread.query fun ledger => getInvoice invoiceId ledger.db with
    | none => Thread.fail .notFound
    | some invoice =>
      if invoice.storeId ≠ storeId then Thread.fail .notFound
      else do
        let payments ← Thread.query (Ledger.getValidForInvoice invoiceId)
        payableTotal storeId chainId assetSymbol rest
          ((total + sumPayable payments chainId assetSymbol) % 2 ^ 256)

variable (storeId : Uuid)

/-- Refuse a payout over invoices an existing payout already claims. -/
def rejectClaimedInvoices (storeId : Uuid) (invoiceIds : List Uuid) : ApiM Unit := do
  let claimed ← Thread.query (Ledger.invoiceIdsAlreadyClaimed storeId invoiceIds)
  if claimed.isEmpty then pure () else Thread.fail .conflict

/-- Load a payout, refusing one that belongs to a different store. -/
def payoutForStore (storeId payoutId : Uuid) : ApiM Payout := do
  match ← Thread.query (Ledger.getPayout payoutId) with
  | none => Thread.fail .notFound
  | some payout => if payout.storeId ≠ storeId then Thread.fail .notFound else pure payout

def newPayout (storeId : Uuid) (body : CreatePayoutRequest) (draw : Draw) (total : Nat) : Payout where
  id := draw.id
  storeId := storeId
  invoiceIds := body.invoiceIds
  destinationAddress := body.destinationAddress
  chainId := body.chainId
  assetType := if body.tokenAddress.isSome then .erc20 else .native
  assetSymbol := body.assetSymbol
  tokenAddress := body.tokenAddress
  amount := total
  txHash := none
  status := .pending
  feeAmount := none
  errorMessage := none
  createdAt := draw.now
  confirmedAt := none

/-- Record a payout; the insert relies on what the check of the claims saw. -/
def createPayout (relied : Ledger → Prop) (user : User) (storeId : Uuid) (body : CreatePayoutRequest)
    (draw : Draw) : ApiM Payout := do
  requireStore user storeId
  if (trim body.destinationAddress).isEmpty then Thread.fail .badRequest
  else if body.invoiceIds.isEmpty then Thread.fail .badRequest
  else do
    let total ← payableTotal storeId body.chainId body.assetSymbol body.invoiceIds 0
    rejectClaimedInvoices storeId body.invoiceIds
    if total = 0 then Thread.fail .badRequest
    else do
      Thread.assuming relied (sql (Ledger.createPayout (newPayout storeId body draw total)))
      pure (newPayout storeId body draw total)

/-- Record that the merchant made the payout; the update relies on the status that was read. -/
def settlePayout (relied : Ledger → Prop) (user : User) (storeId payoutId : Uuid) (txHash : Text) :
    ApiM Payout := do
  requireStore user storeId
  if (trim txHash).isEmpty then Thread.fail .badRequest
  else do
    let payout ← payoutForStore storeId payoutId
    if payout.status ≠ .pending then Thread.fail .conflict
    else do
      Thread.assuming relied
        (sql (Ledger.updatePayoutStatus payoutId .confirmed (some (trim txHash)) none none))
      payoutForStore storeId payoutId

/-- Give a payout up; the update relies on the status that was read. -/
def abandonPayout (relied : Ledger → Prop) (user : User) (storeId payoutId : Uuid)
    (reason : Option Text) : ApiM Payout := do
  requireStore user storeId
  let payout ← payoutForStore storeId payoutId
  if payout.status ≠ .pending then Thread.fail .conflict
  else do
    Thread.assuming relied (sql (Ledger.updatePayoutStatus payoutId .failed none none
      (some (reason.getD "abandoned by the merchant".toList))))
    payoutForStore storeId payoutId

inductive PayoutRequest where
  | create (user : User) (storeId : Uuid) (body : CreatePayoutRequest) (draw : Draw)
  | settle (user : User) (storeId payoutId : Uuid) (txHash : Text)
  | abandon (user : User) (storeId payoutId : Uuid) (reason : Option Text)

def PayoutRequest.thread (relied : Ledger → Prop) : PayoutRequest → ApiM Payout
  | create user storeId body draw => createPayout relied user storeId body draw
  | settle user storeId payoutId txHash => settlePayout relied user storeId payoutId txHash
  | abandon user storeId payoutId reason => abandonPayout relied user storeId payoutId reason

/-- Any number of payout requests over one database. -/
def payoutDesk (initial : Ledger → Prop) (relies : PayoutRequest → Ledger → Prop) :
    Service PayoutRequest Time StatusCode Ledger Payout where
  initial := initial
  legal _ := OnlyFaults
  body request _ := request.thread (relies request)

/-! ## What a request writes -/

inductive PayoutRequest.Writes : PayoutRequest → Ledger → Ledger → Prop
  | created {user : User} {storeId : Uuid} {body : CreatePayoutRequest} {draw : Draw} {payout : Payout}
      {before after : Ledger} (sameStore : payout.storeId = storeId)
      (sameInvoices : payout.invoiceIds = body.invoiceIds)
      (done : Ledger.createPayout payout before = .ok ((), after)) :
      Writes (.create user storeId body draw) before after
  | settled {user : User} {storeId payoutId : Uuid} {txHash : Text} {before after : Ledger}
      (done : Ledger.updatePayoutStatus payoutId .confirmed (some (trim txHash)) none none before =
        .ok ((), after)) : Writes (.settle user storeId payoutId txHash) before after
  | abandoned {user : User} {storeId payoutId : Uuid} {reason : Option Text} {message : Text}
      {before after : Ledger}
      (done : Ledger.updatePayoutStatus payoutId .failed none none (some message) before =
        .ok ((), after)) : Writes (.abandon user storeId payoutId reason) before after

theorem requireStore_readOnly (user : User) (storeId : Uuid) : (requireStore user storeId).ReadOnly := by
  unfold requireStore
  split
  · exact .pure _
  · refine .bind (.query _) fun found => ?_
    cases found with
    | none => exact .fail _
    | some _ => exact .pure _

theorem payableTotal_readOnly (chainId : ChainId) (assetSymbol : Text) (invoiceIds : List Uuid) (total : Nat) :
    (payableTotal storeId chainId assetSymbol invoiceIds total).ReadOnly := by
  induction invoiceIds generalizing total with
  | nil => exact .pure _
  | cons invoiceId rest ih =>
    unfold payableTotal
    refine .bind (.query _) fun found => ?_
    cases found with
    | none => exact .fail _
    | some invoice =>
      simp only
      split
      · exact .fail _
      · exact .bind (.query _) fun payments => ih _

theorem rejectClaimedInvoices_readOnly (invoiceIds : List Uuid) :
    (rejectClaimedInvoices storeId invoiceIds).ReadOnly := by
  refine .bind (.query _) fun claimed => ?_
  split
  · exact .pure _
  · exact .fail _

theorem payoutForStore_readOnly (storeId payoutId : Uuid) :
    (payoutForStore storeId payoutId).ReadOnly := by
  refine .bind (.query _) fun found => ?_
  cases found with
  | none => exact .fail _
  | some payout =>
    simp only
    split
    · exact .fail _
    · exact .pure _

section Writes

variable {R : Ledger → Ledger → Prop} (kept : ∀ ledger, R ledger ledger) {relied : Ledger → Prop}
include kept

theorem sql_writes {α : Type} {run : Ledger → Except RepositoryError (α × Ledger)}
    (write : ∀ {ledger a after}, relied ledger → run ledger = .ok (a, after) → R ledger after) :
    (Thread.assuming relied (sql run)).Writes R :=
  .statement kept fun premised done => write (premised trivial) (mapError_eq_ok done)

/-- The end of settling and of abandoning: update the row and read it back. -/
theorem update_writes {storeId payoutId : Uuid} {status : PayoutStatus} {txHash message : Option Text}
    (write : ∀ {ledger after}, relied ledger →
      Ledger.updatePayoutStatus payoutId status txHash none message ledger = .ok ((), after) → R ledger after) :
    (do
      Thread.assuming relied (sql (Ledger.updatePayoutStatus payoutId status txHash none message))
      payoutForStore storeId payoutId : ApiM Payout).Writes R :=
  .bind (sql_writes kept write) fun _ => .readOnly kept (payoutForStore_readOnly storeId payoutId)

theorem PayoutRequest.thread_writes (request : PayoutRequest)
    (write : ∀ {before after}, relied before → request.Writes before after → R before after) :
    (request.thread relied).Writes R := by
  cases request with
  | create user storeId body draw =>
    refine .bind (.readOnly kept (requireStore_readOnly _ _)) fun _ => ?_
    split
    · exact .fail _
    split
    · exact .fail _
    refine .bind (.readOnly kept (payableTotal_readOnly _ _ _ _ _)) fun total => ?_
    refine .bind (.readOnly kept (rejectClaimedInvoices_readOnly _ _)) fun _ => ?_
    split
    · exact .fail _
    · refine .bind (sql_writes kept ?_) fun _ => .pure _
      intro before _ after premised done
      exact write premised (.created rfl rfl done)
  | settle user storeId payoutId txHash =>
    refine .bind (.readOnly kept (requireStore_readOnly _ _)) fun _ => ?_
    split
    · exact .fail _
    · refine .bind (.readOnly kept (payoutForStore_readOnly _ _)) fun payout => ?_
      split
      · exact .fail _
      · exact update_writes kept fun premised done => write premised (.settled done)
  | abandon user storeId payoutId reason =>
    refine .bind (.readOnly kept (requireStore_readOnly _ _)) fun _ => ?_
    refine .bind (.readOnly kept (payoutForStore_readOnly _ _)) fun payout => ?_
    split
    · exact .fail _
    · exact update_writes kept fun premised done => write premised (.abandoned done)

end Writes

end EthPayServer.Api
