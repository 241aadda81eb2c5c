import EthPayServer.Consumer.Settlement
import EthPayServer.Evm.Monitor

/-!
# The event consumer

The handlers of `services/event_consumer`: what applying one published event
does to the database, statement by statement.  Notifications that follow the
database writes (websocket, webhook queue, email, plugins) change none of the
modelled tables and never fail a handler.
-/

namespace EthPayServer.Consumer

open Lib Data
open Evm (Time Uuid B256 MonitorEvent PaymentDetected PaymentConfirmed ReorgDetected addressText
  hashText parseHash)

/-- How a handler ends without success; `stopped` is the process going away. -/
inductive EventConsumerError where
  | database (error : RepositoryError)
  | invalidData (message : String)
  | stopped
deriving DecidableEq, Repr

/-- A handler: statements against the database, each observing the server's clock. -/
abbrev ConsumerM : Type → Type := Proc Time EventConsumerError Db

/-- One statement or one explicit transaction. -/
def statement {α : Type} (run : Time → Db → Except RepositoryError (α × Db)) : ConsumerM α :=
  Proc.call fun now db => (run now db).mapError .database

def query {α : Type} (read : Db → α) : ConsumerM α :=
  Proc.read fun _ db => .ok (read db)

/-- Where the statements of a handler run: in a row, or among those of others. -/
class Statements (m : Type → Type) where
  statement {α : Type} : (Time → Db → Except RepositoryError (α × Db)) → m α
  query {α : Type} : (Db → α) → m α
  fail {α : Type} : EventConsumerError → m α

instance inARow : Statements ConsumerM := ⟨statement, query, Proc.fail⟩

variable {m : Type → Type} [Monad m] [Statements m]

/-- What one delivery of an event draws from outside the event and the database. -/
structure Delivery where
  /-- `Uuid::new_v4()` -/
  paymentId : Uuid
  /-- `Utc::now()` -/
  now : Time
  /-- the iteration order of a hash map -/
  order : Nat → Nat

/-! ## Amounts -/

/-- `with_scale_round(18, HalfUp)`. -/
def formatAmount (value : ℚ) : ℚ := (Numeric.roundUnits 18 value : ℚ) / 10 ^ 18

def convertSmallestToHuman (rawAmount : ℚ) (decimals : Nat) : ℚ :=
  formatAmount (rawAmount / 10 ^ decimals)

/-- The division of the decimal library. -/
abbrev Division : Type := ℚ → ℚ → ℚ

/-- The amount in the invoice's currency. -/
def convertPaymentToInvoiceCurrency (divide : Division) (rawAmount rate : ℚ) (decimals : Nat) :
    Except String ℚ :=
  if rate = 0 then .error "Rate is zero, cannot convert"
  else .ok (formatAmount (divide (rawAmount / 10 ^ decimals) rate))

/-! ## Payment detected -/

/-- Native symbols of the configured chains, mainnets first. -/
def nativeSymbols : List (Nat × String) :=
  [(1, "ETH"), (137, "POL"), (42161, "ETH"), (10, "ETH"), (8453, "ETH"), (43114, "AVAX"),
    (56, "BNB"), (324, "ETH"), (59144, "ETH"), (534352, "ETH"), (250, "FTM"), (100, "xDAI"),
    (11155111, "ETH"), (17000, "ETH"), (80002, "POL"), (421614, "ETH"), (11155420, "ETH"),
    (84532, "ETH"), (43113, "AVAX"), (97, "tBNB"), (560048, "ETH")]

/-- `get_any_chain_config(chain_id).native_symbol`, or `ETH` for a chain without a configuration. -/
def nativeSymbol (chainId : Nat) : Text :=
  (((nativeSymbols.find? fun entry => entry.1 = chainId).map Prod.snd).getD "ETH").toList

/-- `char::is_whitespace`. -/
def isWhitespace (c : Char) : Bool :=
  let n := c.toNat
  (9 ≤ n && n ≤ 13) || (0x2000 ≤ n && n ≤ 0x200a) ||
    [0x20, 0x85, 0xa0, 0x1680, 0x2028, 0x2029, 0x202f, 0x205f, 0x3000].contains n

/-- A symbol that is not blank, or `ERC20`. -/
def assetSymbolFor (symbol : Option Text) : Text :=
  match symbol with
  | some symbol => if symbol.all isWhitespace then "ERC20".toList else symbol
  | none => "ERC20".toList

def assetOf (event : PaymentDetected) : m (AssetType × Text × Option Text) :=
  if event.isNative then pure (.native, nativeSymbol event.chainId, none)
  else
    match event.tokenAddress with
    | none => Statements.fail (.invalidData "ERC20 payment missing token_address")
    | some tokenAddress => do
      let found ← Statements.query (getByAddress (.evm event.chainId) (addressText tokenAddress))
      pure (.erc20, assetSymbolFor ((found.bind Token.symbol).map Subtype.val),
        some (addressText tokenAddress))

/-- Whether an option of the invoice is the one an expired watch pointed at. -/
def isLateOption (event : PaymentDetected) (tokenAddress : Option Text) (option : PaymentOption) :
    Bool :=
  decide (lower option.paymentAddress.val = lower (addressText event.paymentAddress) ∧
    option.chainId = .evm event.chainId ∧
    (option.tokenAddress.map fun token => lower token.val) = tokenAddress.map lower)

/-- The payment option a payment is credited through: by its active watch, or by its invoice. -/
def resolveOption (event : PaymentDetected) (tokenAddress : Option Text) :
    m (Option Uuid) := do
  match ← Statements.query (getPaymentOptionId (addressText event.paymentAddress) (.evm event.chainId)
      tokenAddress) with
  | some id => pure (some id)
  | none => do
    let options ← Statements.query (getForInvoice event.invoiceId)
    pure ((options.find? (isLateOption event tokenAddress)).map PaymentOption.id)

structure Credit where
  creditedAmount : Option ℚ
  rateUsed : Option ℚ
  rateAppliedAt : Option Time

/-- What a payment through an option counts for in the invoice's currency. -/
def creditThrough (divide : Division) (amount : Nat) (now : Time) (option : PaymentOption) : Credit :=
  match option.rate with
  | some rate =>
    match convertPaymentToInvoiceCurrency divide amount rate.toRat option.decimals with
    | .ok converted => ⟨some converted, some rate.toRat, some now⟩
    | .error _ => ⟨none, none, none⟩
  | none => ⟨some (convertSmallestToHuman amount option.decimals), none, none⟩

def creditOf (divide : Division) (amount : Nat) (now : Time) (optionId : Option Uuid) :
    m Credit :=
  match optionId with
  | none => pure ⟨none, none, none⟩
  | some id => do
    match ← Statements.query (getPaymentOption id) with
    | some option => pure (creditThrough divide amount now option)
    | none => pure ⟨none, none, none⟩

def paymentData (delivery : Delivery) (event : PaymentDetected)
    (asset : AssetType × Text × Option Text) (optionId : Option Uuid) (credit : Credit) :
    PaymentData where
  id := delivery.paymentId
  invoiceId := event.invoiceId
  paymentOptionId := optionId
  chainId := .evm event.chainId
  assetType := asset.1
  amount := event.amount.toNat
  assetSymbol := asset.2.1
  tokenAddress := asset.2.2
  txHash := hashText event.txHash
  blockNumber := some event.blockNumber
  detectedAt := event.detectedAt
  confirmedAt := none
  fromAddress := some (addressText event.fromAddress)
  extra := none
  creditedAmount := credit.creditedAmount
  rateUsed := credit.rateUsed
  rateAppliedAt := credit.rateAppliedAt

/-- What a detected payment is filed as: everything before the write. -/
def describePayment (divide : Division) (delivery : Delivery) (event : PaymentDetected) :
    m (PaymentData × Int) := do
  let asset ← assetOf event
  let optionId ← resolveOption event asset.2.2
  let credit ← creditOf divide event.amount.toNat delivery.now optionId
  match event.txIndex with
  | none =>
    let txHash := String.ofList (hashText event.txHash)
    Statements.fail (.invalidData (s!"ERC20 transfer in {txHash} has no log index; cannot tell it apart " ++
      "from other transfers in the same transaction"))
  | some txIndex => pure (paymentData delivery event asset optionId credit, txIndex)

def handlePaymentDetected (divide : Division) (delivery : Delivery) (event : PaymentDetected) :
    ConsumerM Unit := do
  let described ← describePayment divide delivery event
  statement (upsertWithTxIndexAndObligation described.1 described.2 "payment_detected")

/-! ## Payment confirmed -/

/-- Record the shortfall a tolerance accepted, if the payment was short. -/
def recordAllowanceIfShort (invoiceId : Uuid) (received expected tolerancePercent : ℚ)
    (source : ToleranceSource) : m Unit :=
  if expected ≤ received then pure ()
  else Statements.statement (recordSettlementAllowance invoiceId (expected - received) tolerancePercent source)

/-- The status a settled invoice moves to; the other statuses do not settle. -/
def settledStatus (status : InvoiceStatus) : Option InvoiceStatus :=
  match status with
  | .processing | .partiallyPaid => some .paid
  | .expired => some .latePaid
  | _ => none

/--
The reads and the decision of `settle_invoice`; `move` gets the status that was
read and the one that is due.
-/
def settleWith {α : Type} (invoiceId : Uuid) (idle : α) (move : InvoiceStatus → InvoiceStatus → m α) : m α := do
  match ← Statements.query (getInvoice invoiceId) with
  | none => Statements.fail (.invalidData s!"Invoice not found: {invoiceId}")
  | some invoice => do
    match effectiveTolerance (← Statements.query (getSettlementTolerance invoice.storeId)) with
    | .error message => Statements.fail (.invalidData message)
    | .ok (tolerancePercent, source) =>
      match settledStatus invoice.status with
      | none => pure idle
      | some settled =>
        if isFullyPaid invoice.amountReceived.toRat invoice.amount.toRat tolerancePercent then do
          recordAllowanceIfShort invoiceId invoice.amountReceived.toRat invoice.amount.toRat
            tolerancePercent source
          move invoice.status settled
        else pure idle

def settleInvoice (invoiceId : Uuid) : ConsumerM Unit :=
  settleWith invoiceId () fun _ settled => statement fun _ db => updateStatus invoiceId settled db

def handlePaymentConfirmed (event : PaymentConfirmed) : ConsumerM Unit := do
  match ← query (getByTxIndex event.invoiceId (hashText event.txHash) event.txIndex) with
  -- not found, or retracted: nothing to confirm
  | none => pure ()
  | some payment => do
    statement (markConfirmed payment.id event.confirmedAt)
    settleInvoice event.invoiceId

/-! ## Reorganisation detected -/

/-- Whether a hash the monitor saw names the same transaction as a stored text. -/
def txHashEq (hash : B256) (stored : Text) : Bool := decide (parseHash stored = some hash)

def survived (event : ReorgDetected) (payment : Payment) : Bool :=
  event.survivedTxHashes.any fun hash => txHashEq hash payment.txHash.val

/-- The payments grouped by invoice, as the hash map of the handler holds them. -/
def byInvoice (payments : List Payment) : List (Uuid × List Payment) :=
  (payments.map Payment.invoiceId).dedup.map fun invoiceId =>
    (invoiceId, payments.filter fun payment => payment.invoiceId = invoiceId)

/-- A status a reorganisation must not walk backwards. -/
def isClosed (status : InvoiceStatus) : Bool :=
  match status with
  | .refunded | .cancelled | .expired | .latePaid => true
  | _ => false

/-- Write the status after a reorganisation, unless the invoice is closed. -/
def applyReorgStatus (invoiceId : Uuid) (computed : InvoiceStatus) : ConsumerM Unit := do
  match ← query (getInvoice invoiceId) with
  | none => Proc.fail (.invalidData s!"Invoice not found: {invoiceId}")
  | some current =>
    if isClosed current.status then pure ()
    else statement fun _ db => updateStatus invoiceId computed db

/-- Retract payments of one invoice and walk its status back. -/
def retractGroup (group : Uuid × List Payment) : ConsumerM Unit := do
  forM group.2 fun payment => statement (markPaymentReorged payment.id)
  let hasValid ← query (hasValidPayments group.1)
  applyReorgStatus group.1 (if hasValid then .processing else .pending)

def handleReorgDetected (delivery : Delivery) (event : ReorgDetected) : ConsumerM Unit :=
  -- a scan that could look at nothing proves nothing absent
  if event.survivorsVerifiable then do
    let candidates ← query (reorgCandidates (.evm event.chainId) event.forkBlock)
    let groups := byInvoice (candidates.filter fun payment => !survived event payment)
    forM (arrange delivery.order groups) retractGroup
  else pure ()

/-- Apply one published event; events without a handler change nothing. -/
def handleEvent (divide : Division) (delivery : Delivery) (event : MonitorEvent) : ConsumerM Unit :=
  match event with
  | .paymentDetected event => handlePaymentDetected divide delivery event
  | .paymentConfirmed event => handlePaymentConfirmed event
  | .reorgDetected event => handleReorgDetected delivery event
  | .notice _ => pure ()

end EthPayServer.Consumer
