import EthPayServer.Consumer.Handlers

/-!
# What the handlers do

For each handler, whatever the world answers: what it reads before it writes,
what each of its writes leaves, and why it can fail.
-/

namespace EthPayServer.Consumer

open Lib Data
open Evm (Time Uuid B256 MonitorEvent PaymentDetected PaymentConfirmed ReorgDetected addressText
  hashText)

/-- Some call of the process fails with this error. -/
def Faults (world : World EventConsumerError Time) (e : EventConsumerError) : Prop :=
  ∃ i, world i = .error e

/-- Some call of the process sees this time. -/
def Answers (world : World EventConsumerError Time) (now : Time) : Prop :=
  ∃ i, world i = .ok now

theorem not_faults_uninterrupted {clock : Nat → Time} {e : EventConsumerError} :
    ¬ Faults (Proc.uninterrupted clock) e := by
  rintro ⟨i, fault⟩
  cases fault

variable {world : World EventConsumerError Time} {db : Db}

variable {α : Type}

theorem query_reads (read : Db → α) (db : Db) : Proc.Reads (query read) db 1 (.ok (read db)) :=
  Proc.Reads.read fun db => .ok (read db)

theorem query_spec (read : Db → α) :
    Proc.Triple world (· = db) (query read)
      (fun result state => state = db ∧ result = read db)
      (fun e state => state = db ∧ Faults world e) := by
  refine Proc.Triple.read ?_ ?_ ?_
  · intro i e state fault start
    exact ⟨start, i, fault⟩
  · intro i now state result _ start done
    cases done
    exact ⟨start, by rw [start]⟩
  · intro i now state e _ _ failed
    cases failed

theorem mapError_eq_error {x : Except RepositoryError α} {e : EventConsumerError}
    (failed : x.mapError EventConsumerError.database = .error e) :
    ∃ error, x = .error error ∧ e = .database error := by
  cases x with
  | error error =>
    cases failed
    exact ⟨error, rfl, rfl⟩
  | ok b => cases failed

theorem statement_spec (run : Time → Db → Except RepositoryError (α × Db)) :
    Proc.Triple world (· = db) (statement run)
      (fun result state => ∃ now, Answers world now ∧ run now db = .ok (result, state))
      (fun e state => state = db ∧ (Faults world e ∨
        ∃ now error, run now db = .error error ∧ e = .database error)) := by
  refine Proc.Triple.call ?_ ?_ ?_
  · intro i e state fault start
    exact ⟨start, .inl ⟨i, fault⟩⟩
  · intro i now state result after answered start done
    subst start
    exact ⟨now, ⟨i, answered⟩, mapError_eq_ok done⟩
  · intro i now state e answered start failed
    subst start
    obtain ⟨error, refused, isError⟩ := mapError_eq_error failed
    exact ⟨rfl, .inr ⟨now, error, refused, isError⟩⟩

variable {db' mid : Db}

theorem statement_of_ok (run : Time → Db → Except RepositoryError (α × Db)) {i : Nat} {a : α}
    (answered : world i = .ok now) (done : run now db = .ok (a, db')) :
    statement run world i db = ⟨.ok a, i + 1, db'⟩ :=
  Proc.call_of_ok answered (by rw [done]; rfl)

/-! ## Payment detected -/

def assetFor (event : PaymentDetected) (db : Db) :
    Except EventConsumerError (AssetType × Text × Option Text) :=
  if event.isNative then .ok (.native, nativeSymbol event.chainId, none)
  else
    match event.tokenAddress with
    | none => .error (.invalidData "ERC20 payment missing token_address")
    | some tokenAddress => .ok (.erc20, assetSymbolFor
        (((getByAddress (.evm event.chainId) (addressText tokenAddress) db).bind Token.symbol).map
          Subtype.val), some (addressText tokenAddress))

def optionFor (event : PaymentDetected) (tokenAddress : Option Text) (db : Db) : Option Uuid :=
  match getPaymentOptionId (addressText event.paymentAddress) (.evm event.chainId) tokenAddress db with
  | some id => some id
  | none => ((getForInvoice event.invoiceId db).find? (isLateOption event tokenAddress)).map
      PaymentOption.id

def creditFor (divide : Division) (amount : Nat) (now : Time) (optionId : Option Uuid) (db : Db) :
    Credit :=
  match optionId.bind (getPaymentOption · db) with
  | some option => creditThrough divide amount now option
  | none => ⟨none, none, none⟩

/-- What `describePayment` reads out of a database. -/
def described (divide : Division) (delivery : Delivery) (event : PaymentDetected) (db : Db) :
    Except EventConsumerError (PaymentData × Int) :=
  match assetFor event db with
  | .error e => .error e
  | .ok asset =>
    let optionId := optionFor event asset.2.2 db
    match event.txIndex with
    | none =>
      let txHash := String.ofList (hashText event.txHash)
      .error (.invalidData (s!"ERC20 transfer in {txHash} has no log index; cannot tell it apart " ++
        "from other transfers in the same transaction"))
    | some txIndex => .ok (paymentData delivery event asset optionId
        (creditFor divide event.amount.toNat delivery.now optionId db), txIndex)

variable {divide : Division} {delivery : Delivery} {event : PaymentDetected} {payment : PaymentData}
   {txIndex : Int}

/-- What a description says, column by column. -/
theorem described_ok (isDescribed : described divide delivery event db = .ok (payment, txIndex)) :
    event.txIndex = some txIndex ∧ ∃ asset, assetFor event db = .ok asset ∧
      payment = paymentData delivery event asset (optionFor event asset.2.2 db)
        (creditFor divide event.amount.toNat delivery.now (optionFor event asset.2.2 db) db) := by
  unfold described at isDescribed
  cases isAsset : assetFor event db with
  | error e => simp [isAsset] at isDescribed
  | ok asset =>
    cases isIndex : event.txIndex with
    | none => simp [isAsset, isIndex] at isDescribed
    | some index =>
      simp only [isAsset, isIndex, Except.ok.injEq, Prod.mk.injEq] at isDescribed
      exact ⟨by rw [isDescribed.2], asset, rfl, isDescribed.1.symm⟩

/-- The transfer an announcement is filed under. -/
def transferKey (event : PaymentDetected) : Option (ChainId × Text × Int) :=
  event.txIndex.map fun txIndex => (.evm event.chainId, hashText event.txHash, txIndex)

theorem transferKey_of_row {db : Db} {row : Payment}
    (isDescribed : described divide delivery event db = .ok (payment, txIndex))
    (isRow : payment.toRow txIndex = .ok row) : transferKey event = some row.txKey := by
  obtain ⟨isIndex, asset, _, rfl⟩ := described_ok isDescribed
  have proposes := PaymentData.toRow_ok isRow
  rw [transferKey, isIndex, Option.map_some, Payment.txKey, proposes.chainId, proposes.txHash,
    proposes.txIndex]
  rfl

/-- A detected payment is not confirmed by being filed. -/
theorem confirmedAt_of_described (isDescribed : described divide delivery event db = .ok (payment, txIndex)) :
    payment.confirmedAt = none := by
  obtain ⟨_, asset, _, rfl⟩ := described_ok isDescribed
  rfl

theorem assetOf_reads (event : PaymentDetected) :
    ∃ n, ∀ db, Proc.Reads (assetOf (m := ConsumerM) event) db n (assetFor event db) := by
  unfold assetOf assetFor
  by_cases native : event.isNative
  · simp only [native, if_true]
    exact ⟨0, fun _ => Proc.Reads.pure _⟩
  · simp only [native, Bool.false_eq_true, if_false]
    cases event.tokenAddress with
    | none => exact ⟨0, fun _ => Proc.Reads.fail _⟩
    | some tokenAddress => exact ⟨1 + 0, fun db => (query_reads _ db).bind (Proc.Reads.pure _)⟩

theorem resolveOption_reads (event : PaymentDetected) (tokenAddress : Option Text) (db : Db) :
    ∃ n, ∀ db', SameCatalog db db' → Proc.Reads (resolveOption (m := ConsumerM) event tokenAddress) db' n
      (.ok (optionFor event tokenAddress db')) := by
  have sameWatch : ∀ db', SameCatalog db db' → getPaymentOptionId (addressText event.paymentAddress)
      (.evm event.chainId) tokenAddress db' = getPaymentOptionId (addressText event.paymentAddress)
      (.evm event.chainId) tokenAddress db := by
    intro db' same
    rw [getPaymentOptionId, same.watchedAddresses, getPaymentOptionId]
  unfold resolveOption optionFor
  cases watched : getPaymentOptionId (addressText event.paymentAddress) (.evm event.chainId)
      tokenAddress db with
  | some id =>
    refine ⟨1 + 0, fun db' same => (query_reads _ db').bind ?_⟩
    rw [sameWatch db' same, watched]
    exact Proc.Reads.pure _
  | none =>
    refine ⟨1 + (1 + 0), fun db' same => (query_reads _ db').bind ?_⟩
    rw [sameWatch db' same, watched]
    exact (query_reads _ db').bind (Proc.Reads.pure _)

theorem creditOf_reads (divide : Division) (amount : Nat) (now : Time) (optionId : Option Uuid) :
    ∃ n, ∀ db, Proc.Reads (creditOf (m := ConsumerM) divide amount now optionId) db n
      (.ok (creditFor divide amount now optionId db)) := by
  unfold creditOf creditFor
  cases optionId with
  | none => exact ⟨0, fun _ => Proc.Reads.pure _⟩
  | some id =>
    refine ⟨1 + 0, fun db => (query_reads _ db).bind ?_⟩
    simp only [Option.bind_some]
    cases getPaymentOption id db <;> exact Proc.Reads.pure _

theorem assetFor_of_sameCatalog {db : Db} (same : SameCatalog db db') (event : PaymentDetected) :
    assetFor event db' = assetFor event db := by
  simp only [assetFor, getByAddress, same.tokens]

theorem optionFor_of_sameCatalog {db : Db} (same : SameCatalog db db') (event : PaymentDetected)
    (tokenAddress : Option Text) : optionFor event tokenAddress db' = optionFor event tokenAddress db := by
  simp only [optionFor, getPaymentOptionId, getForInvoice, same.watchedAddresses, same.paymentOptions]

/-- A description reads only tables that no handler writes. -/
theorem described_of_sameCatalog (divide : Division) (delivery : Delivery) (event : PaymentDetected) {db : Db}
    (same : SameCatalog db db') : described divide delivery event db' = described divide delivery event db := by
  simp only [described, assetFor_of_sameCatalog same, optionFor_of_sameCatalog same, creditFor,
    getPaymentOption, same.paymentOptions]

/-- Before its one write a detected payment is only described, in as many reads whenever it is applied. -/
theorem describePayment_reads (divide : Division) (delivery : Delivery) (event : PaymentDetected)
    (db : Db) :
    ∃ n, ∀ db', SameCatalog db db' → Proc.Reads (describePayment (m := ConsumerM) divide delivery event) db' n
      (described divide delivery event db') := by
  obtain ⟨n, assetReads⟩ := assetOf_reads event
  unfold describePayment described
  cases isAsset : assetFor event db with
  | error e =>
    refine ⟨n, fun db' same => ?_⟩
    have isAsset' := (assetFor_of_sameCatalog same event).trans isAsset
    have reads := assetReads db'
    rw [isAsset'] at reads ⊢
    exact reads.bind_error
  | ok asset =>
    obtain ⟨m, optionReads⟩ := resolveOption_reads event asset.2.2 db
    obtain ⟨l, creditReads⟩ := creditOf_reads divide event.amount.toNat delivery.now
      (optionFor event asset.2.2 db)
    refine ⟨n + (m + (l + 0)), fun db' same => ?_⟩
    have isAsset' := (assetFor_of_sameCatalog same event).trans isAsset
    have isOption := optionFor_of_sameCatalog same event asset.2.2
    have reads := assetReads db'
    rw [isAsset'] at reads ⊢
    refine reads.bind ((optionReads db' same).bind ?_)
    rw [isOption]
    refine (creditReads db').bind ?_
    rw [← isOption]
    cases event.txIndex with
    | none => exact Proc.Reads.fail _
    | some txIndex => exact Proc.Reads.pure _

theorem handlePaymentDetected_spec (divide : Division) (delivery : Delivery)
    (event : PaymentDetected) :
    Proc.Triple world (· = db) (handlePaymentDetected divide delivery event)
      (fun _ state => ∃ now payment txIndex, Answers world now ∧
        described divide delivery event db = .ok (payment, txIndex) ∧
        upsertWithTxIndexAndObligation payment txIndex "payment_detected" now db = .ok ((), state))
      (fun e state => state = db ∧ (Faults world e ∨ described divide delivery event db = .error e ∨
        ∃ now payment txIndex error, described divide delivery event db = .ok (payment, txIndex) ∧
          upsertWithTxIndexAndObligation payment txIndex "payment_detected" now db = .error error ∧
          e = .database error)) := by
  obtain ⟨n, reads⟩ := describePayment_reads divide delivery event db
  replace reads := reads db (SameCatalog.refl db)
  rintro i state rfl
  unfold handlePaymentDetected
  cases isDescribed : described divide delivery event state with
  | error e =>
    rw [isDescribed] at reads
    rcases reads.bind_error world i with ⟨k, e', _, _, fault, outcome⟩ | ⟨_, outcome⟩
    · rw [outcome]
      exact ⟨rfl, .inl ⟨_, fault⟩⟩
    · rw [outcome]
      exact ⟨rfl, .inr (.inl rfl)⟩
  | ok result =>
    rw [isDescribed] at reads
    rcases reads.andThen _ world i with ⟨k, e', _, _, fault, outcome⟩ | ⟨_, outcome⟩
    · rw [outcome]
      exact ⟨rfl, .inl ⟨_, fault⟩⟩
    rw [outcome]
    refine (statement_spec _ (i + n) state rfl).mono ?_ ?_
    · rintro _ after ⟨now, answered, done⟩
      exact ⟨now, result.1, result.2, answered, rfl, done⟩
    · rintro e after ⟨same, fault | ⟨now, error, failed, isError⟩⟩
      · exact ⟨same, .inl fault⟩
      · exact ⟨same, .inr (.inr ⟨now, result.1, result.2, error, rfl, failed, isError⟩)⟩

/-! ## Payment confirmed -/

structure SameMoney (db db' : Db) : Prop where
  payments : db'.payments = db.payments
  invoices : db'.invoices = db.invoices
  catalog : SameCatalog db db'

theorem SameMoney.refl (db : Db) : SameMoney db db := ⟨rfl, rfl, SameCatalog.refl db⟩

structure StatusWritten (id : Uuid) (status : InvoiceStatus) (db db' : Db) : Prop where
  payments : db'.payments = db.payments
  invoices : db'.invoices.rows = db.invoices.rows.map (Invoice.withStatus id status)
  catalog : SameCatalog db db'

variable {id invoiceId : Uuid} {status : InvoiceStatus}

theorem updateStatus_ok {db : Db} (done : updateStatus id status db = .ok ((), db')) :
    StatusWritten id status db db' := by
  unfold updateStatus at done
  split at done
  · cases done
    exact ⟨rfl, rfl, ⟨rfl, rfl, rfl, rfl⟩⟩
  · cases done

theorem updateStatus_error {db : Db} {error : RepositoryError}
    (failed : updateStatus id status db = .error error) : getInvoice id db = none := by
  unfold updateStatus at failed
  split at failed
  · cases failed
  next missing =>
    refine Table.find?_eq_none.mpr fun invoice mem same => missing ?_
    exact Table.mem_keys.mpr ⟨invoice, mem, same⟩

variable {source : ToleranceSource}

theorem recordSettlementAllowance_ok {shortfall tolerance : ℚ} {db : Db}
    (done : recordSettlementAllowance id shortfall tolerance source now db = .ok ((), db')) :
    SameMoney db db' := by
  unfold recordSettlementAllowance at done
  obtain ⟨_, _, rest⟩ := bind_eq_ok.mp done
  obtain ⟨_, _, written⟩ := bind_eq_ok.mp rest
  split at written
  · cases written
    exact ⟨rfl, rfl, ⟨rfl, rfl, rfl, rfl⟩⟩
  · cases written

theorem recordSettlementAllowance_error {shortfall tolerance : Numeric 78 18} {db : Db}
    {error : RepositoryError}
    (failed : recordSettlementAllowance id shortfall.toRat tolerance.toRat source now db = .error error) :
    getInvoice id db = none := by
  have stored : ∀ x : Numeric 78 18, numeric 78 18 x.toRat = .ok x :=
    fun x => numeric_ok.mpr (Numeric.ofRat?_toRat x)
  simp only [recordSettlementAllowance, stored] at failed
  by_cases known : id ∈ db.invoices.keys
  · simp [bind, Except.bind, known, pure, Except.pure] at failed
  · refine Table.find?_eq_none.mpr fun invoice mem same => known ?_
    exact Table.mem_keys.mpr ⟨invoice, mem, same⟩

def settlement (invoiceId : Uuid) (db : Db) : Option InvoiceStatus :=
  match getInvoice invoiceId db with
  | none => none
  | some invoice =>
    match effectiveTolerance (getSettlementTolerance invoice.storeId db) with
    | .error _ => none
    | .ok (tolerancePercent, _) =>
      if isFullyPaid invoice.amountReceived.toRat invoice.amount.toRat tolerancePercent then
        settledStatus invoice.status
      else none

theorem settlement_some {db : Db} (decided : settlement invoiceId db = some status) :
    ∃ invoice tolerancePercent source, getInvoice invoiceId db = some invoice ∧
      effectiveTolerance (getSettlementTolerance invoice.storeId db) = .ok (tolerancePercent, source) ∧
      invoice.amount.toRat ≤ invoice.amountReceived.toRat +
        allowance invoice.amount.toRat tolerancePercent ∧
      settledStatus invoice.status = some status := by
  unfold settlement at decided
  cases found : getInvoice invoiceId db with
  | none => simp [found] at decided
  | some invoice =>
    cases isTolerance : effectiveTolerance (getSettlementTolerance invoice.storeId db) with
    | error e => simp [found, isTolerance] at decided
    | ok result =>
      obtain ⟨tolerancePercent, source⟩ := result
      simp only [found, isTolerance] at decided
      split at decided
      next paid =>
        exact ⟨invoice, tolerancePercent, source, rfl, isTolerance, of_decide_eq_true paid, decided⟩
      · cases decided

theorem settledStatus_some {seen : InvoiceStatus} (settles : settledStatus seen = some status) :
    (seen = .processing ∨ seen = .partiallyPaid) ∧ status = .paid ∨
      seen = .expired ∧ status = .latePaid := by
  cases seen with
  | processing =>
    cases settles
    exact .inl ⟨.inl rfl, rfl⟩
  | partiallyPaid =>
    cases settles
    exact .inl ⟨.inr rfl, rfl⟩
  | expired =>
    cases settles
    exact .inr ⟨rfl, rfl⟩
  | _ => cases settles

def Settled (invoiceId : Uuid) (db state : Db) : Prop :=
  match settlement invoiceId db with
  | none => SameMoney db state
  | some status => StatusWritten invoiceId status db state

theorem recordAllowanceIfShort_spec {received expected tolerance : Numeric 78 18} (nonneg : 0 ≤ tolerance.toRat)
    (bounded : tolerance.toRat ≤ 1 / 10)
    (paid : isFullyPaid received.toRat expected.toRat tolerance.toRat = true) :
    Proc.Triple world (· = db)
      (recordAllowanceIfShort invoiceId received.toRat expected.toRat tolerance.toRat source)
      (fun _ state => SameMoney db state)
      (fun e state => SameMoney db state ∧ (Faults world e ∨ getInvoice invoiceId db = none)) := by
  unfold recordAllowanceIfShort
  by_cases short : expected.toRat ≤ received.toRat
  · rw [if_pos short]
    exact Proc.Triple.pure fun state start => start ▸ SameMoney.refl db
  rw [if_neg short]
  obtain ⟨shortfall, isShortfall⟩ := shortfall_fits nonneg bounded paid short
  rw [← isShortfall]
  refine (statement_spec _).mono (fun _ start => start) ?_ ?_
  · rintro _ state ⟨now, _, done⟩
    exact recordSettlementAllowance_ok done
  · rintro e state ⟨rfl, fault | ⟨now, error, failed, _⟩⟩
    · exact ⟨SameMoney.refl state, .inl fault⟩
    · exact ⟨SameMoney.refl state, .inr (recordSettlementAllowance_error failed)⟩

theorem StatusWritten.of_sameMoney {db : Db} (same : SameMoney db mid)
    (written : StatusWritten id status mid db') :
    StatusWritten id status db db' where
  payments := written.payments.trans same.payments
  invoices := by rw [written.invoices, same.invoices]
  catalog := same.catalog.trans written.catalog

theorem getInvoice_of_sameMoney {db : Db} (same : SameMoney db mid) : getInvoice id mid = getInvoice id db := by
  rw [getInvoice, same.invoices, getInvoice]

theorem settleInvoice_spec (invoiceId : Uuid) :
    Proc.Triple world (· = db) (settleInvoice invoiceId)
      (fun _ state => Settled invoiceId db state)
      (fun e state => SameMoney db state ∧ (Faults world e ∨ getInvoice invoiceId db = none)) := by
  have unread : ∀ (e : EventConsumerError) (state : Db), state = db ∧ Faults world e →
      SameMoney db state ∧ (Faults world e ∨ getInvoice invoiceId db = none) := by
    rintro e state ⟨rfl, fault⟩
    exact ⟨SameMoney.refl state, .inl fault⟩
  unfold settleInvoice settleWith
  refine Proc.Triple.bind _ ((query_spec _).mono (fun _ start => start) (fun _ _ read => read) unread)
    fun found => ?_
  rintro i state ⟨rfl, rfl⟩
  cases isInvoice : getInvoice invoiceId state with
  | none => exact ⟨SameMoney.refl state, .inr rfl⟩
  | some invoice =>
    refine Outcome.Satisfies.andThen _ ((query_spec _ i state rfl).mono (fun _ _ read => read)
      (fun e s failed => isInvoice ▸ unread e s failed)) ?_
    rintro setting calls after ⟨rfl, rfl⟩
    obtain ⟨tolerance, source, isTolerance, nonneg, bounded⟩ :=
      effectiveTolerance_total invoice.storeId after
    have decided : settlement invoiceId after =
        if isFullyPaid invoice.amountReceived.toRat invoice.amount.toRat tolerance.toRat then
          settledStatus invoice.status
        else none := by
      simp only [settlement, isInvoice, isTolerance]
    simp only [isTolerance]
    cases settles : settledStatus invoice.status with
    | none =>
      have unsettled : settlement invoiceId after = none := by
        rw [decided, settles, ite_self]
      change Settled invoiceId after after
      rw [Settled, unsettled]
      exact SameMoney.refl after
    | some status =>
      by_cases paid : isFullyPaid invoice.amountReceived.toRat invoice.amount.toRat tolerance.toRat
      · simp only [paid, if_true]
        refine Outcome.Satisfies.andThen _ ((recordAllowanceIfShort_spec nonneg bounded paid calls
          after rfl).mono (fun _ _ same => same) fun e s failed => isInvoice ▸ failed) ?_
        intro _ calls' mid same
        refine (statement_spec _ calls' mid rfl).mono ?_ ?_
        · rintro _ final ⟨now, _, done⟩
          have settled : settlement invoiceId after = some status := by
            rw [decided, settles, if_pos paid]
          rw [Settled, settled]
          exact (updateStatus_ok done).of_sameMoney same
        · rintro e final ⟨rfl, fault | ⟨now, error, failed, _⟩⟩
          · exact ⟨same, .inl fault⟩
          · rw [← isInvoice, ← getInvoice_of_sameMoney same]
            exact ⟨same, .inr (updateStatus_error failed)⟩
      simp only [paid, Bool.false_eq_true, if_false]
      change Settled invoiceId after after
      have unsettled : settlement invoiceId after = none := by
        rw [decided, if_neg paid]
      rw [Settled, unsettled]
      exact SameMoney.refl after

theorem getByTxIndex_some {txHash : Text} {db : Db} {payment : Payment}
    (found : getByTxIndex invoiceId txHash txIndex db = some payment) :
    payment ∈ db.payments.rows ∧ payment.invoiceId = invoiceId ∧ payment.txHash.val = txHash ∧
      payment.txIndex = txIndex ∧ payment.reorged = false := by
  have isPayment := List.find?_some found
  simp only [decide_eq_true_eq] at isPayment
  exact ⟨List.mem_of_find?_eq_some found, isPayment⟩

def Marked (event : PaymentConfirmed) (db marked : Db) : Prop :=
  ∃ payment now, getByTxIndex event.invoiceId (hashText event.txHash) event.txIndex db = some payment ∧
    markConfirmed payment.id event.confirmedAt now db = .ok ((), marked)

theorem Marked.hasInvoice {event : PaymentConfirmed} {db marked : Db}
    (isMarked : Marked event db marked) : getInvoice event.invoiceId marked ≠ none := by
  obtain ⟨payment, now, found, done⟩ := isMarked
  obtain ⟨mem, sameInvoice, _⟩ := getByTxIndex_some found
  obtain ⟨row, _, _, _, recorded⟩ := markConfirmed_ok done
  have known := db.paymentInvoice payment mem
  rw [sameInvoice, ← recorded.invoiceKeys] at known
  obtain ⟨invoice, isInvoice⟩ := Table.exists_find? known
  rw [getInvoice, isInvoice]
  exact Option.some_ne_none invoice

theorem handlePaymentConfirmed_spec (event : PaymentConfirmed) :
    Proc.Triple world (· = db) (handlePaymentConfirmed event)
      (fun _ state =>
        (getByTxIndex event.invoiceId (hashText event.txHash) event.txIndex db = none ∧ state = db) ∨
        ∃ marked, Marked event db marked ∧ Settled event.invoiceId marked state)
      (fun e state =>
        (state = db ∧ (Faults world e ∨ ∃ payment now error,
          getByTxIndex event.invoiceId (hashText event.txHash) event.txIndex db = some payment ∧
          markConfirmed payment.id event.confirmedAt now db = .error error)) ∨
        ∃ marked, Marked event db marked ∧ SameMoney marked state ∧ Faults world e) := by
  unfold handlePaymentConfirmed
  refine Proc.Triple.bind _ ((query_spec _).mono (fun _ start => start) (fun _ _ read => read)
    fun e state failed => .inl ⟨failed.1, .inl failed.2⟩) fun found => ?_
  rintro i state ⟨rfl, rfl⟩
  cases isPayment : getByTxIndex event.invoiceId (hashText event.txHash) event.txIndex state with
  | none => exact .inl ⟨rfl, rfl⟩
  | some payment =>
    refine Outcome.Satisfies.andThen (fun _ marked => Marked event state marked)
      ((statement_spec _ i state rfl).mono ?_ ?_) ?_
    · rintro _ marked ⟨now, _, done⟩
      exact ⟨payment, now, isPayment, done⟩
    · rintro e after ⟨same, fault | ⟨now, error, failed, _⟩⟩
      · exact .inl ⟨same, .inl fault⟩
      · exact .inl ⟨same, .inr ⟨payment, now, error, rfl, failed⟩⟩
    intro _ calls marked isMarked
    refine (settleInvoice_spec event.invoiceId calls marked rfl).mono ?_ ?_
    · intro _ final settled
      exact .inr ⟨marked, isMarked, settled⟩
    · rintro e final ⟨same, fault | missing⟩
      · exact .inr ⟨marked, isMarked, same, fault⟩
      · exact absurd missing isMarked.hasInvoice

end EthPayServer.Consumer
