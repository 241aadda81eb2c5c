import EthPayServer.Data.Schema
import EthPayServer.Lib.Proc

/-!
# Statements on payments

The statements of `postgres/payment.rs`, each with the trigger that runs inside
it: after every insert or update of a payment the invoice's received amount is
summed again and a pending invoice moves to processing.
-/

namespace EthPayServer.Data

open Lib
open Evm (Time Uuid)

/--
A payment as it is handed to the database; decimal texts are the numbers they
denote, `extra` is the text of a JSON document.
-/
structure PaymentData where
  id : Uuid
  invoiceId : Uuid
  paymentOptionId : Option Uuid
  chainId : ChainId
  assetType : AssetType
  amount : ℚ
  assetSymbol : Text
  tokenAddress : Option Text
  txHash : Text
  blockNumber : Option Nat
  detectedAt : Time
  confirmedAt : Option Time
  fromAddress : Option Text
  extra : Option Text
  creditedAmount : Option ℚ
  rateUsed : Option ℚ
  rateAppliedAt : Option Time

/-- The row an insert proposes; `reorged` is not among its columns and defaults to false. -/
def PaymentData.toRow (payment : PaymentData) (txIndex : Int) : Except RepositoryError Payment := do
  let amount ← numeric 78 0 payment.amount
  let assetSymbol ← varChar 32 payment.assetSymbol
  let tokenAddress ← nullable (varChar 42) payment.tokenAddress
  let txHash ← varChar 66 payment.txHash
  let fromAddress ← nullable (varChar 42) payment.fromAddress
  let creditedAmount ← nullable (numeric 78 18) payment.creditedAmount
  let rateUsed ← nullable (numeric 38 18) payment.rateUsed
  pure
    { id := payment.id
      invoiceId := payment.invoiceId
      paymentOptionId := payment.paymentOptionId
      chainId := payment.chainId
      assetType := payment.assetType
      assetSymbol := assetSymbol
      tokenAddress := tokenAddress
      amount := amount
      txHash := txHash
      txIndex := txIndex
      blockNumber := payment.blockNumber.map asI64
      detectedAt := payment.detectedAt
      confirmedAt := payment.confirmedAt
      fromAddress := fromAddress
      reorged := false
      extra := payment.extra
      creditedAmount := creditedAmount
      rateUsed := rateUsed
      rateAppliedAt := payment.rateAppliedAt }

/-! ## The trigger -/

variable (now : Time) (row : Payment)

/-- The invoice update inside `update_invoice_on_payment`, for the invoice the new row names. -/
def Invoice.onPayment (now : Time) (row : Payment) (total : Numeric 78 18) (invoice : Invoice) :
    Invoice :=
  if invoice.id = row.invoiceId then
    { invoice with
      amountReceived := total
      status :=
        if invoice.status = .pending ∧ row.reorged = false ∧ now ≤ invoice.expiresAt then
          .processing
        else invoice.status }
  else invoice

@[simp] theorem Invoice.id_onPayment (total : Numeric 78 18) (invoice : Invoice) :
    (invoice.onPayment now row total).id = invoice.id := by
  unfold onPayment
  split <;> rfl

def updateInvoiceOnPayment (now : Time) (row : Payment) (db : Db) : Except RepositoryError Db :=
  match Numeric.ofUnits? (creditedTotal db.payments.rows row.invoiceId) with
  | none => .error (refused "numeric field overflow")
  | some total => .ok (db.updateInvoices (Invoice.onPayment now row total) (by simp))

/-! ## Writes -/

/-- `UPDATE payments SET … WHERE id = row.id`, with its trigger. -/
def updatePayment (now : Time) (row : Payment) (change : Payment → Payment)
    (keeps : ∀ payment, (change payment).identity = payment.identity) (db : Db) :
    Except RepositoryError Db :=
  updateInvoiceOnPayment now (change row) <|
    db.updatePayments (fun payment => if payment.id = row.id then change payment else payment)
      fun payment => by
        split
        · exact keeps payment
        · rfl

/-- `INSERT INTO payments`, with its constraints and its trigger. -/
def insertPayment (now : Time) (row : Payment) (db : Db) : Except RepositoryError Db :=
  if freshId : row.id ∉ db.payments.keys then
    if freshKey : row.txKey ∉ db.payments.rows.map Payment.txKey then
      if hasInvoice : row.invoiceId ∈ db.invoices.keys then
        if hasOption : ∀ option ∈ row.paymentOptionId, option ∈ db.paymentOptions.keys then
          updateInvoiceOnPayment now row (db.appendPayment row freshId freshKey hasInvoice
            fun option named => hasOption option (Option.mem_def.mpr named))
        else .error (refused ("insert or update on table \"payments\" violates foreign key " ++
          "constraint \"payments_payment_option_id_fkey\""))
      else .error (refused ("insert or update on table \"payments\" violates foreign key " ++
        "constraint \"payments_invoice_id_fkey\""))
    else .error (refused "duplicate key value violates unique constraint \"unique_payment_tx\"")
  else .error (refused "duplicate key value violates unique constraint \"payments_pkey\"")

namespace Payment

/-- The `DO UPDATE` of the upsert: `COALESCE(EXCLUDED.x, payments.x)` column by column. -/
def absorb (existing excluded : Payment) : Payment :=
  { existing with
    blockNumber := excluded.blockNumber.or existing.blockNumber
    confirmedAt := excluded.confirmedAt.or existing.confirmedAt
    extra := excluded.extra.or existing.extra
    creditedAmount := excluded.creditedAmount.or existing.creditedAmount
    rateUsed := excluded.rateUsed.or existing.rateUsed
    rateAppliedAt := excluded.rateAppliedAt.or existing.rateAppliedAt }

def confirm (confirmedAt : Time) (payment : Payment) : Payment :=
  { payment with confirmedAt := some confirmedAt }

def retract (payment : Payment) : Payment :=
  { payment with reorged := true, confirmedAt := none }

@[simp] theorem identity_absorb (existing excluded : Payment) :
    (existing.absorb excluded).identity = existing.identity := rfl

@[simp] theorem identity_confirm (confirmedAt : Time) (payment : Payment) :
    (payment.confirm confirmedAt).identity = payment.identity := rfl

@[simp] theorem identity_retract (payment : Payment) :
    payment.retract.identity = payment.identity := rfl

end Payment

/-- Insert or update one payment row, keyed by the transfer; the id it is filed under. -/
def upsertPaymentRow (payment : PaymentData) (txIndex : Int) (now : Time) (db : Db) :
    Except RepositoryError (Uuid × Db) := do
  let row ← payment.toRow txIndex
  match db.payments.rows.find? fun existing => existing.txKey = row.txKey with
  | some existing =>
    let written ← updatePayment now existing (·.absorb row) (by simp) db
    pure (existing.id, written)
  | none =>
    let written ← insertPayment now row db
    pure (row.id, written)

def upsertWithTxIndexAndObligation (payment : PaymentData) (txIndex : Int) (eventType : String)
    (now : Time) (db : Db) : Except RepositoryError (Unit × Db) := do
  let (paymentId, written) ← upsertPaymentRow payment txIndex now db
  let known := written.webhookOutbox.any fun entry =>
    entry.paymentId = paymentId ∧ entry.eventType = eventType
  pure ((), if known then written else
    { written with
      webhookOutbox := written.webhookOutbox ++ [⟨paymentId, payment.invoiceId, eventType⟩] })

def markConfirmed (id : Uuid) (confirmedAt now : Time) (db : Db) :
    Except RepositoryError (Unit × Db) :=
  match db.payments.rows.find? fun payment => payment.id = id ∧ payment.confirmedAt = none with
  | none => .error (.notFound s!"Payment not found or already confirmed: {id}")
  | some row => (updatePayment now row (Payment.confirm confirmedAt) (by simp) db).map ((), ·)

/-- Retract a payment; a payment that is already reorged is left alone. -/
def markPaymentReorged (id : Uuid) (now : Time) (db : Db) : Except RepositoryError (Unit × Db) :=
  match db.payments.rows.find? fun payment => payment.id = id ∧ payment.reorged = false with
  | none => .ok ((), db)
  | some row => (updatePayment now row Payment.retract (by simp) db).map ((), ·)

/-! ## Reads -/

/-- The live payments of a chain at or above a height. -/
def reorgCandidates (chainId : ChainId) (forkBlock : Nat) (db : Db) : List Payment :=
  db.payments.rows.filter fun payment =>
    payment.chainId = chainId ∧ (payment.blockNumber.any fun number => asI64 forkBlock ≤ number) ∧
      payment.reorged = false

/-- The live payment of an invoice for one transfer; the chain is not part of the key here. -/
def getByTxIndex (invoiceId : Uuid) (txHash : Text) (txIndex : Int) (db : Db) : Option Payment :=
  db.payments.rows.find? fun payment =>
    payment.invoiceId = invoiceId ∧ payment.txHash.val = txHash ∧ payment.txIndex = txIndex ∧
      payment.reorged = false

def hasValidPayments (invoiceId : Uuid) (db : Db) : Bool :=
  db.payments.rows.any fun payment => payment.invoiceId = invoiceId ∧ payment.reorged = false

/-! ## What the writes do -/

/-- The tables that quote and watch; no write of the event consumer touches them. -/
structure SameCatalog (db db' : Db) : Prop where
  paymentOptions : db'.paymentOptions = db.paymentOptions
  watchedAddresses : db'.watchedAddresses = db.watchedAddresses
  tokens : db'.tokens = db.tokens
  settlementSettings : db'.settlementSettings = db.settlementSettings

theorem SameCatalog.refl (db : Db) : SameCatalog db db := ⟨rfl, rfl, rfl, rfl⟩

variable {db db' : Db}

theorem SameCatalog.trans {db'' : Db} (first : SameCatalog db db') (second : SameCatalog db' db'') :
    SameCatalog db db'' where
  paymentOptions := second.paymentOptions.trans first.paymentOptions
  watchedAddresses := second.watchedAddresses.trans first.watchedAddresses
  tokens := second.tokens.trans first.tokens
  settlementSettings := second.settlementSettings.trans first.settlementSettings

/--
A payment was written: the payments are the given rows, and the invoice of the
written row shows their total.
-/
structure Recorded (now : Time) (row : Payment) (rows : List Payment) (db db' : Db) : Prop where
  payments : db'.payments.rows = rows
  invoices : ∃ total : Numeric 78 18, total.units = creditedTotal rows row.invoiceId ∧
    db'.invoices.rows = db.invoices.rows.map (Invoice.onPayment now row total)
  catalog : SameCatalog db db'

variable {now confirmedAt : Time} {row : Payment}

theorem Recorded.invoiceKeys {rows : List Payment} (recorded : Recorded now row rows db db') :
    db'.invoices.keys = db.invoices.keys := by
  obtain ⟨total, _, isInvoices⟩ := recorded.invoices
  rw [Table.keys, isInvoices, List.map_map]
  exact List.map_congr_left fun invoice _ => Invoice.id_onPayment now row total invoice

def changeRow (id : Uuid) (change : Payment → Payment) (rows : List Payment) : List Payment :=
  rows.map fun payment => if payment.id = id then change payment else payment

theorem updateInvoiceOnPayment_ok (done : updateInvoiceOnPayment now row db = .ok db') :
    Recorded now row db.payments.rows db db' := by
  unfold updateInvoiceOnPayment at done
  cases fits : (Numeric.ofUnits? (creditedTotal db.payments.rows row.invoiceId) :
      Option (Numeric 78 18)) with
  | none => simp [fits] at done
  | some total =>
    simp only [fits, Except.ok.injEq] at done
    subst done
    exact ⟨rfl, ⟨total, Numeric.ofUnits?_eq_some.mp fits, rfl⟩, ⟨rfl, rfl, rfl, rfl⟩⟩

/-- The trigger succeeds when the total fits its column. -/
theorem updateInvoiceOnPayment_total (fits : (creditedTotal db.payments.rows row.invoiceId).natAbs < 10 ^ 78)
    (now : Time) : ∃ db', updateInvoiceOnPayment now row db = .ok db' := by
  have stored : (Numeric.ofUnits? (creditedTotal db.payments.rows row.invoiceId) :
      Option (Numeric 78 18)).isSome := Numeric.ofUnits?_isSome.mpr fits
  obtain ⟨total, isTotal⟩ := Option.isSome_iff_exists.mp stored
  exact ⟨db.updateInvoices (Invoice.onPayment now row total) (by simp),
    by simp only [updateInvoiceOnPayment, isTotal]⟩

theorem updatePayment_ok {change : Payment → Payment}
    {keeps : ∀ payment, (change payment).identity = payment.identity}
    (done : updatePayment now row change keeps db = .ok db') :
    Recorded now (change row) (changeRow row.id change db.payments.rows) db db' := by
  obtain ⟨payments, invoices, catalog⟩ := updateInvoiceOnPayment_ok done
  exact ⟨payments, invoices, catalog.paymentOptions, catalog.watchedAddresses, catalog.tokens,
    catalog.settlementSettings⟩

/-- An update succeeds when the new total fits its column. -/
theorem updatePayment_total (row : Payment) (change : Payment → Payment)
    (keeps : ∀ payment, (change payment).identity = payment.identity)
    (fits : (creditedTotal (changeRow row.id change db.payments.rows) (change row).invoiceId).natAbs < 10 ^ 78)
    (now : Time) : ∃ db', updatePayment now row change keeps db = .ok db' :=
  updateInvoiceOnPayment_total fits now

theorem insertPayment_ok (done : insertPayment now row db = .ok db') :
    row.id ∉ db.payments.keys ∧ Recorded now row (db.payments.rows ++ [row]) db db' := by
  unfold insertPayment at done
  split at done
  next freshId =>
    split at done
    · split at done
      · split at done
        · obtain ⟨payments, invoices, catalog⟩ := updateInvoiceOnPayment_ok done
          exact ⟨freshId, payments, invoices, catalog.paymentOptions, catalog.watchedAddresses,
            catalog.tokens, catalog.settlementSettings⟩
        · cases done
      · cases done
    · cases done
  · cases done

theorem numeric_ok {precision scale : Nat} {value : ℚ} {stored : Numeric precision scale} :
    numeric precision scale value = .ok stored ↔ Numeric.ofRat? value = some stored := by
  unfold numeric
  cases Numeric.ofRat? value <;> simp

theorem nullable_ok {α β : Type} {write : α → Except RepositoryError β} {value : Option α}
    {stored : Option β} :
    nullable write value = .ok stored ↔
      (value = none ∧ stored = none) ∨
        ∃ a b, value = some a ∧ write a = .ok b ∧ stored = some b := by
  cases value with
  | none => simp [nullable, eq_comm]
  | some a =>
    rw [nullable, map_eq_ok]
    simp [@eq_comm _ stored]

structure PaymentData.Proposes (payment : PaymentData) (txIndex : Int) (row : Payment) : Prop where
  id : row.id = payment.id
  invoiceId : row.invoiceId = payment.invoiceId
  paymentOptionId : row.paymentOptionId = payment.paymentOptionId
  chainId : row.chainId = payment.chainId
  assetType : row.assetType = payment.assetType
  amount : Numeric.ofRat? payment.amount = some row.amount
  tokenAddress : row.tokenAddress.map Subtype.val = payment.tokenAddress
  txHash : row.txHash.val = payment.txHash
  txIndex : row.txIndex = txIndex
  blockNumber : row.blockNumber = payment.blockNumber.map asI64
  confirmedAt : row.confirmedAt = payment.confirmedAt
  reorged : row.reorged = false
  creditedAmount : row.creditedAmount = payment.creditedAmount.bind Numeric.ofRat?

variable {payment : PaymentData} {txIndex : Int}

theorem PaymentData.toRow_ok (done : payment.toRow txIndex = .ok row) : payment.Proposes txIndex row := by
  simp only [toRow, bind_eq_ok, numeric_ok, varChar_ok, nullable_ok] at done
  obtain ⟨amount, amountStored, symbol, _, token, tokenStored, txHash, txHashStored, _, _,
    credited, creditedStored, _, _, isRow⟩ := done
  cases isRow
  refine ⟨rfl, rfl, rfl, rfl, rfl, amountStored, ?_, txHashStored, rfl, rfl, rfl, rfl, ?_⟩
  · rcases tokenStored with ⟨isNone, rfl⟩ | ⟨text, stored, isSome, same, rfl⟩
    · rw [isNone]
      rfl
    · rw [isSome, ← same]
      rfl
  rcases creditedStored with ⟨isNone, rfl⟩ | ⟨value, stored, isSome, same, rfl⟩
  · rw [isNone]
    rfl
  · rw [isSome]
    exact same.symm

inductive Upserted (now : Time) (row : Payment) (db db' : Db) : Prop
  | updated (existing : Payment) (mem : existing ∈ db.payments.rows)
      (same : existing.txKey = row.txKey)
      (recorded : Recorded now (existing.absorb row)
        (changeRow existing.id (·.absorb row) db.payments.rows) db db')
  | inserted (freshKey : row.txKey ∉ db.payments.rows.map Payment.txKey)
      (freshId : row.id ∉ db.payments.keys)
      (recorded : Recorded now row (db.payments.rows ++ [row]) db db')

variable {id : Uuid}

theorem upsertPaymentRow_ok (done : upsertPaymentRow payment txIndex now db = .ok (id, db')) :
    ∃ row, payment.toRow txIndex = .ok row ∧ Upserted now row db db' := by
  obtain ⟨row, isRow, filed⟩ := bind_eq_ok.mp done
  refine ⟨row, isRow, ?_⟩
  cases found : db.payments.rows.find? fun existing => existing.txKey = row.txKey with
  | some existing =>
    rw [found] at filed
    obtain ⟨written, updated, isResult⟩ := bind_eq_ok.mp filed
    cases isResult
    have same : existing.txKey = row.txKey := by simpa using List.find?_some found
    exact .updated existing (List.mem_of_find?_eq_some found) same (updatePayment_ok updated)
  | none =>
    rw [found] at filed
    obtain ⟨written, inserted, isResult⟩ := bind_eq_ok.mp filed
    cases isResult
    obtain ⟨freshId, recorded⟩ := insertPayment_ok inserted
    refine .inserted ?_ freshId recorded
    intro known
    obtain ⟨other, memOther, same⟩ := List.mem_map.mp known
    have missing := List.find?_eq_none.mp found other memOther
    simp [same] at missing

theorem upsertWithTxIndexAndObligation_ok {eventType : String}
    (done : upsertWithTxIndexAndObligation payment txIndex eventType now db = .ok ((), db')) :
    ∃ row, payment.toRow txIndex = .ok row ∧ Upserted now row db db' := by
  obtain ⟨⟨paymentId, written⟩, upserted, isResult⟩ := bind_eq_ok.mp done
  obtain ⟨row, isRow, effect⟩ := upsertPaymentRow_ok upserted
  refine ⟨row, isRow, ?_⟩
  -- the obligation is written beside the payment and changes nothing `Recorded` speaks of
  have sameTables : ∀ {now row rows}, Recorded now row rows db written → Recorded now row rows db db' := by
    intro now row rows recorded
    obtain ⟨payments, invoices, catalog⟩ := recorded
    simp only [pure, Except.pure, Except.ok.injEq, Prod.mk.injEq, true_and] at isResult
    subst isResult
    split
    · exact ⟨payments, invoices, catalog⟩
    · exact ⟨payments, invoices, catalog.paymentOptions, catalog.watchedAddresses, catalog.tokens,
        catalog.settlementSettings⟩
  cases effect with
  | updated existing mem same recorded => exact .updated existing mem same (sameTables recorded)
  | inserted freshKey freshId recorded => exact .inserted freshKey freshId (sameTables recorded)

/-- The row a transfer is filed under after an upsert, and what the trigger made of it. -/
structure Filed (now : Time) (row filed : Payment) (db db' : Db) : Prop where
  mem : filed ∈ db'.payments.rows
  key : filed.txKey = row.txKey
  absorbed : filed.absorb row = filed
  invoices : ∃ total : Numeric 78 18,
    total.units = creditedTotal db'.payments.rows filed.invoiceId ∧
    db'.invoices.rows = db.invoices.rows.map (Invoice.onPayment now filed total)
  catalog : SameCatalog db db'

theorem Payment.absorb_absorb (existing row : Payment) :
    (existing.absorb row).absorb row = existing.absorb row := by
  simp [absorb, ← Option.or_assoc]

theorem Payment.absorb_self (row : Payment) : row.absorb row = row := by
  simp [absorb]

theorem Upserted.filed (upserted : Upserted now row db db') : ∃ filed, Filed now row filed db db' := by
  cases upserted with
  | updated existing mem same recorded =>
    refine ⟨existing.absorb row, ?_, same, existing.absorb_absorb row, ?_, recorded.catalog⟩
    · rw [recorded.payments]
      exact List.mem_map.mpr ⟨existing, mem, if_pos rfl⟩
    · rw [recorded.payments]
      exact recorded.invoices
  | inserted _ _ recorded =>
    refine ⟨row, ?_, rfl, row.absorb_self, ?_, recorded.catalog⟩
    · rw [recorded.payments]
      exact List.mem_append_right _ (List.mem_singleton_self row)
    · rw [recorded.payments]
      exact recorded.invoices

/-- An upsert of a known transfer succeeds when the new total fits its column. -/
theorem upsert_update {existing : Payment} (isRow : payment.toRow txIndex = .ok row)
    (mem : existing ∈ db.payments.rows) (same : existing.txKey = row.txKey)
    (fits : (creditedTotal (changeRow existing.id (·.absorb row) db.payments.rows)
      existing.invoiceId).natAbs < 10 ^ 78) (eventType : String) (now : Time) :
    ∃ db', upsertWithTxIndexAndObligation payment txIndex eventType now db = .ok ((), db') := by
  have found : db.payments.rows.find? (fun other => decide (other.txKey = row.txKey)) =
      some existing :=
    Table.find?_of_unique mem (by simp [same]) fun other memOther isOther =>
      Db.eq_of_txKey memOther mem ((of_decide_eq_true isOther).trans same.symm)
  obtain ⟨written, done⟩ := updatePayment_total existing (·.absorb row) (by simp) fits now
  have filed : upsertPaymentRow payment txIndex now db = .ok (existing.id, written) := by
    refine bind_eq_ok.mpr ⟨row, isRow, ?_⟩
    rw [found]
    exact bind_eq_ok.mpr ⟨written, done, rfl⟩
  exact ⟨_, bind_eq_ok.mpr ⟨(existing.id, written), filed, rfl⟩⟩

/-- An upsert of a new transfer succeeds when its row meets the constraints of its table. -/
theorem upsert_insert (isRow : payment.toRow txIndex = .ok row) (freshId : row.id ∉ db.payments.keys)
    (freshKey : row.txKey ∉ db.payments.rows.map Payment.txKey) (hasInvoice : row.invoiceId ∈ db.invoices.keys)
    (hasOption : ∀ option ∈ row.paymentOptionId, option ∈ db.paymentOptions.keys)
    (fits : (creditedTotal (db.payments.rows ++ [row]) row.invoiceId).natAbs < 10 ^ 78) (eventType : String)
    (now : Time) : ∃ db', upsertWithTxIndexAndObligation payment txIndex eventType now db = .ok ((), db') := by
  have missing : db.payments.rows.find? (fun other => decide (other.txKey = row.txKey)) = none := by
    refine List.find?_eq_none.mpr fun other mem => ?_
    intro same
    exact freshKey (List.mem_map.mpr ⟨other, mem, by simpa using same⟩)
  obtain ⟨written, done⟩ : ∃ written, insertPayment now row db = .ok written := by
    rw [insertPayment, dif_pos freshId, dif_pos freshKey, dif_pos hasInvoice, dif_pos hasOption]
    exact updateInvoiceOnPayment_total fits now
  have filed : upsertPaymentRow payment txIndex now db = .ok (row.id, written) := by
    refine bind_eq_ok.mpr ⟨row, isRow, ?_⟩
    rw [missing]
    exact bind_eq_ok.mpr ⟨written, done, rfl⟩
  exact ⟨_, bind_eq_ok.mpr ⟨(row.id, written), filed, rfl⟩⟩

theorem Recorded.inserted (recorded : Recorded now row (db.payments.rows ++ [row]) db db') :
    row.invoiceId ∈ db.invoices.keys ∧
      (∀ option ∈ row.paymentOptionId, option ∈ db.paymentOptions.keys) ∧
      (creditedTotal (db.payments.rows ++ [row]) row.invoiceId).natAbs < 10 ^ 78 := by
  have mem : row ∈ db'.payments.rows := by
    rw [recorded.payments]
    exact List.mem_append_right _ (List.mem_singleton_self row)
  refine ⟨?_, ?_, ?_⟩
  · have known := db'.paymentInvoice row mem
    rwa [recorded.invoiceKeys] at known
  · intro option named
    have known := db'.paymentOption row mem option (Option.mem_def.mp named)
    rwa [recorded.catalog.paymentOptions] at known
  · obtain ⟨total, isTotal, _⟩ := recorded.invoices
    rw [← isTotal]
    exact total.fits

theorem markConfirmed_eq_ok :
    markConfirmed id confirmedAt now db = .ok ((), db') ↔
      ∃ row, (db.payments.rows.find? fun payment => payment.id = id ∧ payment.confirmedAt = none) =
          some row ∧
        updatePayment now row (Payment.confirm confirmedAt) (by simp) db = .ok db' := by
  unfold markConfirmed
  cases db.payments.rows.find? fun payment => payment.id = id ∧ payment.confirmedAt = none with
  | none => simp
  | some row => simp [map_eq_ok]

theorem markConfirmed_ok (done : markConfirmed id confirmedAt now db = .ok ((), db')) :
    ∃ row ∈ db.payments.rows, row.id = id ∧ row.confirmedAt = none ∧
      Recorded now (row.confirm confirmedAt)
        (changeRow id (Payment.confirm confirmedAt) db.payments.rows) db db' := by
  obtain ⟨row, found, updated⟩ := markConfirmed_eq_ok.mp done
  have isRow : row.id = id ∧ row.confirmedAt = none := by simpa using List.find?_some found
  have recorded := updatePayment_ok updated
  rw [isRow.1] at recorded
  exact ⟨row, List.mem_of_find?_eq_some found, isRow.1, isRow.2, recorded⟩

theorem markPaymentReorged_ok (done : markPaymentReorged id now db = .ok ((), db')) :
    (db' = db ∧ ∀ payment ∈ db.payments.rows, payment.id = id → payment.reorged = true) ∨
      ∃ row ∈ db.payments.rows, row.id = id ∧ row.reorged = false ∧
        Recorded now row.retract (changeRow id Payment.retract db.payments.rows) db db' := by
  unfold markPaymentReorged at done
  cases found : db.payments.rows.find? fun payment => payment.id = id ∧ payment.reorged = false with
  | none =>
    simp only [found, Except.ok.injEq, Prod.mk.injEq, true_and] at done
    refine .inl ⟨done.symm, fun payment mem same => ?_⟩
    have missing := List.find?_eq_none.mp found payment mem
    simpa [same] using missing
  | some row =>
    rw [found] at done
    obtain ⟨written, updated, isResult⟩ := map_eq_ok.mp done
    cases isResult
    have isRow : row.id = id ∧ row.reorged = false := by simpa using List.find?_some found
    have recorded := updatePayment_ok updated
    rw [isRow.1] at recorded
    exact .inr ⟨row, List.mem_of_find?_eq_some found, isRow.1, isRow.2, recorded⟩

end EthPayServer.Data
