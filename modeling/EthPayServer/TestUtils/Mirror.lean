import EthPayServer.TestUtils.Memory

/-!
# What the in-memory data service mirrors

The double and Postgres side by side, under the same calls.  As long as Postgres
refuses nothing for a constraint or a number that does not fit, the double holds
the same invoices and payments and answers the same; it lacks the trigger, so
an invoice that Postgres moved to processing is pending in memory, and what was
received is only known to Postgres.
-/

namespace EthPayServer.TestUtils

open Lib Data Pipeline
open Evm (Time Uuid)

/-! ## The correspondence -/

/-- The payment without its confirmation. -/
def PaymentRecord.unconfirmed (record : PaymentRecord) : PaymentRecord :=
  { record with data := { record.data with confirmedAt := none } }

/-- The same payment; when a reorged one was confirmed does not matter, no operation shows it. -/
structure SamePayment (record : PaymentRecord) (row : Payment) : Prop where
  columns : record.unconfirmed = (tryRowToPayment row).unconfirmed
  confirmedAt : row.reorged = false → record.data.confirmedAt = row.confirmedAt

/-- The same invoice; the trigger may have moved one with a payment from pending to processing. -/
structure SameInvoice (paidTo : List Uuid) (invoice : InvoiceRecord) (row : Invoice) : Prop where
  id : invoice.id = row.id
  storeId : invoice.storeId = row.storeId
  amount : invoice.amount = row.amount.toRat
  expiresAt : invoice.expiresAt = row.expiresAt
  status : row.status = invoice.status ∨
    (invoice.status = .pending ∧ row.status = .processing ∧ row.id ∈ paidTo)

/-- The double and the database hold the same, row by row. -/
structure Mirrors (memory : InMemoryDataService) (db : Db) : Prop where
  invoices : List.Forall₂ (SameInvoice (db.payments.rows.map Payment.invoiceId)) memory.invoices.rows
    db.invoices.rows
  payments : List.Forall₂ SamePayment memory.payments.rows db.payments.rows
  paymentTxIndex : memory.paymentTxIndex.rows = db.payments.rows.map fun row => (row.txKey, row.id)
  received : TotalsExact db

/-- The column keeps the number as it is. -/
def Kept (precision scale : Nat) (value : ℚ) : Prop :=
  ∀ stored ∈ (Numeric.ofRat? value : Option (Numeric precision scale)), stored.toRat = value

instance (precision scale : Nat) (value : ℚ) : Decidable (Kept precision scale value) := by
  unfold Kept
  infer_instance

/-- The columns keep the payment as it is handed over. -/
structure Exact (postgres : Postgres) (payment : PaymentData) : Prop where
  amount : Kept 78 0 payment.amount
  creditedAmount : ∀ credited ∈ payment.creditedAmount, Kept 78 18 credited
  rateUsed : ∀ rate ∈ payment.rateUsed, Kept 38 18 rate
  blockNumber : ∀ number ∈ payment.blockNumber, number < 2 ^ 64
  detectedAt : 1000 ∣ payment.detectedAt
  confirmedAt : ∀ time ∈ payment.confirmedAt, 1000 ∣ time
  rateAppliedAt : ∀ time ∈ payment.rateAppliedAt, 1000 ∣ time
  extra : ∀ document ∈ payment.extra, ∀ stored, postgres.jsonb document = .ok stored → stored = document

variable {payment : PaymentData} {txIndex : Int} {postgres : Postgres}

section Rows

variable {record : PaymentRecord}

section

variable (same : SamePayment record row)
include same

theorem SamePayment.id : record.id = row.id :=
  congrArg (fun record => record.data.id) same.columns

theorem SamePayment.invoiceId : record.data.invoiceId = row.invoiceId :=
  congrArg (fun record => record.data.invoiceId) same.columns

theorem SamePayment.reorged : record.reorged = row.reorged :=
  congrArg PaymentRecord.reorged same.columns

theorem SamePayment.eq_of_live (live : row.reorged = false) : record = tryRowToPayment row := by
  have columns := same.columns
  have confirmed := same.confirmedAt live
  obtain ⟨data, reorged⟩ := record
  obtain ⟨_, _⟩ := data
  simp only [PaymentRecord.unconfirmed, tryRowToPayment, PaymentRecord.mk.injEq, PaymentData.mk.injEq]
    at columns confirmed ⊢
  tauto

end

theorem asU64_asI64 {n : Nat} (small : n < 2 ^ 64) : asU64 (asI64 n) = n := by
  unfold asU64 asI64
  split <;> omega

theorem numeric_kept {precision scale : Nat} {value : ℚ} {stored : Numeric precision scale}
    (done : numeric precision scale value = .ok stored) (kept : Kept precision scale value) :
    stored.toRat = value :=
  kept stored (Option.mem_def.mpr (numeric_ok.mp done))

theorem nullable_kept {α β : Type} {write : α → Except RepositoryError β} {read : β → α} {value : Option α}
    {stored : Option β} (done : nullable write value = .ok stored)
    (kept : ∀ a ∈ value, ∀ b, write a = .ok b → read b = a) : stored.map read = value := by
  rcases nullable_ok.mp done with ⟨rfl, rfl⟩ | ⟨a, b, rfl, isWritten, rfl⟩
  · rfl
  · rw [Option.map_some, kept a (Option.mem_def.mpr rfl) b isWritten]

theorem timestamptz_of_whole {time : Time} (whole : 1000 ∣ time) : timestamptz time = time :=
  Nat.div_mul_cancel whole

theorem map_timestamptz {time : Option Time} (whole : ∀ t ∈ time, 1000 ∣ t) : time.map timestamptz = time := by
  cases time with
  | none => rfl
  | some t => rw [Option.map_some, timestamptz_of_whole (whole t rfl)]

/-- Of a payment that the columns keep, what is bound is the payment itself. -/
theorem bind_exact {bound : PaymentData} (done : postgres.bind payment = .ok bound)
    (exact : Exact postgres payment) : bound = payment := by
  obtain ⟨extra, isExtra, isBound⟩ := bind_eq_ok.mp done
  cases isBound
  have sameExtra : extra.map id = payment.extra := nullable_kept isExtra exact.extra
  rw [Option.map_id, id] at sameExtra
  simp only [timestamptz_of_whole exact.detectedAt, map_timestamptz exact.confirmedAt,
    map_timestamptz exact.rateAppliedAt, sameExtra]

/-- A payment whose numbers are kept reads back as it was written. -/
theorem tryRowToPayment_toRow (done : payment.toRow txIndex = .ok row) (exact : Exact postgres payment) :
    tryRowToPayment row = ⟨payment, false⟩ := by
  simp only [PaymentData.toRow, bind_eq_ok] at done
  obtain ⟨amount, isAmount, symbol, isSymbol, token, isToken, txHash, isHash, sender, isSender, credited,
    isCredited, rate, isRate, isRow⟩ := done
  cases isRow
  have blockKept : (payment.blockNumber.map asI64).map asU64 = payment.blockNumber := by
    cases isNumber : payment.blockNumber with
    | none => rfl
    | some number =>
      rw [Option.map_some, Option.map_some, asU64_asI64 (exact.blockNumber number isNumber)]
  simp only [tryRowToPayment, numeric_kept isAmount exact.amount, varChar_ok.mp isSymbol, varChar_ok.mp isHash,
    nullable_kept isToken fun text _ stored isStored => varChar_ok.mp isStored,
    nullable_kept isSender fun text _ stored isStored => varChar_ok.mp isStored,
    nullable_kept isCredited fun value here stored isStored =>
      numeric_kept isStored (exact.creditedAmount value here),
    nullable_kept isRate fun value here stored isStored => numeric_kept isStored (exact.rateUsed value here),
    blockKept]

theorem txKey_toRow (done : payment.toRow txIndex = .ok row) :
    row.txKey = (payment.chainId, payment.txHash, txIndex) := by
  have proposes := PaymentData.toRow_ok done
  rw [Payment.txKey, proposes.chainId, proposes.txHash, proposes.txIndex]

variable (same : SamePayment record row)
include same

/-- The conflict clauses of the two do the same to the same payment. -/
theorem SamePayment.absorb {excluded : Payment} (isExcluded : tryRowToPayment excluded = ⟨payment, false⟩) :
    SamePayment (record.absorb payment) (row.absorb excluded) := by
  obtain rfl : payment = (tryRowToPayment excluded).data := by rw [isExcluded]
  constructor
  · have columns := same.columns
    simp only [PaymentRecord.unconfirmed, tryRowToPayment, PaymentRecord.mk.injEq, PaymentData.mk.injEq,
      PaymentRecord.absorb, Payment.absorb] at columns ⊢
    simp only [columns, Option.map_or, and_self]
  · intro live
    have confirmed := same.confirmedAt live
    simp only [PaymentRecord.absorb, Payment.absorb, tryRowToPayment, confirmed]

theorem SamePayment.confirm (confirmedAt : Time) :
    SamePayment (record.confirm confirmedAt) (row.confirm confirmedAt) :=
  ⟨same.columns, fun _ => rfl⟩

theorem SamePayment.of_reorged (reorged : row.reorged = true) {record' : PaymentRecord} {row' : Payment}
    (isRecord : record'.unconfirmed = record.unconfirmed)
    (isRow : (tryRowToPayment row').unconfirmed = (tryRowToPayment row).unconfirmed) :
    SamePayment record' row' := by
  refine ⟨isRecord.trans (same.columns.trans isRow.symm), ?_⟩
  intro live
  have reorged' : row'.reorged = row.reorged := congrArg PaymentRecord.reorged isRow
  rw [live, reorged] at reorged'
  cases reorged'

theorem SamePayment.retract : SamePayment record.retract row.retract := by
  refine ⟨?_, fun _ => rfl⟩
  have columns := same.columns
  simp only [PaymentRecord.unconfirmed, tryRowToPayment, PaymentRecord.mk.injEq, PaymentRecord.retract,
    Payment.retract] at columns ⊢
  simp only [columns, and_self]

end Rows

/-! ## Writes -/

variable {change : Payment → Payment}

section Writes

variable {paidTo paidTo' : List Uuid} {invoice : InvoiceRecord} {row : Invoice}

section

variable (same : SameInvoice paidTo invoice row)
include same

theorem SameInvoice.mono (grows : ∀ id ∈ paidTo, id ∈ paidTo') : SameInvoice paidTo' invoice row :=
  ⟨same.id, same.storeId, same.amount, same.expiresAt,
    same.status.imp (fun equal => equal) fun ⟨pending, processing, paid⟩ => ⟨pending, processing, grows _ paid⟩⟩

/-- What the trigger does to the invoice of a payment stays within the correspondence. -/
theorem SameInvoice.onPayment (grows : ∀ id ∈ paidTo, id ∈ paidTo') {payment : Payment}
    (isPaid : payment.invoiceId ∈ paidTo') (now : Time) (total : Numeric 78 18) :
    SameInvoice paidTo' invoice (row.onPayment now payment total) := by
  unfold Invoice.onPayment
  by_cases own : row.id = payment.invoiceId
  · rw [if_pos own]
    refine ⟨same.id, same.storeId, same.amount, same.expiresAt, ?_⟩
    dsimp only
    split
    next moves =>
      rcases same.status with equal | ⟨_, processing, _⟩
      · exact .inr ⟨equal.symm.trans moves.1, rfl, by rwa [own]⟩
      · rw [moves.1] at processing
        cases processing
    · exact (same.mono grows).status
  · rw [if_neg own]
    exact same.mono grows

theorem SameInvoice.withStatus (status : InvoiceStatus) :
    SameInvoice paidTo { invoice with status := status } { row with status := status } :=
  ⟨same.id, same.storeId, same.amount, same.expiresAt, .inl rfl⟩

theorem SameInvoice.withStatus_of_id (id : Uuid) (status : InvoiceStatus) :
    SameInvoice paidTo (if invoice.id = id then { invoice with status := status } else invoice)
      (row.withStatus id status) := by
  unfold Invoice.withStatus
  by_cases isId : row.id = id
  · rw [if_pos isId, if_pos (same.id.trans isId)]
    exact same.withStatus status
  · rw [if_neg isId, if_neg fun isInvoice => isId (same.id.symm.trans isInvoice)]
    exact same

end

theorem map_changeRow {γ : Type} {read : Payment → γ} (keeps : ∀ payment, read (change payment) = read payment)
    (id : Uuid) (rows : List Payment) : (changeRow id change rows).map read = rows.map read := by
  rw [changeRow, List.map_map]
  refine List.map_congr_left fun payment _ => ?_
  rw [Function.comp_apply]
  split
  · exact keeps payment
  · rfl

end Writes

variable {confirmedAt bound : Time}

theorem unconfirmed_of_missing {db : Db} {id : Uuid} {now : Time} {message : String}
    (missing : Data.markConfirmed id confirmedAt now db = .error (.notFound message)) :
    ∀ payment ∈ db.payments.rows, payment.id = id → payment.confirmedAt ≠ none := by
  intro payment mem isId unconfirmed
  unfold Data.markConfirmed at missing
  cases found : db.payments.rows.find? fun payment => payment.id = id ∧ payment.confirmedAt = none with
  | none =>
    have skipped := List.find?_eq_none.mp found payment mem
    simp [isId, unconfirmed] at skipped
  | some row =>
    simp only [found, updatePayment, updateInvoiceOnPayment] at missing
    split at missing <;> cases missing

variable {changeRecord : PaymentRecord → PaymentRecord} {status : InvoiceStatus}

namespace Mirrors

variable {memory : InMemoryDataService} {db db' : Db} {now : Time}

theorem new : Mirrors InMemoryDataService.new Db.empty :=
  ⟨.nil, .nil, rfl, TotalsExact.empty⟩

section

variable (mirrors : Mirrors memory db)
include mirrors

theorem invoiceIds : memory.invoices.keys = db.invoices.keys :=
  Paired.map_eq mirrors.invoices fun _ _ same => same.id

theorem paymentIds : memory.payments.keys = db.payments.keys :=
  Paired.map_eq mirrors.payments fun _ _ same => same.id

theorem find?_payment (mem : row ∈ db.payments.rows) :
    ∃ record, memory.payments.find? row.id = some record ∧ SamePayment record row := by
  obtain ⟨record, here, same⟩ := Paired.exists_left mirrors.payments mem
  exact ⟨record, by rw [← same.id]; exact Table.find?_of_mem here, same⟩

theorem indexKeys : memory.paymentTxIndex.keys = db.payments.rows.map Payment.txKey := by
  rw [Table.keys, mirrors.paymentTxIndex, List.map_map]
  rfl

end

theorem recorded (mirrors : Mirrors memory db) {row : Payment} {rows : List Payment}
    (recorded : Recorded now row rows db db')
    (grows : ∀ id ∈ db.payments.rows.map Payment.invoiceId, id ∈ rows.map Payment.invoiceId)
    (isPaid : row.invoiceId ∈ rows.map Payment.invoiceId) :
    List.Forall₂ (SameInvoice (db'.payments.rows.map Payment.invoiceId)) memory.invoices.rows
      db'.invoices.rows := by
  obtain ⟨total, -, isInvoices⟩ := recorded.invoices
  rw [isInvoices, recorded.payments]
  exact Paired.map_right mirrors.invoices fun invoice old same _ => same.onPayment grows isPaid now total

variable (mirrors : Mirrors memory db) {id : Uuid}
include mirrors

theorem changed (mem : row ∈ db.payments.rows) (keeps : ∀ payment, (change payment).identity = payment.identity)
    (isRecorded : Recorded now (change row) (changeRow row.id change db.payments.rows) db db')
    {keepsId : ∀ record, (changeRecord record).id = record.id}
    (each : ∀ record payment, SamePayment record payment → payment ∈ db.payments.rows →
      SamePayment (changeRecord record) (if payment.id = row.id then change payment else payment)) :
    Mirrors (memory.changePayment changeRecord keepsId) db' where
  invoices := by
    have sameInvoices := map_changeRow (fun payment => Db.invoiceId_of_identity (keeps payment)) row.id
      db.payments.rows
    refine mirrors.recorded isRecorded (fun id paid => by rwa [sameInvoices]) ?_
    rw [sameInvoices, Db.invoiceId_of_identity (keeps row)]
    exact List.mem_map_of_mem mem
  payments := by
    rw [isRecorded.payments]
    exact Paired.map mirrors.payments fun record payment same _ mem => each record payment same mem
  paymentTxIndex := by
    rw [isRecorded.payments, map_changeRow (fun payment => by
      rw [Db.txKey_of_identity (keeps payment), Db.id_of_identity (keeps payment)])]
    exact mirrors.paymentTxIndex
  received := mirrors.received.changed mem keeps isRecorded

theorem changedInMemory {keepsId : ∀ record, (changeRecord record).id = record.id}
    (each : ∀ record payment, SamePayment record payment → payment ∈ db.payments.rows →
      SamePayment (changeRecord record) payment) : Mirrors (memory.changePayment changeRecord keepsId) db where
  invoices := mirrors.invoices
  payments := Paired.map_left mirrors.payments each
  paymentTxIndex := mirrors.paymentTxIndex
  received := mirrors.received

theorem inserted (freshId : row.id ∉ db.payments.keys)
    (freshKey : row.txKey ∉ db.payments.rows.map Payment.txKey)
    (recorded : Recorded now row (db.payments.rows ++ [row]) db db') {record : PaymentRecord}
    (same : SamePayment record row) :
    Mirrors { memory with
      paymentTxIndex := memory.paymentTxIndex.put (row.txKey, row.id)
      payments := memory.payments.put record } db' where
  invoices := by
    refine mirrors.recorded recorded (fun id paid => ?_) ?_
    · rw [List.map_append]
      exact List.mem_append_left _ paid
    · exact List.mem_map_of_mem (List.mem_append_right _ (List.mem_singleton.mpr rfl))
  payments := by
    dsimp only
    rw [Table.rows_put_of_fresh (by rw [mirrors.paymentIds, same.id]; exact freshId), recorded.payments]
    exact Paired.concat mirrors.payments same
  paymentTxIndex := by
    dsimp only
    rw [Table.rows_put_of_fresh (by rw [mirrors.indexKeys]; exact freshKey), recorded.payments, List.map_append,
      mirrors.paymentTxIndex]
    rfl
  received := mirrors.received.inserted recorded

theorem upsertWithTxIndex (exact : Exact postgres payment)
    (done : upsertPaymentRow payment txIndex now db = .ok (id, db')) :
    Mirrors (memory.upsertWithTxIndex ⟨payment, false⟩ txIndex) db' := by
  obtain ⟨row, isRow, upserted⟩ := upsertPaymentRow_ok done
  have readsBack := tryRowToPayment_toRow isRow exact
  have isKey := txKey_toRow isRow
  cases upserted with
  | updated existing mem sameKey recorded =>
    obtain ⟨record, found, same⟩ := mirrors.find?_payment mem
    have indexed : (existing.txKey, existing.id) ∈ memory.paymentTxIndex.rows := by
      rw [mirrors.paymentTxIndex]
      exact List.mem_map_of_mem mem
    have inIndex := Table.find?_of_mem indexed
    simp only [sameKey, isKey] at inIndex
    simp only [InMemoryDataService.upsertWithTxIndex, inIndex, Option.bind_some, found]
    refine mirrors.changed mem (fun payment => payment.identity_absorb row) recorded ?_
    intro other payment sameOther _
    by_cases isExisting : payment.id = existing.id
    · rw [if_pos isExisting, if_pos (by rw [sameOther.id, isExisting, same.id])]
      exact sameOther.absorb readsBack
    · rw [if_neg isExisting, if_neg (by rw [sameOther.id, same.id]; exact isExisting)]
      exact sameOther
  | inserted freshKey freshId recorded =>
    have unknown : memory.paymentTxIndex.find? row.txKey = none := by
      rw [Table.find?_eq_none]
      intro entry mem isKnown
      rw [← mirrors.indexKeys] at freshKey
      exact freshKey (Table.mem_keys.mpr ⟨entry, mem, isKnown⟩)
    have same : SamePayment ⟨payment, false⟩ row := by
      rw [← readsBack]
      exact ⟨rfl, fun _ => rfl⟩
    rw [isKey] at unknown
    simp only [InMemoryDataService.upsertWithTxIndex, unknown, Option.bind_none]
    rw [← isKey, same.id]
    exact mirrors.inserted freshId freshKey recorded same

theorem markConfirmed (done : Data.markConfirmed id confirmedAt now db = .ok ((), db')) :
    Mirrors (memory.markConfirmed id confirmedAt) db' := by
  obtain ⟨row, mem, rfl, unconfirmed, recorded⟩ := markConfirmed_ok done
  refine mirrors.changed mem (Payment.identity_confirm confirmedAt) recorded ?_
  intro record payment same memPayment
  by_cases isRow : payment.id = row.id
  · obtain rfl := db.payments.eq_of_key memPayment mem isRow
    rw [if_pos rfl]
    split
    · exact same.confirm confirmedAt
    next skipped =>
      cases live : payment.reorged with
      | true => exact same.of_reorged live rfl rfl
      | false => exact absurd ⟨same.id, (same.confirmedAt live).trans unconfirmed⟩ skipped
  · rw [if_neg isRow, if_neg fun isRecord => isRow (same.id.symm.trans isRecord.1)]
    exact same

/-- A confirmation that Postgres does not find changes nothing that is compared. -/
theorem markConfirmed_missing {message : String}
    (missing : Data.markConfirmed id bound now db = .error (.notFound message)) :
    Mirrors (memory.markConfirmed id confirmedAt) db := by
  have confirmed := unconfirmed_of_missing missing
  refine mirrors.changedInMemory ?_
  intro record payment same mem
  split
  next found =>
    cases live : payment.reorged with
    | true => exact same.of_reorged live rfl rfl
    | false =>
      refine absurd ?_ (confirmed payment mem (same.id.symm.trans found.1))
      rw [← same.confirmedAt live]
      exact found.2
  · exact same

theorem markPaymentReorged (done : Data.markPaymentReorged id now db = .ok ((), db')) :
    Mirrors (memory.markPaymentReorged id) db' := by
  rcases markPaymentReorged_ok done with ⟨rfl, reorged⟩ | ⟨row, mem, rfl, live, recorded⟩
  · -- Postgres leaves a reorged payment alone; the double takes its confirmation away once more
    refine mirrors.changedInMemory ?_
    intro record payment same mem
    split
    next isRecord =>
      have isReorged := reorged payment mem (same.id.symm.trans isRecord)
      refine same.of_reorged isReorged ?_ rfl
      rw [PaymentRecord.unconfirmed, PaymentRecord.retract, PaymentRecord.unconfirmed, same.reorged,
        isReorged]
    · exact same
  refine mirrors.changed mem Payment.identity_retract recorded ?_
  intro record payment same _
  by_cases isRow : payment.id = row.id
  · rw [if_pos isRow, if_pos (same.id.trans isRow)]
    exact same.retract
  · rw [if_neg isRow, if_neg fun isRecord => isRow (same.id.symm.trans isRecord)]
    exact same

theorem createInvoiceWithOptions {invoice : InvoiceData} {options : List PaymentOptionData}
    (kept : Kept 78 18 invoice.amount) (done : Data.createInvoiceWithOptions invoice options db = .ok db') :
    Mirrors (memory.createInvoiceWithOptions invoice) db' := by
  have ran : (Statement.createInvoice invoice options).run db = .ok db' := done
  have received := Statement.run_exact ran mirrors.received
  obtain ⟨created, inserted, sameInvoices, samePayments⟩ := createInvoiceWithOptions_ok done
  obtain ⟨amount, isAmount, rest⟩ := bind_eq_ok.mp inserted
  dsimp only at rest
  split at rest
  next fresh =>
    cases rest
    refine ⟨?_, ?_, ?_, received⟩
    · rw [samePayments, sameInvoices]
      dsimp only [InMemoryDataService.createInvoiceWithOptions]
      rw [Table.rows_put_of_fresh (by rw [mirrors.invoiceIds]; exact fresh)]
      exact Paired.concat mirrors.invoices
        ⟨rfl, rfl, (numeric_kept isAmount kept).symm, rfl, .inl rfl⟩
    · rw [samePayments]
      exact mirrors.payments
    · rw [samePayments]
      exact mirrors.paymentTxIndex
  · cases rest

theorem updateStatus (done : Data.updateStatus id status db = .ok ((), db')) :
    Mirrors (memory.updateStatus id status) db' := by
  have ran : (Statement.updateStatus id status).run db = .ok db' := by
    rw [Statement.run, done]
    rfl
  have received := Statement.run_exact ran mirrors.received
  have written := Consumer.updateStatus_ok done
  refine ⟨?_, ?_, ?_, received⟩
  · rw [written.payments, written.invoices]
    exact Paired.map mirrors.invoices fun invoice row same _ _ => same.withStatus_of_id id status
  · rw [written.payments]
    exact mirrors.payments
  · rw [written.payments]
    exact mirrors.paymentTxIndex

theorem updateStatus_missing {error : RepositoryError} (missing : Data.updateStatus id status db = .error error)
    : Mirrors (memory.updateStatus id status) db := by
  have unknown := Table.find?_eq_none.mp (Consumer.updateStatus_error missing)
  refine ⟨?_, mirrors.payments, mirrors.paymentTxIndex, mirrors.received⟩
  refine Paired.map_left mirrors.invoices fun invoice row same mem => ?_
  rw [if_neg fun isInvoice => unknown row mem (same.id.symm.trans isInvoice)]
  exact same

end Mirrors

def Names (invoiceId : Uuid) (txHash : Text) (txIndex : Int) (row : Payment) : Prop :=
  row.invoiceId = invoiceId ∧ row.txHash.val = txHash ∧ row.txIndex = txIndex ∧ row.reorged = false

instance (invoiceId : Uuid) (txHash : Text) (txIndex : Int) (row : Payment) :
    Decidable (Names invoiceId txHash txIndex row) := by
  unfold Names
  infer_instance

/-- No two live payments of the invoice share the transaction and the transfer. -/
def Unambiguous (invoiceId : Uuid) (txHash : Text) (txIndex : Int) (db : Db) : Prop :=
  ∀ row ∈ db.payments.rows, ∀ other ∈ db.payments.rows, Names invoiceId txHash txIndex row →
    Names invoiceId txHash txIndex other → row = other

/-- An invoice that Postgres would expire and the double would not. -/
def InvoiceRecord.overlooked (invoice : InvoiceRecord) : Prop :=
  invoice.status = .processing ∨ invoice.status = .partiallyPaid

theorem isPayable_iff :
    Api.isPayable status = true ↔ status = .pending ∨ status = .processing ∨ status = .partiallyPaid := by
  cases status <;> simp [Api.isPayable]

/-- An invoice that is not overlooked is open in Postgres if it is pending in memory. -/
theorem SameInvoice.isPayable_iff {paidTo : List Uuid} {invoice : InvoiceRecord} {row : Invoice}
    (same : SameInvoice paidTo invoice row) (seen : ¬ invoice.overlooked) :
    Api.isPayable row.status = true ↔ invoice.status = .pending := by
  rcases same.status with equal | ⟨pending, processing, -⟩
  · rw [equal]
    unfold InvoiceRecord.overlooked at seen
    cases status : invoice.status <;> simp_all [Api.isPayable]
  · rw [pending, processing]
    exact ⟨fun _ => rfl, fun _ => rfl⟩

namespace Mirrors

variable {memory : InMemoryDataService} {db : Db}

variable (mirrors : Mirrors memory db) (order : Nat → Nat)
include mirrors

theorem expire {id : Uuid} (seen : ∀ invoice ∈ memory.invoices.rows, invoice.id = id → ¬ invoice.overlooked) :
    (memory.expire id).1 =
        (db.invoices.rows.any fun invoice => invoice.id = id ∧ Api.isPayable invoice.status) ∧
      Mirrors (memory.expire id).2 (Data.expire id db) := by
  have ran : (Statement.expire id).run db = .ok (Data.expire id db) := rfl
  constructor
  · refine Paired.any_eq mirrors.invoices fun invoice row same mem _ => ?_
    rw [decide_eq_decide, same.id]
    refine and_congr_right fun isId => ?_
    exact (same.isPayable_iff (seen invoice mem (same.id.trans isId))).symm
  refine ⟨?_, mirrors.payments, mirrors.paymentTxIndex, Statement.run_exact ran mirrors.received⟩
  refine Paired.map mirrors.invoices fun invoice row same mem _ => ?_
  by_cases isId : row.id = id
  · have isOpen := same.isPayable_iff (seen invoice mem (same.id.trans isId))
    rw [isPayable_iff] at isOpen
    by_cases pending : invoice.status = .pending
    · rw [if_pos ⟨same.id.trans isId, pending⟩, if_pos (isOpen.mpr pending), Invoice.withStatus, if_pos isId]
      exact same.withStatus .expired
    · rw [if_neg fun both => pending both.2, if_neg fun isPayable => pending (isOpen.mp isPayable)]
      exact same
  · rw [if_neg fun both => isId (same.id.symm.trans both.1), Invoice.withStatus, if_neg isId, ite_self]
    exact same

theorem streamExpiredPending {now : Time}
    (seen : ∀ invoice ∈ memory.invoices.rows, invoice.expiresAt < now → ¬ invoice.overlooked) :
    (Api.streamExpiredPending now db).Perm (memory.streamExpiredPending order now) := by
  have same : (memory.invoices.rows.filter fun invoice =>
      invoice.status = .pending ∧ invoice.expiresAt < now).map InvoiceRecord.id =
      (db.invoices.rows.filter fun row => Api.isPayable row.status ∧ row.expiresAt < now).map Invoice.id := by
    refine Paired.map_eq (Paired.filter mirrors.invoices ?_) fun _ _ same => same.id
    intro invoice row same mem _
    rw [decide_eq_decide, same.expiresAt]
    refine and_congr_left fun late => ?_
    exact (same.isPayable_iff (seen invoice mem (by rw [same.expiresAt]; exact late))).symm
  refine ((List.perm_insertionSort _ _).map Invoice.id).trans ?_
  rw [← same]
  exact (((arrange_perm order memory.invoices.rows).filter _).map InvoiceRecord.id).symm

/-- What the double's look-up picks from: the payments of the transfer, on any chain. -/
theorem mem_candidates {txHash : Text} {record : PaymentRecord} :
    record ∈ ((arrange order memory.paymentTxIndex.rows).filter fun entry =>
        entry.1.2.1 = txHash ∧ entry.1.2.2 = txIndex).filterMap (fun entry => memory.payments.find? entry.2) ↔
      ∃ row ∈ db.payments.rows, row.txHash.val = txHash ∧ row.txIndex = txIndex ∧
        memory.payments.find? row.id = some record := by
  simp only [List.mem_filterMap, List.mem_filter, mem_arrange, mirrors.paymentTxIndex, List.mem_map,
    decide_eq_true_eq]
  constructor
  · rintro ⟨_, ⟨⟨row, mem, rfl⟩, named⟩, found⟩
    exact ⟨row, mem, named.1, named.2, found⟩
  · rintro ⟨row, mem, sameHash, sameIndex, found⟩
    exact ⟨_, ⟨⟨row, mem, rfl⟩, sameHash, sameIndex⟩, found⟩

theorem getByTxIndex {invoiceId : Uuid} {txHash : Text} (unambiguous : Unambiguous invoiceId txHash txIndex db) :
    (Data.getByTxIndex invoiceId txHash txIndex db).map tryRowToPayment =
      memory.getByTxIndex order invoiceId txHash txIndex := by
  -- a candidate that the double accepts is the reading of a row that Postgres accepts
  have accepted : ∀ {record}, memory.getByTxIndex order invoiceId txHash txIndex = some record →
      ∃ row ∈ db.payments.rows, Names invoiceId txHash txIndex row ∧ record = tryRowToPayment row := by
    intro record found
    obtain ⟨row, mem, sameHash, sameIndex, stored⟩ :=
      (mirrors.mem_candidates order).mp (List.mem_of_find?_eq_some found)
    have isOwn : record.data.invoiceId = invoiceId ∧ record.reorged = false := by
      simpa using List.find?_some found
    obtain ⟨other, isOther, same⟩ := mirrors.find?_payment mem
    rw [stored] at isOther
    cases isOther
    have live := same.reorged.symm.trans isOwn.2
    exact ⟨row, mem, ⟨same.invoiceId.symm.trans isOwn.1, sameHash, sameIndex, live⟩, same.eq_of_live live⟩
  cases found : Data.getByTxIndex invoiceId txHash txIndex db with
  | none =>
    cases picked : memory.getByTxIndex order invoiceId txHash txIndex with
    | none => rfl
    | some record =>
      obtain ⟨row, mem, names, -⟩ := accepted picked
      exact absurd (decide_eq_true names) (List.find?_eq_none.mp found row mem)
  | some row =>
    have isRow := List.find?_some found
    have names : Names invoiceId txHash txIndex row := of_decide_eq_true isRow
    have mem := List.mem_of_find?_eq_some found
    cases picked : memory.getByTxIndex order invoiceId txHash txIndex with
    | none =>
      obtain ⟨record, stored, same⟩ := mirrors.find?_payment mem
      have candidate := (mirrors.mem_candidates order).mpr ⟨row, mem, names.2.1, names.2.2.1, stored⟩
      have skipped := List.find?_eq_none.mp picked record candidate
      simp [same.invoiceId, names.1, same.reorged, names.2.2.2] at skipped
    | some record =>
      obtain ⟨other, memOther, namesOther, rfl⟩ := accepted picked
      rw [unambiguous row mem other memOther names namesOther]
      rfl

end Mirrors

/-! ## Side by side -/

/-- The double and the database that are given the same calls. -/
structure Twin where
  memory : InMemoryDataService
  db : Db

/-- An operation, when it is made and how a map is iterated for it. -/
structure Call where
  operation : Operation
  now : Time
  order : Nat → Nat

/-- Postgres keeps what it had when it fails. -/
def Twin.perform (postgres : Postgres) (twin : Twin) (call : Call) : Twin where
  memory := (call.operation.inMemory call.order call.now twin.memory).2
  db :=
    match call.operation.onPostgres postgres call.now twin.db with
    | .ok (_, written) => written
    | .error _ => twin.db

def twins (postgres : Postgres) : System Twin Call where
  initial twin := twin = ⟨.new, .empty⟩
  step twin call twin' := twin' = twin.perform postgres call

/-- What the double does not have: column types, orders of one transfer on two chains, open but not pending. -/
def Operation.Comparable (postgres : Postgres) (operation : Operation) (now : Time) (twin : Twin) : Prop :=
  match operation with
  | .upsertWithTxIndex payment _ => payment.reorged = false ∧ Exact postgres payment.data
  | .createInvoiceWithOptions invoice _ => Kept 78 18 invoice.amount ∧ 1000 ∣ invoice.expiresAt
  | .getByTxIndex invoiceId txHash txIndex => Unambiguous invoiceId txHash txIndex twin.db
  | .expire id => ∀ invoice ∈ twin.memory.invoices.rows, invoice.id = id → ¬ invoice.overlooked
  | .streamExpiredPending =>
    1000 ∣ now ∧ ∀ invoice ∈ twin.memory.invoices.rows, invoice.expiresAt < now → ¬ invoice.overlooked
  | .markConfirmed _ confirmedAt => 1000 ∣ confirmedAt
  | .markPaymentReorged _ | .updateStatus _ _ => True

def Operation.Misses : Operation → RepositoryError → Prop
  | .markConfirmed _ _, .notFound _ => True
  | .updateStatus _ _, .notFound _ => True
  | _, _ => False

structure Comparable (postgres : Postgres) (twin : Twin) (call : Call) : Prop where
  operation : call.operation.Comparable postgres call.now twin
  accepted : ∀ error, call.operation.onPostgres postgres call.now twin.db = .error error →
    call.operation.Misses error

def Agree (operation : Operation) (answer : Except RepositoryError (Reply × Db)) (reply : Reply) : Prop :=
  match answer with
  | .ok (reply', _) => reply'.Same reply
  | .error error => operation.Misses error ∧ reply = .done

section Steps

variable {postgres : Postgres} {twin : Twin} {call : Call}

variable (mirrors : Mirrors twin.memory twin.db)
include mirrors

/-- A call that Postgres carries out is answered the same by both, and they hold the same afterwards. -/
theorem Mirrors.step_ok (comparable : Comparable postgres twin call) {reply : Reply} {written : Db}
    (done : call.operation.onPostgres postgres call.now twin.db = .ok (reply, written)) :
    reply.Same (call.operation.inMemory call.order call.now twin.memory).1 ∧
      Mirrors (call.operation.inMemory call.order call.now twin.memory).2 written := by
  have isComparable := comparable.operation
  obtain ⟨operation, now, order⟩ := call
  cases operation with
  | upsertWithTxIndex payment txIndex =>
    obtain ⟨bound, isBound, rest⟩ := bind_eq_ok.mp done
    obtain ⟨⟨id, after⟩, upserted, isResult⟩ := bind_eq_ok.mp rest
    cases isResult
    obtain ⟨data, reorged⟩ := payment
    obtain ⟨rfl, exact⟩ := isComparable
    obtain rfl := bind_exact isBound exact
    exact ⟨rfl, mirrors.upsertWithTxIndex exact upserted⟩
  | markConfirmed id confirmedAt =>
    obtain ⟨⟨_, after⟩, marked, isResult⟩ := map_eq_ok.mp done
    cases isResult
    rw [timestamptz_of_whole isComparable] at marked
    exact ⟨rfl, mirrors.markConfirmed marked⟩
  | markPaymentReorged id =>
    obtain ⟨⟨_, after⟩, marked, isResult⟩ := map_eq_ok.mp done
    cases isResult
    exact ⟨rfl, mirrors.markPaymentReorged marked⟩
  | getByTxIndex invoiceId txHash txIndex =>
    cases done
    exact ⟨congrArg Reply.payment (mirrors.getByTxIndex order isComparable), mirrors⟩
  | createInvoiceWithOptions invoice options =>
    simp only [Operation.onPostgres] at done
    split at done
    · obtain ⟨after, created, isResult⟩ := map_eq_ok.mp done
      cases isResult
      rw [timestamptz_of_whole isComparable.2] at created
      exact ⟨rfl, mirrors.createInvoiceWithOptions isComparable.1 created⟩
    · cases done
  | updateStatus id status =>
    obtain ⟨⟨_, after⟩, updated, isResult⟩ := map_eq_ok.mp done
    cases isResult
    exact ⟨rfl, mirrors.updateStatus updated⟩
  | expire id =>
    cases done
    obtain ⟨same, after⟩ := mirrors.expire isComparable
    exact ⟨congrArg Reply.expired same.symm, after⟩
  | streamExpiredPending =>
    cases done
    rw [timestamptz_of_whole isComparable.1]
    exact ⟨mirrors.streamExpiredPending order isComparable.2, mirrors⟩

/-- A row that Postgres misses is no error in memory, and nothing changes on either side. -/
theorem Mirrors.step_missed {error : RepositoryError}
    (missed : call.operation.onPostgres postgres call.now twin.db = .error error)
    (misses : call.operation.Misses error) :
    (call.operation.inMemory call.order call.now twin.memory).1 = .done ∧
      Mirrors (call.operation.inMemory call.order call.now twin.memory).2 twin.db := by
  obtain ⟨operation, now, order⟩ := call
  cases operation with
  | markConfirmed id confirmedAt =>
    cases error with
    | notFound message => exact ⟨rfl, mirrors.markConfirmed_missing (map_eq_error.mp missed)⟩
    | conflict message => exact misses.elim
    | database message => exact misses.elim
  | updateStatus id status => exact ⟨rfl, mirrors.updateStatus_missing (map_eq_error.mp missed)⟩
  | upsertWithTxIndex payment txIndex => exact misses.elim
  | markPaymentReorged id => exact misses.elim
  | getByTxIndex invoiceId txHash txIndex => exact misses.elim
  | createInvoiceWithOptions invoice options => exact misses.elim
  | expire id => exact misses.elim
  | streamExpiredPending => exact misses.elim

theorem Mirrors.step (comparable : Comparable postgres twin call) :
    Agree call.operation (call.operation.onPostgres postgres call.now twin.db)
        (call.operation.inMemory call.order call.now twin.memory).1 ∧
      Mirrors (twin.perform postgres call).memory (twin.perform postgres call).db := by
  unfold Twin.perform Agree
  cases answered : call.operation.onPostgres postgres call.now twin.db with
  | ok pair =>
    obtain ⟨reply, written⟩ := pair
    exact mirrors.step_ok comparable answered
  | error error =>
    have misses := comparable.accepted error answered
    obtain ⟨isDone, same⟩ := mirrors.step_missed answered misses
    exact ⟨⟨misses, isDone⟩, same⟩

end Steps

/-- Store 1, and a column that writes a number without its exponent. -/
def sampled : Postgres where
  stores := [1]
  jsonb document := .ok (if document = "1e16".toList then "10000000000000000".toList else document)

/-- Invoices of store 1 under some calls at time 0, whose maps are iterated in insertion order. -/
def twinAfter (operations : List Operation) : Twin :=
  operations.foldl (fun twin operation => twin.perform sampled ⟨operation, 0, id⟩) ⟨.new, .empty⟩

theorem twinAfter_reachable (operations : List Operation) : (twins sampled).Reachable (twinAfter operations) := by
  have begins : (twins sampled).Reachable ⟨.new, .empty⟩ := .of_initial rfl
  unfold twinAfter
  generalize (⟨.new, .empty⟩ : Twin) = twin at begins ⊢
  induction operations generalizing twin with
  | nil => exact begins
  | cons operation rest ih =>
    exact ih _ (begins.snoc (show (twins sampled).step twin ⟨operation, 0, id⟩ _ from rfl))

/-- After some calls Postgres does not answer what the double answers. -/
structure Diverges (operations : List Operation) (call : Call) : Prop where
  reached : (twins sampled).Reachable (twinAfter operations)
  replies : (call.operation.onPostgres sampled call.now (twinAfter operations).db).toOption.map Prod.fst ≠
    some (call.operation.inMemory call.order call.now (twinAfter operations).memory).1

def createOne (amount : ℚ) : Operation := .createInvoiceWithOptions ⟨1, 1, amount, 1000⟩ []

/-- A payment of invoice 1 in transaction `a`. -/
def payOne (paymentId : Uuid) (chain : Nat) (amount : ℚ) (reorged : Bool) : Operation :=
  .upsertWithTxIndex
    ⟨{ creditOnly paymentId 1 ['a'] 1 with chainId := .evm chain, amount := amount }, reorged⟩ 0

def documented : PaymentData := { creditOnly 1 1 ['a'] 1 with extra := some "1e16".toList }

def lookUpOne : Operation := .getByTxIndex 1 ['a'] 0

def Twin.balances (twin : Twin) : List (InvoiceStatus × ℚ) × List (InvoiceStatus × ℚ) :=
  (twin.db.invoices.rows.map fun invoice => (invoice.status, invoice.amountReceived.toRat),
    twin.memory.invoices.rows.map fun invoice => (invoice.status, invoice.amountReceived))

theorem Comparable.of_ok {postgres : Postgres} {twin : Twin} {call : Call}
    (isOk : (call.operation.onPostgres postgres call.now twin.db).toOption.isSome = true)
    (operation : call.operation.Comparable postgres call.now twin) : Comparable postgres twin call := by
  refine ⟨operation, ?_⟩
  intro error failed
  rw [failed] at isOk
  cases isOk

theorem paid_twin_reachable :
    ((twins sampled).restrict (Comparable sampled)).Reachable (twinAfter [createOne 5, payOne 1 1 1 false]) := by
  have begins : ((twins sampled).restrict (Comparable sampled)).Reachable ⟨.new, .empty⟩ := .of_initial rfl
  have created : Comparable sampled ⟨.new, .empty⟩ ⟨createOne 5, 0, id⟩ :=
    .of_ok (by decide +kernel) ⟨by decide +kernel, by decide⟩
  have exact : Exact sampled { creditOnly 1 1 ['a'] 1 with chainId := .evm 1, amount := 1 } :=
    ⟨by decide +kernel, by decide +kernel, by decide +kernel, by decide +kernel, by decide, nofun, nofun, nofun⟩
  have paid : Comparable sampled (twinAfter [createOne 5]) ⟨payOne 1 1 1 false, 0, id⟩ :=
    .of_ok (by decide +kernel) ⟨rfl, exact⟩
  exact (begins.snoc ⟨rfl, created⟩).snoc ⟨rfl, paid⟩

end EthPayServer.TestUtils
