import EthPayServer.Consumer.Resumption

/-!
# Redelivery after a crash

An application that is cut before its cursor commits is delivered again.  The
books are what counts afterwards: the payment rows without generated ids and
clock readings, and the invoices.
-/

namespace EthPayServer.Consumer

open Lib Data
open Evm (Time Uuid B256 U256 MonitorEvent PaymentDetected PaymentConfirmed ReorgDetected hashText
  addressText)

/-! ## Books -/

/-- A payment row without its generated id and the clock reading of its rate. -/
def erase (payment : Payment) : Payment :=
  { payment with id := 0, rateAppliedAt := payment.rateAppliedAt.map fun _ => 0 }

/-- The same payment rows up to generated ids and timestamps. -/
def SameRows (rows rows' : List Payment) : Prop := rows.map erase = rows'.map erase

/-- The same payment rows, and the same invoices with their status and received amount. -/
def SameBooks (db db' : Db) : Prop :=
  SameRows db.payments.rows db'.payments.rows ∧ db.invoices.rows = db'.invoices.rows

theorem SameBooks.refl (db : Db) : SameBooks db db := ⟨rfl, rfl⟩

theorem creditedTotal_erase (rows : List Payment) (invoiceId : Uuid) :
    creditedTotal (rows.map erase) invoiceId = creditedTotal rows invoiceId := by
  unfold creditedTotal
  rw [List.map_map]
  rfl

theorem SameRows.creditedTotal_eq {rows rows' : List Payment} (same : SameRows rows rows')
    (invoiceId : Uuid) : creditedTotal rows invoiceId = creditedTotal rows' invoiceId := by
  rw [← creditedTotal_erase rows, ← creditedTotal_erase rows', same]

/-! ## One application and the next -/

variable (divide : Division)

/-- What a crash before the call `cut` leaves of an application. -/
def crashed (delivery : Delivery) (event : MonitorEvent) (clock : Nat → Time) (cut : Nat) (db : Db) :
    Db :=
  (handleEvent divide delivery event (Proc.crashAfter cut .stopped clock) 0 db).state

/-- An application that nothing interrupts. -/
def applied (delivery : Delivery) (event : MonitorEvent) (clock : Nat → Time) (db : Db) :
    Outcome EventConsumerError Db Unit :=
  handleEvent divide delivery event (Proc.uninterrupted clock) 0 db

/--
The event is delivered again after the crash: the application succeeds, and the
books are those of one uninterrupted application, at the time of the first or
of the second delivery.
-/
def Idempotent (first second : Delivery) (event : MonitorEvent) (clock clock' : Nat → Time)
    (cut : Nat) (db : Db) : Prop :=
  let again := applied divide second event clock' (crashed divide first event clock cut db)
  again.result = .ok () ∧
    (SameBooks again.state (applied divide first event clock db).state ∨
      SameBooks again.state (applied divide second event clock' db).state)

/-! ## Payment detected -/

/-- The row another delivery of the same event proposes. -/
def restamp (delivery : Delivery) (row : Payment) : Payment :=
  { row with
    id := delivery.paymentId
    rateAppliedAt := row.rateAppliedAt.map fun _ => delivery.now }

@[simp] theorem erase_restamp (row : Payment) : erase (restamp delivery row) = erase row := by
  simp [erase, restamp, Function.comp_def]

variable {divide}

theorem creditThrough_restamp (amount : Nat) (now now' : Time) (option : PaymentOption) :
    creditThrough divide amount now' option =
      { creditThrough divide amount now option with
        rateAppliedAt := (creditThrough divide amount now option).rateAppliedAt.map fun _ => now' } := by
  unfold creditThrough
  cases option.rate with
  | none => rfl
  | some rate =>
    simp only
    cases convertPaymentToInvoiceCurrency divide amount rate.toRat option.decimals <;> rfl

theorem creditFor_restamp (amount : Nat) (now now' : Time) (optionId : Option Uuid) (db : Db) :
    creditFor divide amount now' optionId db =
      { creditFor divide amount now optionId db with
        rateAppliedAt := (creditFor divide amount now optionId db).rateAppliedAt.map fun _ => now' } := by
  unfold creditFor
  cases optionId.bind (getPaymentOption · db) with
  | none => rfl
  | some option => exact creditThrough_restamp amount now now' option

variable {first second delivery : Delivery} {txIndex : Int} {db : Db} {payment : PaymentData}

theorem described_redelivered (second : Delivery)
    (isDescribed : described divide first event db = .ok (payment, txIndex)) :
    described divide second event db = .ok ({ payment with
      id := second.paymentId
      rateAppliedAt := payment.rateAppliedAt.map fun _ => second.now }, txIndex) := by
  obtain ⟨isIndex, asset, isAsset, rfl⟩ := described_ok isDescribed
  simp only [described, isAsset, isIndex, Except.ok.injEq, Prod.mk.injEq, and_true]
  rw [creditFor_restamp event.amount.toNat first.now second.now]
  rfl

variable {row filed payment' : Payment}

theorem toRow_redelivered (second : Delivery) (isRow : payment.toRow txIndex = .ok row) : ({ payment with
      id := second.paymentId
      rateAppliedAt := payment.rateAppliedAt.map fun _ => second.now } : PaymentData).toRow txIndex =
      .ok (restamp second row) := by
  simp only [PaymentData.toRow, bind_eq_ok] at isRow ⊢
  obtain ⟨amount, amountStored, symbol, symbolStored, token, tokenStored, txHash, txHashStored,
    sender, senderStored, credited, creditedStored, rate, rateStored, isRow⟩ := isRow
  cases isRow
  exact ⟨amount, amountStored, symbol, symbolStored, token, tokenStored, txHash, txHashStored,
    sender, senderStored, credited, creditedStored, rate, rateStored, rfl⟩

theorem erase_absorb_restamp (second : Delivery) (existing row : Payment) :
    erase (existing.absorb (restamp second row)) = erase (existing.absorb row) := by
  cases applied : row.rateAppliedAt <;> simp [erase, Payment.absorb, restamp, applied]

theorem erase_absorb_absorbed (second : Delivery) (absorbed : filed.absorb row = filed) :
    erase (filed.absorb (restamp second row)) = erase filed := by
  rw [erase_absorb_restamp, absorbed]

theorem txKey_eq_of_erase {payment : Payment} (same : erase payment = erase payment') :
    payment.txKey = payment'.txKey :=
  (congrArg Payment.txKey same :)

theorem invoiceId_eq_of_erase {payment : Payment} (same : erase payment = erase payment') :
    payment.invoiceId = payment'.invoiceId :=
  (congrArg Payment.invoiceId same :)

theorem changeRow_sameRows {id : Uuid} {change change' : Payment → Payment} {rows : List Payment}
    (same : ∀ payment ∈ rows, payment.id = id → erase (change payment) = erase (change' payment)) :
    SameRows (changeRow id change rows) (changeRow id change' rows) := by
  unfold SameRows changeRow
  rw [List.map_map, List.map_map]
  refine List.map_congr_left fun payment mem => ?_
  simp only [Function.comp_apply]
  split
  next here => exact same payment mem here
  · rfl

variable {now : Time} {db' marked : Db}

/-- The two deliveries file the same rows. -/
theorem upserted_sameRows {now' : Time} {db db'' : Db} (upserted : Upserted now row db db')
    (upserted' : Upserted now' (restamp second row) db db'') :
    SameRows db'.payments.rows db''.payments.rows := by
  cases upserted with
  | updated existing mem same recorded =>
    cases upserted' with
    | updated existing' mem' same' recorded' =>
      obtain rfl : existing = existing' := Db.eq_of_txKey mem mem' (same.trans same'.symm)
      rw [recorded.payments, recorded'.payments]
      exact changeRow_sameRows fun payment _ _ => (erase_absorb_restamp second payment row).symm
    | inserted freshKey _ _ => exact absurd (List.mem_map.mpr ⟨existing, mem, same⟩) freshKey
  | inserted freshKey _ recorded =>
    cases upserted' with
    | updated existing mem same _ => exact absurd (List.mem_map.mpr ⟨existing, mem, same⟩) freshKey
    | inserted _ _ recorded' =>
      rw [recorded.payments, recorded'.payments]
      simp [SameRows]

theorem refiled_sameRows (isFiled : Filed now row filed db db') (second : Delivery) :
    SameRows (changeRow filed.id (·.absorb (restamp second row)) db'.payments.rows)
      db'.payments.rows := by
  unfold SameRows changeRow
  rw [List.map_map]
  refine List.map_congr_left fun payment mem => ?_
  simp only [Function.comp_apply]
  split
  next here =>
    rw [db'.payments.eq_of_key mem isFiled.mem here]
    exact erase_absorb_absorbed second isFiled.absorbed
  · rfl

/-- The row two databases with the same rows file a transfer under. -/
theorem SameRows.erase_eq (same : SameRows db.payments.rows db'.payments.rows) {payment : Payment}
    (mem : payment ∈ db.payments.rows) (mem' : payment' ∈ db'.payments.rows)
    (sameKey : payment.txKey = payment'.txKey) : erase payment = erase payment' := by
  have inside : erase payment ∈ db'.payments.rows.map erase := same ▸ List.mem_map_of_mem mem
  obtain ⟨other, memOther, isOther⟩ := List.mem_map.mp inside
  have otherKey : other.txKey = payment'.txKey := (txKey_eq_of_erase isOther).trans sameKey
  rw [← isOther, Db.eq_of_txKey memOther mem' otherKey]

/-- The trigger reads of a row only its invoice and whether it is live. -/
theorem onPayment_of_erase {row' : Payment} (same : erase row = erase row') (now : Time)
    (total : Numeric 78 18) : Invoice.onPayment now row total = Invoice.onPayment now row' total := by
  have sameReorged := congrArg Payment.reorged same
  change row.reorged = row'.reorged at sameReorged
  funext invoice
  simp only [Invoice.onPayment, invoiceId_eq_of_erase same, sameReorged]

/-- The trigger twice with the same total is the trigger once, at the earlier time. -/
theorem onPayment_onPayment (now now' : Time) (row : Payment) (total : Numeric 78 18)
    (invoice : Invoice) :
    (invoice.onPayment now row total).onPayment now' row total =
      invoice.onPayment (min now now') row total := by
  unfold Invoice.onPayment
  by_cases here : invoice.id = row.invoiceId
  · simp only [here, if_true, Invoice.mk.injEq, true_and, and_true]
    by_cases pending : invoice.status = .pending ∧ row.reorged = false
    · by_cases early : now ≤ invoice.expiresAt <;> by_cases late : now' ≤ invoice.expiresAt <;>
        simp [pending.1, pending.2, early, late]
    · by_cases isPending : invoice.status = .pending
      · have reorged : row.reorged = true := by simpa [isPending] using pending
        simp [reorged]
      · simp [isPending]
  · simp [here]

theorem filed_invoices {filed' : Payment} {base db : Db} {total : Numeric 78 18}
    (isTotal : total.units = creditedTotal db.payments.rows filed.invoiceId) (mem : filed ∈ db.payments.rows)
    (isFiled : Filed now row filed' base db') (sameRows : SameRows db.payments.rows db'.payments.rows)
    (sameKey : filed.txKey = row.txKey) :
    db'.invoices.rows = base.invoices.rows.map (Invoice.onPayment now filed total) := by
  have sameFiled : erase filed = erase filed' :=
    sameRows.erase_eq mem isFiled.mem (sameKey.trans isFiled.key.symm)
  obtain ⟨total', isTotal', isInvoices⟩ := isFiled.invoices
  obtain rfl : total = total' := by
    apply Numeric.ext
    rw [isTotal, isTotal', invoiceId_eq_of_erase sameFiled, sameRows.creditedTotal_eq]
  rw [isInvoices, onPayment_of_erase sameFiled]

/-- The write of a detection succeeds when it comes at this time. -/
def Files (divide : Division) (delivery : Delivery) (event : PaymentDetected) (now : Time)
    (db db' : Db) : Prop :=
  ∃ payment txIndex, described divide delivery event db = .ok (payment, txIndex) ∧
    upsertWithTxIndexAndObligation payment txIndex "payment_detected" now db = .ok ((), db')

variable {n cut : Nat} {clock clock' : Nat → Time}

/-- An uninterrupted detection that succeeds files at the call its reads lead to. -/
theorem files_of_succeeds
    (reads : Proc.Reads (describePayment (m := ConsumerM) divide delivery event) db n
      (described divide delivery event db))
    (succeeds : (applied divide delivery (.paymentDetected event) clock db).result = .ok ()) :
    ∃ db', Files divide delivery event (clock n) db db' := by
  change (handlePaymentDetected divide delivery event (Proc.uninterrupted clock) 0 db).result =
    .ok () at succeeds
  unfold handlePaymentDetected at succeeds
  cases isDescribed : described divide delivery event db with
  | error e =>
    rw [isDescribed] at reads
    rcases reads.bind_error (Proc.uninterrupted clock) 0 with ⟨k, e', _, _, fault, _⟩ | ⟨_, outcome⟩
    · cases fault
    · rw [outcome] at succeeds
      cases succeeds
  | ok result =>
    rw [isDescribed] at reads
    rw [(reads.run _ (Proc.answered_uninterrupted clock n) (Nat.zero_le n)).1 (by simp),
      Nat.zero_add] at succeeds
    cases done : upsertWithTxIndexAndObligation result.1 result.2 "payment_detected" (clock n) db with
    | error error =>
      rw [show statement _ (Proc.uninterrupted clock) n db = _ from
        Proc.call_of_refused (Proc.uninterrupted_apply clock n) (by rw [done]; rfl)] at succeeds
      cases succeeds
    | ok written => exact ⟨written.2, result.1, result.2, isDescribed, done⟩

theorem files_run
    (reads : Proc.Reads (describePayment (m := ConsumerM) divide delivery event) db n
      (described divide delivery event db))
    (files : Files divide delivery event (clock n) db db') :
    applied divide delivery (.paymentDetected event) clock db = ⟨.ok (), n + 1, db'⟩ ∧
      ∀ cut, crashed divide delivery (.paymentDetected event) clock cut db =
        if n < cut then db' else db := by
  obtain ⟨payment, txIndex, isDescribed, done⟩ := files
  rw [isDescribed] at reads
  let file : PaymentData × Int → ConsumerM Unit := fun described =>
    statement (upsertWithTxIndexAndObligation described.1 described.2 "payment_detected")
  have whole := (reads.run file (Proc.answered_uninterrupted clock n) (Nat.zero_le n)).1 (by simp)
  rw [Nat.zero_add] at whole
  refine ⟨whole.trans (statement_of_ok _ (Proc.uninterrupted_apply clock n) done), fun cut => ?_⟩
  obtain ⟨reaches, stops⟩ := reads.run file (Proc.answered_crashAfter cut .stopped clock)
    (Nat.zero_le cut)
  rw [Nat.zero_add] at reaches stops
  have stopped : Proc.crashAfter cut EventConsumerError.stopped clock cut = .error .stopped :=
    Proc.crashAfter_of_le _ _ le_rfl
  rcases Nat.lt_trichotomy n cut with early | rfl | late
  · rw [if_pos early]
    have outcome := (reaches early.le).trans
      (statement_of_ok _ (Proc.crashAfter_of_lt EventConsumerError.stopped clock early) done)
    exact congrArg Outcome.state outcome
  · rw [if_neg (lt_irrefl n)]
    exact congrArg Outcome.state ((reaches le_rfl).trans (Proc.call_of_fault stopped db))
  · rw [if_neg late.le.not_gt]
    exact congrArg Outcome.state (stops late .stopped stopped)

theorem upserted_files_again (upserted : Upserted now row db db') (fresh : second.paymentId ∉ db.payments.keys)
    (isRow : payment.toRow txIndex = .ok (restamp second row)) (eventType : String) (now' : Time) :
    ∃ db'', upsertWithTxIndexAndObligation payment txIndex eventType now' db = .ok ((), db'') := by
  cases upserted with
  | updated existing mem same recorded =>
    refine upsert_update isRow mem same ?_ eventType now'
    obtain ⟨total, isTotal, _⟩ := recorded.invoices
    have sameRows : SameRows (changeRow existing.id (·.absorb (restamp second row)) db.payments.rows)
        (changeRow existing.id (·.absorb row) db.payments.rows) :=
      changeRow_sameRows fun payment _ _ => erase_absorb_restamp second payment row
    rw [sameRows.creditedTotal_eq, show existing.invoiceId = (existing.absorb row).invoiceId from rfl,
      ← isTotal]
    exact total.fits
  | inserted freshKey _ recorded =>
    obtain ⟨hasInvoice, hasOption, fits⟩ := recorded.inserted
    refine upsert_insert isRow fresh freshKey hasInvoice hasOption ?_ eventType now'
    have sameRows : SameRows (db.payments.rows ++ [restamp second row]) (db.payments.rows ++ [row]) := by
      simp [SameRows]
    rw [sameRows.creditedTotal_eq]
    exact fits

theorem upserted_of_ok {eventType : String} (isRow : payment.toRow txIndex = .ok row)
    (done : upsertWithTxIndexAndObligation payment txIndex eventType now db = .ok ((), db')) :
    Upserted now row db db' := by
  obtain ⟨row', isRow', upserted⟩ := upsertWithTxIndexAndObligation_ok done
  rw [isRow] at isRow'
  cases isRow'
  exact upserted

/-- A transfer that is filed can be filed again, and only a timestamp changes. -/
theorem upserted_refiles (upserted : Upserted now row db db') (second : Delivery)
    (isRow : payment.toRow txIndex = .ok (restamp second row)) (eventType : String) (now' : Time) :
    ∃ db'', upsertWithTxIndexAndObligation payment txIndex eventType now' db' = .ok ((), db'') ∧
      SameRows db''.payments.rows db'.payments.rows := by
  obtain ⟨filed, isFiled⟩ := upserted.filed
  obtain ⟨total, isTotal, _⟩ := isFiled.invoices
  have sameRows := refiled_sameRows isFiled second
  obtain ⟨db'', done⟩ := upsert_update isRow isFiled.mem isFiled.key (by
    rw [sameRows.creditedTotal_eq, ← isTotal]
    exact total.fits) eventType now'
  refine ⟨db'', done, ?_⟩
  cases upserted_of_ok isRow done with
  | updated existing mem same recorded =>
    obtain rfl : existing = filed := Db.eq_of_txKey mem isFiled.mem (same.trans isFiled.key.symm)
    rw [recorded.payments]
    exact sameRows
  | inserted freshKey _ _ =>
    exact absurd (List.mem_map.mpr ⟨filed, isFiled.mem, isFiled.key⟩) freshKey

/-- A detected payment is redelivered safely from every crash. -/
theorem detected_idempotent (fresh : second.paymentId ∉ db.payments.keys)
    (succeeds : (applied divide first (.paymentDetected event) clock db).result = .ok ()) :
    Idempotent divide first second (.paymentDetected event) clock clock' cut db := by
  obtain ⟨n, reads⟩ := describePayment_reads divide first event db
  obtain ⟨n', reads'⟩ := describePayment_reads divide second event db
  replace reads := reads db (SameCatalog.refl db)
  obtain ⟨once, files⟩ := files_of_succeeds reads succeeds
  obtain ⟨payment, txIndex, isDescribed, done⟩ := files
  obtain ⟨row, isRow, upserted⟩ := upsertWithTxIndexAndObligation_ok done
  have isDescribed' := described_redelivered second isDescribed
  have isRow' := toRow_redelivered second isRow
  obtain ⟨alone, doneAlone⟩ := upserted_files_again upserted fresh isRow' "payment_detected" (clock' n')
  have runAlone := (files_run (reads' db (SameCatalog.refl db)) ⟨_, _, isDescribed', doneAlone⟩).1
  obtain ⟨runOnce, cuts⟩ := files_run reads ⟨payment, txIndex, isDescribed, done⟩
  unfold Idempotent
  rw [cuts cut, runOnce, runAlone]
  by_cases early : n < cut
  · rw [if_pos early]
    -- the transfer is filed already: the second delivery updates the row it finds
    obtain ⟨filed, isFiled⟩ := upserted.filed
    obtain ⟨again, doneAgain, sameRows⟩ := upserted_refiles upserted second isRow' "payment_detected"
      (clock' n')
    rw [← described_of_sameCatalog divide second event isFiled.catalog] at isDescribed'
    rw [(files_run (reads' once isFiled.catalog) ⟨_, _, isDescribed', doneAgain⟩).1]
    refine ⟨rfl, ?_⟩
    have upsertedAlone := upserted_of_ok isRow' doneAlone
    obtain ⟨filedAlone, isFiledAlone⟩ := upsertedAlone.filed
    obtain ⟨filedAgain, isFiledAgain⟩ := (upserted_of_ok isRow' doneAgain).filed
    have sameAlone := upserted_sameRows upserted upsertedAlone
    obtain ⟨total, isTotal, invoicesOnce⟩ := isFiled.invoices
    have invoicesAgain := filed_invoices isTotal isFiled.mem isFiledAgain sameRows.symm isFiled.key
    have invoicesAlone := filed_invoices isTotal isFiled.mem isFiledAlone sameAlone isFiled.key
    have both : again.invoices.rows =
        db.invoices.rows.map (Invoice.onPayment (min (clock n) (clock' n')) filed total) := by
      rw [invoicesAgain, invoicesOnce, List.map_map]
      exact List.map_congr_left fun invoice _ =>
        onPayment_onPayment (clock n) (clock' n') filed total invoice
    rcases le_total (clock n) (clock' n') with earlier | later
    · left
      exact ⟨sameRows, by rw [both, min_eq_left earlier, invoicesOnce]⟩
    · right
      exact ⟨sameRows.trans sameAlone, by rw [both, min_eq_right later, invoicesAlone]⟩
  · rw [if_neg early, runAlone]
    exact ⟨rfl, .inr (SameBooks.refl alone)⟩

/-! ## Payment confirmed -/

theorem markConfirmed_anytime {id : Uuid} {confirmedAt : Time}
    (done : markConfirmed id confirmedAt now db = .ok ((), marked)) (now' : Time) :
    ∃ marked', markConfirmed id confirmedAt now' db = .ok ((), marked') := by
  obtain ⟨row, found, updated⟩ := markConfirmed_eq_ok.mp done
  obtain ⟨total, isTotal, _⟩ := (updatePayment_ok updated).invoices
  obtain ⟨written, again⟩ := updatePayment_total row (Payment.confirm confirmedAt) (by simp)
    (by rw [← isTotal]; exact total.fits) now'
  exact ⟨written, markConfirmed_eq_ok.mpr ⟨row, found, again⟩⟩

theorem settleInvoice_payments (world : World EventConsumerError Time) (invoiceId : Uuid) (i : Nat)
    (db : Db) : (settleInvoice invoiceId world i db).state.payments = db.payments := by
  rcases (settleInvoice_spec invoiceId).ends world i db with ⟨_, _, settles⟩ | ⟨_, _, same, _⟩
  · unfold Settled at settles
    split at settles <;> exact settles.payments
  · exact same.payments

section Confirmed

variable {event : PaymentConfirmed} {payment : Payment}

theorem confirmed_after_read (divide : Division) (delivery : Delivery)
    (found : getByTxIndex event.invoiceId (hashText event.txHash) event.txIndex db = some payment)
    {world : World EventConsumerError Time} (answered : world 0 = .ok now) :
    handleEvent divide delivery (.paymentConfirmed event) world 0 db =
      (statement (markConfirmed payment.id event.confirmedAt) world 1 db).andThen
        fun _ => settleInvoice event.invoiceId world := by
  have reads : query (getByTxIndex event.invoiceId (hashText event.txHash) event.txIndex) world 0 db =
      ⟨.ok (some payment), 1, db⟩ := by rw [query, Proc.read_of_ok answered, found]
  change handlePaymentConfirmed event world 0 db = _
  rw [handlePaymentConfirmed, Proc.bind_apply, reads, Outcome.andThen_ok]
  rfl

theorem getByTxIndex_marked
    (found : getByTxIndex event.invoiceId (hashText event.txHash) event.txIndex db = some payment)
    (done : markConfirmed payment.id event.confirmedAt now db = .ok ((), marked)) :
    getByTxIndex event.invoiceId (hashText event.txHash) event.txIndex marked =
      some (payment.confirm event.confirmedAt) := by
  obtain ⟨_, _, _, _, recorded⟩ := markConfirmed_ok done
  unfold getByTxIndex at found ⊢
  have sameRead : ((fun other : Payment => decide (other.invoiceId = event.invoiceId ∧
      other.txHash.val = hashText event.txHash ∧ other.txIndex = event.txIndex ∧
      other.reorged = false)) ∘ fun other => if other.id = payment.id then
        other.confirm event.confirmedAt else other) = fun other => decide
          (other.invoiceId = event.invoiceId ∧ other.txHash.val = hashText event.txHash ∧
            other.txIndex = event.txIndex ∧ other.reorged = false) := by
    funext other
    simp only [Function.comp_apply]
    split <;> rfl
  rw [recorded.payments, changeRow, List.find?_map, sameRead, found, Option.map_some, if_pos rfl]

theorem confirmed_refuses (divide : Division) (delivery : Delivery) (clock : Nat → Time)
    (found : getByTxIndex event.invoiceId (hashText event.txHash) event.txIndex db = some payment)
    (confirmed : payment.confirmedAt ≠ none) :
    (applied divide delivery (.paymentConfirmed event) clock db).result ≠ .ok () := by
  intro succeeds
  have spec : Proc.Triple (Proc.uninterrupted clock) (· = db) (handlePaymentConfirmed event) _ _ :=
    handlePaymentConfirmed_spec event
  rcases (spec 0 db rfl).of_ok succeeds with ⟨missing, _⟩ | ⟨marked, ⟨payment', now, found', done⟩, _⟩
  · rw [found] at missing
    cases missing
  rw [found] at found'
  cases found'
  obtain ⟨row, memRow, sameId, unconfirmed, _⟩ := markConfirmed_ok done
  rw [db.payments.eq_of_key memRow (getByTxIndex_some found).1 sameId] at unconfirmed
  exact confirmed unconfirmed

/-- The states a cut confirmation leaves: nothing before the mark, the marked payments after it. -/
theorem confirmed_crashed (divide : Division) (first : Delivery)
    (found : getByTxIndex event.invoiceId (hashText event.txHash) event.txIndex db = some payment)
    (done : markConfirmed payment.id event.confirmedAt (clock 1) db = .ok ((), marked)) (cut : Nat) :
    (cut ≤ 1 → crashed divide first (.paymentConfirmed event) clock cut db = db) ∧
      (1 < cut → (crashed divide first (.paymentConfirmed event) clock cut db).payments =
        marked.payments) := by
  unfold crashed
  constructor
  · intro early
    have stopped : ∀ i, cut ≤ i → Proc.crashAfter cut EventConsumerError.stopped clock i =
        .error .stopped := fun i => Proc.crashAfter_of_le _ _
    rcases Nat.eq_zero_or_pos cut with rfl | positive
    · have stops : query (getByTxIndex event.invoiceId (hashText event.txHash) event.txIndex)
          (Proc.crashAfter 0 .stopped clock) 0 db = ⟨.error .stopped, 1, db⟩ :=
        Proc.read_of_fault (stopped 0 le_rfl) db
      change (handlePaymentConfirmed event _ 0 db).state = db
      rw [handlePaymentConfirmed, Proc.bind_apply, stops, Outcome.andThen_error]
    · rw [confirmed_after_read divide first found (Proc.crashAfter_of_lt _ clock positive)]
      rw [show statement _ (Proc.crashAfter cut _ clock) 1 db = _ from
        Proc.call_of_fault (stopped 1 early) db, Outcome.andThen_error]
  intro late
  rw [confirmed_after_read divide first found (Proc.crashAfter_of_lt _ clock (by omega))]
  rw [show statement _ (Proc.crashAfter cut _ clock) 1 db = _ from
    statement_of_ok _ (Proc.crashAfter_of_lt _ clock late) done, Outcome.andThen_ok]
  exact settleInvoice_payments _ event.invoiceId 2 marked

/-- A confirmation is redelivered safely exactly from a crash before its mark. -/
theorem confirmed_idempotent_iff
    (succeeds : (applied divide first (.paymentConfirmed event) clock db).result = .ok ()) :
    Idempotent divide first second (.paymentConfirmed event) clock clock' cut db ↔
      getByTxIndex event.invoiceId (hashText event.txHash) event.txIndex db = none ∨ cut ≤ 1 := by
  unfold Idempotent
  cases found : getByTxIndex event.invoiceId (hashText event.txHash) event.txIndex db with
  | none =>
    have reads : Proc.Reads (handlePaymentConfirmed event) db (1 + 0) (.ok ()) := by
      refine (query_reads _ db).bind ?_
      rw [found]
      exact Proc.Reads.pure ()
    have untouched : crashed divide first (.paymentConfirmed event) clock cut db = db :=
      reads.state _ 0
    have finishes := reads.uninterrupted clock' 0
    rw [untouched]
    refine iff_of_true ⟨?_, .inr (SameBooks.refl _)⟩ (.inl rfl)
    exact congrArg Outcome.result finishes
  | some payment =>
    obtain ⟨marked, done⟩ : ∃ marked, markConfirmed payment.id event.confirmedAt (clock 1) db =
        .ok ((), marked) := by
      rw [applied, confirmed_after_read divide first found (Proc.uninterrupted_apply clock 0)]
        at succeeds
      cases done : markConfirmed payment.id event.confirmedAt (clock 1) db with
      | ok result => exact ⟨result.2, rfl⟩
      | error error =>
        rw [show statement _ (Proc.uninterrupted clock) 1 db = _ from
          Proc.call_of_refused (Proc.uninterrupted_apply clock 1) (by rw [done]; rfl)] at succeeds
        cases succeeds
    obtain ⟨before, after⟩ := confirmed_crashed divide first found done cut
    constructor
    · rintro ⟨succeedsAgain, _⟩
      refine .inr (Nat.le_of_not_lt fun late => ?_)
      have foundAgain := getByTxIndex_marked found done
      rw [getByTxIndex, ← after late] at foundAgain
      exact confirmed_refuses divide second clock' foundAgain (Option.some_ne_none _) succeedsAgain
    rintro (missing | early)
    · cases missing
    rw [before early]
    refine ⟨?_, .inr (SameBooks.refl _)⟩
    have spec : Proc.Triple (Proc.uninterrupted clock') (· = db) (handlePaymentConfirmed event)
      _ _ := handlePaymentConfirmed_spec event
    obtain ⟨_, succeedsAgain, _⟩ := (spec 0 db rfl).ok_of_not (by
      rintro e (⟨_, fault | ⟨payment', now, error, found', refused⟩⟩ | ⟨_, _, _, fault⟩)
      · exact not_faults_uninterrupted fault
      · rw [found] at found'
        cases found'
        obtain ⟨marked', done'⟩ := markConfirmed_anytime done now
        rw [refused] at done'
        cases done'
      · exact not_faults_uninterrupted fault)
    exact succeedsAgain

end Confirmed

/-! ## Reorganisation detected -/

/-- A reorganisation is redelivered safely exactly when the cut loses no status. -/
theorem reorg_idempotent_iff {event : ReorgDetected} (verifiable : event.survivorsVerifiable = true)
    (succeeds : (applied divide first (.reorgDetected event) clock db).result = .ok ()) :
    Idempotent divide first second (.reorgDetected event) clock clock' cut db ↔
      ¬ LosesStatus db (retractionIds event db) cut 1 (retractionPlan first event db) := by
  have sinks : ∀ group ∈ retractionPlan first event db, Sinks db group :=
    sinks_of_succeeds verifiable succeeds
  have sinks' : ∀ group ∈ retractionPlan second event db, Sinks db group :=
    fun group mem => sinks group (mem_arrange.mpr (mem_arrange.mp mem))
  obtain ⟨_, _, front, cutState, loses⟩ := retraction_cut first clock cut verifiable sinks
  obtain ⟨succeedsAgain, marked, sameMarks, again⟩ :=
    retraction_resumed first second clock' verifiable sinks front cutState
  obtain ⟨_, once⟩ := retraction_whole first clock verifiable sinks
  obtain ⟨_, alone⟩ := retraction_whole second clock' verifiable sinks'
  rw [← loses]
  constructor
  · rintro ⟨_, ⟨_, sameInvoices⟩ | ⟨_, sameInvoices⟩⟩
    · exact (resumed_status_iff first second first front cutState).mp (again.same_status once sameInvoices)
    · exact (resumed_status_iff first second second front cutState).mp (again.same_status alone sameInvoices)
  intro kept
  have sameStatus := (resumed_status_iff first second first front cutState).mpr kept
  have marksOnce : ∀ payment ∈ db.payments.rows, payment.id ∈ marked ↔
      payment.id ∈ (retractionPlan first event db).flatMap groupIds := by
    intro payment mem
    rw [sameMarks payment mem, mem_planIds first]
  obtain ⟨samePayments, sameInvoices⟩ := again.unique once marksOnce sameStatus
  exact ⟨succeedsAgain, .inl ⟨congrArg (List.map erase) samePayments, sameInvoices⟩⟩

/-! ## Any event -/

/--
When a crash before the call `cut` leaves an event that can be delivered again:
always for a detected payment, before the payment is marked for a confirmation,
and outside the gap between the last mark of an invoice and the write of its
status for a reorganisation.
-/
def RedeliverySafe (first : Delivery) (event : MonitorEvent) (cut : Nat) (db : Db) : Prop :=
  match event with
  | .paymentDetected _ => True
  | .paymentConfirmed event =>
    getByTxIndex event.invoiceId (hashText event.txHash) event.txIndex db = none ∨ cut ≤ 1
  | .reorgDetected event => event.survivorsVerifiable = true →
    ¬ LosesStatus db (retractionIds event db) cut 1 (retractionPlan first event db)
  | .notice _ => True

theorem idempotent_iff_redeliverySafe (divide : Division) (first second : Delivery)
    (event : MonitorEvent) (clock clock' : Nat → Time) (cut : Nat) (db : Db)
    (fresh : second.paymentId ∉ db.payments.keys)
    (succeeds : (applied divide first event clock db).result = .ok ()) :
    Idempotent divide first second event clock clock' cut db ↔ RedeliverySafe first event cut db := by
  cases event with
  | paymentDetected event => exact iff_of_true (detected_idempotent fresh succeeds) trivial
  | paymentConfirmed event => exact confirmed_idempotent_iff succeeds
  | reorgDetected event =>
    by_cases verifiable : event.survivorsVerifiable = true
    · rw [reorg_idempotent_iff verifiable succeeds]
      simp [RedeliverySafe, verifiable]
    have skips : handleReorgDetected first event = pure () ∧
        handleReorgDetected second event = pure () := by
      simp [handleReorgDetected, verifiable]
    refine iff_of_true ?_ fun isVerifiable => absurd isVerifiable verifiable
    simp only [Idempotent, applied, crashed, handleEvent, skips.1, skips.2]
    exact ⟨rfl, .inl (SameBooks.refl db)⟩
  | notice _ => exact iff_of_true ⟨rfl, .inl (SameBooks.refl db)⟩ trivial

/-! ## A confirmation cut after its mark -/

/-- An invoice over one coin, quoted in the native coin of chain 1. -/
def sampleInvoice : InvoiceData := ⟨1, 1, 1, 100⟩

def sampleOption : PaymentOptionData where
  id := 1
  invoiceId := 1
  paymentMethodId := ("ETH", .evm 1)
  chainId := .evm 1
  tokenAddress := none
  decimals := 18
  paymentAddress := addressText 5
  rate := none
  createdAt := 0

def sampleDb : Db :=
  (createInvoiceWithOptions sampleInvoice [sampleOption] Db.empty).toOption.getD Db.empty

theorem sampleDb_created : createInvoiceWithOptions sampleInvoice [sampleOption] Db.empty = .ok sampleDb := by
  have accepted : (createInvoiceWithOptions sampleInvoice [sampleOption] Db.empty).toOption.isSome = true := by
    decide +kernel
  rw [sampleDb]
  cases made : createInvoiceWithOptions sampleInvoice [sampleOption] Db.empty with
  | ok db => rfl
  | error e =>
    rw [made] at accepted
    cases accepted

/-- The native payment of `amount` base units in transaction `txHash`. -/
def sampleDetected (txHash : B256) (amount : U256) : PaymentDetected where
  chainId := 1
  invoiceId := 1
  paymentAddress := 5
  amount := amount
  txHash := txHash
  blockNumber := 10
  blockHash := 8
  logIndex := none
  isNative := true
  tokenAddress := none
  fromAddress := 6
  confirmations := 1
  requiredConfirmations := 12
  detectedAt := 0

def sampleConfirmed (txHash : B256) (amount : U256) : PaymentConfirmed where
  txIndex := -1
  chainId := 1
  invoiceId := 1
  paymentAddress := 5
  amount := amount
  txHash := txHash
  blockNumber := 10
  confirmations := 12
  confirmedAt := 0

def sampleDelivery (paymentId : Uuid) : Delivery := ⟨paymentId, 0, id⟩

/-- The database once the invoice's payment is detected. -/
def samplePaid : Db :=
  (applied (· / ·) (sampleDelivery 1) (.paymentDetected (sampleDetected 7 (10 ^ 18))) (fun _ => 0)
    sampleDb).state

theorem samplePaid_found : getByTxIndex 1 (hashText 7) (-1) samplePaid ≠ none := by decide +kernel

theorem samplePaid_confirms : (applied (· / ·) (sampleDelivery 2)
    (.paymentConfirmed (sampleConfirmed 7 (10 ^ 18))) (fun _ => 0) samplePaid).result = .ok () := by
  decide +kernel

/-- Before the mark the confirmation can be cut and delivered again. -/
theorem idempotent_before_mark : Idempotent (· / ·) (sampleDelivery 2) (sampleDelivery 3)
    (.paymentConfirmed (sampleConfirmed 7 (10 ^ 18))) (fun _ => 0) (fun _ => 0) 1 samplePaid :=
  (idempotent_iff_redeliverySafe (· / ·) (sampleDelivery 2) (sampleDelivery 3) _ _ _ 1 samplePaid
    (by decide +kernel) samplePaid_confirms).mpr (.inr le_rfl)

/-- After the mark it cannot: the second delivery finds the payment confirmed and fails. -/
theorem not_idempotent_after_mark :
    (applied (· / ·) (sampleDelivery 2) (.paymentConfirmed (sampleConfirmed 7 (10 ^ 18)))
      (fun _ => 0) samplePaid).result = .ok () ∧
    ¬ Idempotent (· / ·) (sampleDelivery 2) (sampleDelivery 3)
      (.paymentConfirmed (sampleConfirmed 7 (10 ^ 18))) (fun _ => 0) (fun _ => 0) 2 samplePaid := by
  refine ⟨samplePaid_confirms, ?_⟩
  rw [confirmed_idempotent_iff samplePaid_confirms]
  rintro (missing | early)
  · exact samplePaid_found missing
  · omega

end EthPayServer.Consumer
