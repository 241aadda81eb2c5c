import EthPayServer.Pipeline.Server
import EthPayServer.Consumer.Redelivery

/-!
# Payments that are mined again

A reorganisation retracts a payment; when its transaction is mined again the
monitor announces it again.  The upsert of the announcement does not touch the
`reorged` column, the trigger sums only rows that are not reorged, and a
confirmation looks only for such a row, so the payment never counts again.
-/

namespace EthPayServer.Pipeline

open Lib Data Consumer
open Evm (Time Uuid B256 U256 MonitorEvent PaymentDetected PaymentConfirmed ReorgDetected hashText)

structure Names (confirmed : PaymentConfirmed) (row : Payment) : Prop where
  invoiceId : confirmed.invoiceId = row.invoiceId
  key : (.evm confirmed.chainId, hashText confirmed.txHash, confirmed.txIndex) = row.txKey

/--
The row of an announced transfer counts: it is not reorged, its credit is part
of the invoice's received amount, and a confirmation marks it.
-/
def CountsAgain (divide : Division) (event : PaymentDetected) (db : Db) : Prop :=
  ∃ row ∈ db.payments.rows, some row.txKey = transferKey event ∧ row.reorged = false ∧
    (∃ invoice, getInvoice row.invoiceId db = some invoice ∧
      invoice.amountReceived.units = creditedTotal db.payments.rows row.invoiceId ∧
      row.creditTo row.invoiceId = (row.creditedAmount.map Numeric.units).getD 0) ∧
    ∀ confirmed, Names confirmed row → ∀ delivery clock,
      ∃ marked ∈ (applied divide delivery (.paymentConfirmed confirmed) clock db).state.payments.rows,
        marked.id = row.id ∧ marked.confirmedAt ≠ none

def Retired (key : ChainId × Text × Int) (db : Db) : Prop :=
  ∃ row ∈ db.payments.rows, row.txKey = key ∧ row.reorged = true ∧ row.confirmedAt = none

variable {db db' : Db}

theorem Retired.of_retract {payment : Payment} (mem : payment.retract ∈ db.payments.rows) :
    Retired payment.txKey db :=
  ⟨payment.retract, mem, rfl, rfl, rfl⟩

/-- A change of another row leaves a retired one as it was. -/
theorem mem_changeRow_of_ne {id : Uuid} {change : Payment → Payment} {rows : List Payment}
    {row : Payment} (mem : row ∈ rows) (other : row.id ≠ id) : row ∈ changeRow id change rows :=
  List.mem_map.mpr ⟨row, mem, if_neg other⟩

theorem ne_of_live {row payment : Payment} (mem : row ∈ db.payments.rows)
    (memPayment : payment ∈ db.payments.rows) (reorged : row.reorged = true) (live : payment.reorged = false) :
    row.id ≠ payment.id := by
  intro same
  rw [db.payments.eq_of_key mem memPayment same, live] at reorged
  cases reorged

variable {divide : Division} {key : ChainId × Text × Int}

/-- No write of the event consumer revives a retired transfer. -/
theorem Retired.write {event : MonitorEvent} (write : Write divide event db db') (retired : Retired key db) :
    Retired key db' := by
  obtain ⟨row, mem, isKey, reorged, unconfirmed⟩ := retired
  rcases write.kinds with ⟨_, _, _, recorded⟩ | ⟨_, changed, memChanged, _, changes, recorded⟩ |
    ⟨_, _, written, _⟩ | same
  · rw [Retired, recorded.payments]
    exact ⟨row, List.mem_append_left _ mem, isKey, reorged, unconfirmed⟩
  · rw [Retired, recorded.payments]
    cases changes with
    | absorbs proposed describes =>
      by_cases here : row.id = changed.id
      · -- the announcement of this transfer: its row keeps the flag, and none is confirmed by it
        obtain rfl := db.payments.eq_of_key mem memChanged here
        obtain ⟨_, _, _, _, _, isDescribed, isRow⟩ := describes
        have notConfirmed : proposed.confirmedAt = none :=
          (PaymentData.toRow_ok isRow).confirmedAt.trans (confirmedAt_of_described isDescribed)
        refine ⟨row.absorb proposed, List.mem_map.mpr ⟨row, mem, if_pos rfl⟩, isKey, reorged, ?_⟩
        simp [Payment.absorb, notConfirmed, unconfirmed]
      · exact ⟨row, mem_changeRow_of_ne mem here, isKey, reorged, unconfirmed⟩
    | confirms _ _ live | retracts _ _ live =>
      exact ⟨row, mem_changeRow_of_ne mem (ne_of_live mem memChanged reorged live), isKey, reorged, unconfirmed⟩
  · rw [Retired, written.payments]
    exact ⟨row, mem, isKey, reorged, unconfirmed⟩
  · rw [Retired, same.payments]
    exact ⟨row, mem, isKey, reorged, unconfirmed⟩

theorem Retired.admin (write : AdminWrite db db') (retired : Retired key db) : Retired key db' := by
  rw [Retired, write.samePayments]
  exact retired

theorem Retired.run (run : (server divide).Run db db') (retired : Retired key db) : Retired key db' :=
  run.preserves (fun step => server_step_preserves Retired.write Retired.admin step) retired

theorem mem_of_confirmation {row : Payment} (reorged : row.reorged = true) (delivery : Delivery)
    (confirmed : PaymentConfirmed) (world : World EventConsumerError Time) (mem : row ∈ db.payments.rows) :
    row ∈ (handleEvent divide delivery (.paymentConfirmed confirmed) world 0 db).state.payments.rows := by
  have writes : Proc.Writes (Write divide (.paymentConfirmed confirmed)) _ :=
    handleEvent_writes delivery (.paymentConfirmed confirmed)
  refine writes.preserves (I := fun db => row ∈ db.payments.rows) ?_ world 0 mem
  intro db db' write mem
  cases write with
  | marked isMarked =>
    obtain ⟨payment, now, found, done⟩ := isMarked
    obtain ⟨memPayment, _, _, _, live⟩ := getByTxIndex_some found
    obtain ⟨_, _, _, _, recorded⟩ := markConfirmed_ok done
    rw [recorded.payments]
    exact mem_changeRow_of_ne mem (ne_of_live mem memPayment reorged live)
  | settled status decided written =>
    rw [written.payments]
    exact mem
  | noted same =>
    rw [same.payments]
    exact mem

/-- The row of a retired transfer adds nothing to its invoice, and no confirmation marks it. -/
theorem Retired.row (retired : Retired key db) :
    ∃ row ∈ db.payments.rows, row.txKey = key ∧ row.reorged = true ∧ row.creditTo row.invoiceId = 0 ∧
      row.confirmedAt = none ∧ ∀ delivery confirmed world, row ∈ ((ServerAction.apply delivery
        (.paymentConfirmed confirmed) world).perform divide db).payments.rows := by
  obtain ⟨row, mem, isKey, reorged, unconfirmed⟩ := retired
  refine ⟨row, mem, isKey, reorged, ?_, unconfirmed, ?_⟩
  · simp [Payment.creditTo, reorged]
  · intro delivery confirmed world
    exact mem_of_confirmation reorged delivery confirmed world mem

theorem Retired.not_countsAgain {event : PaymentDetected} (retired : Retired key db)
    (announced : transferKey event = some key) : ¬ CountsAgain divide event db := by
  obtain ⟨row, mem, isKey, reorged, _⟩ := retired
  rintro ⟨other, memOther, sameKey, live, _⟩
  rw [announced, ← isKey, Option.some.injEq] at sameKey
  rw [Db.eq_of_txKey memOther mem sameKey, reorged] at live
  cases live

/--
A payment that a reorganisation retracted does not count again, whatever the
server does in between: the announcement of its transfer leaves the row
reorged, without a share in the received amount, and out of reach of every
confirmation.
-/
theorem remined_never_counts (divide : Division) {before later : Db} {payment : Payment}
    {reorg : ReorgDetected} {delivery : Delivery} {world : World EventConsumerError Time}
    (retracted : payment.retract ∈ ((ServerAction.apply delivery (.reorgDetected reorg) world).perform
      divide before).payments.rows)
    (run : (server divide).Run ((ServerAction.apply delivery (.reorgDetected reorg) world).perform
      divide before) later)
    {event : PaymentDetected} (announced : transferKey event = some payment.txKey)
    (delivery' : Delivery) (world' : World EventConsumerError Time) :
    let after := (ServerAction.apply delivery' (.paymentDetected event) world').perform divide later
    ¬ CountsAgain divide event after ∧
      ∃ row ∈ after.payments.rows, row.txKey = payment.txKey ∧ row.reorged = true ∧
        row.creditTo row.invoiceId = 0 ∧ row.confirmedAt = none ∧
        ∀ delivery confirmed world, row ∈ ((ServerAction.apply delivery (.paymentConfirmed confirmed)
          world).perform divide after).payments.rows := by
  intro after
  have retired : Retired payment.txKey after := by
    have later := (Retired.of_retract retracted).run run
    have writes : Proc.Writes (Write divide (.paymentDetected event)) _ :=
      handleEvent_writes delivery' (.paymentDetected event)
    exact writes.preserves Retired.write world' 0 later
  exact ⟨retired.not_countsAgain announced, retired.row⟩

/-! ## A payment retracted and mined again -/

def sampleReorg : ReorgDetected where
  chainId := 1
  forkBlock := 10
  oldHash := 8
  newHash := 9
  depth := 1
  affectedInvoices := [1]
  survivedTxHashes := []
  survivorsVerifiable := true
  detectedAt := 0

/-- The reorganisation retracts the payment of the paid invoice. -/
def sampleRetraction : ServerAction :=
  .apply (sampleDelivery 2) (.reorgDetected sampleReorg) (Proc.uninterrupted fun _ => 0)

theorem sample_retracts : ∃ payment ∈ samplePaid.payments.rows, payment.reorged = false ∧
    payment.retract ∈ (sampleRetraction.perform (· / ·) samplePaid).payments.rows ∧
    transferKey (sampleDetected 7 (10 ^ 18)) = some payment.txKey := by
  decide +kernel

theorem remined_sample_never_counts : ¬ CountsAgain (· / ·) (sampleDetected 7 (10 ^ 18))
    ((ServerAction.apply (sampleDelivery 3) (.paymentDetected (sampleDetected 7 (10 ^ 18)))
      (Proc.uninterrupted fun _ => 0)).perform (· / ·)
        (sampleRetraction.perform (· / ·) samplePaid)) := by
  obtain ⟨payment, _, _, retracted, announced⟩ := sample_retracts
  exact (remined_never_counts (· / ·) retracted (System.Run.refl _) announced (sampleDelivery 3)
    (Proc.uninterrupted fun _ => 0)).1

/-- The announcement is applied without an error, and the payment does not count. -/
theorem remined_sample_applies :
    (applied (· / ·) (sampleDelivery 3) (.paymentDetected (sampleDetected 7 (10 ^ 18))) (fun _ => 0)
      (sampleRetraction.perform (· / ·) samplePaid)).result = .ok () ∧
    ¬ CountsAgain (· / ·) (sampleDetected 7 (10 ^ 18))
      (applied (· / ·) (sampleDelivery 3) (.paymentDetected (sampleDetected 7 (10 ^ 18))) (fun _ => 0)
        (sampleRetraction.perform (· / ·) samplePaid)).state := by
  obtain ⟨payment, _, _, retracted, announced⟩ := sample_retracts
  refine ⟨by decide +kernel, ?_⟩
  have writes : Proc.Writes (Write (· / ·) (.paymentDetected (sampleDetected 7 (10 ^ 18)))) _ :=
    handleEvent_writes (sampleDelivery 3) (.paymentDetected (sampleDetected 7 (10 ^ 18)))
  exact (writes.preserves Retired.write (Proc.uninterrupted fun _ => 0) 0
    (Retired.of_retract retracted)).not_countsAgain announced

end EthPayServer.Pipeline
