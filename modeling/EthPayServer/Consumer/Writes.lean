import EthPayServer.Consumer.Effects

/-!
# The writes of the event consumer

However an application of an event ends, with an error of the database or a
crash in the middle included, the database it leaves is reached by writes of six
kinds.  What each of them preserves, every application preserves.
-/

namespace EthPayServer.Consumer

open Lib Data
open Evm (Time Uuid MonitorEvent PaymentDetected PaymentConfirmed ReorgDetected hashText)

/-- The write of one statement of a handler. -/
inductive Write (divide : Division) : MonitorEvent → Db → Db → Prop
  /-- the upsert of a detected payment -/
  | filed {event : PaymentDetected} {db db' : Db} (delivery : Delivery) (now : Time)
      (payment : PaymentData) (txIndex : Int) (row : Payment)
      (isDescribed : described divide delivery event db = .ok (payment, txIndex))
      (isRow : payment.toRow txIndex = .ok row) (upserted : Upserted now row db db') :
      Write divide (.paymentDetected event) db db'
  /-- the mark of a confirmed payment -/
  | marked {event : PaymentConfirmed} {db db' : Db} (isMarked : Marked event db db') :
      Write divide (.paymentConfirmed event) db db'
  /-- the status of an invoice that is settled -/
  | settled {event : PaymentConfirmed} {db db' : Db} (status : InvoiceStatus)
      (decided : settlement event.invoiceId db = some status)
      (written : StatusWritten event.invoiceId status db db') :
      Write divide (.paymentConfirmed event) db db'
  /-- the retraction of a live payment -/
  | retracted {event : ReorgDetected} {db db' : Db} (payment : Payment) (now : Time)
      (mem : payment ∈ db.payments.rows) (live : payment.reorged = false)
      (recorded : Recorded now payment.retract
        (changeRow payment.id Payment.retract db.payments.rows) db db') :
      Write divide (.reorgDetected event) db db'
  /-- the status of an invoice that is walked back -/
  | reopened {event : ReorgDetected} {db db' : Db} (invoiceId : Uuid) (status : InvoiceStatus)
      (isStatus : status = .processing ∨ status = .pending)
      (written : StatusWritten invoiceId status db db') : Write divide (.reorgDetected event) db db'
  /-- a write to none of the tables that hold money -/
  | noted {event : MonitorEvent} {db db' : Db} (same : SameMoney db db') : Write divide event db db'

variable {divide : Division}

variable {event : MonitorEvent}

def Describes (divide : Division) (event : MonitorEvent) (db : Db) (row : Payment) : Prop :=
  ∃ detected delivery payment txIndex, event = .paymentDetected detected ∧
    described divide delivery detected db = .ok (payment, txIndex) ∧ payment.toRow txIndex = .ok row

/-- How a write changes the row of a payment. -/
inductive Changes (divide : Division) (event : MonitorEvent) (db : Db) (row : Payment) : (Payment → Payment) → Prop
  | absorbs (proposed : Payment) (describes : Describes divide event db proposed)
      (sameKey : row.txKey = proposed.txKey) : Changes divide event db row (·.absorb proposed)
  | confirms (confirmed : PaymentConfirmed) (isEvent : event = .paymentConfirmed confirmed)
      (live : row.reorged = false) : Changes divide event db row (Payment.confirm confirmed.confirmedAt)
  | retracts (report : ReorgDetected) (isEvent : event = .reorgDetected report) (live : row.reorged = false) :
      Changes divide event db row Payment.retract

/-- Every write adds a described row, changes a row, writes a status or leaves the money alone. -/
theorem Write.kinds (write : Write divide event db db') :
    (∃ now row, Describes divide event db row ∧ Recorded now row (db.payments.rows ++ [row]) db db') ∨
    (∃ now, ∃ row ∈ db.payments.rows, ∃ change, Changes divide event db row change ∧
      Recorded now (change row) (changeRow row.id change db.payments.rows) db db') ∨
    (∃ id status, StatusWritten id status db db' ∧
      ((∃ confirmed, event = .paymentConfirmed confirmed ∧ settlement id db = some status) ∨
        (∃ report, event = .reorgDetected report) ∧ (status = .processing ∨ status = .pending))) ∨
    SameMoney db db' := by
  cases write with
  | filed delivery now payment txIndex row isDescribed isRow upserted =>
    have describes : Describes divide _ db row := ⟨_, delivery, payment, txIndex, rfl, isDescribed, isRow⟩
    cases upserted with
    | updated existing mem sameKey recorded =>
      exact .inr (.inl ⟨now, existing, mem, _, .absorbs row describes sameKey, recorded⟩)
    | inserted freshKey freshId recorded => exact .inl ⟨now, row, describes, recorded⟩
  | @marked confirmed _ _ isMarked =>
    obtain ⟨payment, now, found, done⟩ := isMarked
    obtain ⟨row, mem, isId, _, recorded⟩ := markConfirmed_ok done
    obtain ⟨memPayment, _, _, _, live⟩ := getByTxIndex_some found
    obtain rfl := db.payments.eq_of_key mem memPayment isId
    exact .inr (.inl ⟨now, row, mem, _, .confirms confirmed rfl live, recorded⟩)
  | settled status decided written => exact .inr (.inr (.inl ⟨_, status, written, .inl ⟨_, rfl, decided⟩⟩))
  | retracted payment now mem live recorded =>
    exact .inr (.inl ⟨now, payment, mem, _, .retracts _ rfl live, recorded⟩)
  | reopened invoiceId status isStatus written =>
    exact .inr (.inr (.inl ⟨invoiceId, status, written, .inr ⟨⟨_, rfl⟩, isStatus⟩⟩))
  | noted same => exact .inr (.inr (.inr same))

/-- No write of a handler touches what is quoted and watched. -/
theorem Write.sameCatalog (write : Write divide event db db') : SameCatalog db db' := by
  rcases write.kinds with ⟨_, _, _, recorded⟩ | ⟨_, _, _, _, _, recorded⟩ | ⟨_, _, written, _⟩ | same
  · exact recorded.catalog
  · exact recorded.catalog
  · exact written.catalog
  · exact same.catalog

/-- A row after a write that did not insert it: it stands for the same transfer, and stays reorged. -/
structure SameTransfer (row row' : Payment) : Prop where
  identity : row'.identity = row.identity
  assetType : row'.assetType = row.assetType
  tokenAddress : row'.tokenAddress = row.tokenAddress
  amount : row'.amount = row.amount
  reorged : row.reorged = true → row'.reorged = true

theorem SameTransfer.refl (row : Payment) : SameTransfer row row := ⟨rfl, rfl, rfl, rfl, id⟩

variable {row row' : Payment}

theorem SameTransfer.trans {row'' : Payment} (first : SameTransfer row row')
    (second : SameTransfer row' row'') : SameTransfer row row'' where
  identity := second.identity.trans first.identity
  assetType := second.assetType.trans first.assetType
  tokenAddress := second.tokenAddress.trans first.tokenAddress
  amount := second.amount.trans first.amount
  reorged := fun reorged => second.reorged (first.reorged reorged)

variable {change : Payment → Payment} (delivery : Delivery)

theorem Changes.sameTransfer (changes : Changes divide event db row change) (row : Payment) :
    SameTransfer row (change row) := by
  cases changes with
  | absorbs | confirms => exact ⟨rfl, rfl, rfl, rfl, id⟩
  | retracts => exact ⟨rfl, rfl, rfl, rfl, fun _ => rfl⟩

theorem Changes.identity (changes : Changes divide event db row change) (row : Payment) :
    (change row).identity = row.identity := by
  cases changes <;> rfl

theorem Changes.sameTransfer_if (changes : Changes divide event db row change) (other : Payment) (id : Uuid) :
    SameTransfer other (if other.id = id then change other else other) := by
  split
  · exact changes.sameTransfer other
  · exact SameTransfer.refl other

theorem Write.rows (write : Write divide event db db') (mem : row' ∈ db'.payments.rows) :
    (∃ row ∈ db.payments.rows, SameTransfer row row') ∨ Describes divide event db row' := by
  rcases write.kinds with ⟨now, row, describes, recorded⟩ | ⟨now, row, _, change, changes, recorded⟩ |
    ⟨id, status, written, _⟩ | same
  · rw [recorded.payments] at mem
    rcases List.mem_append.mp mem with old | new
    · exact .inl ⟨row', old, SameTransfer.refl row'⟩
    · rw [List.mem_singleton.mp new]
      exact .inr describes
  · rw [recorded.payments] at mem
    obtain ⟨old, memOld, rfl⟩ := List.mem_map.mp mem
    exact .inl ⟨old, memOld, changes.sameTransfer_if old row.id⟩
  · rw [written.payments] at mem
    exact .inl ⟨row', mem, SameTransfer.refl row'⟩
  · rw [same.payments] at mem
    exact .inl ⟨row', mem, SameTransfer.refl row'⟩

theorem Write.keeps (write : Write divide event db db') (mem : row ∈ db.payments.rows) :
    ∃ row' ∈ db'.payments.rows, SameTransfer row row' := by
  rcases write.kinds with ⟨now, new, _, recorded⟩ | ⟨now, changed, _, change, changes, recorded⟩ |
    ⟨id, status, written, _⟩ | same
  · rw [recorded.payments]
    exact ⟨row, List.mem_append_left _ mem, SameTransfer.refl row⟩
  · rw [recorded.payments]
    exact ⟨_, List.mem_map_of_mem mem, changes.sameTransfer_if row changed.id⟩
  · rw [written.payments]
    exact ⟨row, mem, SameTransfer.refl row⟩
  · rw [same.payments]
    exact ⟨row, mem, SameTransfer.refl row⟩

theorem handlePaymentDetected_writes (event : PaymentDetected) :
    Proc.Writes (Write divide (.paymentDetected event)) (handlePaymentDetected divide delivery event) := by
  intro world i db
  rcases (handlePaymentDetected_spec divide delivery event).ends world i db with
    ⟨_, _, now, payment, txIndex, _, isDescribed, done⟩ | ⟨_, _, same, _⟩
  · obtain ⟨row, isRow, upserted⟩ := upsertWithTxIndexAndObligation_ok done
    exact Relation.ReflTransGen.single
      (.filed delivery now payment txIndex row isDescribed isRow upserted)
  · rw [same]

theorem handlePaymentConfirmed_writes (event : PaymentConfirmed) :
    Proc.Writes (Write divide (.paymentConfirmed event)) (handlePaymentConfirmed event) := by
  intro world i db
  have marks : ∀ {marked}, Marked event db marked →
      Relation.ReflTransGen (Write divide (.paymentConfirmed event)) db marked :=
    fun isMarked => .single (.marked isMarked)
  rcases (handlePaymentConfirmed_spec event).ends world i db with
    ⟨_, _, ⟨_, same⟩ | ⟨marked, isMarked, settles⟩⟩ | ⟨_, _, ⟨same, _⟩ | ⟨marked, isMarked, same, _⟩⟩
  · rw [same]
  · unfold Settled at settles
    split at settles
    · exact (marks isMarked).tail (.noted settles)
    next status decided => exact (marks isMarked).tail (.settled status decided settles)
  · rw [same]
  · exact (marks isMarked).tail (.noted same)

theorem markPaymentReorged_writes (event : ReorgDetected) (id : Uuid) :
    Proc.Writes (Write divide (.reorgDetected event)) (statement (markPaymentReorged id)) := by
  refine Proc.Writes.call fun now db _ db' done => ?_
  rcases markPaymentReorged_ok (mapError_eq_ok done) with ⟨same, _⟩ | ⟨row, mem, same, live, recorded⟩
  · rw [same]
  · rw [← same] at recorded
    exact Relation.ReflTransGen.single (.retracted row now mem live recorded)

theorem retractGroup_writes (event : ReorgDetected) (group : Uuid × List Payment) :
    Proc.Writes (Write divide (.reorgDetected event)) (retractGroup group) := by
  unfold retractGroup applyReorgStatus
  refine Proc.Writes.bind (Proc.Writes.forM fun payment _ => markPaymentReorged_writes event payment.id)
    fun _ => Proc.Writes.bind (Proc.Writes.read _) fun hasValid => ?_
  refine Proc.Writes.bind (Proc.Writes.read _) fun found => ?_
  cases found with
  | none => exact Proc.Writes.fail _
  | some current =>
    by_cases closed : isClosed current.status = true
    · simp only [closed, if_true]
      exact Proc.Writes.pure _
    simp only [closed, Bool.false_eq_true, if_false]
    refine Proc.Writes.call fun now db _ db' done => ?_
    refine Relation.ReflTransGen.single (.reopened group.1 _ ?_ (updateStatus_ok (mapError_eq_ok done)))
    cases hasValid
    · exact .inr rfl
    · exact .inl rfl

theorem handleReorgDetected_writes (event : ReorgDetected) :
    Proc.Writes (Write divide (.reorgDetected event)) (handleReorgDetected delivery event) := by
  unfold handleReorgDetected
  split
  · exact Proc.Writes.bind (Proc.Writes.read _) fun candidates =>
      Proc.Writes.forM fun group _ => retractGroup_writes event group
  · exact Proc.Writes.pure _

/-- Every state an application leaves is reached by its writes. -/
theorem handleEvent_writes (event : MonitorEvent) :
    Proc.Writes (Write divide event) (handleEvent divide delivery event) := by
  cases event with
  | paymentDetected event => exact handlePaymentDetected_writes delivery event
  | paymentConfirmed event => exact handlePaymentConfirmed_writes event
  | reorgDetected event => exact handleReorgDetected_writes delivery event
  | notice _ => exact Proc.Writes.pure _

end EthPayServer.Consumer
