import EthPayServer.Consumer.Resumption
import EthPayServer.Consumer.Writes

/-!
# Live payments behind a status

An invoice that shows a payment under way has a live payment on record.  A
retraction breaks this between its last mark and the write of the status, and
restores it unless it is cut there.
-/

namespace EthPayServer.Consumer

open Lib Data
open Evm (Time Uuid MonitorEvent PaymentDetected PaymentConfirmed ReorgDetected)

/-- The statuses that show a payment under way. -/
def IsUnderWay (status : InvoiceStatus) : Prop := status = .processing ∨ status = .partiallyPaid

instance (status : InvoiceStatus) : Decidable (IsUnderWay status) := by
  unfold IsUnderWay
  infer_instance

def HasLive (db : Db) (invoiceId : Uuid) : Prop :=
  ∃ row ∈ db.payments.rows, row.invoiceId = invoiceId ∧ row.reorged = false

def Backed (db : Db) : Prop :=
  ∀ invoice ∈ db.invoices.rows, IsUnderWay invoice.status → HasLive db invoice.id

variable {invoiceId id : Uuid}

theorem HasLive.of_same {db db' : Db} (live : HasLive db invoiceId) (same : db'.payments = db.payments) :
    HasLive db' invoiceId := by
  rw [HasLive, same]
  exact live

/-! ## Statements one by one -/

namespace Backed

variable {db db' : Db}

/-- A status that shows no payment under way needs none. -/
theorem statusWritten {status : InvoiceStatus} (backed : Backed db)
    (settles : IsUnderWay status → HasLive db id) (written : StatusWritten id status db db') : Backed db' := by
  intro invoice mem underWay
  rw [written.invoices] at mem
  obtain ⟨old, memOld, rfl⟩ := List.mem_map.mp mem
  rw [Invoice.id_withStatus]
  unfold Invoice.withStatus at underWay
  split at underWay
  next here =>
    rw [here]
    exact (settles underWay).of_same written.payments
  · exact (backed old memOld underWay).of_same written.payments

/-- The trigger moves an invoice to processing only for a live row of it. -/
theorem recorded {now : Time} {row : Payment} {rows : List Payment} (backed : Backed db)
    (recorded : Recorded now row rows db db') (mem : row ∈ rows)
    (keeps : ∀ invoiceId, HasLive db invoiceId → HasLive db' invoiceId) : Backed db' := by
  intro invoice memInvoice underWay
  obtain ⟨total, _, isInvoices⟩ := recorded.invoices
  rw [isInvoices] at memInvoice
  obtain ⟨old, memOld, rfl⟩ := List.mem_map.mp memInvoice
  rw [Invoice.id_onPayment]
  unfold Invoice.onPayment at underWay
  split at underWay
  next here =>
    dsimp only at underWay
    split at underWay
    next moved => exact ⟨row, by rwa [recorded.payments], here.symm, moved.2.1⟩
    · exact keeps _ (backed old memOld underWay)
  · exact keeps _ (backed old memOld underWay)

end Backed

/-- A change that keeps a row's invoice and does not retract it keeps every invoice's live payments. -/
theorem hasLive_of_changeRow {change : Payment → Payment} {db db' : Db}
    (isRows : db'.payments.rows = changeRow id change db.payments.rows)
    (same : ∀ row, (change row).invoiceId = row.invoiceId ∧ (change row).reorged = row.reorged)
    (invoiceId : Uuid) (live : HasLive db invoiceId) : HasLive db' invoiceId := by
  obtain ⟨row, mem, ofInvoice, isLive⟩ := live
  rw [HasLive, isRows]
  refine ⟨_, List.mem_map_of_mem mem, ?_⟩
  split
  · rw [(same row).1, (same row).2]
    exact ⟨ofInvoice, isLive⟩
  · exact ⟨ofInvoice, isLive⟩

/-- A settlement writes paid or late paid. -/
theorem not_underWay_of_settlement {status : InvoiceStatus} {db : Db}
    (decided : settlement invoiceId db = some status) : ¬ IsUnderWay status := by
  obtain ⟨_, _, _, _, _, _, settles⟩ := settlement_some decided
  rcases settledStatus_some settles with ⟨_, rfl⟩ | ⟨_, rfl⟩
  · decide
  · decide

variable {divide : Division}

/-- The writes of the other two handlers keep what is behind every status. -/
theorem Backed.write {event : MonitorEvent} {db db' : Db} (backed : Backed db)
    (notReorg : ∀ report, event ≠ .reorgDetected report) (write : Write divide event db db') : Backed db' := by
  rcases write.kinds with ⟨_, row, _, recorded⟩ | ⟨_, row, mem, _, changes, recorded⟩ |
    ⟨_, _, written, ⟨_, _, decided⟩ | ⟨⟨report, isReorg⟩, _⟩⟩ | same
  · refine backed.recorded recorded (List.mem_append_right _ (List.mem_singleton_self row)) ?_
    rintro invoiceId ⟨old, mem, facts⟩
    refine ⟨old, ?_, facts⟩
    rw [recorded.payments]
    exact List.mem_append_left _ mem
  · refine backed.recorded recorded (List.mem_map.mpr ⟨row, mem, if_pos rfl⟩) ?_
    cases changes with
    | absorbs | confirms => exact hasLive_of_changeRow recorded.payments fun _ => ⟨rfl, rfl⟩
    | retracts report isReorg => exact absurd isReorg (notReorg report)
  · exact backed.statusWritten (fun underWay =>
      absurd underWay (not_underWay_of_settlement decided)) written
  · exact absurd isReorg (notReorg report)
  · intro invoice mem underWay
    rw [same.invoices] at mem
    exact (backed invoice mem underWay).of_same same.payments

/-! ## A retraction, however it ends -/

/--
Behind every retracted payment its invoice's status was written, need not be, or
still has another live payment.
-/
structure Accounted (base : Db) (goal marked written : List Uuid) : Prop where
  inGoal : marked ⊆ goal
  invoice : ∀ payment ∈ base.payments.rows, payment.id ∈ marked →
    payment.invoiceId ∈ written ∨ ¬ MovesBack base goal payment.invoiceId ∨
      ∃ other ∈ base.payments.rows, other.invoiceId = payment.invoiceId ∧
        other.reorged = false ∧ other.id ∉ marked

section Accounted

variable {base db : Db} {goal marked written : List Uuid}

theorem live_of_statusAfter (state : Retracting base goal marked written db) (inGoal : marked ⊆ goal)
    (underWay : IsUnderWay (statusAfter base goal invoiceId)) : HasLive db invoiceId := by
  unfold statusAfter at underWay
  split at underWay
  next remains =>
    obtain ⟨payment, mem, facts⟩ := List.any_eq_true.mp remains
    obtain ⟨ofInvoice, live, outside⟩ := of_decide_eq_true facts
    exact ⟨payment, state.mem_of_unmarked mem fun isMarked => outside (inGoal isMarked), ofInvoice, live⟩
  · exact absurd underWay (by decide)

/-- What a retraction accounted for keeps a live payment behind every status. -/
theorem Accounted.backed (accounted : Accounted base goal marked written)
    (state : Retracting base goal marked written db) (backed : Backed base) : Backed db := by
  intro invoice mem underWay
  obtain ⟨received, isInvoices, _⟩ := state.invoices
  rw [isInvoices] at mem
  obtain ⟨old, memOld, rfl⟩ := List.mem_map.mp mem
  change HasLive db old.id
  change IsUnderWay (if old.id ∈ written then statusAfter base goal old.id else old.status) at underWay
  by_cases isWritten : old.id ∈ written
  · rw [if_pos isWritten] at underWay
    exact live_of_statusAfter state accounted.inGoal underWay
  rw [if_neg isWritten] at underWay
  obtain ⟨payment, memPayment, ofInvoice, live⟩ := backed old memOld underWay
  by_cases isMarked : payment.id ∈ marked
  · rcases accounted.invoice payment memPayment isMarked with inWritten | stays | remains
    · rw [ofInvoice] at inWritten
      exact absurd inWritten isWritten
    · -- the status the retraction would write is the status the invoice has
      have sameStatus : old.status = statusAfter base goal old.id := by
        by_contra differs
        refine stays ⟨old, ?_, ?_, by rwa [ofInvoice]⟩
        · rw [ofInvoice]
          exact Table.find?_of_mem memOld
        rcases underWay with isStatus | isStatus
        · rw [isStatus]
          rfl
        · rw [isStatus]
          rfl
      rw [sameStatus] at underWay
      exact live_of_statusAfter state accounted.inGoal underWay
    · obtain ⟨other, memOther, sameInvoice, isLive, unmarked⟩ := remains
      exact ⟨other, state.mem_of_unmarked memOther unmarked, sameInvoice.trans ofInvoice, isLive⟩
  · exact ⟨payment, state.mem_of_unmarked memPayment isMarked, ofInvoice, live⟩

end Accounted

/--
If the application of a reorganisation is cut, the cut does not fall between the
last mark of an invoice and the write of the status it has to get.
-/
def KeepsStatus (delivery : Delivery) (report : ReorgDetected)
    (world : World EventConsumerError Time) (db : Db) : Prop :=
  report.survivorsVerifiable = true → ∀ cut e, Proc.Answered world 0 cut → world cut = .error e →
    ¬ LosesStatus db (retractionIds report db) cut 1 (retractionPlan delivery report db)

variable {delivery : Delivery}

theorem keepsStatus_of_uninterrupted {report : ReorgDetected} {db : Db} (clock : Nat → Time) :
    KeepsStatus delivery report (Proc.uninterrupted clock) db := by
  intro _ cut e _ fault
  cases fault

theorem Backed.reorg {report : ReorgDetected} {world : World EventConsumerError Time} {db : Db}
    (backed : Backed db) (keeps : KeepsStatus delivery report world db) :
    Backed (handleReorgDetected delivery report world 0 db).state := by
  by_cases verifiable : report.survivorsVerifiable = true
  · obtain ⟨marked, written, front, state, loses, _⟩ := retraction_front delivery world verifiable
    have plan := retractionPlan_isPlan delivery report db
    refine Accounted.backed ⟨fun id isMarked => ?_, fun payment mem isMarked => ?_⟩ state backed
    · exact (mem_planIds delivery).mp (List.mem_flatMap.mpr (front.mem_marked isMarked))
    obtain ⟨group, memGroup, inside⟩ := front.mem_marked isMarked
    have isGroup := plan.group group memGroup
    rw [isGroup.invoice_of_mem mem inside]
    by_contra unaccounted
    simp only [not_or, not_not] at unaccounted
    obtain ⟨unwritten, moves, none⟩ := unaccounted
    have lost : Lost db (retractionIds report db) (retractionPlan delivery report db) marked written := by
      refine ⟨group, memGroup, moves, unwritten, fun other memOther => by_contra fun unmarked => none ?_⟩
      obtain ⟨memBase, live, ofGroup⟩ := isGroup.rows other memOther
      exact ⟨other, memBase, ofGroup, live, unmarked⟩
    obtain ⟨cut, e, answered, fault, isLoss⟩ := loses lost
    exact keeps verifiable cut e answered fault isLoss
  · rw [handleReorgDetected, if_neg verifiable]
    exact backed

/-- However an application ends, every invoice under way keeps a live payment behind it. -/
theorem Backed.event {event : MonitorEvent} {world : World EventConsumerError Time} {db : Db}
    (backed : Backed db)
    (keeps : ∀ report, event = .reorgDetected report → KeepsStatus delivery report world db) :
    Backed (handleEvent divide delivery event world 0 db).state := by
  have others : (∀ report, event ≠ .reorgDetected report) →
      Backed (handleEvent divide delivery event world 0 db).state := fun notReorg =>
    (handleEvent_writes delivery event).preserves (fun write kept => kept.write notReorg write) world 0
      backed
  cases event with
  | paymentDetected event => exact others (by simp)
  | paymentConfirmed event => exact others (by simp)
  | reorgDetected report => exact backed.reorg (keeps report rfl)
  | notice _ => exact others (by simp)

end EthPayServer.Consumer
